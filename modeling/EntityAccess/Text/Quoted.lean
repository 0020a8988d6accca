import EntityAccess.Text.Concat
import EntityAccess.Text.Printable

/-!
# names quoted for a reader

A name in double quotes in which quotes, backslashes and characters that do not stand for themselves
are escaped, and lists of such names in brackets.
-/

namespace EntityAccess.Text

/-- one character inside quotes -/
def shownChar (c : Char) : String :=
  if c = '"' then "\\\""
  else if c = '\\' then "\\\\"
  else if c = '\n' then "\\n"
  else if c = '\r' then "\\r"
  else if c = '\t' then "\\t"
  else if c.toNat = 0 then "\\0"
  else if isPrintable c then c.toString
  else concat ["\\u\x7b", String.ofList (Nat.toDigits 16 c.toNat), "\x7d"]

def shownName (s : String) : String := concat ("\"" :: s.toList.map shownChar ++ ["\""])

/-- names in brackets -/
def nameList (names : List String) : String :=
  concat ["[", joinWith ", " (names.map shownName), "]"]

end EntityAccess.Text
