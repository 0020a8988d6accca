import EntityAccess.Json.Basic
import EntityAccess.Number.Decimal

/-!
# JSON values as text

The compact form: no spaces, fields in key order, non-ASCII characters as they are, control
characters escaped.
-/

namespace EntityAccess.Json

def hexDigit (n : Nat) : Char := (Nat.toDigits 16 n).headD '0'

/-- one character inside quotes -/
def escapeChar (c : Char) : List Char :=
  if c = '"' then ['\\', '"']
  else if c = '\\' then ['\\', '\\']
  else if c = '\n' then ['\\', 'n']
  else if c = '\r' then ['\\', 'r']
  else if c = '\t' then ['\\', 't']
  else if c.toNat = 8 then ['\\', 'b']
  else if c.toNat = 12 then ['\\', 'f']
  else if c.toNat < 32 then
    ['\\', 'u', '0', '0', hexDigit (c.toNat / 16), hexDigit (c.toNat % 16)]
  else [c]

/-- a text in quotes -/
def quote (s : String) : String :=
  (s.foldl (fun out c => (escapeChar c).foldl String.push out) "\"").push '"'

mutual

/-- the compact text of a value -/
def write : Json → String
  | .null => "null"
  | .bool b => if b then "true" else "false"
  | .int n => toString n
  | .float x => x.text
  | .str s => quote s
  | .arr [] => "[]"
  | .arr (x :: xs) => "[" ++ write x ++ writeItems xs ++ "]"
  | .obj [] => "\x7b\x7d"
  | .obj ((k, x) :: xs) => "\x7b" ++ quote k ++ ":" ++ write x ++ writeFields xs ++ "\x7d"

/-- the items after the first -/
def writeItems : List Json → String
  | [] => ""
  | x :: xs => "," ++ write x ++ writeItems xs

/-- the fields after the first -/
def writeFields : List (String × Json) → String
  | [] => ""
  | (k, x) :: xs => "," ++ quote k ++ ":" ++ write x ++ writeFields xs

end

/-- the text of a string itself, the compact text of any other value -/
def plainText : Json → String
  | .str s => s
  | v => v.write

end EntityAccess.Json
