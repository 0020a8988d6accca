import EntityAccess.Text.Octets
import EntityAccess.Text.Split

/-!
# form fields

A query is a list of fields between ampersands, each a name and a value with an equals sign between
them; a plus sign stands for a space and percent signs for octets.
-/

namespace EntityAccess.Text

/-- a name or a value of a form -/
def readFormText (cs : List Char) : String :=
  let bytes := octets (String.ofList cs)
  decodeLossy (percentDecode (bytes.map fun b => if b = 43 then 32 else b))

/-- one field -/
def readFormField (cs : List Char) : String × String :=
  (readFormText (cs.takeWhile (· != '=')), readFormText ((cs.dropWhile (· != '=')).drop 1))

/-- all fields; empty ones do not count -/
def readForm (s : String) : List (String × String) :=
  ((pieces ['&'] s.toList).filter (· ≠ [])).map readFormField

end EntityAccess.Text
