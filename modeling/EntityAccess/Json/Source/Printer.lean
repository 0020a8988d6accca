import EntityAccess.Json.Printer
import EntityAccess.Json.Source
import EntityAccess.Text.Concat

/-!
# sources as text

The compact text of a source, its fields in the order of the source.  What has no value has no
text either.

* `write_value` : a plain value is written as it is;
* `writeRest_nil`, `writeRest_cons`, `writeMore_nil`, `writeMore_cons` : the equations.
-/

namespace EntityAccess.Json.Source

/-- a key in quotes and a colon -/
def writeKey (key : Option String) : String := Text.concat [(key.map quote).getD "", ":"]

mutual

/-- the compact text of a source -/
def write : Source → String
  | .value v => v.write
  | .unusable => ""
  | .broken => ""
  | .arr [] => "[]"
  | .arr (x :: xs) => Text.concat ["[", write x, writeRest xs, "]"]
  | .obj [] => "\x7b\x7d"
  | .obj ((k, x) :: xs) => Text.concat ["\x7b", writeKey k, write x, writeMore xs, "\x7d"]

/-- the items after the first -/
def writeRest : List Source → String
  | [] => ""
  | x :: xs => Text.concat [",", write x, writeRest xs]

/-- the fields after the first -/
def writeMore : List (Option String × Source) → String
  | [] => ""
  | (k, x) :: xs => Text.concat [",", writeKey k, write x, writeMore xs]

end

theorem write_value (v : Json) : (Source.value v).write = v.write := by simp [write]

theorem writeRest_nil : writeRest [] = "" := by simp [writeRest]

theorem writeRest_cons (x : Source) (xs : List Source) :
    writeRest (x :: xs) = Text.concat [",", write x, writeRest xs] := by simp [writeRest]

theorem writeMore_nil : writeMore [] = "" := by simp [writeMore]

theorem writeMore_cons (k : Option String) (x : Source) (xs : List (Option String × Source)) :
    writeMore ((k, x) :: xs) = Text.concat [",", writeKey k, write x, writeMore xs] := by
  simp [writeMore]

end EntityAccess.Json.Source
