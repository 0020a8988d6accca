import EntityAccess.Dict
import EntityAccess.Number.Binary64

/-!
# JSON values

Integers are exact and apart from doubles: `1` and `1.0` are different values, while `0.0` and
`-0.0` are the same one.  The fields of an object are in key order, each key once.

* `same_self` : every value is the same as itself.
-/

namespace EntityAccess

/-- a JSON value -/
inductive Json where
  | null
  | bool (b : Bool)
  | int (n : Int)
  | float (x : Binary64.Finite)
  | str (s : String)
  | arr (items : List Json)
  | obj (fields : List (String × Json))

namespace Json

instance : Inhabited Json := ⟨.null⟩

mutual

/-- the same value; the two zeros of doubles are -/
def same : Json → Json → Bool
  | .null, .null => true
  | .bool a, .bool b => a == b
  | .int m, .int n => m == n
  | .float x, .float y => x.same y
  | .str s, .str t => s == t
  | .arr xs, .arr ys => sameItems xs ys
  | .obj xs, .obj ys => sameFields xs ys
  | _, _ => false

def sameItems : List Json → List Json → Bool
  | [], [] => true
  | x :: xs, y :: ys => same x y && sameItems xs ys
  | _, _ => false

def sameFields : List (String × Json) → List (String × Json) → Bool
  | [], [] => true
  | (k, x) :: xs, (l, y) :: ys => k == l && same x y && sameFields xs ys
  | _, _ => false

end

mutual

theorem same_self : ∀ v : Json, same v v = true
  | .null => by simp [same]
  | .bool _ => by simp [same]
  | .int _ => by simp [same]
  | .float x => by simp [same, x.same_self]
  | .str _ => by simp [same]
  | .arr xs => by simp [same, sameItems_self xs]
  | .obj xs => by simp [same, sameFields_self xs]

theorem sameItems_self : ∀ xs : List Json, sameItems xs xs = true
  | [] => by simp [sameItems]
  | x :: xs => by simp [sameItems, same_self x, sameItems_self xs]

theorem sameFields_self : ∀ xs : List (String × Json), sameFields xs xs = true
  | [] => by simp [sameFields]
  | (_, x) :: xs => by simp [sameFields, same_self x, sameFields_self xs]

end

/-- an object with the given fields, the last of a key winning -/
def ofFields (fields : List (String × Json)) : Json := .obj (Dict.ofList fields).entries

def ofDict (d : Dict Json) : Json := .obj d.entries

def strings (ss : List String) : Json := .arr (ss.map .str)

def nat (n : Nat) : Json := .int n

/-- the value, or null -/
def ofOption {α : Type} (f : α → Json) (o : Option α) : Json := (o.map f).getD .null

def isNull : Json → Bool
  | .null => true
  | _ => false

def isArr : Json → Bool
  | .arr _ => true
  | _ => false

def str? : Json → Option String
  | .str s => some s
  | _ => none

def bool? : Json → Option Bool
  | .bool b => some b
  | _ => none

def int? : Json → Option Int
  | .int n => some n
  | _ => none

def arr? : Json → Option (List Json)
  | .arr xs => some xs
  | _ => none

/-- the fields of an object -/
def dict? : Json → Option (Dict Json)
  | .obj fields => some (Dict.ofList fields)
  | _ => none

/-- the value of a field, if there is an object with that field -/
def field? (k : String) : Json → Option Json
  | .obj fields => findEntry k fields
  | _ => none

end Json
end EntityAccess
