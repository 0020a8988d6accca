import EntityAccess.Calendar.Format
import EntityAccess.Json.Basic

/-!
# values bound to statements

A value already has the type of its column.  As JSON it looks the way it does in a row that was
read.

* `same_self` : a value without a NaN is the same as itself.
-/

namespace EntityAccess

/-- a value of a statement parameter -/
inductive SqlValue where
  | null
  | text (s : String)
  | int (n : Int)
  | float (x : Binary64)
  | bool (b : Bool)
  | date (d : Date)
  | dateTime (t : DateTime)
  | json (v : Json)

namespace SqlValue

def isNull : SqlValue → Bool
  | .null => true
  | _ => false

/-- the same value; a NaN is the same as nothing -/
def same : SqlValue → SqlValue → Bool
  | .null, .null => true
  | .text s, .text t => s == t
  | .int m, .int n => m == n
  | .float x, .float y => x.same y
  | .bool a, .bool b => a == b
  | .date d, .date e => d == e
  | .dateTime t, .dateTime u => t == u
  | .json v, .json w => v.same w
  | _, _ => false

theorem same_self {v : SqlValue} (h : v ≠ .float .nan) : v.same v = true := by
  cases v with
  | float x => exact (Binary64.same_self x).2 fun hx => h (hx ▸ rfl)
  | json v => exact v.same_self
  | _ => simp [same]

/-- the value in a row; a double that is not finite becomes null -/
def toJson : SqlValue → Json
  | .null => .null
  | .text s => .str s
  | .int n => .int n
  | .float (.finite x) => .float x
  | .float _ => .null
  | .bool b => .bool b
  | .date d => .str (Calendar.dateText d)
  | .dateTime t => .str (Calendar.dateTimeText t)
  | .json v => v

/-- the value as the database receives it: date-times in whole microseconds -/
def sent : SqlValue → SqlValue
  | .dateTime t => .dateTime t.stored
  | v => v

end SqlValue
end EntityAccess
