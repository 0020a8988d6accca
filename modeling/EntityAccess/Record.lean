import EntityAccess.Schema.Validation
import EntityAccess.Transition

/-!
# records

A record is a row together with the related rows that its read has loaded.  A relationship that the
read has not loaded is an error, never an empty answer.

* `related_withRelated_self`, `related_withRelated_ne` : what loading a relationship changes.
-/

namespace EntityAccess

/-- the rows of a relationship -/
inductive Related where
  | one (row : Option Row)
  | many (rows : List Row)

def Related.toJson : Related → Json
  | .one row => Json.ofOption Json.ofDict row
  | .many rows => .arr (rows.map Json.ofDict)

/-- the primary key of a row, nothing if it is no text -/
def rowId (values : Row) : String := ((values.get? primaryKey).bind Json.str?).getD ""

structure Record where
  values : Row
  loaded : Dict Related

namespace Record

/-- a row with nothing loaded -/
def ofRow (values : Row) : Record := ⟨values, .empty⟩

def id (r : Record) : String := rowId r.values

def get? (r : Record) (column : String) : Option Json := r.values.get? column

/-- the value of a column, null if there is none -/
def value (r : Record) (column : String) : Json := (r.get? column).getD .null

def isLoaded (r : Record) (name : String) : Bool := r.loaded.contains name

/-- a loaded relationship -/
def related (r : Record) (name : String) : Except Error Related :=
  match r.loaded.get? name with
  | some rows => .ok rows
  | none => .error (.notLoaded name)

/-- the row of a loaded to-one relationship -/
def one (r : Record) (name : String) : Except Error (Option Row) := do
  match ← r.related name with
  | .one row => .ok row
  | .many _ => .error (.badRequest (.toMany name))

/-- the rows of a loaded to-many relationship -/
def many (r : Record) (name : String) : Except Error (List Row) := do
  match ← r.related name with
  | .many rows => .ok rows
  | .one _ => .error (.badRequest (.toOne name))

def withRelated (r : Record) (name : String) (rows : Related) : Record :=
  { r with loaded := r.loaded.insert name rows }

/-- the values and the loaded relationships as one object -/
def toJson (r : Record) : Json :=
  Json.ofDict (r.loaded.entries.foldl (fun d e => d.insert e.1 e.2.toJson) r.values)

theorem related_withRelated_self (r : Record) (name : String) (rows : Related) :
    (r.withRelated name rows).related name = .ok rows := by
  simp [related, withRelated, Dict.get?_insert_self]

theorem related_withRelated_ne (r : Record) {name other : String} (rows : Related)
    (h : name ≠ other) : (r.withRelated name rows).related other = r.related other := by
  simp [related, withRelated, Dict.get?_insert_ne _ _ h]

end Record

/-! ### load plans -/

/-- the relationships that a read loads, in the order of their names -/
structure LoadPlan where
  relations : Dict Unit

namespace LoadPlan

def empty : LoadPlan := ⟨.empty⟩

def names (p : LoadPlan) : List String := p.relations.keys

def isEmpty (p : LoadPlan) : Bool := p.relations.isEmpty

def contains (p : LoadPlan) (name : String) : Bool := p.relations.contains name

def insert (p : LoadPlan) (name : String) : LoadPlan := ⟨p.relations.insert name ()⟩

def erase (p : LoadPlan) (name : String) : LoadPlan := ⟨p.relations.erase name⟩

def ofNames (names : List String) : LoadPlan := names.foldl insert empty

/-- the relationships of both -/
def merge (p other : LoadPlan) : LoadPlan := other.names.foldl insert p

end LoadPlan

/-! ### changes -/

/-- the values of a column before and after an update -/
structure Change where
  before : Json
  after : Json

/-- what an update changes, by column -/
abbrev Changes := Dict Change

def Change.toJson (c : Change) : Json := Json.ofFields [("before", c.before), ("after", c.after)]

end EntityAccess
