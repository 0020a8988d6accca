import EntityAccess.Repository.Basic
import EntityAccess.Sql.Write

/-!
# payloads

What a write takes from a payload: the writable columns with a value, and of an array only what a
json column can hold.  An update keeps those whose value differs from the current one.

* `diff_nil` : nothing to compare, nothing changed.
-/

namespace EntityAccess

namespace Entity

/-- whether a payload's value for a column is taken -/
def takes (e : Entity) (column : String) (v : Json) : Bool :=
  match e.writableColumn? column with
  | some c => !v.isNull && (c.type = .json || !v.isArr)
  | none => false

/-- what a write takes from a payload -/
def projected (e : Entity) (input : Row) : Row := input.filter e.takes

/-- a column with the value that it is assigned -/
def assignment (e : Entity) (entry : String × Json) : Except Error (String × SqlValue) :=
  match e.assignableColumn? entry.1 with
  | some c => (castWrite c.type entry.2).map fun v => (entry.1, v)
  | none => .error (.unknownField entry.1 e.name)

def assignments (e : Entity) (values : Row) : Except Error Sql.Assignments :=
  values.entries.mapM e.assignment

/-- how a value differs from the current one, if it does -/
def change (e : Entity) (current : Record) (entry : String × Json) :
    Except Error (Option ((String × Json) × Change)) := do
  let c ← e.scalarColumn entry.1
  let after := (← castWrite c.type entry.2).toJson
  let before := current.value entry.1
  return if before.same after then none else some (entry, ⟨before, after⟩)

/-- the values that differ from the current ones, and how they differ -/
def diff (e : Entity) (current : Record) (values : Row) : Except Error (Row × Changes) := do
  let found := (← values.entries.mapM (e.change current)).filterMap id
  return (Dict.ofList (found.map (·.1)), Dict.ofList (found.map fun f => (f.1.1, f.2)))

theorem diff_nil (e : Entity) (current : Record) :
    e.diff current .empty = .ok (.empty, .empty) := rfl

/-- checks that the values of a creation can be assigned -/
def checkCreate (e : Entity) (input : Row) : Except Error Row := do
  let values := e.projected input
  let _ ← e.assignments values
  return values

/-- what an update assigns, and how that differs from the current values -/
def prepareUpdate (e : Entity) (current : Record) (input : Row) :
    Except Error (Row × Changes) :=
  if input.isEmpty then .error .noUpdateData else e.diff current (e.projected input)

/-- the primary key that a payload brings along -/
def suppliedId (input : Row) : Option String :=
  ((input.get? primaryKey).bind Json.str?).filter (· ≠ "")

end Entity
end EntityAccess
