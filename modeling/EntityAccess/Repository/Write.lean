import EntityAccess.Repository.Payload
import EntityAccess.Repository.Read

/-!
# writes

A write checks its payload, runs in a transaction of its own together with the hooks of its entity,
and then reads the record again.
-/

namespace EntityAccess.Repository

/-- the primary key and the values of a new row -/
def prepareCreate (r : Repository) (input : Row) : Action (String × Row) := do
  let values ← r.entity.checkCreate input
  match Entity.suppliedId input with
  | some id => return (id, values)
  | none => return (← Action.fresh, values)

/-- the record of a primary key after it has been written -/
def reread (r : Repository) (id : String) : Action Record := do
  r.required (← r.getById id)

/-- the transaction of a creation -/
def insertRow (r : Repository) (id : String) (values input : Row) : Action Unit :=
  Action.transaction do
    let values ← r.hooks.preCreate id values input
    let assignments ← r.entity.assignments values
    Action.execute (.insert r.entity ((primaryKey, .text id) :: assignments))
    r.hooks.relationship id input none

/-- a new record -/
def create (r : Repository) (input : Row) : Action Record := do
  let (id, values) ← r.prepareCreate input
  r.insertRow id values input
  let record ← r.reread id
  r.hooks.postCreate record
  return record

/-- checks a change of state -/
def checkTransition (e : Entity) (current : Record) (values : Row) : Except Error Unit :=
  match e.transitions with
  | some graph => graph.validate e.name current.values values
  | none => .ok ()

/-- assigns the values that differ, if there are any -/
def assign (e : Entity) (id : String) (values : Row) : Action Unit :=
  if values.isEmpty then pure ()
  else do Action.execute (.update e id (← e.assignments values))

/-- the transaction of an update, and what it changed -/
def updateRow (r : Repository) (current : Record) (values input : Row) : Action Changes :=
  Action.transaction do
    let values ← r.hooks.preUpdate current values input
    let (values, changes) ← r.entity.diff current values
    checkTransition r.entity current values
    assign r.entity current.id values
    r.hooks.relationship current.id input (some current)
    return changes

/-- an updated record -/
def update (r : Repository) (current : Record) (input : Row) : Action Record := do
  let (values, _) ← r.entity.prepareUpdate current input
  let changes ← r.updateRow current values input
  let record ← r.reread current.id
  r.hooks.postUpdate record changes
  return record

/-- removes the row of a primary key and returns it, if there is one -/
def remove (r : Repository) (id : String) : Action (Option Record) := do
  let row ← Action.query (.delete r.entity id) (ResultSet.readFirst? r.entity)
  return row.map Record.ofRow

end EntityAccess.Repository
