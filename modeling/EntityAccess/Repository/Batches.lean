import EntityAccess.Chunks
import EntityAccess.Repository.Read

/-!
# records in batches

All matching records in the order of their primary keys, a batch at a time: each batch is a read of
the rows after the last key of the batch before.
-/

namespace EntityAccess

/-- the plan of the batch after a key -/
def SelectPlan.keysetPlan (plan : SelectPlan) (after : Option String) (limit : Nat) :
    Except Error SelectPlan := do
  let key ← plan.rootColumn primaryKey
  let bounded := match after with
    | some id => plan.addPredicate (.compare key .gt (.text id))
    | none => plan
  return { bounded with order := [.column key false] }.window (some limit) none

namespace Repository

/-- the batch after a key -/
def fetchAfter (r : Repository) (plan : SelectPlan) (load : LoadPlan) (after : Option String)
    (limit : Nat) : Action (List Record) := do
  r.fetch (← plan.keysetPlan after limit) load

/-- where the batches of a read come from -/
def batches (r : Repository) (filters : Filters) : Action (Chunks.Source Program Record) := do
  let plan ← r.compile filters [] .unsorted
  let load ← r.resolveLoadPlan filters []
  return fun after limit => (r.fetchAfter plan load after limit).run

end Repository
end EntityAccess
