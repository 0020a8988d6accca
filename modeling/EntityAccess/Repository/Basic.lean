import EntityAccess.Hooks
import EntityAccess.Query.Assembly
import EntityAccess.Query.Search

/-!
# repositories

A repository reads and writes the rows of one entity: by its schema, under the rules of its hooks,
with a default load plan.

* `Entity.includeOne_eq_ok` : relationships of the entity can be included.
-/

namespace EntityAccess

/-- the plan of filters and sort keys as a caller writes them; filters without a value do not
count -/
def planOf (schema : Schema) (e : Entity) (filters : Filters) (sort : List SortKey)
    (policy : SortPolicy) : Except Error SelectPlan := do
  SelectPlan.assemble schema e (← readFilters filters.present) sort policy

namespace Entity

/-- whether there is a relationship of that name -/
def isRelationship (e : Entity) (name : String) : Bool := (e.relationship? name).isSome

/-- a load plan with a relationship of the entity -/
def includeOne (e : Entity) (plan : LoadPlan) (name : String) : Except Error LoadPlan :=
  if e.isRelationship name then .ok (plan.insert name)
  else .error (.noSuchRelationship name e.name)

/-- a load plan with relationships of the entity -/
def includeAll (e : Entity) (plan : LoadPlan) (names : List String) : Except Error LoadPlan :=
  names.foldlM e.includeOne plan

theorem includeOne_eq_ok {e : Entity} {name : String} (h : e.isRelationship name = true)
    (plan : LoadPlan) : e.includeOne plan name = .ok (plan.insert name) := by
  simp [includeOne, h]

end Entity

structure Repository where
  schema : Schema
  entity : Entity
  hooks : Hooks
  loadPlan : LoadPlan

namespace Repository

/-- the repository of an entity without rules, which loads no relationship -/
def plain (schema : Schema) (e : Entity) : Repository := ⟨schema, e, .none, .empty⟩

def notFound (r : Repository) : Error := .notFound (.record r.entity.name)

/-- the plan of a read -/
def compile (r : Repository) (filters : Filters) (sort : List SortKey) (policy : SortPolicy) :
    Action SelectPlan := do
  let plan ← planOf r.schema r.entity filters sort policy
  r.hooks.customizeQuery plan filters.present

/-- the load plan of a read that includes further relationships -/
def resolveLoadPlan (r : Repository) (filters : Filters) (includes : List String) :
    Action LoadPlan := do
  let plan ← r.entity.includeAll r.loadPlan includes
  ExceptT.lift (r.hooks.modifyLoadPlan filters plan)

end Repository
end EntityAccess
