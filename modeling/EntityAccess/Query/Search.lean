import EntityAccess.Query.Plan

/-!
# full-text search in a plan

A search adds a match of a search vector, and on demand puts relevance first in the order.  Blank
text is no search.

* `search_of_blank` : a blank text leaves the plan as it is.
-/

namespace EntityAccess

/-- a text search -/
structure SearchParams where
  text : String
  /-- the vector to match, by default the first of the entity -/
  vector : Option String
  byRelevance : Bool
deriving DecidableEq

/-- the vector of that name, or the first one -/
def Entity.resolveVector (e : Entity) : Option String → Except Error SearchVector
  | some name =>
    match e.searchVector? name with
    | some v => .ok v
    | none => .error (.unknownField name e.name)
  | none =>
    match e.searchVectors with
    | v :: _ => .ok v
    | [] => .error (.badRequest (.noSearchVector e.name))

def SelectPlan.search (plan : SelectPlan) (params : SearchParams) : Except Error SelectPlan :=
  let text := Text.trim params.text
  if text = "" then .ok plan
  else do
    let v ← plan.entity.resolveVector params.vector
    let column : ColumnRef := ⟨rootAlias, v.name, .searchVector⟩
    let matched := plan.addPredicate (.textMatch column text v.config)
    return if params.byRelevance then matched.prependOrder (.rank column text v.config)
      else matched

theorem SelectPlan.search_of_blank (plan : SelectPlan) {params : SearchParams}
    (h : Text.trim params.text = "") : plan.search params = .ok plan := by
  simp [search, h]

end EntityAccess
