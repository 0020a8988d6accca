import EntityAccess.Filter.Cast
import EntityAccess.Query.Plan

/-!
# plans from filters and sort keys

Filters become conditions and sort keys become order terms, over the joins that their paths need.
Without sort keys a listing is ordered from the newest row; a paged read is also ordered by the
primary key, so that its order is total.

* `untilFault_nil`, `untilFault_ok`, `untilFault_error` : results up to the first fault.
-/

namespace EntityAccess

/-- which order a read has beside that of its sort keys -/
inductive SortPolicy where
  /-- the newest first if there is no sort key -/
  | listing
  /-- as a listing, and then by the primary key -/
  | paged
  /-- none -/
  | unsorted
deriving DecidableEq

/-- the sort keys of a read -/
def effectiveSort (sort : List SortKey) (policy : SortPolicy) : List SortKey :=
  let keys := if sort = [] ∧ policy ≠ .unsorted then [SortKey.byDescending createdAt] else sort
  let keyed := keys.any fun k => k.path = [] ∧ k.field = primaryKey
  if policy = .paged ∧ ¬ keyed then keys ++ [.ascending primaryKey] else keys

/-- the column at the end of a path -/
def columnRef (schema : Schema) (root : Entity) (joins : Joins) (path : Path) (field : String) :
    Except Error ColumnRef :=
  if path = [] then do
    let c ← root.scalarColumn field
    return ⟨rootAlias, c.name, c.type⟩
  else
    match joins.at? path with
    | none => .error (.noSuchRelationship path.text root.name)
    | some join =>
      match schema.entity? join.entity with
      | none => .error (.config (.missingReference .entity join.entity))
      | some entity => do
        let c ← entity.scalarColumn field
        return ⟨join.tableAlias, c.name, c.type⟩

/-- the operand that an operator takes from a value -/
def operandFor (op : Operator) (type : ColumnType) (v : Json) : Except Error Operand :=
  match op.arity with
  | .unary => .ok .none
  | .scalar => (castFilter type v).map .value
  | .pattern => .ok (.pattern v.plainText)
  | .list => ((listItems v).mapM (castFilter type)).map .list
  | .date => (castDay v).map .value

def predicateOf (schema : Schema) (root : Entity) (joins : Joins) (f : Filter) :
    Except Error Predicate := do
  let c ← columnRef schema root joins f.key.path f.key.field
  return f.key.operator.build c (← operandFor f.key.operator c.type f.value)

def orderOf (schema : Schema) (root : Entity) (joins : Joins) (k : SortKey) :
    Except Error OrderTerm := do
  return .column (← columnRef schema root joins k.path k.field) k.descending

/-- the results before the first fault, and that fault -/
def untilFault {ε α : Type} : List (Except ε α) → List α × Option ε
  | [] => ([], none)
  | .ok a :: rs => (a :: (untilFault rs).1, (untilFault rs).2)
  | .error e :: _ => ([], some e)

theorem untilFault_nil {ε α : Type} : untilFault ([] : List (Except ε α)) = ([], none) := rfl

theorem untilFault_ok {ε α : Type} (a : α) (rs : List (Except ε α)) :
    untilFault (.ok a :: rs) = (a :: (untilFault rs).1, (untilFault rs).2) := rfl

theorem untilFault_error {ε α : Type} (e : ε) (rs : List (Except ε α)) :
    untilFault (.error e :: rs) = ([], some e) := rfl

namespace SelectPlan

/-- a plan with filters and sort keys added, up to the first fault -/
def extend (schema : Schema) (plan : SelectPlan) (filters : List Filter) (sort : List SortKey)
    (policy : SortPolicy) : SelectPlan × Option Error :=
  let keys := effectiveSort sort policy
  match resolveJoins schema plan.entity (filters.map (·.key.path) ++ keys.map (·.path)) with
  | .error e => (plan, some e)
  | .ok joins =>
    let joined := { plan with joins := plan.joins.merge joins }
    let (ps, fault) := untilFault (filters.map (predicateOf schema plan.entity joined.joins))
    let filtered := joined.addPredicates ps
    match fault with
    | some e => (filtered, some e)
    | none =>
      let (ts, fault) := untilFault (keys.map (orderOf schema plan.entity joined.joins))
      (filtered.addOrders ts, fault)

/-- a plan with filters and sort keys added -/
def apply (schema : Schema) (plan : SelectPlan) (filters : List Filter) (sort : List SortKey)
    (policy : SortPolicy) : Except Error SelectPlan :=
  match plan.extend schema filters sort policy with
  | (plan, none) => .ok plan
  | (_, some e) => .error e

/-- the plan of filters and sort keys -/
def assemble (schema : Schema) (root : Entity) (filters : List Filter) (sort : List SortKey)
    (policy : SortPolicy) : Except Error SelectPlan :=
  (ofEntity root).apply schema filters sort policy

end SelectPlan
end EntityAccess
