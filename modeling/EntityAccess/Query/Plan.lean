import EntityAccess.Query.Join

/-!
# plans of reads

A plan is a read of one root entity: its joins, the conditions on the joined rows, the order and the
window.  A condition is there once; so is an order on a column, and at most one order by relevance.

* `addPredicate_of_mem`, `addOrder_of_mem` : adding what is there changes nothing.
-/

namespace EntityAccess

inductive OrderTerm where
  | column (column : ColumnRef) (descending : Bool)
  /-- relevance of a full-text match, the best first -/
  | rank (vector : ColumnRef) (query config : String)
deriving DecidableEq

/-- both terms order by the same column, or both by relevance -/
def OrderTerm.sameTarget : OrderTerm → OrderTerm → Bool
  | .column c _, .column d _ => c.tableAlias == d.tableAlias && c.column == d.column
  | .rank _ _ _, .rank _ _ _ => true
  | _, _ => false

structure SelectPlan where
  entity : Entity
  joins : Joins
  predicates : List Predicate
  order : List OrderTerm
  limit : Option Nat
  offset : Option Nat

namespace SelectPlan

/-- every row of an entity -/
def ofEntity (e : Entity) : SelectPlan := ⟨e, .empty, [], [], none, none⟩

/-- the condition is there -/
def hasPredicate (plan : SelectPlan) (p : Predicate) : Bool := plan.predicates.any (·.same p)

def addPredicate (plan : SelectPlan) (p : Predicate) : SelectPlan :=
  if plan.hasPredicate p then plan else { plan with predicates := plan.predicates ++ [p] }

def addPredicates (plan : SelectPlan) (ps : List Predicate) : SelectPlan :=
  ps.foldl addPredicate plan

/-- the target is ordered by -/
def hasOrder (plan : SelectPlan) (t : OrderTerm) : Bool := plan.order.any (·.sameTarget t)

/-- orders by one more target, after the others -/
def addOrder (plan : SelectPlan) (t : OrderTerm) : SelectPlan :=
  if plan.hasOrder t then plan else { plan with order := plan.order ++ [t] }

def addOrders (plan : SelectPlan) (ts : List OrderTerm) : SelectPlan := ts.foldl addOrder plan

/-- orders by a target before all others -/
def prependOrder (plan : SelectPlan) (t : OrderTerm) : SelectPlan :=
  { plan with order := t :: plan.order.filter fun u => !u.sameTarget t }

def window (plan : SelectPlan) (limit offset : Option Nat) : SelectPlan :=
  { plan with limit := limit, offset := offset }

def isWindowed (plan : SelectPlan) : Bool := plan.limit.isSome || plan.offset.isSome

/-- a scalar column of the root -/
def rootColumn (plan : SelectPlan) (name : String) : Except Error ColumnRef := do
  let c ← plan.entity.scalarColumn name
  return ⟨rootAlias, c.name, c.type⟩

theorem addPredicate_of_mem {plan : SelectPlan} {p : Predicate} (h : plan.hasPredicate p = true) :
    plan.addPredicate p = plan := by
  simp [addPredicate, h]

theorem addOrder_of_mem {plan : SelectPlan} {t : OrderTerm} (h : plan.hasOrder t = true) :
    plan.addOrder t = plan := by
  simp [addOrder, h]

end SelectPlan
end EntityAccess
