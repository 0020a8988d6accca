import EntityAccess.Sql.Statement

/-!
# reads as queries

A read is one of two queries: the joined rows in their order, or the roots of a page that is cut
over groups of joined rows.  Of a group there is selected a column that its rows share, or an
aggregate of a value over its rows.

* `render_groupExpr` : an order term as a value of a group;
* `Query.render_ofPlan` : the text of a plan is the text of its query.
-/

namespace EntityAccess

open Sql Sql.Fragment

/-! ### values -/

/-- a value of a joined row -/
inductive Expr where
  | column (c : ColumnRef)
  /-- a column as text -/
  | textOf (c : ColumnRef)
  /-- relevance of a full-text match -/
  | rank (vector : ColumnRef) (query config : String)

inductive Aggregate where
  | min
  | max
  | boolAnd
  | boolOr

/-- a value of a group of joined rows -/
inductive GroupExpr where
  | shared (c : ColumnRef)
  | folded (a : Aggregate) (x : Expr)

namespace Aggregate

/-- an aggregate up to its argument -/
def opening : Aggregate → String
  | .min => "MIN("
  | .max => "MAX("
  | .boolAnd => "bool_and("
  | .boolOr => "bool_or("

/-- the greatest value, not the least -/
def takesGreatest : Aggregate → Bool
  | .min | .boolAnd => false
  | .max | .boolOr => true

end Aggregate

def GroupExpr.render : GroupExpr → Fragment
  | .shared c => sql [columnSql c]
  | .folded a (.column c) => sql [a.opening, columnSql c, ")"]
  | .folded a (.textOf c) => sql [a.opening, columnSql c, "::text)"]
  | .folded a (.rank v query config) =>
    sql [a.opening, "ts_rank_cd(", columnSql v, ", "] ++ tsquery query config ++ sql ["))"]

namespace OrderTerm

/-- the value that a term orders by -/
def expr : OrderTerm → Expr
  | .column c _ => .column c
  | .rank v query config => .rank v query config

def descending : OrderTerm → Bool
  | .column _ descending => descending
  | .rank _ _ _ => true

/-- the alias whose rows a term orders by -/
def tableAlias : OrderTerm → String
  | .column c _ => c.tableAlias
  | .rank v _ _ => v.tableAlias

/-- the aggregate of a joined column -/
def aggregateOf (c : ColumnRef) (descending : Bool) : GroupExpr :=
  match c.type, descending with
  | .boolean, false => .folded .boolAnd (.column c)
  | .boolean, true => .folded .boolOr (.column c)
  | .json, false => .folded .min (.textOf c)
  | .json, true => .folded .max (.textOf c)
  | _, false => .folded .min (.column c)
  | _, true => .folded .max (.column c)

/-- the value that a group is ordered by -/
def groupExpr : OrderTerm → GroupExpr
  | .column c descending =>
    if c.tableAlias = rootAlias then .shared c else aggregateOf c descending
  | .rank v query config => .folded .max (.rank v query config)

/-- the root column that a term orders by, which the rows of a group share -/
def sharedColumn? : OrderTerm → Option ColumnRef
  | .column c _ => if c.tableAlias = rootAlias then some c else none
  | .rank _ _ _ => none

end OrderTerm

/-- a fragment of one text that is put together already -/
theorem sql_concat (parts : List String) : sql [Text.concat parts] = sql parts := by
  unfold sql
  rw [Text.concat_cons, Text.concat_nil, String.append_empty]

theorem render_aggregateOf (c : ColumnRef) (descending : Bool) :
    (OrderTerm.aggregateOf c descending).render = sql [orderAggregate c descending] := by
  obtain ⟨a, n, type⟩ := c
  cases type <;> cases descending <;>
    simp only [OrderTerm.aggregateOf, orderAggregate, GroupExpr.render, Aggregate.opening,
      sql_concat]

theorem render_groupExpr (t : OrderTerm) : t.groupExpr.render = groupKey t := by
  cases t with
  | column c descending =>
    simp only [OrderTerm.groupExpr, groupKey]
    split
    · simp only [GroupExpr.render]
    · exact render_aggregateOf c descending
  | rank v query config =>
    have hopen : "MAX(" ++ "ts_rank_cd(" = "MAX(ts_rank_cd(" := by decide
    simp only [OrderTerm.groupExpr, groupKey, GroupExpr.render, Aggregate.opening, sql,
      Text.concat_cons, ← hopen, String.append_assoc]

theorem termDirection_eq (t : OrderTerm) : termDirection t = direction t.descending := by
  cases t <;> rfl

theorem map_sharedColumn? (order : List OrderTerm) :
    (order.filterMap OrderTerm.sharedColumn?).map columnSql = order.filterMap groupColumn? := by
  induction order with
  | nil => rfl
  | cons t order ih =>
    have ht : t.sharedColumn?.map columnSql = groupColumn? t := by
      cases t with
      | column c descending =>
        simp only [OrderTerm.sharedColumn?, groupColumn?]
        split <;> simp only [Option.map_some, Option.map_none]
      | rank v query config => simp only [OrderTerm.sharedColumn?, groupColumn?, Option.map_none]
    rw [List.filterMap_cons, List.filterMap_cons, ← ht, ← ih]
    cases t.sharedColumn? <;> rfl

/-! ### queries -/

/-- the column of the primary key of the root -/
def rootKeyColumn : ColumnRef := ⟨rootAlias, primaryKey, .text⟩

/-- a page over groups of joined rows, and the roots of its groups -/
structure PageQuery where
  /-- the joined rows, their conditions and the window; its order does not count -/
  base : SelectPlan
  group : List ColumnRef
  /-- what the groups are ordered by, descending or not -/
  keys : List (GroupExpr × Bool)

namespace PageQuery

/-- the groups of the page -/
def renderGroups (schema : Schema) (q : PageQuery) : Fragment :=
  let keys := sql [rootKey, " AS \"page_id\""] ::
    q.keys.zipIdx.map fun (k, i) => k.1.render ++ sql [" AS ", sortKeyName i]
  let order := q.keys.zipIdx.map fun (k, i) => sql [sortKeyName i, " ", direction k.2]
  sql ["SELECT "] ++ joinWith ", " keys ++ sql [" FROM ", fromClause schema q.base] ++
    whereClause q.base.predicates ++
    sql [" GROUP BY ", Text.joinWith ", " (q.group.map columnSql)] ++ orderClause order ++
    windowClause q.base

/-- the roots of the page -/
def render (schema : Schema) (q : PageQuery) : Fragment :=
  let order := q.keys.zipIdx.map fun (k, i) =>
    sql ["\"page\".", sortKeyName i, " ", direction k.2]
  sql ["SELECT ", rootColumns q.base.entity, " FROM ", tableOf q.base.entity, " AS ",
      quoted rootAlias, " INNER JOIN ("] ++ q.renderGroups schema ++
    sql [") AS \"page\" ON \"page\".\"page_id\" = ", rootKey] ++ orderClause order

/-- the page of a plan -/
def ofPlan (plan : SelectPlan) : PageQuery where
  base := plan
  group := rootKeyColumn :: plan.order.filterMap OrderTerm.sharedColumn?
  keys := plan.order.map fun t => (t.groupExpr, t.descending)

theorem renderGroups_ofPlan (schema : Schema) (plan : SelectPlan) :
    (ofPlan plan).renderGroups schema = pageSelect schema plan := by
  have hroot : columnSql rootKeyColumn = rootKey := rfl
  unfold renderGroups pageSelect ofPlan
  simp only [List.zipIdx_map, List.map_map, List.map_cons, map_sharedColumn?, hroot,
    Function.comp_def, Prod.map, id, render_groupExpr, termDirection_eq]

theorem render_ofPlan (schema : Schema) (plan : SelectPlan) :
    (ofPlan plan).render schema = groupedSelect schema plan := by
  unfold render groupedSelect
  rw [renderGroups_ofPlan]
  unfold ofPlan
  simp only [List.zipIdx_map, List.map_map, Function.comp_def, Prod.map, id, termDirection_eq]

end PageQuery

/-- what is asked of a database to read a plan -/
inductive Query where
  /-- the joined rows in the order and the window of a plan -/
  | flat (plan : SelectPlan)
  | page (q : PageQuery)

namespace Query

def render (schema : Schema) : Query → Fragment
  | .flat plan => flatSelect schema plan
  | .page q => q.render schema

/-- the query of a plan -/
def ofPlan (plan : SelectPlan) : Query :=
  if plan.isWindowed && plan.joins.fansOut then .page (.ofPlan plan) else .flat plan

/-- the text of a plan is the text of its query -/
theorem render_ofPlan (schema : Schema) (plan : SelectPlan) :
    (ofPlan plan).render schema = (Statement.select schema plan).fragment := by
  rw [Statement.fragment_select]
  unfold ofPlan select
  split
  · exact PageQuery.render_ofPlan schema plan
  · rfl

end Query
end EntityAccess
