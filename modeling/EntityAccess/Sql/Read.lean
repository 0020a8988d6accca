import EntityAccess.Query.Plan
import EntityAccess.Sql.Fragment

/-!
# reads as SQL

A plan is rendered flat: root columns, joins, conditions, order, window.  When a window is cut and a
root row can occur more than once, the joined rows are grouped by root first and the window is cut
over the groups; a joined sort column then counts with the value that would have come first.
-/

namespace EntityAccess.Sql

open Fragment

/-- the qualified table of an entity -/
def tableOf (e : Entity) : String := qualified e.schemaName e.tableName

def columnSql (c : ColumnRef) : String := qualified c.tableAlias c.column

/-! ### conditions -/

/-- the query of a full-text match -/
def tsquery (query config : String) : Fragment :=
  sql ["websearch_to_tsquery("] ++ bound (.text config) "regconfig" ++ sql [", "] ++
    bound (.text query) "text" ++ sql [")"]

/-- values between commas -/
def boundList (type : String) (values : List SqlValue) : Fragment :=
  joinWith ", " (values.map (bound · type))

/-- a comparison with null has no value -/
def nullComparison (c : ColumnRef) : Comparison → Fragment
  | .eq => sql [columnSql c, " IS NULL"]
  | .ne => sql [columnSql c, " IS NOT NULL"]
  | _ => sql ["FALSE"]

/-- membership in the empty list -/
def emptyList : ListMode → Fragment
  | .oneOf => sql ["FALSE"]
  | .any => sql ["FALSE"]
  | .noneOf => sql ["TRUE"]
  | .noneOfOrNull => sql ["TRUE"]

/-- membership in a list that is not empty -/
def listCondition (c : ColumnRef) (values : List SqlValue) (mode : ListMode) : Fragment :=
  let column := columnSql c
  let items := boundList c.type.sqlName values
  match mode with
  | .oneOf => sql [column, " IN ("] ++ items ++ sql [")"]
  | .noneOf => sql [column, " NOT IN ("] ++ items ++ sql [")"]
  | .noneOfOrNull =>
    sql ["(", column, " NOT IN ("] ++ items ++ sql [") OR ", column, " IS NULL)"]
  | .any => sql [column, " = ANY(ARRAY["] ++ items ++ sql ["])"]

def condition : Predicate → Fragment
  | .compare c op v =>
    if v.isNull then nullComparison c op
    else sql [columnSql c, " ", op.sql, " "] ++ bound v c.type.sqlName
  | .compareDay c op v =>
    sql ["CAST(", columnSql c, " AS date) ", op.sql, " "] ++ bound v "date"
  | .like c pattern ignoreCase negated =>
    sql [columnSql c, "::text ", if negated then "NOT " else "",
        if ignoreCase then "ILIKE" else "LIKE", " "] ++ bound (.text pattern) "text"
  | .null c negated => sql [columnSql c, " IS ", if negated then "NOT " else "", "NULL"]
  | .list c values mode =>
    if values.isEmpty then emptyList mode else listCondition c values mode
  | .textMatch v query config => sql [columnSql v, " @@ "] ++ tsquery query config

def whereClause (ps : List Predicate) : Fragment :=
  if ps.isEmpty then [] else sql [" WHERE "] ++ joinWith " AND " (ps.map condition)

/-! ### tables -/

/-- one joined table -/
def joinClause (schema : Schema) (j : Join) : String :=
  let table := match schema.entity? j.entity with
    | some e => tableOf e
    | none => quoted j.entity
  Text.concat [" LEFT OUTER JOIN ", table, " AS ", quoted j.tableAlias, " ON ",
    qualified j.tableAlias j.relationship.remoteColumn, " = ",
    qualified j.parentAlias j.relationship.localColumn]

def fromClause (schema : Schema) (plan : SelectPlan) : String :=
  Text.concat (tableOf plan.entity :: " AS " :: quoted rootAlias ::
    plan.joins.values.map (joinClause schema))

/-! ### order and window -/

def direction (descending : Bool) : String := if descending then "DESC" else "ASC"

def orderTerm : OrderTerm → Fragment
  | .column c descending => sql [columnSql c, " ", direction descending]
  | .rank v query config =>
    sql ["ts_rank_cd(", columnSql v, ", "] ++ tsquery query config ++ sql [") DESC"]

def orderClause (terms : List Fragment) : Fragment :=
  if terms.isEmpty then [] else sql [" ORDER BY "] ++ joinWith ", " terms

/-- a number after a word, or nothing -/
def windowPart (word : String) (n : Option Nat) : String :=
  match n with
  | some n => Text.concat [" ", word, " ", toString n]
  | none => ""

def windowClause (plan : SelectPlan) : Fragment :=
  sql [windowPart "LIMIT" plan.limit, windowPart "OFFSET" plan.offset]

/-! ### statements -/

/-- the selectable columns of the root -/
def rootColumns (e : Entity) : String :=
  Text.joinWith ", " (e.selectable.map fun c =>
    Text.concat [qualified rootAlias c.name, " AS ", quoted c.name])

/-- one row per joined row -/
def flatSelect (schema : Schema) (plan : SelectPlan) : Fragment :=
  sql ["SELECT ", rootColumns plan.entity, " FROM ", fromClause schema plan] ++
    whereClause plan.predicates ++ orderClause (plan.order.map orderTerm) ++ windowClause plan

/-- the value of a joined column that sorts first among the rows of one root -/
def orderAggregate (c : ColumnRef) (descending : Bool) : String :=
  let column := columnSql c
  match c.type, descending with
  | .boolean, false => Text.concat ["bool_and(", column, ")"]
  | .boolean, true => Text.concat ["bool_or(", column, ")"]
  | .json, false => Text.concat ["MIN(", column, "::text)"]
  | .json, true => Text.concat ["MAX(", column, "::text)"]
  | _, false => Text.concat ["MIN(", column, ")"]
  | _, true => Text.concat ["MAX(", column, ")"]

/-- the value by which a group of joined rows is ordered -/
def groupKey : OrderTerm → Fragment
  | .column c descending =>
    if c.tableAlias = rootAlias then sql [columnSql c] else sql [orderAggregate c descending]
  | .rank v query config =>
    sql ["MAX(ts_rank_cd(", columnSql v, ", "] ++ tsquery query config ++ sql ["))"]

/-- the root columns that are sorted by, which the groups have to share -/
def groupColumn? : OrderTerm → Option String
  | .column c _ => if c.tableAlias = rootAlias then some (columnSql c) else none
  | .rank _ _ _ => none

def termDirection : OrderTerm → String
  | .column _ descending => direction descending
  | .rank _ _ _ => direction true

/-- the name of the sort key at a place of the order -/
def sortKeyName (i : Nat) : String := quoted (Text.concat ["page_o", toString i])

/-- the primary key of the root -/
def rootKey : String := qualified rootAlias primaryKey

/-- the window over groups of joined rows -/
def pageSelect (schema : Schema) (plan : SelectPlan) : Fragment :=
  let terms := plan.order.zipIdx
  let keys := sql [rootKey, " AS \"page_id\""] ::
    terms.map fun (t, i) => groupKey t ++ sql [" AS ", sortKeyName i]
  let group := Text.joinWith ", " (rootKey :: plan.order.filterMap groupColumn?)
  let order := terms.map fun (t, i) => sql [sortKeyName i, " ", termDirection t]
  sql ["SELECT "] ++ joinWith ", " keys ++ sql [" FROM ", fromClause schema plan] ++
    whereClause plan.predicates ++ sql [" GROUP BY ", group] ++ orderClause order ++
    windowClause plan

/-- the roots of a window over groups, in the order of the groups -/
def groupedSelect (schema : Schema) (plan : SelectPlan) : Fragment :=
  let order := plan.order.zipIdx.map fun (t, i) =>
    sql ["\"page\".", sortKeyName i, " ", termDirection t]
  sql ["SELECT ", rootColumns plan.entity, " FROM ", tableOf plan.entity, " AS ",
      quoted rootAlias, " INNER JOIN ("] ++ pageSelect schema plan ++
    sql [") AS \"page\" ON \"page\".\"page_id\" = ", rootKey] ++ orderClause order

def select (schema : Schema) (plan : SelectPlan) : Fragment :=
  if plan.isWindowed && plan.joins.fansOut then groupedSelect schema plan
  else flatSelect schema plan

/-- how many roots a plan has, whatever its order and window -/
def count (schema : Schema) (plan : SelectPlan) : Fragment :=
  sql ["SELECT COUNT(DISTINCT ", rootKey, ") AS \"count\" FROM ", fromClause schema plan] ++
    whereClause plan.predicates

end EntityAccess.Sql
