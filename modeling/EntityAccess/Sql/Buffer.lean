import EntityAccess.Sql.Write

/-!
# writing statements

A statement is written in two goes: values are bound one after the other, each getting the next
number, while parts of the text are put down with these numbers in them; the parts are put together
at the end.  Values are therefore numbered in the order in which they are bound, whatever the order
of the parts.  They are counted without a bound; a database takes at most 65535 of them.

* `resultOf_bind`, `resultOf_placeholder` : what is bound, step by step.
-/

namespace EntityAccess.Sql

/-- a text with the values of its placeholders -/
structure Buffer where
  text : String
  params : List SqlValue

/-- what is done while values are being bound -/
abbrev Binding := StateM (List SqlValue)

namespace Buffer

/-! ### binding -/

/-- binds a value; its number -/
def push (v : SqlValue) : Binding Nat :=
  modifyGet fun params => (params.length + 1, params ++ [v])

/-- binds a value; its placeholder, with a cast -/
def placeholder (v : SqlValue) (type : String) : Binding String := do
  let n ← push v
  return Text.concat ["$", toString n, "::", type]

/-- what comes of it after some values have been bound, and all that have been bound then -/
def resultOf {α : Type} (x : Binding α) (params : List SqlValue) : α × List SqlValue :=
  x.run params

/-- a statement and all that has been bound for it -/
def finish (x : Binding String) : Buffer :=
  let (text, params) := resultOf x []
  ⟨text, params⟩

@[simp]
theorem resultOf_pure {α : Type} (a : α) (params : List SqlValue) :
    resultOf (pure a) params = (a, params) := rfl

/-- what is done next goes on from what has been bound -/
@[simp]
theorem resultOf_bind {α β : Type} (x : Binding α) (f : α → Binding β) (params : List SqlValue) :
    resultOf (x >>= f) params = resultOf (f (resultOf x params).1) (resultOf x params).2 := rfl

@[simp]
theorem resultOf_map {α β : Type} (f : α → β) (x : Binding α) (params : List SqlValue) :
    resultOf (f <$> x) params = (f (resultOf x params).1, (resultOf x params).2) := rfl

@[simp]
theorem resultOf_placeholder (v : SqlValue) (type : String) (params : List SqlValue) :
    resultOf (placeholder v type) params =
      (Text.concat ["$", toString (params.length + 1), "::", type], params ++ [v]) := rfl

/-! ### conditions -/

def tsquery (query config : String) : Binding String := do
  let config ← placeholder (.text config) "regconfig"
  let query ← placeholder (.text query) "text"
  return Text.concat ["websearch_to_tsquery(", config, ", ", query, ")"]

def nullComparison (c : ColumnRef) : Comparison → String
  | .eq => Text.concat [columnSql c, " IS NULL"]
  | .ne => Text.concat [columnSql c, " IS NOT NULL"]
  | _ => "FALSE"

def emptyList : ListMode → String
  | .oneOf => "FALSE"
  | .any => "FALSE"
  | .noneOf => "TRUE"
  | .noneOfOrNull => "TRUE"

/-- membership in a list that is not empty, whose items have been bound -/
def listCondition (column items : String) : ListMode → String
  | .oneOf => Text.concat [column, " IN (", items, ")"]
  | .noneOf => Text.concat [column, " NOT IN (", items, ")"]
  | .noneOfOrNull => Text.concat ["(", column, " NOT IN (", items, ") OR ", column, " IS NULL)"]
  | .any => Text.concat [column, " = ANY(ARRAY[", items, "])"]

def condition : Predicate → Binding String
  | .compare c op v =>
    if v.isNull then return nullComparison c op
    else do
      let operand ← placeholder v c.type.sqlName
      return Text.concat [columnSql c, " ", op.sql, " ", operand]
  | .compareDay c op v => do
    let operand ← placeholder v "date"
    return Text.concat ["CAST(", columnSql c, " AS date) ", op.sql, " ", operand]
  | .like c pattern ignoreCase negated => do
    let operand ← placeholder (.text pattern) "text"
    return Text.concat [columnSql c, "::text ", if negated then "NOT " else "",
      if ignoreCase then "ILIKE" else "LIKE", " ", operand]
  | .null c negated =>
    return Text.concat [columnSql c, " IS ", if negated then "NOT " else "", "NULL"]
  | .list c values mode =>
    if values.isEmpty then return emptyList mode
    else do
      let items ← values.mapM (placeholder · c.type.sqlName)
      return listCondition (columnSql c) (Text.joinWith ", " items) mode
  | .textMatch v query config => do
    let matched ← tsquery query config
    return Text.concat [columnSql v, " @@ ", matched]

def whereClause (ps : List Predicate) : Binding String :=
  if ps.isEmpty then return ""
  else do
    let conditions ← ps.mapM condition
    return Text.concat [" WHERE ", Text.joinWith " AND " conditions]

/-! ### order and window -/

def orderTerm : OrderTerm → Binding String
  | .column c descending => return Text.concat [columnSql c, " ", direction descending]
  | .rank v query config => do
    let matched ← tsquery query config
    return Text.concat ["ts_rank_cd(", columnSql v, ", ", matched, ") DESC"]

def orderClause (terms : List String) : String :=
  if terms.isEmpty then "" else Text.concat [" ORDER BY ", Text.joinWith ", " terms]

def windowClause (plan : SelectPlan) : String :=
  Text.concat [windowPart "LIMIT" plan.limit, windowPart "OFFSET" plan.offset]

/-! ### reads -/

/-- conditions are bound first, then the order -/
def flatSelect (schema : Schema) (plan : SelectPlan) : Binding String := do
  let conditions ← whereClause plan.predicates
  let terms ← plan.order.mapM orderTerm
  return Text.concat ["SELECT ", rootColumns plan.entity, " FROM ", fromClause schema plan,
    conditions, orderClause terms, windowClause plan]

/-- the parts of a window over groups that come from the order -/
structure PageOrder where
  keys : List String
  group : List String
  /-- the order of the groups -/
  inner : List String
  /-- the order of their roots -/
  outer : List String

/-- the value that a group is ordered by, the column that groups have to share for it, and its
direction -/
def groupKey : OrderTerm → Binding (String × Option String × Bool)
  | .column c descending =>
    if c.tableAlias = rootAlias then return (columnSql c, some (columnSql c), descending)
    else return (orderAggregate c descending, none, descending)
  | .rank v query config => do
    let matched ← tsquery query config
    return (Text.concat ["MAX(ts_rank_cd(", columnSql v, ", ", matched, "))"], none, true)

/-- one more term of the order, at its place -/
def PageOrder.add (page : PageOrder) (t : OrderTerm) (i : Nat) : Binding PageOrder := do
  let (key, column?, descending) ← groupKey t
  let name := sortKeyName i
  return {
    keys := page.keys ++ [Text.concat [key, " AS ", name]]
    group := page.group ++ column?.toList
    inner := page.inner ++ [Text.concat [name, " ", direction descending]]
    outer := page.outer ++ [Text.concat ["\"page\".", name, " ", direction descending]] }

/-- relevance is bound first, for the keys of the groups, then the conditions -/
def groupedSelect (schema : Schema) (plan : SelectPlan) : Binding String := do
  let page ← plan.order.zipIdx.foldlM (fun (page : PageOrder) (t, i) => page.add t i)
    ⟨[Text.concat [rootKey, " AS \"page_id\""]], [rootKey], [], []⟩
  let conditions ← whereClause plan.predicates
  let inner := Text.concat ["SELECT ", Text.joinWith ", " page.keys, " FROM ",
    fromClause schema plan, conditions, " GROUP BY ", Text.joinWith ", " page.group,
    orderClause page.inner, windowClause plan]
  return Text.concat ["SELECT ", rootColumns plan.entity, " FROM ", tableOf plan.entity, " AS ",
    quoted rootAlias, " INNER JOIN (", inner, ") AS \"page\" ON \"page\".\"page_id\" = ", rootKey,
    orderClause page.outer]

def select (schema : Schema) (plan : SelectPlan) : Binding String :=
  if plan.isWindowed && plan.joins.fansOut then groupedSelect schema plan
  else flatSelect schema plan

def count (schema : Schema) (plan : SelectPlan) : Binding String := do
  let conditions ← whereClause plan.predicates
  return Text.concat ["SELECT COUNT(DISTINCT ", rootKey, ") AS \"count\" FROM ",
    fromClause schema plan, conditions]

/-! ### writes and look-ups -/

/-- binds a value as one of a column -/
def placeholderFor (e : Entity) (column : String) (v : SqlValue) : Binding String :=
  placeholder v (e.columnType column).sqlName

def insert (e : Entity) (values : Assignments) : Binding String := do
  let columns := values.map fun a => quoted a.1
  let items ← values.mapM fun a => placeholderFor e a.1 a.2
  return Text.concat ["INSERT INTO ", tableOf e, " (", Text.joinWith ", " columns, ") VALUES (",
    Text.joinWith ", " items, ")"]

def setClause (e : Entity) (a : String × SqlValue) : Binding String := do
  let value ← placeholderFor e a.1 a.2
  return Text.concat [quoted a.1, " = ", value]

/-- the time stamp comes after all other columns, and binds nothing; the key is bound last -/
def update (e : Entity) (id : String) (values : Assignments) : Binding String := do
  let sets ← values.mapM (setClause e)
  let stamps := if e.tracksUpdatedAt then [Text.concat [quoted updatedAt, " = NOW()"]] else []
  let key ← placeholder (.text id) "text"
  return Text.concat ["UPDATE ", tableOf e, " SET ", Text.joinWith ", " (sets ++ stamps),
    " WHERE ", quoted primaryKey, " = ", key]

def delete (e : Entity) (id : String) : Binding String := do
  let key ← placeholder (.text id) "text"
  return Text.concat ["DELETE FROM ", tableOf e, " WHERE ", quoted primaryKey, " = ", key,
    " RETURNING ", columnList e]

def relatedRows (e : Entity) (column : String) (values : List SqlValue) : Binding String :=
  if values.isEmpty then
    return Text.concat ["SELECT ", columnList e, " FROM ", tableOf e, " WHERE 1 = 0"]
  else do
    let items ← values.mapM (placeholderFor e column)
    return Text.concat ["SELECT ", columnList e, " FROM ", tableOf e, " WHERE ", quoted column,
      " IN (", Text.joinWith ", " items, ") ORDER BY ", quoted primaryKey]

def rowExists (e : Entity) (id : String) : Binding String := do
  let key ← placeholder (.text id) "text"
  return Text.concat ["SELECT EXISTS (SELECT 1 FROM ", tableOf e, " WHERE ", quoted primaryKey,
    " = ", key, ") AS \"exists\""]

/-- the placeholders of a name and of a key are written beforehand, without casts -/
def nameTaken (e : Entity) (name exceptId : String) : Buffer where
  text := Text.concat ["SELECT EXISTS (SELECT 1 FROM ", tableOf e,
    " WHERE lower(\"name\") = lower($1) AND \"id\" <> $2) AS \"exists\""]
  params := [.text name, .text exceptId]

def databaseExists (name : String) : Buffer where
  text := "SELECT EXISTS(SELECT 1 FROM pg_database WHERE datname = $1)"
  params := [.text name]

end Buffer
end EntityAccess.Sql
