import EntityAccess.Proofs.Sql.Tokens
import EntityAccess.Sql.Statement

/-!
# placeholders of rendered statements

Every statement that is rendered from a plan, or for the rows of an entity, is legible: it is read
piece by piece, and its placeholders are numbered in the order of its text.

* `Sql.clauseMarks`, `Sql.openingMarks` : pairs of letters that no table and no condition has, and
  one that nothing after the conditions has;
* `legible_condition`, `legible_orderTerm`, … : the parts of a read;
* `Statement.legible` : every statement but definitions and those of hooks.
-/

namespace EntityAccess

namespace Sql

open Fragment

/-- pairs of letters that tell the words `FROM`, `GROUP`, `ORDER`, `LIMIT` and `OFFSET` -/
def clauseMarks : List (Char × Char) := [('F', 'R'), ('G', 'R'), ('R', 'D'), ('M', 'I'), ('F', 'F')]

/-- the pair of letters that tells the word `FROM` -/
def openingMarks : List (Char × Char) := [('F', 'R')]

/-- without conditions and tables other words can be told -/
theorem Tidy.opening {s : String} (h : Tidy clauseMarks s) : Tidy openingMarks s :=
  h.mono (by decide)

theorem Fragment.Legible.opening {f : Fragment} (h : Legible clauseMarks f) :
    Legible openingMarks f :=
  h.mono (by decide)

theorem Tidy.unmarked {marks : List (Char × Char)} {s : String} (h : Tidy marks s) : Tidy [] s :=
  h.mono nofun

theorem Fragment.Legible.unmarked {marks : List (Char × Char)} {f : Fragment}
    (h : Legible marks f) : Legible [] f :=
  h.mono nofun

/-! ### names -/

attribute [simp] Tidy.quoted

theorem tidy_qualified (outer inner : String) : Tidy clauseMarks (qualified outer inner) :=
  .concat (by simp +decide)

@[simp]
theorem tidy_tableOf (e : Entity) : Tidy clauseMarks (tableOf e) := tidy_qualified _ _

@[simp]
theorem tidy_columnSql (c : ColumnRef) : Tidy clauseMarks (columnSql c) := tidy_qualified _ _

@[simp]
theorem tidy_rootKey : Tidy clauseMarks rootKey := tidy_qualified _ _

@[simp]
theorem tidy_comparison (op : Comparison) : Tidy clauseMarks op.sql := by
  cases op <;> decide

theorem tidy_cast (type : ColumnType) : Tidy clauseMarks (Text.concat ["::", type.sqlName]) := by
  cases type <;> decide

/-! ### conditions -/

theorem legible_tsquery (query config : String) : Legible clauseMarks (tsquery query config) := by
  have hopen : Legible clauseMarks (sql ["websearch_to_tsquery("]) := .sql (by decide)
  have hcomma : Legible clauseMarks (sql [", "]) := .sql (by decide)
  have hclose : Legible clauseMarks (sql [")"]) := .sql (by decide)
  exact (((hopen.append (.bound _ (by decide))).append hcomma).append
    (.bound _ (by decide))).append hclose

theorem legible_boundList (type : ColumnType) (values : List SqlValue) :
    Legible clauseMarks (boundList type.sqlName values) := by
  refine .joinWith (by decide) fun f hf => ?_
  obtain ⟨v, _, rfl⟩ := List.mem_map.1 hf
  exact .bound v (tidy_cast type)

theorem legible_condition (p : Predicate) : Legible clauseMarks (condition p) := by
  cases p with
  | compare c op v =>
    rw [condition]
    split
    · cases op <;> exact .sql (by simp +decide)
    · exact .append (.sql (by simp +decide)) (.bound v (tidy_cast c.type))
  | compareDay c op v => exact .append (.sql (by simp +decide)) (.bound v (by decide))
  | like c pattern ignoreCase negated =>
    refine .append (.sql ?_) (.bound _ (by decide))
    cases ignoreCase <;> cases negated <;> simp +decide
  | null c negated => cases negated <;> exact .sql (by simp +decide)
  | list c values mode =>
    rw [condition]
    split
    · cases mode <;> exact .sql (by decide)
    · have hitems := legible_boundList c.type values
      cases mode <;>
        exact .append (.append (.sql (by simp +decide)) hitems) (.sql (by simp +decide))
  | textMatch v query config =>
    exact .append (.sql (by simp +decide)) (legible_tsquery query config)

theorem legible_whereClause (ps : List Predicate) : Legible clauseMarks (whereClause ps) := by
  unfold whereClause
  split
  · exact .nil
  · refine .append (.sql (by decide)) (.joinWith (by decide) fun f hf => ?_)
    obtain ⟨p, _, rfl⟩ := List.mem_map.1 hf
    exact legible_condition p

/-! ### tables -/

theorem tidy_joinClause (schema : Schema) (j : Join) : Tidy clauseMarks (joinClause schema j) := by
  unfold joinClause
  cases schema.entity? j.entity <;> exact .concat (by simp +decide [tidy_qualified])

theorem tidy_fromClause (schema : Schema) (plan : SelectPlan) :
    Tidy clauseMarks (fromClause schema plan) := by
  refine .concat fun s hs => ?_
  simp only [List.mem_cons, List.mem_map] at hs
  rcases hs with rfl | rfl | rfl | ⟨j, _, rfl⟩
  · exact tidy_tableOf _
  · decide
  · exact .quoted _
  · exact tidy_joinClause schema j

/-! ### order and window -/

theorem tidy_direction (descending : Bool) : Tidy openingMarks (direction descending) := by
  cases descending <;> decide

theorem tidy_termDirection (t : OrderTerm) : Tidy openingMarks (termDirection t) := by
  cases t <;> exact tidy_direction _

theorem legible_orderTerm (t : OrderTerm) : Legible openingMarks (orderTerm t) := by
  cases t with
  | column c descending =>
    exact .sql (by simp +decide [(tidy_columnSql c).opening, tidy_direction])
  | rank v query config =>
    have hopen : Legible openingMarks (sql ["ts_rank_cd(", columnSql v, ", "]) :=
      .sql (by simp +decide [(tidy_columnSql v).opening])
    exact (hopen.append (legible_tsquery query config).opening).append (.sql (by decide))

theorem legible_orderClause {terms : List Fragment} (h : ∀ f ∈ terms, Legible openingMarks f) :
    Legible openingMarks (orderClause terms) := by
  unfold orderClause
  split
  · exact .nil
  · exact .append (.sql (by decide)) (.joinWith (by decide) h)

theorem legible_order (plan : SelectPlan) :
    Legible openingMarks (orderClause (plan.order.map orderTerm)) := by
  refine legible_orderClause fun f hf => ?_
  obtain ⟨t, _, rfl⟩ := List.mem_map.1 hf
  exact legible_orderTerm t

theorem tidy_windowPart {word : String} (h : Tidy openingMarks word) (n : Option Nat) :
    Tidy openingMarks (windowPart word n) := by
  cases n with
  | none => exact .empty
  | some n =>
    have hnumber : Tidy openingMarks (toString n) := .number (by decide) n
    exact .concat (by simpa +decide [h] using hnumber)

theorem legible_windowClause (plan : SelectPlan) : Legible openingMarks (windowClause plan) := by
  refine .sql fun s hs => ?_
  simp only [List.mem_cons, List.not_mem_nil, or_false] at hs
  rcases hs with rfl | rfl
  · exact tidy_windowPart (by decide) _
  · exact tidy_windowPart (by decide) _

/-! ### statements of a plan -/

theorem tidy_rootColumns (e : Entity) : Tidy openingMarks (rootColumns e) := by
  refine .joinWith (by decide) fun s hs => ?_
  obtain ⟨c, _, rfl⟩ := List.mem_map.1 hs
  exact .concat (by simpa +decide using (tidy_qualified _ _).opening)

theorem legible_flatSelect (schema : Schema) (plan : SelectPlan) :
    Legible [] (flatSelect schema plan) := by
  have hhead : Legible [] (sql ["SELECT ", rootColumns plan.entity, " FROM ",
      fromClause schema plan]) :=
    .sql (by simp +decide [(tidy_rootColumns _).unmarked, (tidy_fromClause schema plan).unmarked])
  have horder : Legible [] (orderClause (plan.order.map orderTerm)) := (legible_order plan).unmarked
  exact ((hhead.append (legible_whereClause _).unmarked).append horder).append
    (legible_windowClause plan).unmarked

theorem tidy_orderAggregate (c : ColumnRef) (descending : Bool) :
    Tidy openingMarks (orderAggregate c descending) := by
  have hcolumn := (tidy_columnSql c).opening
  unfold orderAggregate
  dsimp only
  split <;> exact .concat (by simp +decide [hcolumn])

theorem legible_groupKey (t : OrderTerm) : Legible openingMarks (groupKey t) := by
  cases t with
  | column c descending =>
    rw [groupKey]
    split
    · exact .sql (by simp [(tidy_columnSql c).opening])
    · exact .sql (by simp [tidy_orderAggregate])
  | rank v query config =>
    have hopen : Legible openingMarks (sql ["MAX(ts_rank_cd(", columnSql v, ", "]) :=
      .sql (by simp +decide [(tidy_columnSql v).opening])
    exact (hopen.append (legible_tsquery query config).opening).append (.sql (by decide))

@[simp]
theorem tidy_sortKeyName {marks : List (Char × Char)} (i : Nat) : Tidy marks (sortKeyName i) :=
  .quoted _

/-- the keys of the groups, before the tables -/
def pageKeys (plan : SelectPlan) : Fragment :=
  joinWith ", " (sql [rootKey, " AS \"page_id\""] ::
    plan.order.zipIdx.map fun (t, i) => groupKey t ++ sql [" AS ", sortKeyName i])

/-- the grouping, the order and the window, after the conditions -/
def pageTail (plan : SelectPlan) : Fragment :=
  sql [" GROUP BY ", Text.joinWith ", " (rootKey :: plan.order.filterMap groupColumn?)] ++
    orderClause (plan.order.zipIdx.map fun (t, i) => sql [sortKeyName i, " ", termDirection t]) ++
    windowClause plan

theorem legible_pageKeys (plan : SelectPlan) : Legible openingMarks (pageKeys plan) := by
  refine .joinWith (by decide) fun f hf => ?_
  rcases List.mem_cons.1 hf with rfl | hf
  · exact .sql (by decide)
  · obtain ⟨⟨t, i⟩, _, rfl⟩ := List.mem_map.1 hf
    exact (legible_groupKey t).append (.sql (by simp +decide))

theorem tidy_groupColumns (plan : SelectPlan) :
    Tidy openingMarks (Text.joinWith ", " (rootKey :: plan.order.filterMap groupColumn?)) := by
  refine .joinWith (by decide) fun s hs => ?_
  rcases List.mem_cons.1 hs with rfl | hs
  · exact tidy_rootKey.opening
  · obtain ⟨t, _, ht⟩ := List.mem_filterMap.1 hs
    cases t with
    | rank v query config => cases ht
    | column c descending =>
      rw [groupColumn?, Option.ite_none_right_eq_some] at ht
      obtain rfl := Option.some.inj ht.2
      exact (tidy_columnSql c).opening

theorem legible_pageTail (plan : SelectPlan) : Legible openingMarks (pageTail plan) := by
  refine .append (.append (.sql ?_) ?_) (legible_windowClause plan)
  · simp +decide [tidy_groupColumns]
  · refine legible_orderClause fun f hf => ?_
    obtain ⟨⟨t, i⟩, _, rfl⟩ := List.mem_map.1 hf
    exact .sql (by simp +decide [tidy_termDirection])

/-- the window over groups of joined rows, by its parts -/
theorem pageSelect_eq (schema : Schema) (plan : SelectPlan) :
    pageSelect schema plan = sql ["SELECT "] ++ pageKeys plan ++
      sql [" FROM ", fromClause schema plan] ++ whereClause plan.predicates ++ pageTail plan := by
  simp [pageSelect, pageKeys, pageTail]

theorem legible_pageSelect (schema : Schema) (plan : SelectPlan) :
    Legible [] (pageSelect schema plan) := by
  have hfrom : Legible [] (sql [" FROM ", fromClause schema plan]) :=
    .sql (by simp +decide [(tidy_fromClause schema plan).unmarked])
  have hselect : Legible [] (sql ["SELECT "] ++ pageKeys plan) :=
    .append (.sql (by decide)) (legible_pageKeys plan).unmarked
  rw [pageSelect_eq]
  exact ((hselect.append hfrom).append (legible_whereClause _).unmarked).append
    (legible_pageTail plan).unmarked

/-- the order of the roots of a window over groups -/
def groupOrder (plan : SelectPlan) : Fragment :=
  orderClause (plan.order.zipIdx.map fun (t, i) =>
    sql ["\"page\".", sortKeyName i, " ", termDirection t])

theorem legible_groupOrder (plan : SelectPlan) : Legible openingMarks (groupOrder plan) := by
  refine legible_orderClause fun f hf => ?_
  obtain ⟨⟨t, i⟩, _, rfl⟩ := List.mem_map.1 hf
  exact .sql (by simp +decide [tidy_termDirection])

theorem legible_groupedSelect (schema : Schema) (plan : SelectPlan) :
    Legible [] (groupedSelect schema plan) := by
  have hhead : Legible [] (sql ["SELECT ", rootColumns plan.entity, " FROM ",
      tableOf plan.entity, " AS ", quoted rootAlias, " INNER JOIN ("]) :=
    .sql (by simp +decide [(tidy_rootColumns _).unmarked, (tidy_tableOf _).unmarked])
  exact ((hhead.append (legible_pageSelect schema plan)).append (.sql (by decide))).append
    (legible_groupOrder plan).unmarked

theorem legible_select (schema : Schema) (plan : SelectPlan) : Legible [] (select schema plan) := by
  unfold select
  split
  · exact legible_groupedSelect schema plan
  · exact legible_flatSelect schema plan

theorem legible_count (schema : Schema) (plan : SelectPlan) : Legible [] (count schema plan) :=
  .append (.sql (by simp +decide [(tidy_fromClause schema plan).unmarked]))
    (legible_whereClause _).unmarked

/-! ### statements of single rows -/

theorem legible_boundFor (e : Entity) (column : String) (v : SqlValue) :
    Legible [] (boundFor e column v) :=
  .bound v (tidy_cast _).unmarked

theorem tidy_columnList (e : Entity) : Tidy [] (columnList e) := by
  refine .joinWith (by decide) fun s hs => ?_
  obtain ⟨c, _, rfl⟩ := List.mem_map.1 hs
  exact .quoted _

theorem legible_insert (e : Entity) (values : Assignments) : Legible [] (insert e values) := by
  have hcolumns : Tidy [] (Text.joinWith ", " (values.map fun a => quoted a.1)) := by
    refine .joinWith (by decide) fun s hs => ?_
    obtain ⟨a, _, rfl⟩ := List.mem_map.1 hs
    exact .quoted _
  refine .append (.append (.sql (by simp +decide [(tidy_tableOf e).unmarked, hcolumns])) ?_)
    (.sql (by decide))
  refine .joinWith (by decide) fun f hf => ?_
  obtain ⟨a, _, rfl⟩ := List.mem_map.1 hf
  exact legible_boundFor e _ _

theorem legible_update (e : Entity) (id : String) (values : Assignments) :
    Legible [] (update e id values) := by
  have hset : Legible [] (joinWith ", " (values.map (setClause e) ++ stampClauses e)) := by
    refine .joinWith (by decide) fun f hf => ?_
    rcases List.mem_append.1 hf with hf | hf
    · obtain ⟨a, _, rfl⟩ := List.mem_map.1 hf
      exact .append (.sql (by simp +decide)) (legible_boundFor e _ _)
    · unfold stampClauses at hf
      split at hf
      · obtain rfl := List.mem_singleton.1 hf
        exact .sql (by decide)
      · cases hf
  have hhead : Legible [] (sql ["UPDATE ", tableOf e, " SET "]) :=
    .sql (by simp +decide [(tidy_tableOf e).unmarked])
  exact ((hhead.append hset).append (.sql (by decide))).append (.bound _ (by decide))

theorem legible_delete (e : Entity) (id : String) : Legible [] (delete e id) := by
  have hhead : Legible [] (sql ["DELETE FROM ", tableOf e, " WHERE ", quoted primaryKey, " = "]) :=
    .sql (by simp +decide [(tidy_tableOf e).unmarked])
  exact (hhead.append (.bound _ (by decide))).append (.sql (by simp +decide [tidy_columnList e]))

theorem legible_relatedRows (e : Entity) (column : String) (values : List SqlValue) :
    Legible [] (relatedRows e column values) := by
  have hhead : Legible [] (sql ["SELECT ", columnList e, " FROM ", tableOf e, " WHERE "]) :=
    .sql (by simp +decide [(tidy_tableOf e).unmarked, tidy_columnList e])
  unfold relatedRows
  dsimp only
  split
  · exact hhead.append (.sql (by decide))
  · refine .append (.append (hhead.append (.sql (by simp +decide))) ?_) (.sql (by decide))
    refine .joinWith (by decide) fun f hf => ?_
    obtain ⟨v, _, rfl⟩ := List.mem_map.1 hf
    exact legible_boundFor e column v

theorem legible_rowExists (e : Entity) (id : String) : Legible [] (rowExists e id) := by
  have hhead : Legible [] (sql ["SELECT EXISTS (SELECT 1 FROM ", tableOf e, " WHERE ",
      quoted primaryKey, " = "]) :=
    .sql (by simp +decide [(tidy_tableOf e).unmarked])
  exact (hhead.append (.bound _ (by decide))).append (.sql (by decide))

theorem legible_nameTaken (e : Entity) (name exceptId : String) :
    Legible [] (nameTaken e name exceptId) := by
  have hhead : Legible [] (sql ["SELECT EXISTS (SELECT 1 FROM ", tableOf e,
      " WHERE lower(\"name\") = lower("]) :=
    .sql (by simp +decide [(tidy_tableOf e).unmarked])
  exact hhead.append (.bare ⟨')', _, rfl, by decide⟩ (.text (by decide)
    (.bare ⟨')', _, rfl, by decide⟩ (.sql (by decide)))))

theorem legible_databaseExists (name : String) : Legible [] (databaseExists name) :=
  .text (by decide) (.bare ⟨')', _, rfl, by decide⟩ (.sql (by decide)))

end Sql

/-! ### all statements -/

/-- a statement that is rendered from a plan, or for the rows of an entity; the others are texts of
definitions and of hooks -/
def Statement.isRendered : Statement → Bool
  | .define _ => false
  | .other _ => false
  | _ => true

theorem Statement.legible {q : Statement} (h : q.isRendered = true) : q.fragment.Legible [] := by
  cases q with
  | select schema plan => exact Sql.legible_select schema plan
  | count schema plan => exact Sql.legible_count schema plan
  | related e column keys => exact Sql.legible_relatedRows e column keys
  | rowExists e id => exact Sql.legible_rowExists e id
  | nameTaken e name exceptId => exact Sql.legible_nameTaken e name exceptId
  | insert e values => exact Sql.legible_insert e values
  | update e id values => exact Sql.legible_update e id values
  | delete e id => exact Sql.legible_delete e id
  | define d => cases h
  | databaseExists name => exact Sql.legible_databaseExists name
  | createDatabase name => exact .sql (by simp +decide)
  | probe => exact .sql (by decide)
  | other text => cases h

end EntityAccess
