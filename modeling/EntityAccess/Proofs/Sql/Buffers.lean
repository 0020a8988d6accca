import EntityAccess.Sql.Statement

/-!
# statements as they are written, and their pieces

Parts of a statement are written in the order in which their values are bound, and put together in
that of the text.  Both orders agree: whatever has been bound before, a part reads as the pieces
that it consists of, numbered from there, and binds their values.

* `Renders` : a part of a statement, and its pieces;
* `RendersAll`, `rendersAll_mapM` : parts one after the other;
* `renders_condition`, `renders_flatSelect`, `renders_update`, … : all parts of statements;
* `resultOf_addAll` : the order of a window over groups, one term after the other;
* `Statement.rendered_eq` : what is sent for a statement.
-/

namespace EntityAccess

namespace Sql

open Buffer (resultOf)
open Fragment

/-! ### texts of pieces -/

/-- the text of pieces whose placeholders begin with number `n` -/
def textFrom (n : Nat) (f : Fragment) : String := Text.concat (textsFrom n f)

@[simp]
theorem textFrom_nil (n : Nat) : textFrom n [] = "" := Text.concat_nil

@[simp]
theorem textFrom_append (n : Nat) (f g : Fragment) :
    textFrom n (f ++ g) = textFrom n f ++ textFrom (n + f.params.length) g := by
  rw [textFrom, textsFrom_append, Text.concat_append]
  rfl

@[simp]
theorem textFrom_text (n : Nat) (s : String) (f : Fragment) :
    textFrom n (.text s :: f) = s ++ textFrom n f := Text.concat_cons s _

@[simp]
theorem textFrom_sql (n : Nat) (parts : List String) :
    textFrom n (sql parts) = Text.concat parts := by
  simp [sql]

@[simp]
theorem textFrom_bound (n : Nat) (v : SqlValue) (type : String) :
    textFrom n (bound v type) = Text.concat ["$", toString n, "::", type] := by
  simp [textFrom, textsFrom, bound, Fragment.placeholder]

@[simp]
theorem params_sql (parts : List String) : (sql parts).params = [] := rfl

@[simp]
theorem params_bound (v : SqlValue) (type : String) : (bound v type).params = [v] := rfl

@[simp]
theorem params_joinWith (separator : String) (fs : List Fragment) :
    (joinWith separator fs).params = fs.flatMap Fragment.params := by
  induction fs with
  | nil => rfl
  | cons f fs ih =>
    cases fs with
    | nil => simp [joinWith]
    | cons g fs =>
      rw [joinWith, params_append, params, ih]
      rfl

/-- the texts of parts that are numbered one after the other -/
def textsOf (n : Nat) : List Fragment → List String
  | [] => []
  | f :: fs => textFrom n f :: textsOf (n + f.params.length) fs

@[simp]
theorem textFrom_joinWith (separator : String) (n : Nat) (fs : List Fragment) :
    textFrom n (joinWith separator fs) = Text.joinWith separator (textsOf n fs) := by
  induction fs generalizing n with
  | nil => rfl
  | cons f fs ih =>
    cases fs with
    | nil => simp [joinWith, textsOf, Text.joinWith]
    | cons g fs =>
      rw [joinWith, textFrom_append, textFrom_text, ih]
      simp [textsOf, Text.joinWith, String.intercalate_cons_cons, String.append_assoc]

/-! ### parts of statements -/

/-- whatever has been bound before, the text is that of the pieces and their values are bound -/
def Renders (x : Binding String) (f : Fragment) : Prop :=
  ∀ params : List SqlValue,
    resultOf x params = (textFrom (params.length + 1) f, params ++ f.params)

/-- the same for several parts -/
def RendersAll (x : Binding (List String)) (fs : List Fragment) : Prop :=
  ∀ params : List SqlValue,
    resultOf x params = (textsOf (params.length + 1) fs, params ++ fs.flatMap Fragment.params)

theorem rendersAll_mapM {α : Type} {g : α → Binding String} {h : α → Fragment}
    (hg : ∀ a, Renders (g a) (h a)) (l : List α) : RendersAll (l.mapM g) (l.map h) := by
  induction l with
  | nil => exact fun params => by simp [textsOf]
  | cons a l ih =>
    intro params
    rw [List.mapM_cons, Buffer.resultOf_bind, hg a params, Buffer.resultOf_bind, ih]
    simp [textsOf, Nat.add_right_comm]

/-! ### conditions -/

theorem renders_tsquery (query config : String) :
    Renders (Buffer.tsquery query config) (tsquery query config) := fun params => by
  simp [Buffer.tsquery, tsquery, String.append_assoc]

theorem renders_listCondition (c : ColumnRef) (values : List SqlValue) (mode : ListMode) :
    Renders (do
      let items ← values.mapM (Buffer.placeholder · c.type.sqlName)
      return Buffer.listCondition (columnSql c) (Text.joinWith ", " items) mode)
    (listCondition c values mode) := fun params => by
  have hitem : ∀ v, Renders (Buffer.placeholder v c.type.sqlName) (bound v c.type.sqlName) :=
    fun v params => by simp
  have hitems := rendersAll_mapM hitem values params
  cases mode <;> simp [hitems, Buffer.listCondition, listCondition, boundList, String.append_assoc]

theorem renders_condition (p : Predicate) : Renders (Buffer.condition p) (condition p) := by
  intro params
  cases p with
  | compare c op v =>
    rw [Buffer.condition, condition]
    split
    · cases op <;>
        simp [Buffer.nullComparison, nullComparison]
    · simp [String.append_assoc]
  | compareDay c op v =>
    simp [Buffer.condition, condition, String.append_assoc]
  | like c pattern ignoreCase negated =>
    simp [Buffer.condition, condition, String.append_assoc]
  | null c negated => simp [Buffer.condition, condition]
  | list c values mode =>
    rw [Buffer.condition, condition]
    split
    · cases mode <;> simp [Buffer.emptyList, emptyList]
    · exact renders_listCondition c values mode params
  | textMatch v query config =>
    simp [Buffer.condition, condition, renders_tsquery query config params, String.append_assoc]

theorem renders_whereClause (ps : List Predicate) :
    Renders (Buffer.whereClause ps) (whereClause ps) := by
  intro params
  rw [Buffer.whereClause, whereClause]
  split
  · simp [Fragment.params]
  · simp [rendersAll_mapM renders_condition ps params]

/-! ### order and window -/

theorem renders_orderTerm (t : OrderTerm) : Renders (Buffer.orderTerm t) (orderTerm t) := by
  intro params
  cases t with
  | column c descending => simp [Buffer.orderTerm, orderTerm]
  | rank v query config =>
    simp [Buffer.orderTerm, orderTerm, renders_tsquery query config params, String.append_assoc]

@[simp]
theorem params_orderClause (terms : List Fragment) :
    (orderClause terms).params = terms.flatMap Fragment.params := by
  cases terms with
  | nil => rfl
  | cons t terms => simp [orderClause]

@[simp]
theorem textFrom_orderClause (n : Nat) (terms : List Fragment) :
    textFrom n (orderClause terms) = Buffer.orderClause (textsOf n terms) := by
  cases terms with
  | nil => rfl
  | cons t terms =>
    simp [orderClause, Buffer.orderClause, textsOf]

/-- texts without values -/
theorem textsOf_sql {α : Type} (n : Nat) (parts : α → List String) (l : List α) :
    textsOf n (l.map fun a => sql (parts a)) = l.map fun a => Text.concat (parts a) := by
  induction l with
  | nil => rfl
  | cons a l ih => simp [textsOf, ih]

theorem flatMap_params_sql {α : Type} (parts : α → List String) (l : List α) :
    (l.map fun a => sql (parts a)).flatMap Fragment.params = [] :=
  List.flatMap_eq_nil_iff.2 (List.forall_mem_map.2 fun _ _ => rfl)

theorem renders_flatSelect (schema : Schema) (plan : SelectPlan) :
    Renders (Buffer.flatSelect schema plan) (flatSelect schema plan) := by
  intro params
  have hwhere := renders_whereClause plan.predicates params
  have horder := rendersAll_mapM renders_orderTerm plan.order
    (params ++ (whereClause plan.predicates).params)
  rw [List.length_append, Nat.add_right_comm] at horder
  simp [Buffer.flatSelect, flatSelect, hwhere, horder, Buffer.windowClause, windowClause,
    String.append_assoc]

/-! ### windows over groups -/

/-- the key of a group for a term of the order, by its name -/
def pageKey (x : OrderTerm × Nat) : Fragment := groupKey x.1 ++ sql [" AS ", sortKeyName x.2]

/-- a term of the order among groups, after an opening -/
def pageTerm (opening : List String) (x : OrderTerm × Nat) : List String :=
  opening ++ [sortKeyName x.2, " ", termDirection x.1]

/-- the window over groups, by the terms at their places -/
theorem pageSelect_eq_terms (schema : Schema) (plan : SelectPlan) :
    pageSelect schema plan = sql ["SELECT "] ++
      joinWith ", " (sql [rootKey, " AS \"page_id\""] :: plan.order.zipIdx.map pageKey) ++
      sql [" FROM ", fromClause schema plan] ++ whereClause plan.predicates ++
      sql [" GROUP BY ", Text.joinWith ", " (rootKey :: plan.order.filterMap groupColumn?)] ++
      orderClause (plan.order.zipIdx.map fun x => sql (pageTerm [] x)) ++ windowClause plan := rfl

theorem resultOf_groupKey (t : OrderTerm) (params : List SqlValue) :
    ∃ descending, direction descending = termDirection t ∧
      resultOf (Buffer.groupKey t) params =
        ((textFrom (params.length + 1) (groupKey t), groupColumn? t, descending),
          params ++ (groupKey t).params) := by
  cases t with
  | column c descending =>
    refine ⟨descending, rfl, ?_⟩
    rw [Buffer.groupKey, groupKey, groupColumn?]
    split <;> simp
  | rank v query config =>
    refine ⟨true, rfl, ?_⟩
    simp [Buffer.groupKey, groupKey, groupColumn?, renders_tsquery query config params,
      String.append_assoc]

open Buffer (PageOrder)

/-- one more term binds the values of its key and adds to all parts -/
theorem resultOf_add (page : PageOrder) (x : OrderTerm × Nat) (params : List SqlValue) :
    resultOf (page.add x.1 x.2) params =
      (⟨page.keys ++ [textFrom (params.length + 1) (pageKey x)],
        page.group ++ (groupColumn? x.1).toList, page.inner ++ [Text.concat (pageTerm [] x)],
        page.outer ++ [Text.concat (pageTerm ["\"page\"."] x)]⟩, params ++ (pageKey x).params) := by
  obtain ⟨descending, hdirection, hkey⟩ := resultOf_groupKey x.1 params
  simp [PageOrder.add, hkey, pageKey, pageTerm, hdirection]

/-- all terms, one after the other -/
theorem resultOf_addAll (page : PageOrder) (terms : List (OrderTerm × Nat))
    (params : List SqlValue) :
    resultOf (terms.foldlM (fun (page : PageOrder) (t, i) => page.add t i) page) params =
      (⟨page.keys ++ textsOf (params.length + 1) (terms.map pageKey),
        page.group ++ (terms.map (·.1)).filterMap groupColumn?,
        page.inner ++ terms.map (Text.concat <| pageTerm [] ·),
        page.outer ++ terms.map (Text.concat <| pageTerm ["\"page\"."] ·)⟩,
        params ++ (terms.map pageKey).flatMap Fragment.params) := by
  induction terms generalizing page params with
  | nil => simp [textsOf]
  | cons x terms ih =>
    rw [List.foldlM_cons, Buffer.resultOf_bind, resultOf_add, ih]
    cases h : groupColumn? x.1 <;>
      simp [h, textsOf, Nat.add_right_comm]

theorem renders_groupedSelect (schema : Schema) (plan : SelectPlan) :
    Renders (Buffer.groupedSelect schema plan) (groupedSelect schema plan) := by
  intro params
  have hpage := resultOf_addAll ⟨[Text.concat [rootKey, " AS \"page_id\""]], [rootKey], [], []⟩
    plan.order.zipIdx params
  have hwhere := renders_whereClause plan.predicates
    (params ++ (plan.order.zipIdx.map pageKey).flatMap Fragment.params)
  have horder : groupedSelect schema plan =
      sql ["SELECT ", rootColumns plan.entity, " FROM ", tableOf plan.entity, " AS ",
        quoted rootAlias, " INNER JOIN ("] ++ pageSelect schema plan ++
      sql [") AS \"page\" ON \"page\".\"page_id\" = ", rootKey] ++
      orderClause (plan.order.zipIdx.map fun x => sql (pageTerm ["\"page\"."] x)) := rfl
  rw [List.length_append, Nat.add_right_comm] at hwhere
  rw [horder, pageSelect_eq_terms, Buffer.groupedSelect, Buffer.resultOf_bind, hpage]
  simp [hwhere, textsOf, textsOf_sql, flatMap_params_sql, Buffer.windowClause, windowClause,
    String.append_assoc]

theorem renders_select (schema : Schema) (plan : SelectPlan) :
    Renders (Buffer.select schema plan) (select schema plan) := by
  unfold Buffer.select select
  split
  · exact renders_groupedSelect schema plan
  · exact renders_flatSelect schema plan

theorem renders_count (schema : Schema) (plan : SelectPlan) :
    Renders (Buffer.count schema plan) (count schema plan) := fun params => by
  simp [Buffer.count, count, renders_whereClause plan.predicates params, String.append_assoc]

/-! ### statements of single rows -/

theorem renders_placeholderFor (e : Entity) (column : String) (v : SqlValue) :
    Renders (Buffer.placeholderFor e column v) (boundFor e column v) := fun params => by
  simp [Buffer.placeholderFor, boundFor]

theorem renders_insert (e : Entity) (values : Assignments) :
    Renders (Buffer.insert e values) (insert e values) := fun params => by
  have hitem : ∀ a : String × SqlValue,
      Renders (Buffer.placeholderFor e a.1 a.2) (boundFor e a.1 a.2) :=
    fun a => renders_placeholderFor e a.1 a.2
  have hitems := rendersAll_mapM hitem values params
  simp [Buffer.insert, insert, hitems, String.append_assoc]

theorem renders_setClause (e : Entity) (a : String × SqlValue) :
    Renders (Buffer.setClause e a) (setClause e a) := fun params => by
  simp [Buffer.setClause, setClause, renders_placeholderFor e a.1 a.2 params, String.append_assoc]

theorem textsOf_append (n : Nat) (fs gs : List Fragment) :
    textsOf n (fs ++ gs) =
      textsOf n fs ++ textsOf (n + (fs.flatMap Fragment.params).length) gs := by
  induction fs generalizing n with
  | nil => simp [textsOf]
  | cons f fs ih => simp [textsOf, ih, Nat.add_assoc]

theorem renders_update (e : Entity) (id : String) (values : Assignments) :
    Renders (Buffer.update e id values) (update e id values) := fun params => by
  have hsets := rendersAll_mapM (renders_setClause e) values params
  cases hstamp : e.tracksUpdatedAt <;>
    simp [Buffer.update, update, stampClauses, hstamp, hsets, textsOf_append, textsOf,
      Nat.add_right_comm, String.append_assoc]

theorem renders_delete (e : Entity) (id : String) :
    Renders (Buffer.delete e id) (delete e id) := fun params => by
  simp [Buffer.delete, delete, String.append_assoc]

theorem renders_relatedRows (e : Entity) (column : String) (values : List SqlValue) :
    Renders (Buffer.relatedRows e column values) (relatedRows e column values) := by
  intro params
  unfold Buffer.relatedRows relatedRows
  dsimp only
  split
  · simp [String.append_assoc]
  · have hitems := rendersAll_mapM (renders_placeholderFor e column) values params
    simp [hitems, String.append_assoc]

theorem renders_rowExists (e : Entity) (id : String) :
    Renders (Buffer.rowExists e id) (rowExists e id) := fun params => by
  simp [Buffer.rowExists, rowExists, String.append_assoc]

/-! ### all statements -/

theorem Renders.finish {x : Binding String} {f : Fragment} (h : Renders x f) :
    Buffer.finish x = ⟨f.text, f.params⟩ := by
  unfold Buffer.finish
  rw [h []]
  rfl

end Sql

/-- what is sent for a statement is the text of its pieces, with their values -/
theorem Statement.rendered_eq (q : Statement) :
    q.rendered = ⟨q.fragment.text, q.fragment.params⟩ := by
  have hfirst : Nat.repr 1 = "1" := rfl
  have hsecond : Nat.repr 2 = "2" := rfl
  cases q with
  | select schema plan => exact (Sql.renders_select schema plan).finish
  | count schema plan => exact (Sql.renders_count schema plan).finish
  | related e column keys => exact (Sql.renders_relatedRows e column keys).finish
  | rowExists e id => exact (Sql.renders_rowExists e id).finish
  | nameTaken e name exceptId =>
    simp [rendered, fragment, Sql.Buffer.nameTaken, Sql.nameTaken, Sql.Fragment.text,
      Sql.Fragment.params, Sql.Fragment.textsFrom, Sql.Fragment.placeholder, Sql.sql, hfirst,
      hsecond, String.append_assoc]
  | insert e values => exact (Sql.renders_insert e values).finish
  | update e id values => exact (Sql.renders_update e id values).finish
  | delete e id => exact (Sql.renders_delete e id).finish
  | databaseExists name =>
    simp [rendered, fragment, Sql.Buffer.databaseExists, Sql.databaseExists, Sql.Fragment.text,
      Sql.Fragment.params, Sql.Fragment.textsFrom, Sql.Fragment.placeholder, Sql.sql, hfirst]
  | define d => rfl
  | createDatabase name => rfl
  | probe => rfl
  | other text => rfl

end EntityAccess
