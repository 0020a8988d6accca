import EntityAccess.Proofs.Schema.Accepted
import EntityAccess.Sql.Statement
import Mathlib.Data.List.Forall2

/-!
# values and the text of statements

Statements that differ in nothing but their values have one text, and as many parameters.  Of a
value it only counts whether it is null where it is compared, and of a list how many items it has:
these decide which condition is written.

* `Piece.Alike`, `Fragment.Alike` : fragments that differ in what is bound;
* `Predicate.Alike`, `OrderTerm.Alike`, `SelectPlan.Alike`, `Statement.Alike` : the same up to
  values;
* `Fragment.Alike.text_eq` : one text for fragments that are alike;
* `alike_select`, `alike_insert`, `alike_update` : renderings of what is alike are alike;
* `text_independent_of_values` : one text for statements that are alike.
-/

namespace EntityAccess

namespace Sql

/-! ### fragments that differ in what is bound -/

/-- the same piece but for the value that is bound -/
inductive Piece.Alike : Piece → Piece → Prop where
  | text (s : String) : Alike (.text s) (.text s)
  | param (v w : SqlValue) (type : Option String) : Alike (.param v type) (.param w type)

/-- the same fragment but for the values that are bound -/
def Fragment.Alike (f g : Fragment) : Prop := List.Forall₂ Piece.Alike f g

namespace Fragment.Alike

theorem refl (f : Fragment) : Alike f f :=
  List.forall₂_same.2 fun p _ => match p with
    | .text s => .text s
    | .param v type => .param v v type

theorem bound (v w : SqlValue) (type : String) : Alike (bound v type) (bound w type) :=
  .cons (.param v w (some type)) .nil

theorem uncast (v w : SqlValue) : Alike [.param v none] [.param w none] :=
  .cons (.param v w none) .nil

theorem append {f g f' g' : Fragment} (h : Alike f g) (h' : Alike f' g') :
    Alike (f ++ f') (g ++ g') :=
  List.rel_append h h'

theorem joinWith (separator : String) {fs gs : List Fragment} (h : List.Forall₂ Alike fs gs) :
    Alike (joinWith separator fs) (joinWith separator gs) := by
  induction h with
  | nil => exact refl []
  | cons hf hrest ih =>
    cases hrest with
    | nil => exact hf
    | cons hg hrest => exact hf.append (.cons (.text separator) ih)

theorem textsFrom_eq {f g : Fragment} (h : Alike f g) (n : Nat) :
    textsFrom n f = textsFrom n g := by
  induction h generalizing n with
  | nil => rfl
  | cons hp _ ih =>
    cases hp with
    | text s => exact congrArg (s :: ·) (ih n)
    | param v w type => exact congrArg (placeholder n type :: ·) (ih (n + 1))

theorem text_eq {f g : Fragment} (h : Alike f g) : f.text = g.text :=
  congrArg Text.concat (h.textsFrom_eq 1)

theorem length_params {f g : Fragment} (h : Alike f g) : f.params.length = g.params.length := by
  induction h with
  | nil => rfl
  | cons hp _ ih =>
    cases hp with
    | text s => exact ih
    | param v w type => exact congrArg (· + 1) ih

end Fragment.Alike
end Sql

/-! ### reads up to their values -/

/-- the same condition but for its values -/
inductive Predicate.Alike : Predicate → Predicate → Prop where
  | compare (c : ColumnRef) (op : Comparison) {v w : SqlValue} (h : v.isNull = w.isNull) :
    Alike (.compare c op v) (.compare c op w)
  | compareDay (c : ColumnRef) (op : Comparison) (v w : SqlValue) :
    Alike (.compareDay c op v) (.compareDay c op w)
  | like (c : ColumnRef) (p q : String) (ignoreCase negated : Bool) :
    Alike (.like c p ignoreCase negated) (.like c q ignoreCase negated)
  | null (c : ColumnRef) (negated : Bool) : Alike (.null c negated) (.null c negated)
  | list (c : ColumnRef) {vs ws : List SqlValue} (mode : ListMode) (h : vs.length = ws.length) :
    Alike (.list c vs mode) (.list c ws mode)
  | textMatch (vector : ColumnRef) (query config query' config' : String) :
    Alike (.textMatch vector query config) (.textMatch vector query' config')

/-- the same order but for the text that relevance is taken of -/
inductive OrderTerm.Alike : OrderTerm → OrderTerm → Prop where
  | column (c : ColumnRef) (descending : Bool) : Alike (.column c descending) (.column c descending)
  | rank (vector : ColumnRef) (query config query' config' : String) :
    Alike (.rank vector query config) (.rank vector query' config')

/-- the same read but for the values in its conditions and its order -/
structure SelectPlan.Alike (plan other : SelectPlan) : Prop where
  entity : plan.entity = other.entity
  joins : plan.joins = other.joins
  predicates : List.Forall₂ Predicate.Alike plan.predicates other.predicates
  order : List.Forall₂ OrderTerm.Alike plan.order other.order
  limit : plan.limit = other.limit
  offset : plan.offset = other.offset

namespace Sql

open Fragment (Alike)

/-! ### conditions and order terms -/

theorem alike_tsquery (query config query' config' : String) :
    Alike (tsquery query config) (tsquery query' config') :=
  ((((Alike.refl _).append (.bound _ _ _)).append (.refl _)).append (.bound _ _ _)).append (.refl _)

theorem alike_bounds (type : String) {vs ws : List SqlValue} (h : vs.length = ws.length) :
    List.Forall₂ Alike (vs.map (bound · type)) (ws.map (bound · type)) := by
  induction vs generalizing ws with
  | nil =>
    obtain rfl := List.length_eq_zero_iff.1 h.symm
    exact .nil
  | cons v vs ih =>
    obtain ⟨w, ws, rfl⟩ := List.exists_cons_of_length_eq_add_one h.symm
    exact .cons (.bound v w type) (ih (Nat.succ.inj h))

theorem alike_listCondition (c : ColumnRef) {vs ws : List SqlValue} (mode : ListMode)
    (h : vs.length = ws.length) : Alike (listCondition c vs mode) (listCondition c ws mode) := by
  have hitems : Alike (boundList c.type.sqlName vs) (boundList c.type.sqlName ws) :=
    .joinWith ", " (alike_bounds c.type.sqlName h)
  cases mode <;> exact ((Alike.refl _).append hitems).append (.refl _)

theorem alike_condition {p q : Predicate} (h : p.Alike q) :
    Alike (condition p) (condition q) := by
  cases h with
  | @compare c op v w h =>
    -- which condition is written is decided by whether the value is null
    simp only [condition, h]
    split
    · exact .refl _
    · exact (Alike.refl _).append (.bound v w _)
  | compareDay c op v w => exact (Alike.refl _).append (.bound v w _)
  | like c p q ignoreCase negated => exact (Alike.refl _).append (.bound _ _ _)
  | null c negated => exact .refl _
  | @list c vs ws mode h =>
    have hempty : vs.isEmpty = ws.isEmpty := by
      rw [Bool.eq_iff_iff, List.isEmpty_iff_length_eq_zero, List.isEmpty_iff_length_eq_zero, h]
    simp only [condition, hempty]
    split
    · exact .refl _
    · exact alike_listCondition c mode h
  | textMatch vector query config query' config' =>
    exact (Alike.refl _).append (alike_tsquery query config query' config')

theorem alike_whereClause {ps qs : List Predicate} (h : List.Forall₂ Predicate.Alike ps qs) :
    Alike (whereClause ps) (whereClause qs) := by
  have hparts : List.Forall₂ Alike (ps.map condition) (qs.map condition) :=
    List.rel_map (fun _ _ hp => alike_condition hp) h
  cases h with
  | nil => exact .refl _
  | cons => exact (Alike.refl _).append (.joinWith " AND " hparts)

theorem alike_orderTerm {t u : OrderTerm} (h : t.Alike u) :
    Alike (orderTerm t) (orderTerm u) := by
  cases h with
  | column c descending => exact .refl _
  | rank vector query config query' config' =>
    exact ((Alike.refl _).append (alike_tsquery query config query' config')).append (.refl _)

theorem alike_groupKey {t u : OrderTerm} (h : t.Alike u) : Alike (groupKey t) (groupKey u) := by
  cases h with
  | column c descending => exact .refl _
  | rank vector query config query' config' =>
    exact ((Alike.refl _).append (alike_tsquery query config query' config')).append (.refl _)

theorem groupColumn?_of_alike {t u : OrderTerm} (h : t.Alike u) :
    groupColumn? t = groupColumn? u := by
  cases h <;> rfl

theorem termDirection_of_alike {t u : OrderTerm} (h : t.Alike u) :
    termDirection t = termDirection u := by
  cases h <;> rfl

theorem alike_orderClause {fs gs : List Fragment} (h : List.Forall₂ Alike fs gs) :
    Alike (orderClause fs) (orderClause gs) := by
  cases h with
  | nil => exact .refl _
  | cons hf hrest => exact (Alike.refl _).append (.joinWith ", " (.cons hf hrest))

/-! ### plans -/

theorem alike_zipIdx {ts us : List OrderTerm} (h : List.Forall₂ OrderTerm.Alike ts us) (n : Nat) :
    List.Forall₂ (fun t u => t.1.Alike u.1 ∧ t.2 = u.2) (ts.zipIdx n) (us.zipIdx n) := by
  induction h generalizing n with
  | nil => exact .nil
  | cons ht _ ih => exact .cons ⟨ht, rfl⟩ (ih (n + 1))

/-- what is written of a term and its place -/
theorem alike_places (f : OrderTerm → Nat → Fragment)
    (hf : ∀ t u i, t.Alike u → Alike (f t i) (f u i)) {ts us : List OrderTerm}
    (h : List.Forall₂ OrderTerm.Alike ts us) :
    List.Forall₂ Alike (ts.zipIdx.map fun (t, i) => f t i) (us.zipIdx.map fun (t, i) => f t i) := by
  refine List.rel_map ?_ (alike_zipIdx h 0)
  rintro ⟨t, i⟩ ⟨u, j⟩ ⟨ht, rfl⟩
  exact hf t u i ht

theorem filterMap_groupColumn?_of_alike {ts us : List OrderTerm}
    (h : List.Forall₂ OrderTerm.Alike ts us) :
    ts.filterMap groupColumn? = us.filterMap groupColumn? := by
  induction h with
  | nil => rfl
  | cons ht _ ih => rw [List.filterMap_cons, List.filterMap_cons, groupColumn?_of_alike ht, ih]

variable {schema : Schema} {plan other : SelectPlan}

theorem fromClause_of_alike (h : plan.Alike other) :
    fromClause schema plan = fromClause schema other := by
  unfold fromClause
  rw [h.entity, h.joins]

theorem windowClause_of_alike (h : plan.Alike other) : windowClause plan = windowClause other := by
  unfold windowClause
  rw [h.limit, h.offset]

theorem alike_flatSelect (h : plan.Alike other) :
    Alike (flatSelect schema plan) (flatSelect schema other) := by
  have horder : List.Forall₂ Alike (plan.order.map orderTerm) (other.order.map orderTerm) :=
    List.rel_map (fun _ _ ht => alike_orderTerm ht) h.order
  unfold flatSelect
  rw [h.entity, fromClause_of_alike h, windowClause_of_alike h]
  exact (((Alike.refl _).append (alike_whereClause h.predicates)).append
    (alike_orderClause horder)).append (.refl _)

/-- sort keys by the names of their places, with their directions -/
theorem alike_directions (opening : List String) (h : plan.Alike other) :
    List.Forall₂ Alike
      (plan.order.zipIdx.map fun (t, i) => sql (opening ++ [sortKeyName i, " ", termDirection t]))
      (other.order.zipIdx.map fun (t, i) =>
        sql (opening ++ [sortKeyName i, " ", termDirection t])) :=
  alike_places (fun t i => sql (opening ++ [sortKeyName i, " ", termDirection t]))
    (fun t u i ht => by rw [termDirection_of_alike ht]; exact .refl _) h.order

theorem alike_pageSelect (h : plan.Alike other) :
    Alike (pageSelect schema plan) (pageSelect schema other) := by
  have hkeys := alike_places (fun t i => groupKey t ++ sql [" AS ", sortKeyName i])
    (fun _ _ _ ht => (alike_groupKey ht).append (.refl _)) h.order
  unfold pageSelect
  rw [fromClause_of_alike h, windowClause_of_alike h, filterMap_groupColumn?_of_alike h.order]
  exact ((((((Alike.refl _).append (.joinWith ", " (.cons (.refl _) hkeys))).append
    (.refl _)).append (alike_whereClause h.predicates)).append (.refl _)).append
    (alike_orderClause (alike_directions [] h))).append (.refl _)

theorem alike_groupedSelect (h : plan.Alike other) :
    Alike (groupedSelect schema plan) (groupedSelect schema other) := by
  unfold groupedSelect
  rw [h.entity]
  exact (((Alike.refl _).append (alike_pageSelect h)).append (.refl _)).append
    (alike_orderClause (alike_directions ["\"page\"."] h))

theorem alike_select (h : plan.Alike other) : Alike (select schema plan) (select schema other) := by
  have hwindowed : plan.isWindowed = other.isWindowed := by
    unfold SelectPlan.isWindowed
    rw [h.limit, h.offset]
  unfold select
  rw [hwindowed, h.joins]
  split
  · exact alike_groupedSelect h
  · exact alike_flatSelect h

theorem alike_count (h : plan.Alike other) : Alike (count schema plan) (count schema other) := by
  unfold count
  rw [fromClause_of_alike h]
  exact (Alike.refl _).append (alike_whereClause h.predicates)

/-! ### writes and look-ups -/

theorem forall₂_of_columns {vs ws : Assignments} (h : vs.map (·.1) = ws.map (·.1)) :
    List.Forall₂ (fun a b => a.1 = b.1) vs ws :=
  List.forall₂_map_left_iff.1 (List.forall₂_map_right_iff.1 (h ▸ List.forall₂_refl _))

theorem alike_insert (e : Entity) {vs ws : Assignments} (h : vs.map (·.1) = ws.map (·.1)) :
    Alike (insert e vs) (insert e ws) := by
  have hnames : vs.map (fun a => quoted a.1) = ws.map fun a => quoted a.1 := by
    have hmap := congrArg (List.map quoted) h
    rw [List.map_map, List.map_map] at hmap
    exact hmap
  have hvalues : List.Forall₂ Alike (vs.map fun a => boundFor e a.1 a.2)
      (ws.map fun a => boundFor e a.1 a.2) := by
    refine List.rel_map (fun a b hab => ?_) (forall₂_of_columns h)
    rw [hab]
    exact .bound _ _ _
  unfold insert
  rw [hnames]
  exact ((Alike.refl _).append (.joinWith ", " hvalues)).append (.refl _)

theorem alike_update (e : Entity) (id id' : String) {vs ws : Assignments}
    (h : vs.map (·.1) = ws.map (·.1)) : Alike (update e id vs) (update e id' ws) := by
  have hsets : List.Forall₂ Alike (vs.map (setClause e)) (ws.map (setClause e)) := by
    refine List.rel_map (fun a b hab => ?_) (forall₂_of_columns h)
    unfold setClause boundFor
    rw [hab]
    exact (Alike.refl _).append (.bound _ _ _)
  have hstamps : List.Forall₂ Alike (stampClauses e) (stampClauses e) :=
    List.forall₂_same.2 fun f _ => .refl f
  exact (((Alike.refl _).append (.joinWith ", " (List.rel_append hsets hstamps))).append
    (.refl _)).append (.bound _ _ _)

theorem alike_delete (e : Entity) (id id' : String) : Alike (delete e id) (delete e id') :=
  ((Alike.refl _).append (.bound _ _ _)).append (.refl _)

theorem alike_rowExists (e : Entity) (id id' : String) : Alike (rowExists e id) (rowExists e id') :=
  ((Alike.refl _).append (.bound _ _ _)).append (.refl _)

theorem alike_nameTaken (e : Entity) (name exceptId name' exceptId' : String) :
    Alike (nameTaken e name exceptId) (nameTaken e name' exceptId') :=
  ((((Alike.refl _).append (.uncast _ _)).append (.refl _)).append (.uncast _ _)).append (.refl _)

theorem alike_relatedRows (e : Entity) (column : String) {vs ws : List SqlValue}
    (h : vs.length = ws.length) : Alike (relatedRows e column vs) (relatedRows e column ws) := by
  have hempty : vs.isEmpty = ws.isEmpty := by
    rw [Bool.eq_iff_iff, List.isEmpty_iff_length_eq_zero, List.isEmpty_iff_length_eq_zero, h]
  simp only [relatedRows, hempty]
  split
  · exact .refl _
  · exact ((Alike.refl _).append (.joinWith ", " (alike_bounds _ h))).append (.refl _)

theorem alike_databaseExists (name name' : String) :
    Alike (databaseExists name) (databaseExists name') :=
  ((Alike.refl _).append (.uncast _ _)).append (.refl _)

end Sql

/-! ### statements -/

/-- the same statement but for its values: conditions and order of a read, the keys that rows are
looked up by, what a write assigns and which row it is about -/
inductive Statement.Alike : Statement → Statement → Prop where
  | select (schema : Schema) {plan other : SelectPlan} (h : plan.Alike other) :
    Alike (.select schema plan) (.select schema other)
  | count (schema : Schema) {plan other : SelectPlan} (h : plan.Alike other) :
    Alike (.count schema plan) (.count schema other)
  | related (e : Entity) (column : String) {keys others : List SqlValue}
    (h : keys.length = others.length) : Alike (.related e column keys) (.related e column others)
  | rowExists (e : Entity) (id id' : String) : Alike (.rowExists e id) (.rowExists e id')
  | nameTaken (e : Entity) (name exceptId name' exceptId' : String) :
    Alike (.nameTaken e name exceptId) (.nameTaken e name' exceptId')
  | insert (e : Entity) {values others : Sql.Assignments}
    (h : values.map (·.1) = others.map (·.1)) : Alike (.insert e values) (.insert e others)
  | update (e : Entity) (id id' : String) {values others : Sql.Assignments}
    (h : values.map (·.1) = others.map (·.1)) : Alike (.update e id values) (.update e id' others)
  | delete (e : Entity) (id id' : String) : Alike (.delete e id) (.delete e id')
  | databaseExists (name name' : String) : Alike (.databaseExists name) (.databaseExists name')

theorem Statement.alike_fragment {s t : Statement} (h : s.Alike t) :
    Sql.Fragment.Alike s.fragment t.fragment := by
  cases h with
  | select schema h => exact Sql.alike_select h
  | count schema h => exact Sql.alike_count h
  | related e column h => exact Sql.alike_relatedRows e column h
  | rowExists e id id' => exact Sql.alike_rowExists e id id'
  | nameTaken e name exceptId name' exceptId' =>
    exact Sql.alike_nameTaken e name exceptId name' exceptId'
  | insert e h => exact Sql.alike_insert e h
  | update e id id' h => exact Sql.alike_update e id id' h
  | delete e id id' => exact Sql.alike_delete e id id'
  | databaseExists name name' => exact Sql.alike_databaseExists name name'

/-- values never reach the text of a statement: statements that differ in nothing but their values
have one text, and bind as many values to its placeholders -/
theorem text_independent_of_values {s t : Statement} (h : s.Alike t) :
    s.fragment.text = t.fragment.text ∧ s.fragment.params.length = t.fragment.params.length :=
  ⟨(Statement.alike_fragment h).text_eq, (Statement.alike_fragment h).length_params⟩

/-- a page of the owners of tasks whose state is like a pattern and whose effort is none of some -/
def ownersLike (pattern : String) (efforts : List SqlValue) : SelectPlan where
  entity := usersEntity
  joins := Dict.ofList [("tasks", ⟨"j_tasks", "tasks", tasksOfOwner, rootAlias⟩)]
  predicates := [.like ⟨"j_tasks", "state", .text⟩ pattern true false,
    .list ⟨"j_tasks", "effort", .integer⟩ efforts .noneOf]
  order := [.column ⟨"j_tasks", "state", .text⟩ true, .column ⟨rootAlias, primaryKey, .text⟩ false]
  limit := some 10
  offset := some 20

/-- a pattern that reads like a statement is bound like any other -/
theorem ownersLike_text :
    (Statement.select tasksSchema (ownersLike "open" [.int 1, .null])).Alike
        (.select tasksSchema (ownersLike "'; DROP TABLE users; --" [.int 2, .int 3])) ∧
      (Sql.select tasksSchema (ownersLike "open" [.int 1, .null])).text =
        (Sql.select tasksSchema (ownersLike "'; DROP TABLE users; --" [.int 2, .int 3])).text ∧
      (Sql.select tasksSchema (ownersLike "'; DROP TABLE users; --" [.int 2, .int 3])).params =
        [.text "'; DROP TABLE users; --", .int 2, .int 3] := by
  have halike : (Statement.select tasksSchema (ownersLike "open" [.int 1, .null])).Alike
      (.select tasksSchema (ownersLike "'; DROP TABLE users; --" [.int 2, .int 3])) := by
    refine .select _ ⟨rfl, rfl, .cons ?_ (.cons ?_ .nil), .cons ?_ (.cons ?_ .nil), rfl, rfl⟩
    · exact .like _ _ _ _ _
    · exact .list _ _ rfl
    · exact .column _ _
    · exact .column _ _
  exact ⟨halike, (text_independent_of_values halike).1, rfl⟩

end EntityAccess
