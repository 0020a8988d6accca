import EntityAccess.Proofs.Pages.Slices

/-!
# folded values and the values that come first

A page orders a root by one value of each joined column.  Aggregates leave nulls out, but in
descending order nulls come first; so the folded value is the one that comes first unless the order
is descending and some but not all of the values are null.  Json is folded as text, in the order of
texts.

* `Engine.Standard` : how a server orders nulls and truth values;
* `aggregateOf_eq` : what a column is folded by;
* `tied_foremost_iff` : when the foremost value is tied with one that comes first;
* `truth_of_folded` : of truth values, a conjunction or a disjunction;
* `folded_first_iff` : when the folded value of a column comes first.
-/

namespace EntityAccess

open Engine Sql Sql.Fragment

/-- nulls come after all values, false before true, and only null has no text -/
structure Engine.Standard (E : Engine) : Prop where
  le_null : ∀ v, E.le v .null = true
  not_null_le : ∀ v, v.isNull = false → E.le .null v = false
  le_bool : ∀ a b, E.le (.bool a) (.bool b) = true ↔ (a = true → b = true)
  isNull_textOf : ∀ v, (E.textOf v).isNull = v.isNull

/-! ### what a column is folded by -/

/-- a joined column as it is folded -/
def foldedExpr (c : ColumnRef) : Expr := if c.type = .json then .textOf c else .column c

theorem foldedExpr_of_ne_json {c : ColumnRef} (h : c.type ≠ .json) : foldedExpr c = .column c :=
  if_neg h

def aggregateFor (type : ColumnType) (descending : Bool) : Aggregate :=
  if type = .boolean then if descending then .boolOr else .boolAnd
  else if descending then .max else .min

theorem takesGreatest_aggregateFor (type : ColumnType) (descending : Bool) :
    (aggregateFor type descending).takesGreatest = descending := by
  unfold aggregateFor
  cases descending <;> by_cases h : type = .boolean <;> simp [h, Aggregate.takesGreatest]

theorem aggregateOf_eq (c : ColumnRef) (descending : Bool) :
    OrderTerm.aggregateOf c descending =
      .folded (aggregateFor c.type descending) (foldedExpr c) := by
  obtain ⟨a, n, type⟩ := c
  cases type <;> cases descending <;> rfl

theorem groupExpr_column {c : ColumnRef} (hc : c.tableAlias ≠ rootAlias) (descending : Bool) :
    (OrderTerm.column c descending).groupExpr =
      .folded (aggregateFor c.type descending) (foldedExpr c) := by
  show (if c.tableAlias = rootAlias then _ else _) = _
  rw [if_neg hc, aggregateOf_eq]

variable {E : Engine}

/-! ### one value of many -/

section

variable (hE : E.Standard) {d : Bool} {vs : List SqlValue} {v : SqlValue}
  (hv : Foremost E.le d vs v)

include hE hv

/-- of truth values the foremost is a conjunction in ascending order, else a disjunction -/
theorem truth_of_foremost (hbool : ∀ w ∈ vs, w.isNull = false → ∃ b, w = .bool b)
    (hsome : ∃ w ∈ vs, w.isNull = false) : ∃ b, v = .bool b ∧ (b = d ↔ .bool d ∈ vs) := by
  obtain ⟨u, hu, hno⟩ := hsome
  obtain ⟨hmem, hvalue, _⟩ := hv.of_value u hu hno
  obtain ⟨b, rfl⟩ := hbool v hmem hvalue
  refine ⟨b, rfl, ?_, ?_⟩
  · rintro rfl
    exact hmem
  · intro hd
    have hle := (hv.of_value _ hd rfl).2.2
    cases d with
    | false =>
      have himp := (hE.le_bool b false).1 hle
      cases b with
      | false => rfl
      | true => exact absurd (himp rfl) (by decide)
    | true => exact (hE.le_bool true b).1 hle rfl

/-- a foremost value is tied with those of the values that are foremost as well -/
theorem tied_foremost_iff {w : SqlValue} (hw : w ∈ vs) :
    E.tied v w ↔ (w.isNull = true → ∀ u ∈ vs, u.isNull = true) ∧
      ∀ u ∈ vs, u.isNull = false → E.before d w u = true := by
  cases hnull : w.isNull with
  | true =>
    obtain rfl := eq_null_of_isNull hnull
    constructor
    · intro htied
      have hall : ∀ u ∈ vs, u.isNull = true := by
        intro u hu
        by_contra hno
        have hvalue := (hv.of_value u hu (by simpa using hno)).2.1
        have hle := htied.2
        rw [hE.not_null_le v hvalue] at hle
        cases hle
      exact ⟨fun _ => hall, fun u hu hno => by rw [hall u hu] at hno; cases hno⟩
    · rintro ⟨hall, _⟩
      rw [hv.of_null (hall rfl)]
      exact E.tied_refl _
  | false =>
    obtain ⟨hmem, hvalue, hvw⟩ := hv.of_value w hw hnull
    rw [E.tied_iff d]
    constructor
    · rintro ⟨_, hwv⟩
      exact ⟨fun h => (by cases h), fun u hu hno => E.before_trans hwv (hv.of_value u hu hno).2.2⟩
    · rintro ⟨_, hall⟩
      exact ⟨hvw, hall v hmem hvalue⟩

/-- where no two values are tied but equal ones, the foremost is one of them -/
theorem eq_of_tied_foremost {w : SqlValue} (hw : w ∈ vs) (hone : ∀ u ∈ vs, E.tied u w → u = w)
    (h : E.tied v w) : v = w := by
  cases hnull : w.isNull with
  | true =>
    rw [hv.of_null (((tied_foremost_iff hE hv hw).1 h).1 hnull), eq_null_of_isNull hnull]
  | false => exact hone v (hv.of_value w hw hnull).1 h

end

/-! ### the rows of one root -/

/-- some of the values of a column are null, others are not -/
def MixesNulls (c : ColumnRef) (rows : List Joined) : Prop :=
  (∃ r ∈ rows, (r.cell c).isNull = true) ∧ ∃ r ∈ rows, (r.cell c).isNull = false

theorem isNull_foldedExpr (hE : E.Standard) (c : ColumnRef) (r : Joined) :
    (E.value r (foldedExpr c)).isNull = (r.cell c).isNull := by
  unfold foldedExpr
  split
  · exact hE.isNull_textOf _
  · rfl

section

variable (hE : E.Standard) {c : ColumnRef} {d : Bool} {rows ordered : List Joined} {first : Joined}
  (ho : E.Ordered (E.rowKeys [.column c d]) rows (first :: ordered))

include ho

theorem before_of_first {r : Joined} (hr : r ∈ rows) :
    E.before d (first.cell c) (r.cell c) = true := by
  rcases List.mem_cons.1 (ho.perm.mem_iff.2 hr) with rfl | hr
  · exact E.before_refl d _
  · exact ((List.pairwise_cons.1 ho.pairwise).1 r hr).1

include hE

/-- a null comes first where there is no other value, or in descending order -/
theorem nulls_of_first :
    ((first.cell c).isNull = true → ∀ r ∈ rows, (r.cell c).isNull = true) ↔
      ¬ (d = true ∧ MixesNulls c rows) := by
  constructor
  · rintro hall ⟨rfl, ⟨r, hr, hnull⟩, s, hs, hno⟩
    cases hfirst : (first.cell c).isNull with
    | true =>
      rw [hall hfirst s hs] at hno
      cases hno
    | false =>
      have hle := before_of_first ho hr
      rw [eq_null_of_isNull hnull] at hle
      have hnot := hE.not_null_le _ hfirst
      exact absurd (hnot.symm.trans hle) (by decide)
  · intro hnot hnull r hr
    by_contra hno
    have hno : (r.cell c).isNull = false := by simpa using hno
    have hmem : first ∈ rows := ho.perm.mem_iff.1 List.mem_cons_self
    cases d with
    | true => exact hnot ⟨rfl, ⟨first, hmem, hnull⟩, r, hr, hno⟩
    | false =>
      have hle := before_of_first ho hr
      rw [eq_null_of_isNull hnull] at hle
      exact absurd ((hE.not_null_le _ hno).symm.trans hle) (by decide)

end

theorem foremost_folded {c : ColumnRef} (hc : c.tableAlias ≠ rootAlias) (d : Bool)
    (rows : List Joined) :
    Foremost E.le d (rows.map (E.value · (foldedExpr c)))
      (E.groupValue rows (OrderTerm.column c d).groupExpr) := by
  have h := E.aggregate_foremost (aggregateFor c.type d) (rows.map (E.value · (foldedExpr c)))
  rw [takesGreatest_aggregateFor] at h
  rw [groupExpr_column hc]
  exact h

section

variable (hE : E.Standard) {c : ColumnRef} (hc : c.tableAlias ≠ rootAlias) {d : Bool}
  {rows ordered : List Joined} {first : Joined}
  (ho : E.Ordered (E.rowKeys [.column c d]) rows (first :: ordered))

include hE hc ho

theorem tied_folded_iff :
    E.tied (E.groupValue rows (OrderTerm.column c d).groupExpr) (E.value first (foldedExpr c)) ↔
      ¬ (d = true ∧ MixesNulls c rows) ∧
      (c.type = .json → ∀ r ∈ rows, (r.cell c).isNull = false →
        E.before d (E.textOf (first.cell c)) (E.textOf (r.cell c)) = true) := by
  have hmem : first ∈ rows := ho.perm.mem_iff.1 List.mem_cons_self
  have htie := tied_foremost_iff hE (foremost_folded hc d rows)
    (List.mem_map.2 ⟨first, hmem, rfl⟩)
  simp only [List.forall_mem_map, isNull_foldedExpr hE] at htie
  rw [nulls_of_first hE ho] at htie
  refine htie.trans (and_congr_right fun _ => ?_)
  by_cases hjson : c.type = .json
  · have hexpr : foldedExpr c = .textOf c := if_pos hjson
    rw [hexpr]
    exact ⟨fun h _ => h, fun h => h hjson⟩
  · rw [foldedExpr_of_ne_json hjson]
    exact ⟨fun _ h => absurd h hjson, fun _ r hr _ => before_of_first ho hr⟩

theorem folded_eq_first_iff (hjson : c.type ≠ .json)
    (hone : ∀ r ∈ rows, E.tied (r.cell c) (first.cell c) → r.cell c = first.cell c) :
    E.groupValue rows (OrderTerm.column c d).groupExpr = first.cell c ↔
      ¬ (d = true ∧ MixesNulls c rows) := by
  have hmem : first ∈ rows := ho.perm.mem_iff.1 List.mem_cons_self
  have htie := tied_folded_iff hE hc ho
  have hfold := foremost_folded (E := E) hc d rows
  rw [foldedExpr_of_ne_json hjson] at htie hfold
  constructor
  · intro heq
    refine (htie.1 ?_).1
    rw [heq]
    exact E.tied_refl _
  · intro hnulls
    exact eq_of_tied_foremost hE hfold (List.mem_map.2 ⟨first, hmem, rfl⟩)
      (List.forall_mem_map.2 hone) (htie.2 ⟨hnulls, fun h => absurd h hjson⟩)

end

theorem truth_of_folded (hE : E.Standard) {c : ColumnRef} (hc : c.tableAlias ≠ rootAlias) (d : Bool)
    {rows : List Joined} (htype : c.type = .boolean)
    (hbool : ∀ r ∈ rows, (r.cell c).isNull = false → ∃ b, r.cell c = .bool b)
    (hsome : ∃ r ∈ rows, (r.cell c).isNull = false) :
    ∃ b, E.groupValue rows (OrderTerm.column c d).groupExpr = .bool b ∧
      (b = d ↔ ∃ r ∈ rows, r.cell c = .bool d) := by
  have hfold := foremost_folded (E := E) hc d rows
  rw [foldedExpr_of_ne_json (by rw [htype]; decide)] at hfold
  obtain ⟨r, hr, hno⟩ := hsome
  obtain ⟨b, hb, hiff⟩ := truth_of_foremost hE hfold (List.forall_mem_map.2 hbool)
    ⟨_, List.mem_map_of_mem hr, hno⟩
  refine ⟨b, hb, hiff.trans ?_⟩
  rw [List.mem_map]
  rfl

/-- the folded value of a joined column is the one that comes first, unless the order is descending
and some but not all values are null, or, in json, another text comes before -/
theorem folded_first_iff (hE : E.Standard) {c : ColumnRef} (hc : c.tableAlias ≠ rootAlias)
    {d : Bool} {rows ordered : List Joined} {first : Joined}
    (ho : E.Ordered (E.rowKeys [.column c d]) rows (first :: ordered)) :
    (OrderTerm.column c d).groupExpr.render = sql [orderAggregate c d] ∧
    Foremost E.le d (rows.map (E.value · (foldedExpr c)))
      (E.groupValue rows (OrderTerm.column c d).groupExpr) ∧
    (E.tied (E.groupValue rows (OrderTerm.column c d).groupExpr) (E.value first (foldedExpr c)) ↔
      ¬ (d = true ∧ MixesNulls c rows) ∧
      (c.type = .json → ∀ r ∈ rows, (r.cell c).isNull = false →
        E.before d (E.textOf (first.cell c)) (E.textOf (r.cell c)) = true)) ∧
    (c.type ≠ .json → (∀ r ∈ rows, E.tied (r.cell c) (first.cell c) → r.cell c = first.cell c) →
      (E.groupValue rows (OrderTerm.column c d).groupExpr = first.cell c ↔
        ¬ (d = true ∧ MixesNulls c rows))) ∧
    (c.type = .boolean → (∀ r ∈ rows, (r.cell c).isNull = false → ∃ b, r.cell c = .bool b) →
      (∃ r ∈ rows, (r.cell c).isNull = false) →
      ∃ b, E.groupValue rows (OrderTerm.column c d).groupExpr = .bool b ∧
        (b = d ↔ ∃ r ∈ rows, r.cell c = .bool d)) := by
  refine ⟨?_, foremost_folded hc d rows, tied_folded_iff hE hc ho, folded_eq_first_iff hE hc ho,
    truth_of_folded hE hc d⟩
  rw [groupExpr_column hc, ← aggregateOf_eq]
  exact render_aggregateOf c d

/-! ### owners by the efforts of their tasks -/

theorem standard_smallEngine : smallEngine.Standard where
  le_null v := by
    refine decide_eq_true ?_
    cases v <;> simp [SqlValue.place, Prod.Lex.toLex_le_toLex]
  not_null_le v h := by
    refine decide_eq_false ?_
    cases v with
    | null => cases h
    | _ => simp [SqlValue.place, Prod.Lex.toLex_le_toLex]
  le_bool a b := by cases a <;> cases b <;> decide
  isNull_textOf _ := rfl

def effort : ColumnRef := ⟨"j_tasks", "effort", .integer⟩

/-- a task without an effort -/
def openTask : Tuple :=
  .ofList [("id", .text "1"), ("owner_id", .text "a"), ("state", .text "open"),
    ("created_at", .dateTime sampleTime)]

/-- an owner of two tasks, one of them without an effort -/
def effortsContent : Content := fun table =>
  if table = tableOf usersEntity then [ownerRow "a"]
  else if table = tableOf tasksEntity then [openTask, taskRow "2" "a" "open" 1]
  else []

def efforts : List Joined :=
  [⟨ownerRow "a", [("j_tasks", openTask)]⟩, ownerAndTask "a" "2" "open" 1]

theorem rows_effortsContent (terms : List OrderTerm) :
    smallEngine.rows tasksSchema effortsContent (ownersPlan terms) = efforts := by
  have htable : joinedTable tasksSchema joinOfTasks = tableOf tasksEntity := by rfl
  have husers : effortsContent (tableOf usersEntity) = [ownerRow "a"] := if_pos rfl
  have htasks : effortsContent (tableOf tasksEntity) =
      [openTask, taskRow "2" "a" "open" 1] := by
    unfold effortsContent
    rw [if_neg (by decide), if_pos rfl]
  rw [rows_ownersPlan_eq]
  unfold joinOne
  rw [husers, htable, htasks]
  rfl

/-- in ascending order the null comes last -/
theorem effort_ascending :
    smallEngine.groupValue efforts (OrderTerm.column effort false).groupExpr = .int 1 := by
  have ho : smallEngine.Ordered (smallEngine.rowKeys [.column effort false]) efforts
      (ownerAndTask "a" "2" "open" 1 :: [⟨ownerRow "a", [("j_tasks", openTask)]⟩]) :=
    ⟨.swap _ _ _, by decide⟩
  have hone : ∀ r ∈ efforts, smallEngine.tied (r.cell effort) (.int 1) →
      r.cell effort = .int 1 := by
    simp only [efforts, List.forall_mem_cons, List.not_mem_nil, false_imp_iff, implies_true,
      and_true]
    exact ⟨fun h => absurd h.1 (by decide), fun _ => rfl⟩
  obtain ⟨_, _, _, hequal, _⟩ := folded_first_iff standard_smallEngine (by decide) ho
  exact (hequal (by decide) hone).2 (by simp)

/-- in descending order the null comes first, and is left out -/
theorem effort_descending :
    smallEngine.Standard ∧ effort.tableAlias ≠ rootAlias ∧
      planOf tasksSchema usersEntity [] [⟨["tasks"], "effort", true⟩] .paged =
        .ok (ownersPlan [.column effort true]) ∧
      smallEngine.rows tasksSchema effortsContent (ownersPlan [.column effort true]) = efforts ∧
      smallEngine.Ordered (smallEngine.rowKeys [.column effort true]) efforts efforts ∧
      efforts.head?.map (·.cell effort) = some .null ∧
      smallEngine.groupValue efforts (OrderTerm.column effort true).groupExpr = .int 1 ∧
      ¬ smallEngine.tied (.int 1) .null :=
  ⟨standard_smallEngine, by decide, by rfl, rows_effortsContent _, ⟨.refl _, by decide⟩, by rfl,
    by rfl, fun h => absurd h.2 (by decide)⟩

end EntityAccess
