import EntityAccess.Proofs.Sql.Grouping
import Mathlib.Data.Prod.Lex
import Mathlib.Data.String.Basic

/-!
# what is assumed of a database server

Values are ordered, nulls among them; a list of keys orders lexicographically.  An aggregate gives
the least or the greatest of the values that are not null.  How the server compares, matches and
ranks is left open otherwise.

* `Engine` : these assumptions;
* `precedes_total`, `precedes_trans` : keys order everything;
* `tied_of_precedes` : what stands before each other has tied keys;
* `precedes_congr` : tied keys order alike;
* `exists_ordered` : everything can be put in order.
-/

namespace EntityAccess

/-- the order of values in a direction -/
def inDirection (le : SqlValue → SqlValue → Bool) (descending : Bool) (v w : SqlValue) : Bool :=
  if descending then le w v else le v w

/-- the first of the values that are not null, in a direction; null if there is none -/
structure Foremost (le : SqlValue → SqlValue → Bool) (descending : Bool) (vs : List SqlValue)
    (v : SqlValue) : Prop where
  of_null : (∀ w ∈ vs, w.isNull = true) → v = .null
  of_value : ∀ w ∈ vs, w.isNull = false →
    v ∈ vs ∧ v.isNull = false ∧ inDirection le descending v w = true

structure Engine where
  /-- a value does not come after another in ascending order -/
  le : SqlValue → SqlValue → Bool
  le_total : ∀ v w, le v w = true ∨ le w v = true
  le_trans : ∀ u v w, le u v = true → le v w = true → le u w = true
  le_antisymm : ∀ s t, le (.text s) (.text t) = true → le (.text t) (.text s) = true → s = t
  /-- two values are joined -/
  equal : SqlValue → SqlValue → Bool
  equal_text : ∀ s t, equal (.text s) (.text t) = true ↔ s = t
  /-- a condition on a joined row is true -/
  holds : Predicate → (ColumnRef → SqlValue) → Bool
  textOf : SqlValue → SqlValue
  rank : SqlValue → String → String → SqlValue
  aggregate : Aggregate → List SqlValue → SqlValue
  aggregate_foremost : ∀ a vs, Foremost le a.takesGreatest vs (aggregate a vs)

namespace Engine

variable (E : Engine)

/-! ### one key -/

/-- a value does not come after another in a direction -/
def before (descending : Bool) (v w : SqlValue) : Bool := inDirection E.le descending v w

/-- neither value comes after the other -/
def tied (v w : SqlValue) : Prop := E.le v w = true ∧ E.le w v = true

theorem before_total (d : Bool) (v w : SqlValue) :
    E.before d v w = true ∨ E.before d w v = true := by
  cases d
  · exact E.le_total v w
  · exact E.le_total w v

theorem before_refl (d : Bool) (v : SqlValue) : E.before d v v = true := by
  simpa using E.before_total d v v

theorem before_trans {d : Bool} {u v w : SqlValue} (huv : E.before d u v = true)
    (hvw : E.before d v w = true) : E.before d u w = true := by
  cases d
  · exact E.le_trans u v w huv hvw
  · exact E.le_trans w v u hvw huv

theorem tied_iff (d : Bool) {v w : SqlValue} :
    E.tied v w ↔ E.before d v w = true ∧ E.before d w v = true := by
  cases d
  · exact Iff.rfl
  · exact And.comm

theorem tied_refl (v : SqlValue) : E.tied v v := ⟨E.before_refl false v, E.before_refl false v⟩

variable {E}

theorem tied.symm {v w : SqlValue} (h : E.tied v w) : E.tied w v := ⟨h.2, h.1⟩

theorem tied.trans {u v w : SqlValue} (huv : E.tied u v) (hvw : E.tied v w) : E.tied u w :=
  ⟨E.le_trans u v w huv.1 hvw.1, E.le_trans w v u hvw.2 huv.2⟩

theorem before_congr {d : Bool} {v v' w w' : SqlValue} (hv : E.tied v v') (hw : E.tied w w') :
    E.before d v w = true ↔ E.before d v' w' = true := by
  have hv := (E.tied_iff d).1 hv
  have hw := (E.tied_iff d).1 hw
  exact ⟨fun h => E.before_trans (E.before_trans hv.2 h) hw.1,
    fun h => E.before_trans (E.before_trans hv.1 h) hw.2⟩

/-- aggregates of the same values are tied -/
theorem tied_aggregate (a : Aggregate) {vs ws : List SqlValue} (h : vs.Perm ws) :
    E.tied (E.aggregate a vs) (E.aggregate a ws) := by
  have hv := E.aggregate_foremost a vs
  have hw := E.aggregate_foremost a ws
  by_cases hnull : ∀ u ∈ vs, u.isNull = true
  · rw [hv.of_null hnull, hw.of_null fun u hu => hnull u (h.mem_iff.2 hu)]
    exact E.tied_refl _
  · obtain ⟨u, hu, hno⟩ : ∃ u ∈ vs, u.isNull = false := by simpa using hnull
    obtain ⟨hvmem, hvno, _⟩ := hv.of_value u hu hno
    obtain ⟨hwmem, hwno, _⟩ := hw.of_value u (h.mem_iff.1 hu) hno
    exact (E.tied_iff a.takesGreatest).2
      ⟨(hv.of_value _ (h.mem_iff.2 hwmem) hwno).2.2, (hw.of_value _ (h.mem_iff.1 hvmem) hvno).2.2⟩

theorem eq_null_of_isNull {v : SqlValue} (h : v.isNull = true) : v = .null := by
  cases v <;> first
    | rfl
    | cases h

/-- an aggregate of one value, however often it is there -/
theorem tied_aggregate_of_forall (a : Aggregate) {vs : List SqlValue} {v : SqlValue} (hv : v ∈ vs)
    (hall : ∀ w ∈ vs, w = v) : E.tied v (E.aggregate a vs) := by
  have hfold := E.aggregate_foremost a vs
  cases hnull : v.isNull with
  | true =>
    rw [hfold.of_null fun w hw => hall w hw ▸ hnull, eq_null_of_isNull hnull]
    exact E.tied_refl _
  | false =>
    rw [hall _ (hfold.of_value v hv hnull).1]
    exact E.tied_refl _

/-! ### several keys -/

variable (E) {α β : Type}

/-- the values that something is ordered by, each descending or not -/
abbrev Keys (α : Type) := List ((α → SqlValue) × Bool)

/-- the lexicographic order of keys -/
def Precedes : Keys α → α → α → Prop
  | [], _, _ => True
  | (f, d) :: ks, a, b =>
    E.before d (f a) (f b) = true ∧ (E.before d (f b) (f a) = true → Precedes ks a b)

variable {E} {ks : Keys α}

instance decidablePrecedes : (ks : Keys α) → (a b : α) → Decidable (E.Precedes ks a b)
  | [], _, _ => .isTrue trivial
  | (_, _) :: ks, a, b =>
    have := decidablePrecedes ks a b
    inferInstanceAs (Decidable (_ ∧ (_ → _)))

theorem precedes_refl (ks : Keys α) (a : α) : E.Precedes ks a a := by
  induction ks with
  | nil => trivial
  | cons k ks ih => exact ⟨E.before_refl _ _, fun _ => ih⟩

theorem precedes_total (ks : Keys α) (a b : α) : E.Precedes ks a b ∨ E.Precedes ks b a := by
  induction ks with
  | nil => exact .inl trivial
  | cons k ks ih =>
    obtain ⟨f, d⟩ := k
    by_cases hab : E.before d (f a) (f b) = true
    · by_cases hba : E.before d (f b) (f a) = true
      · exact ih.imp (fun h => ⟨hab, fun _ => h⟩) (fun h => ⟨hba, fun _ => h⟩)
      · exact .inl ⟨hab, fun h => absurd h hba⟩
    · exact .inr ⟨(E.before_total d _ _).resolve_left hab, fun h => absurd h hab⟩

theorem precedes_trans {a b c : α} (hab : E.Precedes ks a b) (hbc : E.Precedes ks b c) :
    E.Precedes ks a c := by
  induction ks with
  | nil => trivial
  | cons k ks ih =>
    obtain ⟨f, d⟩ := k
    refine ⟨E.before_trans hab.1 hbc.1, fun hca => ?_⟩
    exact ih (hab.2 (E.before_trans hbc.1 hca)) (hbc.2 (E.before_trans hca hab.1))

/-- what stands before each other has tied keys -/
theorem tied_of_precedes {a b : α} (hab : E.Precedes ks a b) (hba : E.Precedes ks b a)
    {k : (α → SqlValue) × Bool} (hk : k ∈ ks) : E.tied (k.1 a) (k.1 b) := by
  induction ks with
  | nil => simp at hk
  | cons k' ks ih =>
    rcases List.mem_cons.1 hk with rfl | hk
    · exact (E.tied_iff k.2).2 ⟨hab.1, hba.1⟩
    · exact ih (hab.2 hba.1) (hba.2 hab.1) hk

/-- tied keys order alike -/
theorem precedes_congr {a b a' b' : α} (ha : ∀ k ∈ ks, E.tied (k.1 a) (k.1 a'))
    (hb : ∀ k ∈ ks, E.tied (k.1 b) (k.1 b')) : E.Precedes ks a b ↔ E.Precedes ks a' b' := by
  induction ks with
  | nil => exact Iff.rfl
  | cons k ks ih =>
    obtain ⟨f, d⟩ := k
    rw [List.forall_mem_cons] at ha hb
    exact and_congr (before_congr ha.1 hb.1)
      (imp_congr (before_congr hb.1 ha.1) (ih ha.2 hb.2))

/-- keys that are read off something else -/
theorem precedes_map (g : β → α) (ks : Keys α) (a b : β) :
    E.Precedes (ks.map fun k => (fun x => k.1 (g x), k.2)) a b ↔ E.Precedes ks (g a) (g b) := by
  induction ks with
  | nil => exact Iff.rfl
  | cons k ks ih => exact and_congr Iff.rfl (imp_congr Iff.rfl ih)

variable (E) in
/-- a list in the order of keys -/
structure Ordered (ks : Keys α) (l ordered : List α) : Prop where
  perm : ordered.Perm l
  pairwise : ordered.Pairwise (E.Precedes ks)

/-- everything can be put in order -/
theorem exists_ordered (E : Engine) (ks : Keys α) (l : List α) : ∃ l', E.Ordered ks l l' := by
  classical
  refine ⟨l.mergeSort fun a b => decide (E.Precedes ks a b), List.mergeSort_perm l _, ?_⟩
  refine (List.pairwise_mergeSort ?_ ?_ l).imp of_decide_eq_true
  · intro a b c hab hbc
    exact decide_eq_true (precedes_trans (of_decide_eq_true hab) (of_decide_eq_true hbc))
  · intro a b
    simpa using precedes_total ks a b

end Engine

/-! ### a small server -/

/-- the first of some values in a direction -/
def firstOf (le : SqlValue → SqlValue → Bool) (descending : Bool) (v : SqlValue) :
    List SqlValue → SqlValue
  | [] => v
  | w :: ws => firstOf le descending (if inDirection le descending v w then v else w) ws

/-- the first of the values that are not null -/
def foremostOf (le : SqlValue → SqlValue → Bool) (descending : Bool) (vs : List SqlValue) :
    SqlValue :=
  match vs.filter fun v => !v.isNull with
  | [] => .null
  | v :: vs => firstOf le descending v vs

section

variable {le : SqlValue → SqlValue → Bool} (total : ∀ v w, le v w = true ∨ le w v = true)
  (trans : ∀ u v w, le u v = true → le v w = true → le u w = true) (d : Bool)

include total trans

theorem firstOf_spec (v : SqlValue) (ws : List SqlValue) :
    firstOf le d v ws ∈ v :: ws ∧
      ∀ w ∈ v :: ws, inDirection le d (firstOf le d v ws) w = true := by
  have htotal : ∀ v w, inDirection le d v w = true ∨ inDirection le d w v = true := by
    cases d
    · exact total
    · exact fun v w => total w v
  have htrans : ∀ {u v w}, inDirection le d u v = true → inDirection le d v w = true →
      inDirection le d u w = true := by
    cases d
    · exact trans _ _ _
    · exact fun huv hvw => trans _ _ _ hvw huv
  have hrefl : ∀ v, inDirection le d v v = true := fun v => (htotal v v).elim id id
  induction ws generalizing v with
  | nil => exact ⟨List.mem_cons_self, by simpa [firstOf] using hrefl v⟩
  | cons w ws ih =>
    obtain ⟨hmem, hall⟩ := ih (if inDirection le d v w then v else w)
    rw [List.forall_mem_cons] at hall
    unfold firstOf
    by_cases hvw : inDirection le d v w = true
    · simp only [hvw, if_true] at hmem hall ⊢
      refine ⟨?_, List.forall_mem_cons.2 ⟨hall.1, List.forall_mem_cons.2 ⟨?_, hall.2⟩⟩⟩
      · exact List.cons_subset_cons _ (List.subset_cons_self _ _) hmem
      · exact htrans hall.1 hvw
    · simp only [hvw] at hmem hall ⊢
      refine ⟨List.mem_cons_of_mem _ hmem, List.forall_mem_cons.2 ⟨?_, List.forall_mem_cons.2 hall⟩⟩
      exact htrans hall.1 ((htotal v w).resolve_left hvw)

theorem foremost_foremostOf (vs : List SqlValue) : Foremost le d vs (foremostOf le d vs) := by
  have hmem : ∀ w, w ∈ vs.filter (fun v => !v.isNull) ↔ w ∈ vs ∧ w.isNull = false := by
    simp [List.mem_filter]
  unfold foremostOf
  cases hvs : vs.filter fun v => !v.isNull with
  | nil =>
    rw [hvs] at hmem
    exact ⟨fun _ => rfl, fun w hw hno => by simpa using (hmem w).2 ⟨hw, hno⟩⟩
  | cons v ws =>
    rw [hvs] at hmem
    obtain ⟨hin, hall⟩ := firstOf_spec total trans d v ws
    refine ⟨fun hnull => ?_, fun w hw hno => ?_⟩
    · obtain ⟨hv, hno⟩ := (hmem v).1 List.mem_cons_self
      simp [hnull v hv] at hno
    · obtain ⟨hin', hno'⟩ := (hmem _).1 hin
      exact ⟨hin', hno', hall w ((hmem w).2 ⟨hw, hno⟩)⟩

end

/-- texts and integers by their order; other values are told apart by their types alone, nulls
last -/
def SqlValue.place : SqlValue → Nat ×ₗ Int ×ₗ String
  | .text s => toLex (0, toLex (0, s))
  | .int n => toLex (1, toLex (n, ""))
  | .float _ => toLex (2, toLex (0, ""))
  | .bool b => toLex (3, toLex (b.toNat, ""))
  | .date _ => toLex (4, toLex (0, ""))
  | .dateTime _ => toLex (5, toLex (0, ""))
  | .json _ => toLex (6, toLex (0, ""))
  | .null => toLex (7, toLex (0, ""))

/-- a server that orders texts and integers, joins equal texts and accepts all conditions -/
def smallEngine : Engine where
  le v w := decide (v.place ≤ w.place)
  le_total v w := by simpa using le_total v.place w.place
  le_trans u v w huv hvw := by
    simpa using le_trans (of_decide_eq_true huv) (of_decide_eq_true hvw)
  le_antisymm s t hst hts := by
    have h := le_antisymm (of_decide_eq_true hst) (of_decide_eq_true hts)
    simpa [SqlValue.place] using h
  equal v w := match v, w with
    | .text s, .text t => s == t
    | _, _ => false
  equal_text s t := by simp
  holds _ _ := true
  textOf v := v
  rank _ _ _ := .int 0
  aggregate a vs := foremostOf (fun v w => decide (v.place ≤ w.place)) a.takesGreatest vs
  aggregate_foremost a vs := by
    refine foremost_foremostOf (fun v w => ?_) (fun u v w huv hvw => ?_) a.takesGreatest vs
    · simpa using le_total v.place w.place
    · simpa using le_trans (of_decide_eq_true huv) (of_decide_eq_true hvw)

end EntityAccess
