import EntityAccess.Proofs.Pages.FirstRows

/-!
# when first rows have the folded values

The terms after the primary key of the root decide nothing.  Of those up to it, one that is on the
root has the same value in all rows of a root.  A joined one has its folded value in the first row
when no other joined one comes before it.

* `decisive` : the terms up to the primary key;
* `tied_of_first` : the values of a first row;
* `firstRowsAgree_of_joinedTerms` : with one joined term at most, first rows and folded keys agree.
-/

namespace EntityAccess

open Engine

/-- a term that orders by a joined row -/
def OrderTerm.IsJoined (t : OrderTerm) : Prop := t.tableAlias ≠ rootAlias

instance : DecidablePred OrderTerm.IsJoined := fun _ => inferInstanceAs (Decidable (¬ _))

/-- a term that orders by a json column -/
def OrderTerm.IsJson : OrderTerm → Prop
  | .column c _ => c.type = .json
  | .rank _ _ _ => False

instance : DecidablePred OrderTerm.IsJson
  | .column _ _ => inferInstanceAs (Decidable (_ = _))
  | .rank _ _ _ => inferInstanceAs (Decidable False)

/-- the terms up to the primary key of the root -/
def decisive : List OrderTerm → List OrderTerm
  | [] => []
  | t :: ts => if t.IsRootKey then [t] else t :: decisive ts

/-- how many terms order by joined rows before all roots are told apart -/
def joinedTerms (order : List OrderTerm) : Nat := (decisive order).countP (·.IsJoined)

/-- no joined value that is sorted by is null or json -/
structure Engine.JoinedValues (E : Engine) (order : List OrderTerm) (rows : List Joined) :
    Prop where
  not_json : ∀ t ∈ order, t.IsJoined → ¬ t.IsJson
  not_null : ∀ t ∈ order, t.IsJoined → ∀ row ∈ rows, (E.value row t.expr).isNull = false

theorem Engine.JoinedValues.mono {E : Engine} {order order' : List OrderTerm} {rows : List Joined}
    (h : E.JoinedValues order rows) (hsub : order' ⊆ order) : E.JoinedValues order' rows :=
  ⟨fun t ht => h.not_json t (hsub ht), fun t ht => h.not_null t (hsub ht)⟩

theorem OrderTerm.IsRootKey.not_joined {t : OrderTerm} (h : t.IsRootKey) : ¬ t.IsJoined := by
  cases t with
  | column c descending => exact fun hj => hj h.1
  | rank v query config => exact h.elim

/-- a joined term folds its own value in its own direction -/
theorem OrderTerm.groupExpr_of_joined {t : OrderTerm} (hj : t.IsJoined) (hjson : ¬ t.IsJson) :
    ∃ a, t.groupExpr = .folded a t.expr ∧ a.takesGreatest = t.descending := by
  cases t with
  | column c descending =>
    have hc : c.tableAlias ≠ rootAlias := hj
    simp only [groupExpr, if_neg hc]
    obtain ⟨a, n, type⟩ := c
    cases type <;> cases descending <;>
      first
        | exact absurd rfl hjson
        | exact ⟨_, rfl, rfl⟩
  | rank v query config => exact ⟨.max, rfl, rfl⟩

section

variable {E : Engine} {order : List OrderTerm} {rows : List Joined} (hrows : Keyed rows)

include hrows

/-- a term on the root has one value in all rows of a root -/
theorem value_eq_of_not_joined {t : OrderTerm} (hj : ¬ t.IsJoined) {r s : Joined} (hr : r ∈ rows)
    (hs : s ∈ rowsOf rows r.id) : E.value s t.expr = E.value r t.expr := by
  obtain ⟨hin, hid⟩ := List.mem_filter.1 hs
  have hcell := fun {c} => hrows.cell_eq (c := c) hin hr (of_decide_eq_true hid)
  cases t with
  | column c descending => exact hcell (not_not.1 hj)
  | rank v query config => exact congrArg (E.rank · query config) (hcell (not_not.1 hj))

theorem tied_of_not_joined {t : OrderTerm} (hj : ¬ t.IsJoined) {r : Joined} (hr : r ∈ rows) :
    E.tied (E.value r t.expr) (E.groupValue (rowsOf rows r.id) t.groupExpr) := by
  have hsame := fun s => value_eq_of_not_joined (E := E) (s := s) hrows hj hr
  have hmem := mem_rowsOf hr
  cases t with
  | column c descending =>
    have hc : c.tableAlias = rootAlias := not_not.1 hj
    obtain ⟨s, others, hown⟩ := List.exists_cons_of_ne_nil (List.ne_nil_of_mem hmem)
    have hs := hsame s (hown ▸ List.mem_cons_self)
    simp only [OrderTerm.expr, value] at hs
    simp only [OrderTerm.expr, OrderTerm.groupExpr, if_pos hc, groupValue, value, hown,
      List.head?_cons, Option.map_some, Option.getD_some, hs]
    exact E.tied_refl _
  | rank v query config =>
    refine tied_aggregate_of_forall .max (List.mem_map_of_mem hmem) fun w hw => ?_
    obtain ⟨s, hs, rfl⟩ := List.mem_map.1 hw
    exact hsame s hs

omit hrows in
/-- a joined value that no row of its root comes before is the folded one -/
theorem tied_of_joined {t : OrderTerm} (hj : t.IsJoined) (hjson : ¬ t.IsJson) {r : Joined}
    (hr : r ∈ rows)
    (hnull : ∀ s ∈ rows, (E.value s t.expr).isNull = false)
    (hfirst : ∀ s ∈ rowsOf rows r.id,
      E.before t.descending (E.value r t.expr) (E.value s t.expr) = true) :
    E.tied (E.value r t.expr) (E.groupValue (rowsOf rows r.id) t.groupExpr) := by
  obtain ⟨a, hexpr, hdir⟩ := t.groupExpr_of_joined hj hjson
  have hin := List.mem_map_of_mem (f := (E.value · t.expr)) (mem_rowsOf hr)
  obtain ⟨hmem, _, hbefore⟩ :=
    (E.aggregate_foremost a ((rowsOf rows r.id).map (E.value · t.expr))).of_value _ hin (hnull r hr)
  obtain ⟨s, hs, hvalue⟩ := List.mem_map.1 hmem
  rw [hexpr, E.tied_iff t.descending]
  refine ⟨?_, hdir ▸ hbefore⟩
  simp only [groupValue]
  rw [← hvalue]
  exact hfirst s hs

/-- with one joined term at most, a first row has the folded values up to the primary key -/
theorem tied_of_first (hvalues : E.JoinedValues order rows) (hone : joinedTerms order ≤ 1)
    {r : Joined} (hr : r ∈ rows)
    (hfirst : ∀ s ∈ rowsOf rows r.id, E.Precedes (E.rowKeys order) r s) :
    ∀ t ∈ decisive order,
      E.tied (E.value r t.expr) (E.groupValue (rowsOf rows r.id) t.groupExpr) := by
  induction order with
  | nil => simp [decisive]
  | cons t ts ih =>
    by_cases hkey : t.IsRootKey
    · intro u hu
      obtain rfl : u = t := by simpa [decisive, hkey] using hu
      exact tied_of_not_joined hrows hkey.not_joined hr
    · have hdec : decisive (t :: ts) = t :: decisive ts := by simp [decisive, hkey]
      unfold joinedTerms at hone
      rw [hdec, List.countP_cons] at hone
      rw [hdec, List.forall_mem_cons]
      by_cases hj : t.IsJoined
      · -- what follows up to the key is all on the root
        refine ⟨tied_of_joined hj (hvalues.not_json t List.mem_cons_self hj) hr
          (hvalues.not_null t List.mem_cons_self hj) fun s hs => (hfirst s hs).1, fun u hu => ?_⟩
        have hzero : (decisive ts).countP (·.IsJoined) = 0 := by
          simp only [hj, decide_true, if_true] at hone
          omega
        exact tied_of_not_joined hrows (by simpa using List.countP_eq_zero.1 hzero u hu) hr
      · -- the rows of the root do not differ in this term
        refine ⟨tied_of_not_joined hrows hj hr, ih (hvalues.mono (List.subset_cons_self _ _)) ?_ ?_⟩
        · unfold joinedTerms
          omega
        · intro s hs
          refine (hfirst s hs).2 ?_
          dsimp only
          rw [value_eq_of_not_joined hrows hj hr hs]
          exact E.before_refl _ _

/-- tied values up to the primary key order different roots alike -/
theorem precedes_iff_of_decisive (hkey : ∃ t ∈ order, t.IsRootKey) {r s : Joined} (hr : r ∈ rows)
    (hs : s ∈ rows) (hne : r.id ≠ s.id)
    (htr : ∀ t ∈ decisive order,
      E.tied (E.value r t.expr) (E.groupValue (rowsOf rows r.id) t.groupExpr))
    (hts : ∀ t ∈ decisive order,
      E.tied (E.value s t.expr) (E.groupValue (rowsOf rows s.id) t.groupExpr)) :
    E.Precedes (E.rowKeys order) r s ↔
      E.Precedes (E.groupKeys (order.map fun t => (t.groupExpr, t.descending)))
        (rowsOf rows r.id) (rowsOf rows s.id) := by
  induction order with
  | nil => simp at hkey
  | cons t ts ih =>
    by_cases ht : t.IsRootKey
    · -- roots that are told apart here stand in one order only
      have hmem : t ∈ decisive (t :: ts) := by simp [decisive, ht]
      have hrs := before_congr (d := t.descending) (htr t hmem) (hts t hmem)
      have hsr := before_congr (d := t.descending) (hts t hmem) (htr t hmem)
      have hapart : ¬ (E.before t.descending (E.value r t.expr) (E.value s t.expr) = true ∧
          E.before t.descending (E.value s t.expr) (E.value r t.expr) = true) := by
        rw [← E.tied_iff]
        cases t with
        | column c descending => exact fun h => hne (hrows.id_eq_of_tied hr hs ht.1 ht.2 h)
        | rank v query config => exact ht.elim
      constructor
      · rintro ⟨h, _⟩
        exact ⟨hrs.1 h, fun h' => absurd ⟨h, hsr.2 h'⟩ hapart⟩
      · rintro ⟨h, _⟩
        exact ⟨hrs.2 h, fun h' => absurd ⟨hrs.2 h, h'⟩ hapart⟩
    · have hdec : decisive (t :: ts) = t :: decisive ts := by simp [decisive, ht]
      rw [hdec, List.forall_mem_cons] at htr hts
      have hkey : ∃ u ∈ ts, u.IsRootKey := by
        obtain ⟨u, hu, hku⟩ := hkey
        rcases List.mem_cons.1 hu with rfl | hu
        · exact absurd hku ht
        · exact ⟨u, hu, hku⟩
      exact and_congr (before_congr htr.1 hts.1)
        (imp_congr (before_congr hts.1 htr.1) (ih hkey htr.2 hts.2))

/-- with one joined term at most before the primary key, first rows and folded keys agree -/
theorem firstRowsAgree_of_joinedTerms {plan : SelectPlan} (hkey : ∃ t ∈ plan.order, t.IsRootKey)
    (hvalues : E.JoinedValues plan.order rows) (hone : joinedTerms plan.order ≤ 1) :
    E.FirstRowsAgree plan rows := by
  have hown : ∀ {r s}, E.First plan.order rows r → s ∈ rowsOf rows r.id →
      E.Precedes (E.rowKeys plan.order) r s := by
    intro r s hr hs
    obtain ⟨hin, hid⟩ := List.mem_filter.1 hs
    exact hr.precedes s hin (of_decide_eq_true hid)
  intro r s hr hs hne
  exact precedes_iff_of_decisive hrows hkey hr.mem hs.mem hne
    (tied_of_first hrows hvalues hone hr.mem fun _ => hown hr)
    (tied_of_first hrows hvalues hone hs.mem fun _ => hown hs)

end
end EntityAccess
