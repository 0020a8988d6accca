import EntityAccess.Proofs.Filter.Nans
import EntityAccess.Proofs.Query.Composition

/-!
# filters and sort keys added again

Filters and sort keys that a plan already has are added to it again without a fault.  Their joins
and order terms are there and stay as they are, and so are their conditions, except for those that
compare with a NaN: no condition is the same as one of these, so it is added once more.

* `Joins.merge_again` : joins that are there;
* `SelectPlan.addPredicates_of_has`, `SelectPlan.addOrders_of_has` : conditions and order terms that
  are there;
* `SelectPlan.add_again` : what is added to a plan a second time;
* `apply_again` : filters and sort keys a second time.
-/

namespace EntityAccess

open Outcome

/-! ### joins -/

/-- joins that have been merged are there -/
theorem Joins.merge_again (js more : Joins) : (js.merge more).merge more = js.merge more :=
  Dict.foldl_insertNew_of_contains fun _ he =>
    Dict.contains_foldl_insertNew.2 (.inl (List.mem_map_of_mem he))

namespace SelectPlan

/-! ### conditions and order terms -/

section

variable {plan : SelectPlan}

theorem hasPredicate_addPredicate {p q : Predicate} (h : plan.hasPredicate q = true) :
    (plan.addPredicate p).hasPredicate q = true := by
  unfold addPredicate
  split
  · exact h
  · unfold hasPredicate at h ⊢
    rw [List.any_append, h, Bool.true_or]

theorem hasPredicate_addPredicates {q : Predicate} (ps : List Predicate)
    (h : plan.hasPredicate q = true) : (plan.addPredicates ps).hasPredicate q = true := by
  unfold addPredicates
  induction ps generalizing plan with
  | nil => exact h
  | cons p ps ih => exact ih (hasPredicate_addPredicate h)

theorem hasPredicate_addPredicate_self {p : Predicate} (hnan : p.hasNan = false) :
    (plan.addPredicate p).hasPredicate p = true := by
  unfold addPredicate
  split
  · next h => exact h
  · unfold hasPredicate
    rw [List.any_append, List.any_cons, Predicate.same_self_iff.2 hnan, Bool.true_or,
      Bool.or_true]

/-- every condition that has been added is there, unless it compares with a NaN -/
theorem hasPredicate_of_mem {p : Predicate} {ps : List Predicate} (hp : p ∈ ps)
    (hnan : p.hasNan = false) : (plan.addPredicates ps).hasPredicate p = true := by
  induction ps generalizing plan with
  | nil => cases hp
  | cons q ps ih =>
    rcases List.mem_cons.1 hp with rfl | hp
    · exact hasPredicate_addPredicates ps (hasPredicate_addPredicate_self hnan)
    · exact ih hp

/-- conditions that are there change nothing, those that compare with a NaN are added -/
theorem addPredicates_of_has {ps : List Predicate}
    (h : ∀ p ∈ ps, p.hasNan = false → plan.hasPredicate p = true) :
    plan.addPredicates ps =
      { plan with predicates := plan.predicates ++ ps.filter (·.hasNan) } := by
  unfold addPredicates
  induction ps generalizing plan with
  | nil => simp
  | cons p ps ih =>
    obtain ⟨hp, hps⟩ := List.forall_mem_cons.1 h
    rw [List.foldl_cons]
    cases hnan : p.hasNan with
    | false =>
      rw [addPredicate_of_mem (hp hnan), ih hps, List.filter_cons_of_neg (by simp [hnan])]
    | true =>
      have hnew : plan.hasPredicate p = false :=
        List.any_eq_false.2 fun q _ => by simp [Predicate.not_same_of_hasNan hnan q]
      have hadd : plan.addPredicate p = { plan with predicates := plan.predicates ++ [p] } := by
        unfold addPredicate
        rw [hnew]
        rfl
      rw [ih fun q hq hother => hasPredicate_addPredicate (hps q hq hother), hadd,
        List.filter_cons_of_pos hnan]
      simp

theorem addOrders_of_has {ts : List OrderTerm} (h : ∀ t ∈ ts, plan.hasOrder t = true) :
    plan.addOrders ts = plan := by
  unfold addOrders
  induction ts with
  | nil => rfl
  | cons t ts ih =>
    obtain ⟨ht, hts⟩ := List.forall_mem_cons.1 h
    rw [List.foldl_cons, addOrder_of_mem ht, ih hts]

theorem hasOrder_of_mem {t : OrderTerm} {ts : List OrderTerm} (ht : t ∈ ts) :
    (plan.addOrders ts).hasOrder t = true := by
  obtain ⟨added, hadded, hall⟩ := plan.addOrders_eq ts
  rw [hadded]
  exact List.any_eq_true.2 (hall t ht)

end

/-! ### plans -/

/-- joins, conditions and order terms that are added a second time: the conditions that compare
with a NaN are there once more, all else is as it was -/
theorem add_again (plan : SelectPlan) (more : Joins) (ps : List Predicate) (ts : List OrderTerm) :
    (plan.add more ps ts).add more ps ts =
      { plan.add more ps ts with
        predicates := (plan.add more ps ts).predicates ++ ps.filter (·.hasNan) } := by
  have hjoin : (plan.add more ps ts).join more = plan.add more ps ts := by
    unfold join
    rw [joins_add, Joins.merge_again, ← joins_add plan more ps ts]
  have hpredicates : ∀ p ∈ ps, p.hasNan = false → (plan.add more ps ts).hasPredicate p = true := by
    intro p hp hnan
    have hadded : ((plan.join more).addPredicates ps).hasPredicate p = true :=
      hasPredicate_of_mem hp hnan
    unfold add hasPredicate
    rwa [predicates_addOrders]
  have horder : ∀ t ∈ ts, (plan.add more ps ts).hasOrder t = true := fun t ht => hasOrder_of_mem ht
  conv_lhs => unfold add
  rw [show (((plan.join more).addPredicates ps).addOrders ts) = plan.add more ps ts from rfl,
    hjoin, addPredicates_of_has hpredicates]
  exact addOrders_of_has horder

end SelectPlan

/-! ### filters and sort keys -/

open SelectPlan

variable {schema : Schema} {root : Entity} {joins : Joins} {filters : List Filter}
  {ps : List Predicate}

/-- the filters behind the conditions that compare with a NaN -/
theorem filter_hasNan_eq_nil (h : filters.map (predicateOf schema root joins) = ps.map .ok) :
    ps.filter (·.hasNan) = [] ↔ ∀ f ∈ filters, ∀ c,
      columnRef schema root joins f.key.path f.key.field = .ok c → ¬ f.ComparesNan c.type := by
  have hcondition : ∀ f ∈ filters, ∃ p ∈ ps, predicateOf schema root joins f = .ok p := by
    intro f hf
    have hmem := List.mem_map_of_mem (f := predicateOf schema root joins) hf
    rw [h] at hmem
    obtain ⟨p, hp, hok⟩ := List.mem_map.1 hmem
    exact ⟨p, hp, hok.symm⟩
  have hfilter : ∀ p ∈ ps, ∃ f ∈ filters, predicateOf schema root joins f = .ok p := by
    intro p hp
    have hmem := List.mem_map_of_mem (f := (Except.ok : Predicate → Except Error Predicate)) hp
    rw [← h] at hmem
    exact List.mem_map.1 hmem
  rw [List.filter_eq_nil_iff]
  constructor
  · intro hnone f hf c hc hnan
    obtain ⟨p, hp, hok⟩ := hcondition f hf
    exact hnone p hp ((hasNan_of_predicateOf hok).2 ⟨c, hc, hnan⟩)
  · intro hnone p hp hnan
    obtain ⟨f, hf, hok⟩ := hfilter p hp
    obtain ⟨c, hc, hcompares⟩ := (hasNan_of_predicateOf hok).1 hnan
    exact hnone f hf c hc hcompares

/-- filters and sort keys that have been added to a plan are added to it again without a fault: its
joins, its order and its window stay as they are, and the conditions that compare with a NaN are
there once more; so the plan stays as it is exactly if no filter spells a NaN for a column of
doubles -/
theorem apply_again {plan found : SelectPlan} {sort : List SortKey} {policy : SortPolicy}
    (h : plan.apply schema filters sort policy = .ok found) :
    ∃ ps : List Predicate,
      filters.map (predicateOf schema plan.entity found.joins) = ps.map .ok ∧
      found.apply schema filters sort policy =
        .ok { found with predicates := found.predicates ++ ps.filter (·.hasNan) } ∧
      (found.apply schema filters sort policy = .ok found ↔ ∀ f ∈ filters, ∀ c,
        columnRef schema plan.entity found.joins f.key.path f.key.field = .ok c →
          ¬ f.ComparesNan c.type) := by
  obtain ⟨js, ps, ts, hjs, hfound, rfl⟩ := apply_eq_add.1 h
  have hfilters := hfound.filters
  rw [← joins_add plan js ps ts] at hfilters
  have hagain : (plan.add js ps ts).apply schema filters sort policy =
      .ok { plan.add js ps ts with
        predicates := (plan.add js ps ts).predicates ++ ps.filter (·.hasNan) } := by
    refine apply_eq_add.2 ⟨js, ps, ts, ?_, ?_, (add_again plan js ps ts).symm⟩
    · rw [entity_add]
      exact hjs
    · rw [entity_add, joins_add, Joins.merge_again]
      exact hfound
  refine ⟨ps, hfilters, hagain, ?_⟩
  rw [hagain, ← filter_hasNan_eq_nil hfilters, Except.ok.injEq]
  constructor
  · intro hsame
    exact List.append_right_eq_self.1 (congrArg SelectPlan.predicates hsame)
  · intro hnone
    rw [hnone, List.append_nil]

/-- readings that are open or final, the heaviest first; twice -/
theorem readings_apply_again : ∃ found,
    (ofEntity readingsEntity).apply readingsSchema
        [⟨⟨[], "state", .oneOf⟩, .str "open, final"⟩, ⟨⟨[], "weight", .isNotNull⟩, .str "nan"⟩]
        [⟨[], "weight", true⟩] .paged = .ok found ∧
      found.predicates.length = 2 ∧ found.order.length = 2 ∧
      found.apply readingsSchema
        [⟨⟨[], "state", .oneOf⟩, .str "open, final"⟩, ⟨⟨[], "weight", .isNotNull⟩, .str "nan"⟩]
        [⟨[], "weight", true⟩] .paged = .ok found := by
  have hagain : ∀ found, (ofEntity readingsEntity).apply readingsSchema
        [⟨⟨[], "state", .oneOf⟩, .str "open, final"⟩, ⟨⟨[], "weight", .isNotNull⟩, .str "nan"⟩]
        [⟨[], "weight", true⟩] .paged = .ok found →
      found.apply readingsSchema
        [⟨⟨[], "state", .oneOf⟩, .str "open, final"⟩, ⟨⟨[], "weight", .isNotNull⟩, .str "nan"⟩]
        [⟨[], "weight", true⟩] .paged = .ok found := by
    intro found hfound
    obtain ⟨ps, _, _, hiff⟩ := apply_again hfound
    refine hiff.2 fun f hf c hc hnan => ?_
    rcases List.mem_pair.1 hf with rfl | rfl
    · -- the state is no double
      have hstate : columnRef readingsSchema readingsEntity found.joins [] "state" =
          .ok ⟨rootAlias, "state", .text⟩ := by rfl
      obtain rfl := Except.ok.inj (hstate.symm.trans hc)
      cases hnan.1
    · exact hnan.2
  exact ⟨_, rfl, rfl, rfl, hagain _ rfl⟩

/-- readings whose weight is not a number, twice: the condition is there two times -/
theorem nan_added_again : ∃ found again,
    (Document.mk "public" [readingsDeclaration]).resolve = .ok readingsSchema ∧
      (ofEntity readingsEntity).apply readingsSchema [⟨⟨[], "weight", .exact⟩, .str "nan"⟩] []
        .paged = .ok found ∧
      found.apply readingsSchema [⟨⟨[], "weight", .exact⟩, .str "nan"⟩] [] .paged = .ok again ∧
      found.predicates.length = 1 ∧ again.predicates.length = 2 :=
  ⟨_, _, resolve_readingsDocument, rfl, rfl, rfl, rfl⟩

end EntityAccess
