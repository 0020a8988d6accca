import EntityAccess.Proofs.Outcome
import EntityAccess.Proofs.Query.Walks
import EntityAccess.Repository.Basic

/-!
# plans of paged reads

The order of a paged read has the primary key of the root among its terms, whatever it is sorted by,
so that all roots are told apart.

* `SelectPlan.Paged` : this promise, before a window is cut;
* `SelectPlan.extend_eq_ok` : what filters and sort keys add to a plan;
* `paged_of_planOf` : the plans of filters and sort keys keep it.
-/

namespace EntityAccess

open Outcome

/-- a term that orders by the primary key of the root -/
def OrderTerm.IsRootKey : OrderTerm → Prop
  | .column c _ => c.tableAlias = rootAlias ∧ c.column = primaryKey
  | .rank _ _ _ => False

instance : DecidablePred OrderTerm.IsRootKey
  | .column _ _ => inferInstanceAs (Decidable (_ ∧ _))
  | .rank _ _ _ => inferInstanceAs (Decidable False)

theorem OrderTerm.sameTarget_self (t : OrderTerm) : t.sameTarget t = true := by
  cases t <;> simp [sameTarget]

theorem OrderTerm.IsRootKey.of_sameTarget {t u : OrderTerm} (ht : t.IsRootKey)
    (h : u.sameTarget t = true) : u.IsRootKey := by
  cases t with
  | rank v query config => exact ht.elim
  | column c descending =>
    cases u with
    | rank v query config => simp [sameTarget] at h
    | column d descending =>
      simp only [sameTarget, Bool.and_eq_true, beq_iff_eq] at h
      exact ⟨h.1.trans ht.1, h.2.trans ht.2⟩

/-- the plan of a paged read before its window is cut -/
structure SelectPlan.Paged (e : Entity) (plan : SelectPlan) : Prop where
  entity : plan.entity = e
  unlimited : plan.limit = none
  undisplaced : plan.offset = none
  keyed : ∃ t ∈ plan.order, t.IsRootKey

namespace SelectPlan

variable {e : Entity} {plan : SelectPlan}

theorem Paged.window_none (h : plan.Paged e) : plan.window none none = plan := by
  obtain ⟨entity, joins, predicates, order, limit, offset⟩ := plan
  obtain ⟨_, rfl, rfl, _⟩ := h
  rfl

/-! ### what is added to a plan -/

theorem addPredicate_eq (plan : SelectPlan) (p : Predicate) :
    ∃ ps, plan.addPredicate p = { plan with predicates := ps } := by
  unfold addPredicate
  split
  · exact ⟨plan.predicates, rfl⟩
  · exact ⟨_, rfl⟩

/-- conditions change nothing else -/
theorem addPredicates_eq (plan : SelectPlan) (ps : List Predicate) :
    ∃ ps', plan.addPredicates ps = { plan with predicates := ps' } := by
  unfold addPredicates
  induction ps generalizing plan with
  | nil => exact ⟨plan.predicates, rfl⟩
  | cons p ps ih =>
    obtain ⟨qs, hqs⟩ := plan.addPredicate_eq p
    obtain ⟨ps', hps'⟩ := ih { plan with predicates := qs }
    rw [List.foldl_cons, hqs, hps']
    exact ⟨ps', rfl⟩

theorem addOrder_eq (plan : SelectPlan) (t : OrderTerm) :
    ∃ ts, plan.addOrder t = { plan with order := plan.order ++ ts } ∧
      ∃ u ∈ plan.order ++ ts, u.sameTarget t = true := by
  unfold addOrder
  split
  · next h =>
    obtain ⟨u, hu, hsame⟩ := List.any_eq_true.1 h
    exact ⟨[], by rw [List.append_nil], u, by simpa using hu, hsame⟩
  · exact ⟨[t], rfl, t, by simp, t.sameTarget_self⟩

/-- every term that is added is ordered by -/
theorem addOrders_eq (plan : SelectPlan) (ts : List OrderTerm) :
    ∃ ts', plan.addOrders ts = { plan with order := plan.order ++ ts' } ∧
      ∀ t ∈ ts, ∃ u ∈ plan.order ++ ts', u.sameTarget t = true := by
  unfold addOrders
  induction ts generalizing plan with
  | nil => exact ⟨[], by rw [List.append_nil]; rfl, by simp⟩
  | cons t ts ih =>
    obtain ⟨us, hus, u, hu, hsame⟩ := plan.addOrder_eq t
    obtain ⟨ts', hts', hall⟩ := ih { plan with order := plan.order ++ us }
    refine ⟨us ++ ts', by rw [List.foldl_cons, hus, hts', List.append_assoc], ?_⟩
    rw [List.forall_mem_cons, ← List.append_assoc]
    exact ⟨⟨u, List.mem_append_left _ hu, hsame⟩, hall⟩

section

variable (plan : SelectPlan) (ps : List Predicate) (ts : List OrderTerm)

@[simp] theorem entity_addPredicates : (plan.addPredicates ps).entity = plan.entity := by
  obtain ⟨_, h⟩ := plan.addPredicates_eq ps
  rw [h]

@[simp] theorem joins_addPredicates : (plan.addPredicates ps).joins = plan.joins := by
  obtain ⟨_, h⟩ := plan.addPredicates_eq ps
  rw [h]

@[simp] theorem order_addPredicates : (plan.addPredicates ps).order = plan.order := by
  obtain ⟨_, h⟩ := plan.addPredicates_eq ps
  rw [h]

@[simp] theorem entity_addOrders : (plan.addOrders ts).entity = plan.entity := by
  obtain ⟨_, h, _⟩ := plan.addOrders_eq ts
  rw [h]

@[simp] theorem joins_addOrders : (plan.addOrders ts).joins = plan.joins := by
  obtain ⟨_, h, _⟩ := plan.addOrders_eq ts
  rw [h]

@[simp] theorem predicates_addOrders : (plan.addOrders ts).predicates = plan.predicates := by
  obtain ⟨_, h, _⟩ := plan.addOrders_eq ts
  rw [h]

@[simp] theorem merge_ofEntity (e : Entity) (js : Joins) : (ofEntity e).joins.merge js = js :=
  Joins.merge_empty js

end

end SelectPlan

/-! ### plans of filters and sort keys -/

theorem untilFault_none {ε α : Type} {rs : List (Except ε α)} (h : (untilFault rs).2 = none) :
    rs = (untilFault rs).1.map .ok := by
  induction rs with
  | nil => rfl
  | cons r rs ih =>
    cases r with
    | ok a =>
      rw [untilFault_ok] at h ⊢
      rw [List.map_cons, ← ih h]
    | error e => simp [untilFault_error] at h

/-- the sort keys of a caller, by default the newest first -/
def callerKeys (sort : List SortKey) : List SortKey :=
  if sort = [] then [.byDescending createdAt] else sort

/-- a paged read is sorted by the keys of the caller, and then by the primary key unless it is
among them -/
theorem effectiveSort_paged (sort : List SortKey) :
    (∃ k ∈ callerKeys sort, k.path = [] ∧ k.field = primaryKey) ∧
        effectiveSort sort .paged = callerKeys sort ∨
      effectiveSort sort .paged = callerKeys sort ++ [.ascending primaryKey] := by
  have hkeys : (if sort = [] ∧ SortPolicy.paged ≠ .unsorted then [SortKey.byDescending createdAt]
      else sort) = callerKeys sort := by
    simp [callerKeys]
  unfold effectiveSort
  rw [hkeys]
  by_cases hany : ((callerKeys sort).any fun k => k.path = [] ∧ k.field = primaryKey) = true
  · obtain ⟨k, hk, hkey⟩ := List.any_eq_true.1 hany
    exact .inl ⟨⟨k, hk, by simpa using hkey⟩, if_neg fun h => h.2 hany⟩
  · exact .inr (if_pos ⟨rfl, hany⟩)

/-- a paged read is sorted by the primary key -/
theorem exists_key_of_paged (sort : List SortKey) :
    ∃ k ∈ effectiveSort sort .paged, k.path = [] ∧ k.field = primaryKey := by
  rcases effectiveSort_paged sort with ⟨hkeyed, hsort⟩ | hsort
  · exact hsort ▸ hkeyed
  · rw [hsort]
    exact ⟨.ascending primaryKey, List.mem_append_right _ List.mem_cons_self, rfl, rfl⟩

/-- the order term of the primary key -/
theorem isRootKey_of_orderOf {schema : Schema} {root : Entity} {joins : Joins} {k : SortKey}
    (hpath : k.path = []) (hfield : k.field = primaryKey) {t : OrderTerm}
    (h : orderOf schema root joins k = .ok t) : t.IsRootKey := by
  unfold orderOf columnRef at h
  rw [if_pos hpath, hfield] at h
  obtain ⟨c, hc, h⟩ := bind_eq_ok.1 h
  obtain ⟨column, hcolumn, hc⟩ := bind_eq_ok.1 hc
  obtain rfl : OrderTerm.column c k.descending = t := by simpa [pure, Except.pure] using h
  obtain rfl : ⟨rootAlias, column.name, column.type⟩ = c := by
    simpa [pure, Except.pure] using hc
  exact ⟨rfl, (Entity.scalarColumn_mem hcolumn).2.1⟩

namespace SelectPlan

/-- what is added without a fault: the joins of all paths, then one condition for each filter, then
one term for each sort key -/
theorem extend_eq_ok {schema : Schema} {plan found : SelectPlan} {filters : List Filter}
    {sort : List SortKey} {policy : SortPolicy}
    (h : plan.extend schema filters sort policy = (found, none)) :
    ∃ js, resolveJoins schema plan.entity
        (filters.map (·.key.path) ++ (effectiveSort sort policy).map (·.path)) = .ok js ∧
      ∃ ps ts, filters.map (predicateOf schema plan.entity (plan.joins.merge js)) = ps.map .ok ∧
        (effectiveSort sort policy).map (orderOf schema plan.entity (plan.joins.merge js)) =
          ts.map .ok ∧
        found = (({ plan with joins := plan.joins.merge js } : SelectPlan).addPredicates
          ps).addOrders ts := by
  unfold extend at h
  dsimp only at h
  split at h
  · cases (Prod.mk.inj h).2
  · next js hjs =>
    split at h
    · cases (Prod.mk.inj h).2
    · next hfilters =>
      obtain ⟨rfl, hsort⟩ := Prod.mk.inj h
      exact ⟨js, hjs, _, _, untilFault_none hfilters, untilFault_none hsort, rfl⟩

end SelectPlan

theorem paged_of_extend {schema : Schema} {e : Entity} {filters : List Filter}
    {sort : List SortKey} {plan : SelectPlan}
    (h : (SelectPlan.ofEntity e).extend schema filters sort .paged = (plan, none)) :
    plan.Paged e := by
  obtain ⟨js, _, ps, ts, _, hts, rfl⟩ := SelectPlan.extend_eq_ok h
  obtain ⟨ps', hps'⟩ := SelectPlan.addPredicates_eq
    { SelectPlan.ofEntity e with joins := (SelectPlan.ofEntity e).joins.merge js } ps
  rw [hps']
  obtain ⟨ts', hts', hall⟩ := SelectPlan.addOrders_eq { SelectPlan.ofEntity e with
    joins := (SelectPlan.ofEntity e).joins.merge js, predicates := ps' } ts
  rw [hts']
  refine ⟨rfl, rfl, rfl, ?_⟩
  -- the sort key of the primary key has become a term, and that term has been added
  obtain ⟨k, hk, hpath, hfield⟩ := exists_key_of_paged sort
  have hterm := List.mem_map_of_mem (f := orderOf schema (SelectPlan.ofEntity e).entity
    ((SelectPlan.ofEntity e).joins.merge js)) hk
  rw [hts] at hterm
  obtain ⟨t, ht, hok⟩ := List.mem_map.1 hterm
  obtain ⟨u, hu, hsame⟩ := hall t ht
  exact ⟨u, hu, (isRootKey_of_orderOf hpath hfield hok.symm).of_sameTarget hsame⟩

/-- filters and sort keys are added unless there is a fault -/
theorem SelectPlan.apply_eq_ok {schema : Schema} {plan found : SelectPlan} {filters : List Filter}
    {sort : List SortKey} {policy : SortPolicy} :
    plan.apply schema filters sort policy = .ok found ↔
      plan.extend schema filters sort policy = (found, none) := by
  unfold apply
  split
  · next out hout => rw [hout]; simp
  · next out err hout => rw [hout]; simp

/-- a plan is assembled unless there is a fault -/
theorem assemble_eq_ok {schema : Schema} {e : Entity} {filters : List Filter} {sort : List SortKey}
    {policy : SortPolicy} {plan : SelectPlan} :
    SelectPlan.assemble schema e filters sort policy = .ok plan ↔
      (SelectPlan.ofEntity e).extend schema filters sort policy = (plan, none) :=
  SelectPlan.apply_eq_ok

/-- plans of paged reads have the primary key in their order -/
theorem paged_of_planOf {schema : Schema} {e : Entity} {filters : Filters} {sort : List SortKey}
    {plan : SelectPlan} (h : planOf schema e filters sort .paged = .ok plan) : plan.Paged e := by
  obtain ⟨fs, _, h⟩ := bind_eq_ok.1 h
  exact paged_of_extend (assemble_eq_ok.1 h)

end EntityAccess
