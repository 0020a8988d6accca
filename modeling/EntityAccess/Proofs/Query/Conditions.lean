import EntityAccess.Proofs.Query.Addressing
import EntityAccess.Proofs.Query.Faults
import EntityAccess.Proofs.Query.Scope

/-!
# the conditions of a read

The conditions of a plan come from its filters alone: whatever it is sorted by, each filter finds
the same column, since the joins of its path are there either way.  A search adds one condition, and
so does the key after which a batch begins.

* `at?_of_walk` : what is joined for a path depends on that path alone;
* `planOf_conditions` : two plans of the same filters have the same conditions;
* `predicates_search`, `predicates_keysetPlan` : the condition of a search, and that of a batch.
-/

namespace EntityAccess

open Outcome

/-! ### joins -/

variable {schema : Schema} {root : Entity}

/-- the walk of a path that is joined ends in a join under its text -/
theorem exists_last_join {paths : List Path} {js : Joins}
    (h : resolveJoins schema root paths = .ok js) {p : Path} (hp : p ∈ paths) (hne : p ≠ []) :
    ∃ part, walk schema root rootAlias [] p = .ok part ∧ ∃ j, (p.text, j) ∈ part := by
  obtain ⟨part, hpart⟩ := resolves_iff.1 ⟨js, h⟩ p hp
  obtain ⟨rs, last, hw, rfl, rfl⟩ := exists_walk_of_walk (p := []) rfl hpart
  obtain ⟨j, hj, _⟩ := hw.last_join (fun hnil => hne (congrArg pathOf hnil)) []
  exact ⟨_, hpart, j, hj⟩

section

variable (hs : schema.WellFormed) (hroot : root ∈ schema.entities)

include hs hroot

/-- the join of a path is the last one of its walk, whatever else is joined -/
theorem at?_of_walk {paths : List Path} {js : Joins}
    (h : resolveJoins schema root paths = .ok js) {p : Path} (hp : p ∈ paths)
    {part : List (String × Join)} (hpart : walk schema root rootAlias [] p = .ok part) {j : Join}
    (hj : (p.text, j) ∈ part) : js.at? p = some j :=
  Dict.get?_eq_some_iff.2 ((mem_of_resolveJoins hs hroot h _).2 ⟨p, hp, part, hpart, hj⟩)

/-- both reads join a path that they share in the same way -/
theorem at?_congr {paths paths' : List Path} {js js' : Joins}
    (h : resolveJoins schema root paths = .ok js) (h' : resolveJoins schema root paths' = .ok js')
    {p : Path} (hp : p ∈ paths) (hp' : p ∈ paths') (hne : p ≠ []) : js.at? p = js'.at? p := by
  obtain ⟨part, hpart, j, hj⟩ := exists_last_join h hp hne
  rw [at?_of_walk hs hroot h hp hpart hj, at?_of_walk hs hroot h' hp' hpart hj]

end

/-! ### conditions of filters -/

theorem untilFault_map_ok {ε α : Type} (as : List α) :
    untilFault (as.map (.ok : α → Except ε α)) = (as, none) := by
  induction as with
  | nil => rfl
  | cons a as ih => rw [List.map_cons, untilFault_ok, ih]

theorem columnRef_congr {js js' : Joins} {p : Path} (h : p ≠ [] → js.at? p = js'.at? p)
    (field : String) : columnRef schema root js p field = columnRef schema root js' p field := by
  unfold columnRef
  split
  · rfl
  · next hne => rw [h hne]

theorem predicateOf_congr {js js' : Joins} {f : Filter}
    (h : f.key.path ≠ [] → js.at? f.key.path = js'.at? f.key.path) :
    predicateOf schema root js f = predicateOf schema root js' f := by
  unfold predicateOf
  rw [columnRef_congr h]

/-- only full-text matches are the same as full-text matches -/
theorem Predicate.isMatch_of_same {p q : Predicate} (h : p.same q = true) :
    p.isMatch = q.isMatch := by
  cases p <;> cases q <;> first
    | rfl
    | (unfold same at h; cases h)

namespace SelectPlan

variable {plan found : SelectPlan}

/-- conditions are added to conditions, whatever else is in the plan -/
theorem predicates_addPredicates {plan' : SelectPlan} (h : plan.predicates = plan'.predicates)
    (ps : List Predicate) :
    (plan.addPredicates ps).predicates = (plan'.addPredicates ps).predicates := by
  unfold addPredicates
  induction ps generalizing plan plan' with
  | nil => exact h
  | cons p ps ih =>
    refine ih ?_
    unfold addPredicate hasPredicate
    rw [h]
    split
    · exact h
    · rfl

/-- the conditions of filters and sort keys without a fault are those of the filters -/
theorem extend_conditions {filters : List Filter} {sort : List SortKey} {policy : SortPolicy}
    (h : (ofEntity root).extend schema filters sort policy = (plan, none)) :
    ∃ js, resolveJoins schema root (filters.map (·.key.path) ++
        (effectiveSort sort policy).map (·.path)) = .ok js ∧
      ∃ ps, filters.map (predicateOf schema root js) = ps.map .ok ∧
        plan.predicates = ((ofEntity root).addPredicates ps).predicates := by
  obtain ⟨js, hjs, ps, ts, hps, _, rfl⟩ := extend_eq_ok h
  rw [merge_ofEntity] at hps ⊢
  refine ⟨js, hjs, ps, hps, ?_⟩
  let joined : SelectPlan := { ofEntity root with joins := js }
  have hpredicates : joined.predicates = (ofEntity root).predicates := rfl
  rw [predicates_addOrders]
  exact predicates_addPredicates hpredicates ps

/-- none of them is a full-text match -/
theorem isMatch_of_extend {filters : List Filter} {sort : List SortKey} {policy : SortPolicy}
    (h : (ofEntity root).extend schema filters sort policy = (plan, none)) :
    ∀ p ∈ plan.predicates, p.isMatch = false := by
  intro p hp
  obtain ⟨js, _, ps, hps, hpredicates⟩ := extend_conditions h
  rw [hpredicates] at hp
  have hbuilt : .ok p ∈ ps.map (.ok : Predicate → Except Error Predicate) :=
    List.mem_map_of_mem ((mem_addPredicates hp).resolve_left List.not_mem_nil)
  rw [← hps] at hbuilt
  obtain ⟨f, _, hf⟩ := List.mem_map.1 hbuilt
  obtain ⟨c, _, hf⟩ := bind_eq_ok.1 hf
  obtain ⟨x, _, hf⟩ := bind_eq_ok.1 hf
  obtain rfl := Except.ok.inj hf
  exact (f.key.operator.reference_build c x).2

/-- filters without a fault, and no sort keys -/
theorem extend_unsorted {filters : List Filter} {js : Joins}
    (hjs : resolveJoins schema root (filters.map (·.key.path)) = .ok js) {ps : List Predicate}
    (hps : filters.map (predicateOf schema root js) = ps.map .ok) :
    ∃ base, (ofEntity root).extend schema filters [] .unsorted = (base, none) ∧
      base.predicates = ((ofEntity root).addPredicates ps).predicates := by
  let joined : SelectPlan := { ofEntity root with joins := js }
  have hpredicates : joined.predicates = (ofEntity root).predicates := rfl
  refine ⟨joined.addPredicates ps, ?_, predicates_addPredicates hpredicates ps⟩
  have hkeys : effectiveSort [] .unsorted = [] := rfl
  have hentity : (ofEntity root).entity = root := rfl
  unfold extend
  simp only [hkeys, List.map_nil, List.append_nil, hentity, hjs, merge_ofEntity, hps,
    untilFault_map_ok, untilFault_nil]
  rfl

/-! ### conditions of searches and batches -/

/-- a search adds its match to conditions of filters -/
theorem predicates_search {params : SearchParams} (htext : Text.trim params.text ≠ "")
    (hplain : ∀ p ∈ plan.predicates, p.isMatch = false) (h : plan.search params = .ok found) :
    ∃ v, plan.entity.resolveVector params.vector = .ok v ∧
      found.predicates = plan.predicates ++
        [.textMatch ⟨rootAlias, v.name, .searchVector⟩ (Text.trim params.text) v.config] := by
  unfold search at h
  dsimp only at h
  rw [if_neg htext] at h
  obtain ⟨v, hv, h⟩ := bind_eq_ok.1 h
  generalize hmatch : Predicate.textMatch ⟨rootAlias, v.name, .searchVector⟩
    (Text.trim params.text) v.config = matched at h
  have hnew : plan.hasPredicate matched = false := by
    rw [← hmatch]
    refine List.any_eq_false.2 fun p hp hsame => ?_
    have hno := hplain p hp
    rw [Predicate.isMatch_of_same hsame] at hno
    cases hno
  have hadded : (plan.addPredicate matched).predicates = plan.predicates ++ [matched] := by
    unfold addPredicate
    rw [hnew]
    rfl
  refine ⟨v, hv, ?_⟩
  rw [hmatch]
  split at h
  · obtain rfl := Except.ok.inj h
    exact hadded
  · obtain rfl := Except.ok.inj h
    exact hadded

/-- the key after which a batch begins is a condition, unless it is one already -/
theorem predicates_keysetPlan {key : ColumnRef} (hkey : plan.rootColumn primaryKey = .ok key)
    {after : Option String} {limit : Nat} (h : plan.keysetPlan after limit = .ok found) :
    found.predicates = plan.predicates ∨ ∃ id, after = some id ∧
      found.predicates = plan.predicates ++ [.compare key .gt (.text id)] := by
  unfold keysetPlan at h
  rw [hkey] at h
  obtain rfl := Except.ok.inj h
  cases after with
  | none => exact .inl rfl
  | some id =>
    dsimp only [window]
    unfold addPredicate
    split
    · exact .inl rfl
    · exact .inr ⟨id, rfl, rfl⟩

end SelectPlan

theorem isMatch_of_planOf {filters : Filters} {sort : List SortKey} {policy : SortPolicy}
    {plan : SelectPlan} (h : planOf schema root filters sort policy = .ok plan) :
    ∀ p ∈ plan.predicates, p.isMatch = false := by
  obtain ⟨fs, _, h⟩ := bind_eq_ok.1 h
  exact SelectPlan.isMatch_of_extend (assemble_eq_ok.1 h)

/-- whatever a read is sorted by, its conditions are those of its filters -/
theorem planOf_conditions (hs : schema.WellFormed) (hroot : root ∈ schema.entities)
    {filters : Filters} {sort : List SortKey} {policy : SortPolicy} {plan : SelectPlan}
    (h : planOf schema root filters sort policy = .ok plan) :
    ∃ base, planOf schema root filters [] .unsorted = .ok base ∧
      base.predicates = plan.predicates := by
  obtain ⟨fs, hfs, hplan⟩ := bind_eq_ok.1 h
  obtain ⟨js, hjs, ps, hps, hpredicates⟩ :=
    SelectPlan.extend_conditions (assemble_eq_ok.1 hplan)
  -- the filters alone need fewer joins, which are there under the same keys
  obtain ⟨few, hfew⟩ : ∃ few, resolveJoins schema root (fs.map (·.key.path)) = .ok few :=
    resolves_iff.2 fun p hp => resolves_iff.1 ⟨js, hjs⟩ p (List.mem_append_left _ hp)
  have hsame : fs.map (predicateOf schema root few) = fs.map (predicateOf schema root js) := by
    refine List.map_congr_left fun f hf => predicateOf_congr fun hne => ?_
    have hpath : f.key.path ∈ fs.map (·.key.path) := List.mem_map_of_mem hf
    exact at?_congr hs hroot hfew hjs hpath (List.mem_append_left _ hpath) hne
  obtain ⟨base, hbase, hconditions⟩ := SelectPlan.extend_unsorted hfew (hsame.trans hps)
  exact ⟨base, bind_eq_ok.2 ⟨fs, hfs, assemble_eq_ok.2 hbase⟩, hconditions.trans hpredicates.symm⟩

end EntityAccess
