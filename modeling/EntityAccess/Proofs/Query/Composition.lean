import EntityAccess.Proofs.Query.Prefixes

/-!
# filters and sort keys in two batches

Filters and sort keys that are added to a plan in two batches make the same plan as all of them at
once: joins, conditions and order terms do not depend on each other, each is added where it is not
there yet, and a column is found under the same alias whatever else is joined.

* `resolveJoins_union` : the joins of a union are the joins of its parts, merged;
* `SelectPlan.add`, `apply_eq_add` : what is added to a plan;
* `SelectPlan.add_add` : what is added twice;
* `Found`, `found_congr`, `found_append` : columns that are found, among any joins;
* `apply_append` : filters and sort keys in two batches.
-/

namespace EntityAccess

open Outcome Relation

variable {schema : Schema} {root : Entity}

/-! ### joins of two kinds of paths -/

section

variable (hs : schema.WellFormed) (hroot : root ∈ schema.entities)

include hs hroot

theorem merge_assoc {js more most : Joins} (hjs : js.Walked schema root)
    (hmore : more.Walked schema root) (hmost : most.Walked schema root) :
    (js.merge more).merge most = js.merge (more.merge most) := by
  have hleft := walked_merge hs hroot hjs hmore
  have hright := walked_merge hs hroot hmore hmost
  refine Dict.ext_mem fun entry => ?_
  rw [mem_merge hs hroot hleft hmost, mem_merge hs hroot hjs hmore,
    mem_merge hs hroot hjs hright, mem_merge hs hroot hmore hmost, or_assoc]

/-- the joins of a union are the joins of its parts -/
theorem resolveJoins_union {paths paths' all : List Path}
    (hall : ∀ p, p ∈ all ↔ p ∈ paths ∨ p ∈ paths') (found : Joins) :
    resolveJoins schema root all = .ok found ↔
      ∃ js js', resolveJoins schema root paths = .ok js ∧
        resolveJoins schema root paths' = .ok js' ∧ found = js.merge js' := by
  have hmerge : ∀ js js' found, resolveJoins schema root paths = .ok js →
      resolveJoins schema root paths' = .ok js' → resolveJoins schema root all = .ok found →
      found = js.merge js' := by
    intro js js' found hjs hjs' hfound
    refine Dict.ext_mem fun entry => ?_
    rw [mem_merge hs hroot (walked_of_resolveJoins hs hroot hjs)
      (walked_of_resolveJoins hs hroot hjs'), mem_of_resolveJoins hs hroot hfound,
      mem_of_resolveJoins hs hroot hjs, mem_of_resolveJoins hs hroot hjs', ← exists_or]
    refine exists_congr fun p => ?_
    rw [hall, or_and_right]
  have hresolves : (∃ js, resolveJoins schema root all = .ok js) ↔
      (∃ js, resolveJoins schema root paths = .ok js) ∧
        ∃ js, resolveJoins schema root paths' = .ok js := by
    rw [resolves_iff, resolves_iff, resolves_iff, ← forall_and]
    refine forall_congr' fun p => ?_
    rw [hall, or_imp]
  constructor
  · intro hfound
    obtain ⟨⟨js, hjs⟩, js', hjs'⟩ := hresolves.1 ⟨found, hfound⟩
    exact ⟨js, js', hjs, hjs', hmerge js js' found hjs hjs' hfound⟩
  · rintro ⟨js, js', hjs, hjs', rfl⟩
    obtain ⟨found, hfound⟩ := hresolves.2 ⟨⟨js, hjs⟩, js', hjs'⟩
    rw [hfound, hmerge js js' found hjs hjs' hfound]

end

/-- a path that is joined is joined in the same way among more joins -/
theorem Joins.at?_mono {js more : Joins} (h : ∀ entry ∈ js.entries, entry ∈ more.entries)
    {p : Path} {j : Join} (hj : js.at? p = some j) : more.at? p = some j :=
  Dict.get?_eq_some_iff.2 (h _ (Dict.get?_eq_some_iff.1 hj))

/-! ### what is added to a plan -/

namespace SelectPlan

/-- a plan with further joins -/
def join (plan : SelectPlan) (more : Joins) : SelectPlan :=
  { plan with joins := plan.joins.merge more }

/-- a plan with further joins, conditions and order terms -/
def add (plan : SelectPlan) (more : Joins) (ps : List Predicate) (ts : List OrderTerm) :
    SelectPlan :=
  ((plan.join more).addPredicates ps).addOrders ts

section

variable (plan : SelectPlan) (more : Joins) (ps qs : List Predicate) (ts us : List OrderTerm)

theorem addPredicates_append :
    plan.addPredicates (ps ++ qs) = (plan.addPredicates ps).addPredicates qs :=
  List.foldl_append

theorem addOrders_append : plan.addOrders (ts ++ us) = (plan.addOrders ts).addOrders us :=
  List.foldl_append

theorem addPredicate_join (p : Predicate) :
    (plan.join more).addPredicate p = (plan.addPredicate p).join more := by
  have hsame : (plan.join more).hasPredicate p = plan.hasPredicate p := rfl
  unfold addPredicate
  rw [hsame, apply_ite (join · more)]
  rfl

theorem addOrder_join (t : OrderTerm) :
    (plan.join more).addOrder t = (plan.addOrder t).join more := by
  have hsame : (plan.join more).hasOrder t = plan.hasOrder t := rfl
  unfold addOrder
  rw [hsame, apply_ite (join · more)]
  rfl

theorem addPredicate_addOrder (p : Predicate) (t : OrderTerm) :
    (plan.addOrder t).addPredicate p = (plan.addPredicate p).addOrder t := by
  grind [addPredicate, addOrder, hasPredicate, hasOrder]

theorem addPredicates_join :
    (plan.join more).addPredicates ps = (plan.addPredicates ps).join more :=
  List.foldl_hom (join · more) fun plan p => plan.addPredicate_join more p

theorem addOrders_join : (plan.join more).addOrders ts = (plan.addOrders ts).join more :=
  List.foldl_hom (join · more) fun plan t => plan.addOrder_join more t

theorem addPredicates_addOrder (t : OrderTerm) :
    (plan.addOrder t).addPredicates ps = (plan.addPredicates ps).addOrder t :=
  List.foldl_hom (addOrder · t) fun plan p => plan.addPredicate_addOrder p t

theorem addPredicates_addOrders :
    (plan.addOrders ts).addPredicates ps = (plan.addPredicates ps).addOrders ts :=
  (List.foldl_hom (addPredicates · ps) fun plan t => (plan.addPredicates_addOrder ps t).symm).symm

@[simp] theorem entity_add : (plan.add more ps ts).entity = plan.entity := by
  unfold add
  rw [entity_addOrders, entity_addPredicates]
  rfl

@[simp] theorem joins_add : (plan.add more ps ts).joins = plan.joins.merge more := by
  unfold add
  rw [joins_addOrders, joins_addPredicates]
  rfl

end

variable {plan found : SelectPlan}

/-- what is added in two batches can be added at once -/
theorem add_add {more most : Joins}
    (hassoc : (plan.joins.merge more).merge most = plan.joins.merge (more.merge most))
    (ps qs : List Predicate) (ts us : List OrderTerm) :
    (plan.add more ps ts).add most qs us =
      plan.add (more.merge most) (ps ++ qs) (ts ++ us) := by
  have hjoin : (plan.join more).join most = plan.join (more.merge most) := by
    unfold join
    rw [hassoc]
  unfold add
  rw [← addOrders_join, ← addPredicates_join, hjoin, addPredicates_addOrders,
    ← addPredicates_append, ← addOrders_append]

/-- filters and sort keys that find their columns among some joins -/
structure Found (schema : Schema) (root : Entity) (js : Joins) (filters : List Filter)
    (keys : List SortKey) (ps : List Predicate) (ts : List OrderTerm) : Prop where
  filters : filters.map (predicateOf schema root js) = ps.map .ok
  keys : keys.map (orderOf schema root js) = ts.map .ok

/-- the paths of filters and sort keys -/
def pathsOf (filters : List Filter) (keys : List SortKey) : List Path :=
  filters.map (·.key.path) ++ keys.map (·.path)

/-- filters and sort keys are added if their paths can be joined and their columns are found -/
theorem apply_eq_add {filters : List Filter} {sort : List SortKey} {policy : SortPolicy} :
    plan.apply schema filters sort policy = .ok found ↔
      ∃ js ps ts, resolveJoins schema plan.entity
          (pathsOf filters (effectiveSort sort policy)) = .ok js ∧
        Found schema plan.entity (plan.joins.merge js) filters (effectiveSort sort policy) ps ts ∧
        found = plan.add js ps ts := by
  rw [apply_eq_ok]
  constructor
  · intro h
    obtain ⟨js, hjs, ps, ts, hps, hts, rfl⟩ := extend_eq_ok h
    exact ⟨js, ps, ts, hjs, ⟨hps, hts⟩, rfl⟩
  · rintro ⟨js, ps, ts, hjs, ⟨hps, hts⟩, rfl⟩
    unfold pathsOf at hjs
    unfold extend
    simp only [hjs, hps, hts, untilFault_map_ok]
    rfl

end SelectPlan

/-! ### columns among more joins -/

open SelectPlan

variable {js js' : Joins} {filters filters' : List Filter} {keys keys' : List SortKey}
  {ps : List Predicate} {ts : List OrderTerm}

theorem orderOf_congr {k : SortKey} (h : k.path ≠ [] → js.at? k.path = js'.at? k.path) :
    orderOf schema root js k = orderOf schema root js' k := by
  unfold orderOf
  rw [columnRef_congr h]

/-- columns are found by the joins of their paths -/
theorem found_congr
    (h : ∀ p ∈ pathsOf filters keys, p ≠ [] → js.at? p = js'.at? p) :
    Found schema root js filters keys ps ts ↔ Found schema root js' filters keys ps ts := by
  have hfilters : filters.map (predicateOf schema root js) =
      filters.map (predicateOf schema root js') :=
    List.map_congr_left fun f hf =>
      predicateOf_congr (h _ (List.mem_append_left _ (List.mem_map_of_mem hf)))
  have hkeys : keys.map (orderOf schema root js) = keys.map (orderOf schema root js') :=
    List.map_congr_left fun k hk =>
      orderOf_congr (h _ (List.mem_append_right _ (List.mem_map_of_mem hk)))
  constructor
  · rintro ⟨hps, hts⟩
    exact ⟨hfilters ▸ hps, hkeys ▸ hts⟩
  · rintro ⟨hps, hts⟩
    exact ⟨hfilters ▸ hps, hkeys ▸ hts⟩

/-- columns of two batches are found if those of each are -/
theorem found_append :
    Found schema root js (filters ++ filters') (keys ++ keys') ps ts ↔
      ∃ qs qs' us us', ps = qs ++ qs' ∧ ts = us ++ us' ∧
        Found schema root js filters keys qs us ∧ Found schema root js filters' keys' qs' us' := by
  constructor
  · rintro ⟨hps, hts⟩
    rw [List.map_append] at hps hts
    obtain ⟨qs, qs', rfl, hqs, hqs'⟩ := List.map_eq_append_iff.1 hps.symm
    obtain ⟨us, us', rfl, hus, hus'⟩ := List.map_eq_append_iff.1 hts.symm
    exact ⟨qs, qs', us, us', rfl, rfl, ⟨hqs.symm, hus.symm⟩, hqs'.symm, hus'.symm⟩
  · rintro ⟨qs, qs', us, us', rfl, rfl, ⟨hqs, hus⟩, hqs', hus'⟩
    refine ⟨?_, ?_⟩
    · rw [List.map_append, List.map_append, hqs, hqs']
    · rw [List.map_append, List.map_append, hus, hus']

theorem mem_pathsOf_append (p : Path) :
    p ∈ pathsOf (filters ++ filters') (keys ++ keys') ↔
      p ∈ pathsOf filters keys ∨ p ∈ pathsOf filters' keys' := by
  simp only [pathsOf, List.map_append, List.mem_append]
  tauto

section

variable (hs : schema.WellFormed) (hroot : root ∈ schema.entities)

include hs hroot

/-- more joins than those of the paths find the same columns -/
theorem found_mono {had : Joins} (hhad : had.Walked schema root) {more : Joins}
    (hmore : resolveJoins schema root (pathsOf filters keys) = .ok more)
    (h : ∀ entry ∈ (had.merge more).entries, entry ∈ js.entries) :
    Found schema root (had.merge more) filters keys ps ts ↔
      Found schema root js filters keys ps ts := by
  refine found_congr fun p hp hne => ?_
  obtain ⟨part, hpart, j, hj⟩ := exists_last_join hmore hp hne
  have hin : (p.text, j) ∈ (had.merge more).entries :=
    (mem_merge hs hroot hhad (walked_of_resolveJoins hs hroot hmore) _).2
      (.inr ((mem_of_resolveJoins hs hroot hmore _).2 ⟨p, hp, part, hpart, hj⟩))
  have hat : (had.merge more).at? p = some j := Dict.get?_eq_some_iff.2 hin
  rw [hat, Joins.at?_mono h hat]

/-- two batches without a fault are one without a fault -/
theorem found_batches {had : Joins} (hhad : had.Walked schema root)
    (hjs : resolveJoins schema root (pathsOf filters keys) = .ok js)
    (hjs' : resolveJoins schema root (pathsOf filters' keys') = .ok js') :
    Found schema root (had.merge (js.merge js')) (filters ++ filters') (keys ++ keys') ps
        ts ↔
      ∃ qs qs' us us', ps = qs ++ qs' ∧ ts = us ++ us' ∧
        Found schema root (had.merge js) filters keys qs us ∧
        Found schema root ((had.merge js).merge js') filters' keys' qs' us' := by
  have hw := walked_of_resolveJoins hs hroot hjs
  have hw' := walked_of_resolveJoins hs hroot hjs'
  have hfirst := walked_merge hs hroot hhad hw
  rw [found_append, merge_assoc hs hroot hhad hw hw']
  have hsame : ∀ qs us, Found schema root (had.merge js) filters keys qs us ↔
      Found schema root (had.merge (js.merge js')) filters keys qs us := by
    intro qs us
    refine found_mono hs hroot hhad hjs fun entry hentry => ?_
    rw [← merge_assoc hs hroot hhad hw hw']
    exact (mem_merge hs hroot hfirst hw' entry).2 (.inl hentry)
  simp only [hsame]

end

/-- filters and sort keys that are added to a plan one batch after the other make the plan that all
of them make at once, whatever the plan was, as long as its joins are those of walks; so are the
joins of every plan that has been put together before; and for joins alone, those of a union of
paths are those of its parts -/
theorem apply_append {d : Document} (hd : d.resolve = .ok schema) (hroot : root ∈ schema.entities) :
    (∀ plan, ReflTransGen (SelectPlan.Change schema) (.ofEntity root) plan →
      plan.entity = root ∧ plan.joins.Walked schema root) ∧
    (∀ plan : SelectPlan, plan.entity = root → plan.joins.Walked schema root →
      ∀ filters filters' sort sort' found,
        (plan.apply schema filters sort .unsorted >>= fun mid =>
          mid.apply schema filters' sort' .unsorted) = .ok found ↔
        plan.apply schema (filters ++ filters') (sort ++ sort') .unsorted = .ok found) ∧
    ∀ paths paths' all : List Path, (∀ p, p ∈ all ↔ p ∈ paths ∨ p ∈ paths') → ∀ found,
      resolveJoins schema root all = .ok found ↔
        ∃ js js', resolveJoins schema root paths = .ok js ∧
          resolveJoins schema root paths' = .ok js' ∧ found = js.merge js' := by
  have hs := Document.wellFormed_of_resolve hd
  refine ⟨fun plan hplan => ?_, fun plan hentity hwalked filters filters' sort sort' found => ?_,
    fun paths paths' all => resolveJoins_union hs hroot⟩
  · have hsound := sound_of_changes hd hroot (sound_ofEntity schema root) hplan
    exact ⟨hsound.entity, hsound.joins⟩
  have hkeys : ∀ keys, effectiveSort keys .unsorted = keys := fun keys => by simp [effectiveSort]
  have hpaths : ∀ p, p ∈ pathsOf (filters ++ filters') (sort ++ sort') ↔
      p ∈ pathsOf filters sort ∨ p ∈ pathsOf filters' sort' := mem_pathsOf_append
  have hunion := resolveJoins_union hs hroot hpaths
  have hadded : ∀ {js js' : Joins}, resolveJoins schema root (pathsOf filters sort) = .ok js →
      resolveJoins schema root (pathsOf filters' sort') = .ok js' → ∀ ps qs ts us,
      (plan.add js ps ts).add js' qs us = plan.add (js.merge js') (ps ++ qs) (ts ++ us) :=
    fun hjs hjs' => add_add (merge_assoc hs hroot hwalked
      (walked_of_resolveJoins hs hroot hjs) (walked_of_resolveJoins hs hroot hjs'))
  simp only [bind_eq_ok, apply_eq_add, hkeys, hentity, hunion]
  constructor
  · rintro ⟨_, ⟨js, ps, ts, hjs, hfound, rfl⟩, js', ps', ts', hjs', hfound', rfl⟩
    rw [entity_add, hentity] at hjs'
    rw [entity_add, hentity, joins_add] at hfound'
    exact ⟨js.merge js', ps ++ ps', ts ++ ts', ⟨js, js', hjs, hjs', rfl⟩,
      (found_batches hs hroot hwalked hjs hjs').2 ⟨ps, ps', ts, ts', rfl, rfl, hfound, hfound'⟩,
      hadded hjs hjs' ps ps' ts ts'⟩
  · rintro ⟨_, _, _, ⟨js, js', hjs, hjs', rfl⟩, hfound, rfl⟩
    obtain ⟨ps, ps', ts, ts', rfl, rfl, hfirst, hsecond⟩ :=
      (found_batches hs hroot hwalked hjs hjs').1 hfound
    refine ⟨_, ⟨js, ps, ts, hjs, hfirst, rfl⟩, js', ps', ts', ?_, ?_,
      (hadded hjs hjs' ps ps' ts ts').symm⟩
    · rw [entity_add, hentity, hjs']
    · rw [entity_add, hentity, joins_add]
      exact hsecond

/-- notes on a title that is met twice, by their parent and then by the replies to it: in two
batches, at once, and from a plan that has been searched -/
theorem notes_apply_append :
    ∃ plan searched found : SelectPlan,
      planOf notesSchema notesEntity [("parent___title__contains", .str "new")] [] .paged =
        .ok plan ∧
      plan.search ⟨"lean proofs", none, true⟩ = .ok searched ∧
      (searched.apply notesSchema [⟨⟨["parent"], "title", .contains⟩, .str "new"⟩]
          [⟨["parent"], "title", true⟩] .unsorted >>= fun mid =>
        mid.apply notesSchema [⟨⟨["parent", "replies"], "title", .exact⟩, .str "old"⟩]
          [⟨["replies"], "title", false⟩, ⟨["parent"], "title", false⟩] .unsorted) = .ok found ∧
      found.joins.keys = ["parent", "parent___replies", "replies"] ∧
      found.predicates.length = 3 ∧ found.order.length = 5 ∧
      searched.apply notesSchema
          [⟨⟨["parent"], "title", .contains⟩, .str "new"⟩,
            ⟨⟨["parent", "replies"], "title", .exact⟩, .str "old"⟩]
          [⟨["parent"], "title", true⟩, ⟨["replies"], "title", false⟩, ⟨["parent"], "title", false⟩]
          .unsorted = .ok found := by
  have hnotes : notesEntity ∈ notesSchema.entities := List.mem_singleton_self _
  have hagain : ∀ plan searched found : SelectPlan,
      planOf notesSchema notesEntity [("parent___title__contains", .str "new")] [] .paged =
        .ok plan → plan.search ⟨"lean proofs", none, true⟩ = .ok searched →
      (searched.apply notesSchema [⟨⟨["parent"], "title", .contains⟩, .str "new"⟩]
          [⟨["parent"], "title", true⟩] .unsorted >>= fun mid =>
        mid.apply notesSchema [⟨⟨["parent", "replies"], "title", .exact⟩, .str "old"⟩]
          [⟨["replies"], "title", false⟩, ⟨["parent"], "title", false⟩] .unsorted) = .ok found →
      searched.apply notesSchema
          [⟨⟨["parent"], "title", .contains⟩, .str "new"⟩,
            ⟨⟨["parent", "replies"], "title", .exact⟩, .str "old"⟩]
          [⟨["parent"], "title", true⟩, ⟨["replies"], "title", false⟩, ⟨["parent"], "title", false⟩]
          .unsorted = .ok found := by
    intro plan searched found hplan hsearch hfound
    have hchanges := (SelectPlan.changes_of_planOf hplan).tail (.search _ hsearch)
    obtain ⟨hstart, happly, _⟩ := apply_append resolve_notesDocument hnotes
    obtain ⟨hentity, hwalked⟩ := hstart searched hchanges
    exact (happly searched hentity hwalked _ _ _ _ found).1 hfound
  exact ⟨_, _, _, rfl, rfl, rfl, rfl, rfl, rfl, hagain _ _ _ rfl rfl rfl⟩

end EntityAccess
