import EntityAccess.Proofs.Query.Joins
import EntityAccess.Proofs.Query.Paged
import EntityAccess.Proofs.Repository.Fetch
import EntityAccess.Proofs.Schema.References
import EntityAccess.Repository.Batches
import Mathlib.Logic.Relation

/-!
# plans in scope

A plan refers to columns of its root and of what it has joined, each by the type that it has there,
and to search vectors only where they are matched or ranked; its tables are joined one after the
other, each to one before it.  Filters and sort keys, searches and batches keep it so.

* `SelectPlan.Under` : which entity stands under an alias;
* `SelectPlan.WellScoped` : what a plan promises to be rendered;
* `SelectPlan.Sound` : the invariant, with the joins of whole walks;
* `sound_extend`, `sound_search`, `sound_keysetPlan` : one change of a plan;
* `changes_of_planOf`, `sound_of_planOf`, `sound_of_changes` : any number of them;
* `compiled_wellScoped` : a compiled plan after any number of changes.
-/

namespace EntityAccess

open Outcome

/-! ### references of a plan -/

/-- the column that a condition is about -/
def Predicate.reference : Predicate → ColumnRef
  | .compare c _ _ => c
  | .compareDay c _ _ => c
  | .like c _ _ _ => c
  | .null c _ => c
  | .list c _ _ => c
  | .textMatch v _ _ => v

/-- a full-text match -/
def Predicate.isMatch : Predicate → Bool
  | .textMatch _ _ _ => true
  | _ => false

/-- the column that a term orders by -/
def OrderTerm.reference : OrderTerm → ColumnRef
  | .column c _ => c
  | .rank v _ _ => v

/-- an order by relevance -/
def OrderTerm.isRank : OrderTerm → Bool
  | .column _ _ => false
  | .rank _ _ _ => true

theorem Operator.reference_build (op : Operator) (c : ColumnRef) (x : Operand) :
    (op.build c x).reference = c ∧ (op.build c x).isMatch = false := by
  cases op <;> exact ⟨rfl, rfl⟩

namespace SelectPlan

variable {schema : Schema} {root : Entity} {plan : SelectPlan}

/-- the entity whose rows stand under an alias -/
inductive Under (schema : Schema) (plan : SelectPlan) : String → Entity → Prop where
  | root : Under schema plan rootAlias plan.entity
  | joined {j : Join} {e : Entity} (mem : j ∈ plan.joins.values)
      (found : schema.entity? j.entity = some e) : Under schema plan j.tableAlias e

/-- a reference to a column that is there, with its type; search vectors are referred to where they
are searched, and nowhere else -/
structure Refers (schema : Schema) (plan : SelectPlan) (c : ColumnRef) (searched : Bool) :
    Prop where
  column : ∃ e, plan.Under schema c.tableAlias e ∧
    ∃ column ∈ e.columns, column.name = c.column ∧ column.type = c.type
  searched_iff : searched = true ↔ c.type = .searchVector
  vector : searched = true → c.tableAlias = rootAlias ∧
    ∃ v ∈ plan.entity.searchVectors, v.name = c.column

/-- a plan that can be rendered as it is meant -/
structure WellScoped (schema : Schema) (plan : SelectPlan) : Prop where
  predicates : ∀ p ∈ plan.predicates, plan.Refers schema p.reference p.isMatch
  order : ∀ t ∈ plan.order, plan.Refers schema t.reference t.isRank
  /-- an alias stands for one entity -/
  under_unique : ∀ tableAlias e e', plan.Under schema tableAlias e →
    plan.Under schema tableAlias e' → e = e'
  /-- every table is joined under a new alias, to an alias before it -/
  tables : ∃ texts, Sql.fromClause schema plan =
      Text.concat (Sql.tableOf plan.entity :: " AS " :: Sql.quoted rootAlias :: texts) ∧
    texts.length = plan.joins.size ∧ Sql.InScope schema [rootAlias] texts

/-- the invariant of a plan that is put together: its joins are those of whole walks -/
structure Sound (schema : Schema) (root : Entity) (plan : SelectPlan) : Prop where
  entity : plan.entity = root
  joins : plan.joins.Walked schema root
  predicates : ∀ p ∈ plan.predicates, plan.Refers schema p.reference p.isMatch
  order : ∀ t ∈ plan.order, plan.Refers schema t.reference t.isRank

/-- further joins leave references as they are -/
theorem Refers.mono {plan' : SelectPlan} {c : ColumnRef} {searched : Bool}
    (h : plan.Refers schema c searched) (hentity : plan'.entity = plan.entity)
    (hjoins : ∀ entry ∈ plan.joins.entries, entry ∈ plan'.joins.entries) :
    plan'.Refers schema c searched := by
  obtain ⟨⟨e, hunder, hcolumn⟩, hsearched, hvector⟩ := h
  refine ⟨⟨e, ?_, hcolumn⟩, hsearched, hentity ▸ hvector⟩
  generalize c.tableAlias = a at hunder
  cases hunder with
  | root => exact hentity ▸ .root
  | @joined j e hj hfound =>
    obtain ⟨entry, hentry, rfl⟩ := List.mem_map.1 hj
    exact .joined (List.mem_map_of_mem (hjoins entry hentry)) hfound

theorem Sound.wellScoped (h : plan.Sound schema root) (hs : schema.WellFormed)
    (hroot : root ∈ schema.entities) : plan.WellScoped schema := by
  refine ⟨h.predicates, h.order, ?_, ?_⟩
  · intro tableAlias e e' hunder hunder'
    have hnot : ∀ j ∈ plan.joins.values, j.tableAlias ≠ rootAlias := by
      intro j hj
      obtain ⟨entry, hentry, rfl⟩ := List.mem_map.1 hj
      exact h.joins.tableAlias_ne_root hentry
    cases hunder with
    | root =>
      generalize halias : rootAlias = a at hunder'
      cases hunder' with
      | root => rfl
      | joined hj _ => exact absurd halias.symm (hnot _ hj)
    | @joined j e hj hfound =>
      generalize halias : j.tableAlias = a at hunder'
      cases hunder' with
      | root => exact absurd halias (hnot _ hj)
      | @joined j' e' hj' hfound' =>
        obtain ⟨entry, hentry, rfl⟩ := List.mem_map.1 hj
        obtain ⟨other, hother, rfl⟩ := List.mem_map.1 hj'
        have hsame := h.joins.eq_of_tableAlias hs hroot hentry hother halias
        rw [hsame, hfound'] at hfound
        exact (Option.some.inj hfound).symm
  · refine ⟨plan.joins.values.map (Sql.joinClause schema), rfl, ?_, h.joins.inScope hs hroot⟩
    simp [Dict.values, Dict.size]

/-! ### what is added to a plan -/

theorem mem_addPredicate {p q : Predicate} (h : q ∈ (plan.addPredicate p).predicates) :
    q ∈ plan.predicates ∨ q = p := by
  unfold addPredicate at h
  split at h
  · exact .inl h
  · simpa using h

theorem mem_addPredicates {ps : List Predicate} {q : Predicate}
    (h : q ∈ (plan.addPredicates ps).predicates) : q ∈ plan.predicates ∨ q ∈ ps := by
  unfold addPredicates at h
  induction ps generalizing plan with
  | nil => exact .inl h
  | cons p ps ih =>
    rcases ih h with hold | hnew
    · refine (mem_addPredicate hold).imp_right fun heq => ?_
      rw [heq]
      exact List.mem_cons_self
    · exact .inr (List.mem_cons_of_mem _ hnew)

theorem mem_addOrder {t u : OrderTerm} (h : u ∈ (plan.addOrder t).order) :
    u ∈ plan.order ∨ u = t := by
  unfold addOrder at h
  split at h
  · exact .inl h
  · simpa using h

theorem Sound.addPredicate (h : plan.Sound schema root) {p : Predicate}
    (hp : plan.Refers schema p.reference p.isMatch) : (plan.addPredicate p).Sound schema root := by
  obtain ⟨ps, hps⟩ := plan.addPredicate_eq p
  have hmem : ∀ q ∈ ps, q ∈ plan.predicates ∨ q = p := fun q hq =>
    mem_addPredicate (by rw [hps]; exact hq)
  rw [hps]
  refine ⟨h.entity, h.joins, fun q hq => ?_, fun t ht => ?_⟩
  · have hq' : plan.Refers schema q.reference q.isMatch := by
      rcases hmem q hq with hold | rfl
      · exact h.predicates q hold
      · exact hp
    exact hq'.mono rfl fun _ hentry => hentry
  · exact (h.order t ht).mono rfl fun _ hentry => hentry

theorem Sound.addPredicates (h : plan.Sound schema root) {ps : List Predicate}
    (hps : ∀ p ∈ ps, plan.Refers schema p.reference p.isMatch) :
    (plan.addPredicates ps).Sound schema root := by
  unfold SelectPlan.addPredicates
  induction ps generalizing plan with
  | nil => exact h
  | cons p ps ih =>
    obtain ⟨hp, hrest⟩ := List.forall_mem_cons.1 hps
    obtain ⟨qs, hqs⟩ := plan.addPredicate_eq p
    refine ih (h.addPredicate hp) fun q hq => (hrest q hq).mono ?_ ?_
    · rw [hqs]
    · rw [hqs]
      exact fun _ hentry => hentry

/-- another order of terms that refer to what is there -/
theorem Sound.reorder (h : plan.Sound schema root) {ts : List OrderTerm}
    (hts : ∀ t ∈ ts, plan.Refers schema t.reference t.isRank) :
    ({ plan with order := ts } : SelectPlan).Sound schema root :=
  ⟨h.entity, h.joins, fun p hp => (h.predicates p hp).mono rfl fun _ hentry => hentry,
    fun t ht => (hts t ht).mono rfl fun _ hentry => hentry⟩

theorem Sound.addOrders (h : plan.Sound schema root) {ts : List OrderTerm}
    (hts : ∀ t ∈ ts, plan.Refers schema t.reference t.isRank) :
    (plan.addOrders ts).Sound schema root := by
  unfold SelectPlan.addOrders
  induction ts generalizing plan with
  | nil => exact h
  | cons t ts ih =>
    obtain ⟨ht, hrest⟩ := List.forall_mem_cons.1 hts
    obtain ⟨us, hus, _⟩ := plan.addOrder_eq t
    have hmem : ∀ u ∈ plan.order ++ us, u ∈ plan.order ∨ u = t := fun u hu =>
      mem_addOrder (by rw [hus]; exact hu)
    rw [List.foldl_cons, hus]
    refine ih (h.reorder fun u hu => ?_) fun u hu =>
      (hrest u hu).mono rfl fun _ hentry => hentry
    rcases hmem u hu with hold | rfl
    · exact h.order u hold
    · exact ht

/-! ### columns and vectors -/

theorem scalarColumn_refers {e : Entity} {name : String} {column : Column}
    (hcolumn : e.scalarColumn name = .ok column) {tableAlias : String}
    (hunder : plan.Under schema tableAlias e) :
    plan.Refers schema ⟨tableAlias, column.name, column.type⟩ false := by
  obtain ⟨hmem, _, htype⟩ := Entity.scalarColumn_mem hcolumn
  exact ⟨⟨e, hunder, column, hmem, rfl, rfl⟩, by simpa using htype, by simp⟩

/-- the primary key of the root is a column of text -/
theorem rootColumn_primaryKey (he : plan.entity.WellFormed) :
    plan.rootColumn primaryKey = .ok ⟨rootAlias, primaryKey, .text⟩ := by
  have hcolumn : plan.entity.scalarColumn primaryKey = .ok keyColumn :=
    Entity.scalarColumn_of_mem he he.key_mem (by decide)
  unfold rootColumn
  rw [hcolumn]
  rfl

/-- the column at the end of a path is in scope -/
theorem columnRef_refers {path : Path} {field : String} {c : ColumnRef}
    (h : columnRef schema plan.entity plan.joins path field = .ok c) :
    plan.Refers schema c false := by
  unfold columnRef at h
  split at h
  · obtain ⟨column, hcolumn, h⟩ := bind_eq_ok.1 h
    obtain rfl := Except.ok.inj h
    exact scalarColumn_refers hcolumn .root
  · split at h
    · simp at h
    · next j hj =>
      split at h
      · simp at h
      · next e he =>
        obtain ⟨column, hcolumn, h⟩ := bind_eq_ok.1 h
        obtain rfl := Except.ok.inj h
        have hmem : j ∈ plan.joins.values :=
          List.mem_map_of_mem (f := (·.2)) (Dict.get?_eq_some_iff.1 hj)
        exact scalarColumn_refers hcolumn (.joined hmem he)

theorem predicateOf_refers {f : Filter} {p : Predicate}
    (h : predicateOf schema plan.entity plan.joins f = .ok p) :
    plan.Refers schema p.reference p.isMatch := by
  unfold predicateOf at h
  obtain ⟨c, hc, h⟩ := bind_eq_ok.1 h
  obtain ⟨x, _, h⟩ := bind_eq_ok.1 h
  obtain rfl := Except.ok.inj h
  obtain ⟨href, hmatch⟩ := f.key.operator.reference_build c x
  rw [href, hmatch]
  exact columnRef_refers hc

theorem orderOf_refers {k : SortKey} {t : OrderTerm}
    (h : orderOf schema plan.entity plan.joins k = .ok t) :
    plan.Refers schema t.reference t.isRank := by
  unfold orderOf at h
  obtain ⟨c, hc, h⟩ := bind_eq_ok.1 h
  obtain rfl := Except.ok.inj h
  exact columnRef_refers hc

/-- the vector that is searched is one of the entity -/
theorem mem_of_resolveVector {e : Entity} {name : Option String} {v : SearchVector}
    (h : e.resolveVector name = .ok v) : v ∈ e.searchVectors := by
  unfold Entity.resolveVector at h
  split at h
  · split at h
    · next hfound =>
      obtain rfl := Except.ok.inj h
      exact List.mem_of_find?_eq_some hfound
    · simp at h
  · split at h
    · next hvectors =>
      obtain rfl := Except.ok.inj h
      rw [hvectors]
      exact List.mem_cons_self
    · simp at h

end SelectPlan

/-- a search vector of an accepted entity is a column of it -/
theorem Document.column_of_vector {d : Document} {s : Schema} (h : d.resolve = .ok s) {e : Entity}
    (he : e ∈ s.entities) {v : SearchVector} (hv : v ∈ e.searchVectors) :
    ∃ c ∈ e.columns, c.name = v.name ∧ c.type = .searchVector := by
  obtain ⟨_, rfl⟩ := resolve_eq_ok h
  obtain ⟨declaration, _, rfl⟩ := List.mem_map.1 he
  obtain ⟨vector, hvector, rfl⟩ := List.mem_map.1 hv
  refine ⟨vector.toColumn, ?_, rfl, rfl⟩
  exact List.mem_append_right _ (List.mem_map_of_mem hvector)

theorem mem_of_mem_untilFault {ε α : Type} {rs : List (Except ε α)} {a : α}
    (h : a ∈ (untilFault rs).1) : .ok a ∈ rs := by
  induction rs with
  | nil => simp [untilFault_nil] at h
  | cons r rs ih =>
    cases r with
    | error e => simp [untilFault_error] at h
    | ok b =>
      rw [untilFault_ok, List.mem_cons] at h
      rcases h with rfl | h
      · exact List.mem_cons_self
      · exact List.mem_cons_of_mem _ (ih h)

/-! ### the changes of a plan -/

namespace SelectPlan

variable {schema : Schema} {root : Entity} {plan found : SelectPlan}

theorem sound_ofEntity (schema : Schema) (root : Entity) : (ofEntity root).Sound schema root :=
  ⟨rfl, by simp [ofEntity, Joins.Walked, Dict.empty], by simp [ofEntity], by simp [ofEntity]⟩

/-- filters and sort keys, whether or not there is a fault among them -/
theorem sound_extend (h : plan.Sound schema root) (hs : schema.WellFormed)
    (hroot : root ∈ schema.entities) (filters : List Filter) (sort : List SortKey)
    (policy : SortPolicy) : (plan.extend schema filters sort policy).1.Sound schema root := by
  unfold extend
  dsimp only
  split
  · exact h
  · next joins hjoins =>
    rw [h.entity] at hjoins
    have hpaths := walked_of_resolveJoins hs hroot hjoins
    have hmore : ∀ entry ∈ plan.joins.entries, entry ∈ (plan.joins.merge joins).entries :=
      fun entry hentry => (mem_merge hs hroot h.joins hpaths entry).2 (.inl hentry)
    let joined : SelectPlan := { plan with joins := plan.joins.merge joins }
    have hjoined : joined.Sound schema root :=
      ⟨h.entity, walked_merge hs hroot h.joins hpaths,
        fun p hp => (h.predicates p hp).mono rfl hmore,
        fun t ht => (h.order t ht).mono rfl hmore⟩
    let built := untilFault (filters.map (predicateOf schema joined.entity joined.joins))
    have hfiltered : (joined.addPredicates built.1).Sound schema root := by
      refine hjoined.addPredicates fun p hp => ?_
      obtain ⟨f, _, hf⟩ := List.mem_map.1 (mem_of_mem_untilFault hp)
      exact predicateOf_refers hf
    split
    · exact hfiltered
    · refine hfiltered.addOrders fun t ht => ?_
      obtain ⟨k, _, hk⟩ := List.mem_map.1 (mem_of_mem_untilFault ht)
      have hterm : joined.Refers schema t.reference t.isRank := orderOf_refers hk
      refine hterm.mono (entity_addPredicates _ _) fun entry hentry => ?_
      rw [joins_addPredicates]
      exact hentry

theorem sound_search (h : plan.Sound schema root)
    (hvector : ∀ v ∈ root.searchVectors,
      ∃ c ∈ root.columns, c.name = v.name ∧ c.type = .searchVector)
    {params : SearchParams} (hsearch : plan.search params = .ok found) :
    found.Sound schema root := by
  unfold search at hsearch
  dsimp only at hsearch
  split at hsearch
  · obtain rfl := Except.ok.inj hsearch
    exact h
  · obtain ⟨v, hv, hsearch⟩ := bind_eq_ok.1 hsearch
    have hmem := mem_of_resolveVector hv
    have hcolumn : plan.Refers schema ⟨rootAlias, v.name, .searchVector⟩ true := by
      refine ⟨⟨plan.entity, .root, ?_⟩, by simp, fun _ => ⟨rfl, v, hmem, rfl⟩⟩
      rw [h.entity] at hmem ⊢
      exact hvector v hmem
    have hmatched := h.addPredicate (p := .textMatch ⟨rootAlias, v.name, .searchVector⟩
      (Text.trim params.text) v.config) hcolumn
    obtain ⟨ps, hps⟩ := plan.addPredicate_eq
      (.textMatch ⟨rootAlias, v.name, .searchVector⟩ (Text.trim params.text) v.config)
    split at hsearch
    · obtain rfl := Except.ok.inj hsearch
      refine hmatched.reorder fun t ht => ?_
      rcases List.mem_cons.1 ht with rfl | ht
      · rw [hps]
        exact hcolumn.mono rfl fun _ hentry => hentry
      · exact hmatched.order t (List.mem_filter.1 ht).1
    · obtain rfl := Except.ok.inj hsearch
      exact hmatched

theorem sound_window (h : plan.Sound schema root) (limit offset : Option Nat) :
    (plan.window limit offset).Sound schema root :=
  ⟨h.entity, h.joins, fun p hp => (h.predicates p hp).mono rfl fun _ hentry => hentry,
    fun t ht => (h.order t ht).mono rfl fun _ hentry => hentry⟩

theorem sound_keysetPlan (h : plan.Sound schema root) {after : Option String} {limit : Nat}
    (hkeyset : plan.keysetPlan after limit = .ok found) : found.Sound schema root := by
  unfold keysetPlan rootColumn at hkeyset
  obtain ⟨key, hkey, hkeyset⟩ := bind_eq_ok.1 hkeyset
  obtain ⟨column, hcolumn, hkey⟩ := bind_eq_ok.1 hkey
  obtain rfl := Except.ok.inj hkey
  obtain rfl := Except.ok.inj hkeyset
  have hbound : ∀ bounded : SelectPlan, bounded.Sound schema root → bounded.entity = plan.entity →
      bounded.joins = plan.joins →
      ({ bounded with order := [.column ⟨rootAlias, column.name, column.type⟩ false] } :
        SelectPlan).Sound schema root := by
    intro bounded hb hentity hjoins
    refine hb.reorder fun t ht => ?_
    obtain rfl := List.mem_singleton.1 ht
    exact scalarColumn_refers hcolumn (hentity ▸ .root)
  refine sound_window ?_ _ _
  cases after with
  | none => exact hbound plan h rfl rfl
  | some id =>
    obtain ⟨ps, hps⟩ := plan.addPredicate_eq
      (.compare ⟨rootAlias, column.name, column.type⟩ .gt (.text id))
    have hentity := congrArg SelectPlan.entity hps
    have hjoins := congrArg SelectPlan.joins hps
    exact hbound _ (h.addPredicate (scalarColumn_refers hcolumn .root)) hentity hjoins

/-- one change of a plan: filters and sort keys, up to the first fault; a search; the next batch; a
window -/
inductive Change (schema : Schema) : SelectPlan → SelectPlan → Prop where
  | extend (plan : SelectPlan) (filters : List Filter) (sort : List SortKey)
      (policy : SortPolicy) : Change schema plan (plan.extend schema filters sort policy).1
  | search {plan found : SelectPlan} (params : SearchParams)
      (h : plan.search params = .ok found) : Change schema plan found
  | batch {plan found : SelectPlan} (after : Option String) (limit : Nat)
      (h : plan.keysetPlan after limit = .ok found) : Change schema plan found
  | window (plan : SelectPlan) (limit offset : Option Nat) :
      Change schema plan (plan.window limit offset)

end SelectPlan

open Relation SelectPlan

/-- a plan of filters and sort keys comes of the plan of all rows -/
theorem SelectPlan.changes_of_planOf {schema : Schema} {e : Entity} {filters : Filters}
    {sort : List SortKey} {policy : SortPolicy} {plan : SelectPlan}
    (h : planOf schema e filters sort policy = .ok plan) :
    ReflTransGen (Change schema) (.ofEntity e) plan := by
  obtain ⟨fs, _, h⟩ := bind_eq_ok.1 h
  have hchange : Change schema (ofEntity e) _ := .extend (ofEntity e) fs sort policy
  rw [assemble_eq_ok.1 h] at hchange
  exact .single hchange

/-- a plan of filters and sort keys -/
theorem sound_of_planOf {schema : Schema} (hs : schema.WellFormed) {root : Entity}
    (hroot : root ∈ schema.entities) {filters : Filters} {sort : List SortKey}
    {policy : SortPolicy} {plan : SelectPlan}
    (h : planOf schema root filters sort policy = .ok plan) : plan.Sound schema root := by
  obtain ⟨fs, _, h⟩ := bind_eq_ok.1 h
  have hextend := sound_extend (sound_ofEntity schema root) hs hroot fs sort policy
  rw [assemble_eq_ok.1 h] at hextend
  exact hextend

/-- a plan after any number of changes -/
theorem sound_of_changes {d : Document} {schema : Schema} (hd : d.resolve = .ok schema)
    {root : Entity} (hroot : root ∈ schema.entities) {plan found : SelectPlan}
    (h : plan.Sound schema root) (hfound : ReflTransGen (SelectPlan.Change schema) plan found) :
    found.Sound schema root := by
  have hs := Document.wellFormed_of_resolve hd
  induction hfound with
  | refl => exact h
  | tail _ hchange ih =>
    cases hchange with
    | extend filters sort policy => exact sound_extend ih hs hroot filters sort policy
    | search params h => exact sound_search ih (fun v => Document.column_of_vector hd hroot) h
    | batch after limit h => exact sound_keysetPlan ih h
    | window limit offset => exact sound_window ih limit offset

/-- the plan of a repository without rules, and every plan that comes of it -/
theorem compiled_wellScoped {d : Document} {schema : Schema} (hd : d.resolve = .ok schema)
    {root : Entity} (hroot : root ∈ schema.entities) {load : LoadPlan} {filters : Filters}
    {sort : List SortKey} {policy : SortPolicy} {σ : Type} {store : Program.Store σ} {s s' : σ}
    {log : List Event} {plan found : SelectPlan}
    (hplan : (Repository.compile ⟨schema, root, .none, load⟩ filters sort policy).runOn store s =
      (.ok plan, log, s'))
    (hfound : ReflTransGen (SelectPlan.Change schema) plan found) :
    found.entity = root ∧ found.WellScoped schema := by
  have hs := Document.wellFormed_of_resolve hd
  obtain ⟨hplan, _⟩ := Repository.compile_eq_ok (fun _ _ => rfl) hplan
  have hsound := sound_of_changes hd hroot (sound_of_planOf hs hroot hplan) hfound
  exact ⟨hsound.entity, hsound.wellScoped hs hroot⟩

/-- a search by relevance among the replies to a parent, and the batch after a note -/
theorem notes_search_wellScoped :
    ∃ plan searched found : SelectPlan,
      (∀ (σ : Type) (store : Program.Store σ) (s : σ),
        (Repository.compile ⟨notesSchema, notesEntity, .none, .empty⟩
          [("parent___replies___title__contains", .str "new")] [⟨["parent"], "title", true⟩]
          .paged).runOn store s = (.ok plan, [], s)) ∧
      plan.search ⟨"lean proofs", none, true⟩ = .ok searched ∧
      searched.order.map (·.reference.tableAlias) = ["root", "j_parent", "root"] ∧
      searched.keysetPlan (some "7") 10 = .ok found ∧
      found.joins.keys = ["parent", "parent___replies"] ∧ found.predicates.length = 3 ∧
      searched.WellScoped notesSchema ∧ found.WellScoped notesSchema := by
  have hnotes : notesEntity ∈ notesSchema.entities := List.mem_singleton_self _
  let silent : Program.Store Unit := ⟨fun _ s => (.error .driver, s), fun s => ("", s)⟩
  have hscoped : ∀ plan searched found : SelectPlan,
      (Repository.compile ⟨notesSchema, notesEntity, .none, .empty⟩
        [("parent___replies___title__contains", .str "new")] [⟨["parent"], "title", true⟩]
        .paged).runOn silent () = (.ok plan, [], ()) →
      plan.search ⟨"lean proofs", none, true⟩ = .ok searched →
      searched.keysetPlan (some "7") 10 = .ok found →
      searched.WellScoped notesSchema ∧ found.WellScoped notesSchema := by
    intro plan searched found hplan hsearch hbatch
    have hsearched : ReflTransGen (SelectPlan.Change notesSchema) plan searched :=
      .single (.search _ hsearch)
    have hfound := hsearched.tail (.batch _ _ hbatch)
    exact ⟨(compiled_wellScoped resolve_notesDocument hnotes hplan hsearched).2,
      (compiled_wellScoped resolve_notesDocument hnotes hplan hfound).2⟩
  exact ⟨_, _, _, fun σ store s => rfl, rfl, rfl, rfl, rfl, rfl, hscoped _ _ _ rfl rfl rfl⟩

end EntityAccess
