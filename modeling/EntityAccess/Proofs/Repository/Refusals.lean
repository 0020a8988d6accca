import EntityAccess.Catalog
import EntityAccess.Proofs.Query.Conditions
import EntityAccess.Proofs.Repository.Faults
import EntityAccess.Sql.Definition

/-!
# what requests are refused with

In a catalog of an accepted schema nothing that a request can say leads to a fault of the
configuration.  Filters, sort keys and relationships to include are refused as what they are, before
anything is executed; whatever is not refused finds its relationships, joins and entities.

* `Repository.Dependable` : this promise of a repository;
* `Catalog.served_of_build` : the repositories of a catalog without rules;
* `Entity.includeAll_eq_error` : what included relationships are refused with;
* `exists_declared`, `ends_loadRelated` : relationships that are loaded;
* `Sound.reaches` : paths that are joined;
* `requests_never_misconfigured` : the promise is kept.
-/

namespace EntityAccess

open EntityAccess.Action Outcome Relation
open Program (Store)

/-! ### results without the database -/

/-- an action that comes to one result, without executing anything -/
def Action.Decides {α : Type} (x : Action α) (result : Except Error α) : Prop :=
  ∀ (σ : Type) (store : Store σ) (s : σ), x.runOn store s = (result, [], s)

theorem Action.Decides.liftM {α : Type} (result : Except Error α) :
    (liftM result : Action α).Decides result := fun _ _ _ => rfl

/-! ### the promise -/

/-- a key that is none of the column that it is compared with, or a failure of the database -/
def Error.LookupFault (e : Error) : Prop := e.CastFault ∨ ∃ fault, e = .database fault

/-- a path has a join, and the join an entity -/
def Joins.Reaches (schema : Schema) (js : Joins) (p : Path) : Prop :=
  ∃ j e, js.at? p = some j ∧ schema.entity? j.entity = some e

/-- a repository of which no request finds out that it is configured badly -/
structure Repository.Dependable (r : Repository) : Prop where
  /-- filters and sort keys make a plan, or are refused -/
  compile : ∀ filters sort policy, ∃ result, (r.compile filters sort policy).Decides result ∧
    (∀ plan, result = .ok plan →
      ReflTransGen (SelectPlan.Change r.schema) (.ofEntity r.entity) plan) ∧
    ∀ e, result = .error e → e.QueryFault
  /-- relationships to include make a load plan of declared relationships, or one is refused -/
  resolveLoadPlan : ∀ filters includes, ∃ result,
    (r.resolveLoadPlan filters includes).Decides result ∧
    (∀ load, result = .ok load → load.Of r.entity) ∧
    ∀ e, result = .error e → ∃ name ∈ includes, r.entity.isRelationship name = false ∧
      e = .noSuchRelationship name r.entity.name
  /-- what a load plan has is there to be loaded -/
  loadRelated : ∀ filters includes load (σ : Type) (store : Store σ) (s s' : σ) log,
    (r.resolveLoadPlan filters includes).runOn store s = (.ok load, log, s') →
      (∀ name ∈ load.names, ∃ rel target, r.relation name = .ok (rel, target)) ∧
      ∀ records, Ends Error.LookupFault (fun _ => True) (r.loadRelated records load)
  /-- a plan has only tables of entities, whatever has been done to it -/
  joined : ∀ plan, ReflTransGen (SelectPlan.Change r.schema) (.ofEntity r.entity) plan →
    ∀ j ∈ plan.joins.values, ∃ e, r.schema.entity? j.entity = some e
  /-- and filters and sort keys that are added to it find the joins of their paths -/
  reaches : ∀ plan, ReflTransGen (SelectPlan.Change r.schema) (.ofEntity r.entity) plan →
    ∀ paths js, resolveJoins r.schema plan.entity paths = .ok js → ∀ p ∈ paths, p ≠ [] →
      (plan.joins.merge js).Reaches r.schema p

/-! ### catalogs -/

/-- load plans that are registered are of their entity -/
theorem Catalog.loadPlan_of_build {schema : Schema} {hooks : Dict Hooks}
    {loadPlans : Dict LoadPlan} {c : Catalog}
    (h : Catalog.build schema hooks loadPlans = .ok c) {name : String} {e : Entity}
    (he : schema.entity? name = some e) : ((loadPlans.get? name).getD .empty).Of e := by
  cases hplan : loadPlans.get? name with
  | none => exact LoadPlan.of_empty e
  | some plan =>
    obtain ⟨_, _, h⟩ := bind_eq_ok.1 h
    obtain ⟨_, hchecks, _⟩ := bind_eq_ok.1 h
    have hcheck := forM_eq_ok.1 hchecks (name, plan) (Dict.get?_eq_some_iff.1 hplan)
    obtain ⟨e', he', hnames⟩ := bind_eq_ok.1 hcheck
    unfold Catalog.requireEntity at he'
    rw [he] at he'
    obtain rfl : e = e' := Except.ok.inj he'
    intro relationship hmem
    split at hnames
    · cases hnames
    · next hnone => simpa using List.find?_eq_none.1 hnone relationship hmem

theorem Repository.served_plain {d : Document} {schema : Schema} (hd : d.resolve = .ok schema)
    {e : Entity} (he : e ∈ schema.entities) : (Repository.plain schema e).Served where
  schema := Document.wellFormed_of_resolve hd
  entity := he
  createdAt := Document.exists_createdAt hd he
  loadPlan := LoadPlan.of_empty e
  hooks := Hooks.preparing_none

/-- the repositories of a catalog without rules -/
theorem Catalog.served_of_build {d : Document} {schema : Schema} (hd : d.resolve = .ok schema)
    {loadPlans : Dict LoadPlan} {c : Catalog} (hc : Catalog.build schema .empty loadPlans = .ok c)
    {name : String} {r : Repository} (hr : c.repository? name = some r) :
    r.schema = schema ∧ r.Served := by
  have hbuilt : c = ⟨schema, .empty, loadPlans⟩ := by
    obtain ⟨_, _, h⟩ := bind_eq_ok.1 hc
    obtain ⟨_, _, h⟩ := bind_eq_ok.1 h
    exact (Except.ok.inj h).symm
  subst hbuilt
  obtain ⟨e, he, rfl⟩ := Option.map_eq_some_iff.1 hr
  exact ⟨rfl, { Repository.served_plain hd (List.mem_of_find?_eq_some he) with
    loadPlan := loadPlan_of_build hc he }⟩

/-! ### relationships -/

/-- relationships are refused because one of them is none of the entity -/
theorem Entity.includeAll_eq_error {e : Entity} {names : List String} {load : LoadPlan}
    {err : Error} (h : e.includeAll load names = .error err) :
    ∃ name ∈ names, e.isRelationship name = false ∧ err = .noSuchRelationship name e.name := by
  unfold includeAll at h
  induction names generalizing load with
  | nil => cases h
  | cons first names ih =>
    rw [List.foldlM_cons] at h
    rcases bind_eq_error.1 h with hfirst | ⟨mid, _, hrest⟩
    · unfold includeOne at hfirst
      split at hfirst
      · cases hfirst
      · next hno =>
        exact ⟨first, List.mem_cons_self, Bool.eq_false_of_not_eq_true hno,
          (Except.error.inj hfirst).symm⟩
    · obtain ⟨name, hname, hrefused⟩ := ih hrest
      exact ⟨name, List.mem_cons_of_mem _ hname, hrefused⟩

namespace Repository

variable {r : Repository} {load : LoadPlan}

/-- a relationship of an entity is declared, and so is its target -/
theorem exists_declared (hs : r.schema.WellFormed) (he : r.entity ∈ r.schema.entities)
    {name : String} (hname : r.entity.isRelationship name = true) :
    ∃ rel ∈ r.entity.relationships, ∃ target ∈ r.schema.entities,
      r.relation name = .ok (rel, target) := by
  obtain ⟨rel, hrel⟩ := Option.isSome_iff_exists.1 hname
  have hmem : rel ∈ r.entity.relationships := List.mem_of_find?_eq_some hrel
  obtain ⟨target, hin, htarget⟩ := Schema.exists_target hs he hmem
  refine ⟨rel, hmem, target, hin, ?_⟩
  unfold relation
  rw [hrel]
  dsimp only
  rw [htarget]

theorem exists_relation (hr : r.Served) {name : String}
    (hname : r.entity.isRelationship name = true) :
    ∃ rel target, r.relation name = .ok (rel, target) := by
  obtain ⟨rel, _, target, _, hrel⟩ := exists_declared hr.schema hr.entity hname
  exact ⟨rel, target, hrel⟩

theorem keyValues_error {rel : Relationship} {target : Entity} {records : List Record} {e : Error}
    (h : keyValues rel target records = .error e) : e.CastFault := by
  obtain ⟨_, _, hcast⟩ := mapM_error h
  exact castFilter_error hcast

/-- a relationship is loaded by its keys -/
theorem loadOne_of_keys {records : List Record} {name : String} {rel : Relationship}
    {target : Entity} (hrel : r.relation name = .ok (rel, target)) {keys : List SqlValue}
    (hkeys : keyValues rel target records = .ok keys) :
    r.loadOne records name = (do
      let rows ← relatedRows target rel.remoteColumn keys
      return records.map (·.attach name rel rows)) := by
  unfold loadOne
  rw [hrel, liftM_ok_bind]
  dsimp only
  rw [hkeys, liftM_ok_bind]

theorem ends_loadRelated (hr : r.Served) (hload : load.Of r.entity) (records : List Record) :
    Ends Error.LookupFault (fun _ => True) (r.loadRelated records load) := by
  unfold loadRelated
  split
  · exact .pure trivial
  · refine .foldlM (fun records name _ hname => ?_) trivial
    obtain ⟨rel, target, hrel⟩ := exists_relation hr (hload name hname)
    unfold loadOne
    refine .liftM_bind (fun e he => ?_) fun (rel, target) _ => ?_
    · rw [hrel] at he
      cases he
    refine .liftM_bind (fun e he => .inl (keyValues_error he)) fun keys _ => ?_
    exact (ends_relatedRows fun fault => .inr ⟨fault, rfl⟩).bind fun rows _ => .pure trivial

end Repository

theorem Entity.exists_foreignKeys {schema : Schema} (hs : schema.WellFormed) {e : Entity}
    (he : e ∈ schema.entities) : ∃ keys, e.foreignKeys schema = .ok keys := by
  refine mapM_isOk.2 fun rel hrel => ?_
  obtain ⟨target, _, htarget⟩ := Schema.exists_target hs he (List.mem_filter.1 hrel).1
  exact ⟨_, foreignKey_of_found htarget⟩

/-! ### joins -/

/-- paths that are joined to a plan have joins there -/
theorem SelectPlan.Sound.reaches {schema : Schema} {root : Entity} {plan : SelectPlan}
    (h : plan.Sound schema root) (hs : schema.WellFormed) (hroot : root ∈ schema.entities)
    {paths : List Path} {js : Joins} (hjs : resolveJoins schema root paths = .ok js) {p : Path}
    (hp : p ∈ paths) (hne : p ≠ []) : (plan.joins.merge js).Reaches schema p := by
  obtain ⟨part, hpart, j, hj⟩ := exists_last_join hjs hp hne
  have hmem : (p.text, j) ∈ js.entries :=
    (mem_of_resolveJoins hs hroot hjs _).2 ⟨p, hp, part, hpart, hj⟩
  obtain ⟨e, he⟩ := entity?_isSome_of_resolveJoins hjs hmem
  have hmerged := mem_merge hs hroot h.joins (walked_of_resolveJoins hs hroot hjs) (p.text, j)
  exact ⟨j, e, Dict.get?_eq_some_iff.2 (hmerged.2 (.inr hmem)), he⟩

/-! ### requests -/

theorem Repository.dependable {d : Document} {r : Repository} (hd : d.resolve = .ok r.schema)
    (hr : r.Served) : r.Dependable := by
  have hsound : ∀ plan, ReflTransGen (SelectPlan.Change r.schema) (.ofEntity r.entity) plan →
      plan.Sound r.schema r.entity := fun plan hplan =>
    sound_of_changes hd hr.entity (SelectPlan.sound_ofEntity _ _) hplan
  refine ⟨fun filters sort policy => ?_, fun filters includes => ?_,
    fun filters includes load σ store s s' log hload => ?_, fun plan hplan j hj => ?_,
    fun plan hplan paths js hjs p hp hne => ?_⟩
  · refine ⟨planOf r.schema r.entity filters sort policy, ?_, fun plan h => ?_, fun e he => ?_⟩
    · rw [compile_eq hr.hooks]
      exact .liftM _
    · exact SelectPlan.changes_of_planOf h
    · exact queryFault_of_planOf hr.schema hr.entity he
  · refine ⟨r.entity.includeAll r.loadPlan includes, ?_, fun load h => ?_, fun e he => ?_⟩
    · rw [resolveLoadPlan_eq hr.hooks]
      exact .liftM _
    · exact hr.loadPlan.includeAll h
    · exact Entity.includeAll_eq_error he
  · have hfound : r.entity.includeAll r.loadPlan includes = .ok load := by
      rw [resolveLoadPlan_eq hr.hooks] at hload
      exact (Prod.mk.inj hload).1
    have hof : load.Of r.entity := hr.loadPlan.includeAll hfound
    exact ⟨fun name hname => exists_relation hr (hof name hname), ends_loadRelated hr hof⟩
  · obtain ⟨entry, hentry, rfl⟩ := List.mem_map.1 hj
    exact (hsound plan hplan).joins.entity?_isSome hentry
  · have h := hsound plan hplan
    rw [h.entity] at hjs
    exact h.reaches hr.schema hr.entity hjs hp hne

/-- an accepted schema and valid load plans leave no fault of the configuration to be found: not by
the constraints of its tables, and not by a request -/
theorem requests_never_misconfigured {d : Document} {schema : Schema}
    (hd : d.resolve = .ok schema) {loadPlans : Dict LoadPlan} {c : Catalog}
    (hc : Catalog.build schema .empty loadPlans = .ok c) :
    (∀ e ∈ schema.entities, ∃ keys, e.foreignKeys schema = .ok keys) ∧
      ∀ name r, c.repository? name = some r → r.Dependable := by
  refine ⟨fun e he => Entity.exists_foreignKeys (Document.wellFormed_of_resolve hd) he,
    fun name r hr => ?_⟩
  obtain ⟨rfl, hserved⟩ := Catalog.served_of_build hd hc hr
  exact Repository.dependable hd hserved

/-- notes that come with what they reply to -/
theorem notes_dependable :
    ∃ c r, Catalog.build notesSchema .empty (.ofList [("notes", .ofNames ["parent"])]) = .ok c ∧
      c.repository? "notes" = some r ∧ r.loadPlan.names = ["parent"] ∧
      (∃ keys, notesEntity.foreignKeys notesSchema = .ok keys) ∧ r.Dependable ∧
      (∃ plan, (r.compile [("parent___replies___title", .str "lean")] [] .paged).Decides
        (.ok plan)) ∧
      (r.compile [("parent___replies___words", .str "lean")] [] .paged).Decides
        (.error (.unknownField "words" "notes")) ∧
      (r.compile [("parent___title___words", .str "lean")] [] .paged).Decides
        (.error (.noSuchRelationship "parent___title" "notes")) ∧
      (r.resolveLoadPlan [] ["replies", "title"]).Decides
        (.error (.noSuchRelationship "title" "notes")) := by
  have hbuild : Catalog.build notesSchema .empty (.ofList [("notes", .ofNames ["parent"])]) =
      .ok ⟨notesSchema, .empty, .ofList [("notes", .ofNames ["parent"])]⟩ := by rfl
  obtain ⟨hkeys, hrequests⟩ := requests_never_misconfigured resolve_notesDocument hbuild
  refine ⟨_, _, hbuild, rfl, rfl, hkeys notesEntity (List.mem_singleton_self _),
    hrequests "notes" _ rfl, ⟨_, fun _ _ _ => rfl⟩, fun _ _ _ => ?_, fun _ _ _ => ?_,
    fun _ _ _ => ?_⟩ <;> rfl

end EntityAccess
