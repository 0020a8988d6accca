import EntityAccess.Proofs.Partner.Rules
import EntityAccess.Proofs.Query.Values
import EntityAccess.Proofs.Repository.Reads
import EntityAccess.Repository.Write

/-!
# the values of all operations

Whatever a repository executes for a read or a write, its placeholders are numbered in the order of
the text, and its values suit the casts behind them, as long as the rules of the entity keep to
that.

* `Hooks.Casting` : such rules; those for partners are;
* `Repository.Operation` : the operations of a repository;
* `casting_fetch`, `casting_create`, `casting_update` : what they execute;
* `placeholders_match_parameters` : all statements of all operations.
-/

namespace EntityAccess

open EntityAccess.Action Outcome Relation
open Program (Store)

/-- statements whose values suit their casts, and values that pass a test -/
abbrev Casting {α : Type} (Q : α → Prop) (x : Action α) : Prop := Issues Statement.MatchesCasts Q x

/-- rules that bind only what suits its cast, and keep plans that do so -/
structure Hooks.Casting (h : Hooks) : Prop where
  preCreate : ∀ id values input, EntityAccess.Casting (fun _ => True) (h.preCreate id values input)
  postCreate : ∀ record, EntityAccess.Casting (fun _ => True) (h.postCreate record)
  preUpdate : ∀ current values input,
    EntityAccess.Casting (fun _ => True) (h.preUpdate current values input)
  postUpdate : ∀ record changes, EntityAccess.Casting (fun _ => True) (h.postUpdate record changes)
  relationship : ∀ id input current,
    EntityAccess.Casting (fun _ => True) (h.relationship id input current)
  customizeQuery : ∀ plan filters, plan.Typed →
    EntityAccess.Casting SelectPlan.Typed (h.customizeQuery plan filters)
  modifyLoadPlan : ∀ filters plan,
    (h.modifyLoadPlan filters plan).Issues Statement.MatchesCasts fun _ => True

theorem Hooks.casting_none : Hooks.none.Casting where
  preCreate _ _ _ := .pure trivial
  postCreate _ := .pure trivial
  preUpdate _ _ _ := .pure trivial
  postUpdate _ _ := .pure trivial
  relationship _ _ _ := .pure trivial
  customizeQuery _ _ h := .pure h
  modifyLoadPlan _ _ := .pure trivial

namespace Repository

variable {r : Repository}

/-! ### operations -/

/-- the plans of a repository: one that is compiled, after any number of changes -/
def Plans (r : Repository) (plan : SelectPlan) : Prop :=
  ∃ (filters : Filters) (sort : List SortKey) (policy : SortPolicy) (σ : Type) (store : Store σ)
    (s s' : σ) (log : List Event) (first : SelectPlan),
    (r.compile filters sort policy).runOn store s = (.ok first, log, s') ∧
      ReflTransGen (SelectPlan.Change r.schema) first plan

/-- what can be asked of a repository -/
inductive Operation (r : Repository) : {α : Type} → Action α → Prop where
  | get (filters : Filters) : Operation r (r.get filters)
  | getNotNone (filters : Filters) : Operation r (r.getNotNone filters)
  | getById (id : String) : Operation r (r.getById id)
  | getAll (filters : Filters) (sort : List SortKey) : Operation r (r.getAll filters sort)
  | getByIds (ids : List String) : Operation r (r.getByIds ids)
  | isThere (id : String) : Operation r (r.exists? id)
  | list (filters : Filters) (sort : List SortKey) (includes : List String) (p : PageParams) :
      Operation r (r.list filters sort includes p)
  | getExport (filters : Filters) (sort : List SortKey) (includes : List String) :
      Operation r (r.getExport filters sort includes)
  | search (params : SearchParams) (filters : Filters) (sort : List SortKey) (p : PageParams) :
      Operation r (r.search params filters sort p)
  /-- the records of a plan that has been compiled, and changed since -/
  | fetch {plan : SelectPlan} (hplan : r.Plans plan) (load : LoadPlan) :
      Operation r (r.fetch plan load)
  | paginate {plan : SelectPlan} (hplan : r.Plans plan) (load : LoadPlan) (p : PageParams) :
      Operation r (r.paginate plan load p)
  /-- so many records in batches -/
  | chunks (filters : Filters) (size limit : Nat) : Operation r (do
      let source ← r.batches filters
      ExceptT.lift ((Chunks.start size).drain Record.id source limit))
  | create (input : Row) : Operation r (r.create input)
  | update (current : Record) (input : Row) : Operation r (r.update current input)
  | remove (id : String) : Operation r (r.remove id)

/-! ### reads -/

theorem casting_related : RelatedPass Statement.MatchesCasts := by
  intro rel target records keys hkeys
  have hsuit : ∀ v ∈ keys, v.Suits (target.columnType rel.remoteColumn).sqlName := by
    intro v hv
    obtain ⟨key, _, hcast⟩ := exists_of_mem_result hkeys hv
    exact suits_of_castFilter hcast
  exact .of_typed rfl (Sql.typed_relatedRows hsuit)

theorem casting_fetch {plan : SelectPlan} (hplan : plan.Typed) (load : LoadPlan) :
    Casting (fun _ => True) (r.fetch plan load) := by
  have hselect : (Statement.select r.schema plan).MatchesCasts :=
    .of_typed rfl (Sql.typed_select hplan.predicates)
  exact (issues_fetch hselect casting_related).mono fun _ _ => trivial

theorem casting_paginate {plan : SelectPlan} (hplan : plan.Typed) (load : LoadPlan)
    (p : PageParams) : Casting (fun _ => True) (r.paginate plan load p) := by
  have hcount : (Statement.count r.schema plan).MatchesCasts :=
    .of_typed rfl (Sql.typed_count hplan.predicates)
  have hselect : (Statement.select r.schema
      (plan.window (some p.perPage) (some p.offset))).MatchesCasts :=
    .of_typed rfl (Sql.typed_select hplan.predicates)
  exact (issues_paginate p hcount hselect casting_related).mono fun _ _ => trivial

section

variable (he : r.entity.WellFormed) (hhooks : r.hooks.Casting)

include hhooks in
theorem casting_resolveLoadPlan (filters : Filters) (includes : List String) :
    Casting (fun _ => True) (r.resolveLoadPlan filters includes) :=
  .liftM_bind fun load _ => .lift (hhooks.modifyLoadPlan filters load)

include he hhooks

theorem casting_compile (filters : Filters) (sort : List SortKey) (policy : SortPolicy) :
    Casting SelectPlan.Typed (r.compile filters sort policy) :=
  .liftM_bind fun plan hplan => hhooks.customizeQuery plan _ (typed_of_planOf he hplan)

theorem typed_of_plans {plan : SelectPlan} (h : r.Plans plan) : plan.Typed := by
  obtain ⟨filters, sort, policy, σ, store, s, s', log, first, hcompile, hchanges⟩ := h
  induction hchanges with
  | refl => exact (casting_compile he hhooks filters sort policy).of_runOn hcompile
  | tail _ hchange ih => exact ih.change hchange

/-- a read: its plan, its load plan, and what is done with both -/
theorem casting_read {α : Type} {filters : Filters} {sort : List SortKey} {policy : SortPolicy}
    {includes : List String} {f : SelectPlan → LoadPlan → Action α}
    (hf : ∀ plan load, plan.Typed → Casting (fun _ => True) (f plan load)) :
    Casting (fun _ => True) (do
      let plan ← r.compile filters sort policy
      f plan (← r.resolveLoadPlan filters includes)) :=
  (casting_compile he hhooks filters sort policy).bind fun plan hplan =>
    (casting_resolveLoadPlan hhooks filters includes).bind fun load _ => hf plan load hplan

theorem casting_get (filters : Filters) : Casting (fun _ => True) (r.get filters) :=
  casting_read he hhooks fun _ load hplan =>
    (casting_fetch (hplan.window _ _) load).bind fun _ _ => .pure trivial

theorem casting_search (params : SearchParams) (filters : Filters) (sort : List SortKey)
    (p : PageParams) : Casting (fun _ => True) (r.search params filters sort p) := by
  refine (casting_compile he hhooks filters sort .paged).bind fun plan hplan => ?_
  refine .liftM_bind fun found hfound => ?_
  exact (casting_resolveLoadPlan hhooks filters []).bind fun load _ =>
    casting_paginate (hplan.search hfound) load p

theorem casting_batches (filters : Filters) :
    Casting (fun source => ∀ after limit, Casting (fun _ => True) (.mk (source after limit)))
      (r.batches filters) := by
  unfold batches
  refine (casting_compile he hhooks filters [] .unsorted).bind fun plan hplan => ?_
  refine (casting_resolveLoadPlan hhooks filters []).bind fun load _ => .pure fun after limit => ?_
  have hbatch : Casting (fun _ => True) (r.fetchAfter plan load after limit) :=
    .liftM_bind fun batch hbatch => casting_fetch (hplan.keysetPlan hbatch) load
  exact hbatch

theorem casting_chunks (filters : Filters) (size limit : Nat) :
    Casting (fun _ => True) (do
      let source ← r.batches filters
      ExceptT.lift ((Chunks.start size).drain Record.id source limit)) := by
  refine (casting_batches he hhooks filters).bind fun source hsource => ?_
  refine .lift (Program.Issues.mono (Issues.drain (R := fun _ => True) (fun after limit => ?_) ?_)
    fun _ _ => trivial)
  · exact (hsource after limit).mono fun _ _ _ _ => trivial
  · exact fun _ _ => trivial

/-! ### writes -/

omit he hhooks in
theorem suits_of_assignments {values : Row} {assigned : Sql.Assignments}
    (h : r.entity.assignments values = .ok assigned) :
    Sql.AssignmentsSuit r.entity assigned := by
  intro (column, x) hx
  obtain ⟨v, c, _, hc, hcast⟩ := Entity.of_mem_assignments h hx
  rw [← Entity.type_of_assignable hc]
  exact suits_of_castWrite hcast

theorem casting_reread (id : String) : Casting (fun _ => True) (r.reread id) :=
  (casting_get he hhooks _).bind fun _ _ => .liftM fun _ _ => trivial

theorem casting_create (input : Row) : Casting (fun _ => True) (r.create input) := by
  unfold create
  have hprepare : Casting (fun _ => True) (r.prepareCreate input) := by
    unfold prepareCreate
    refine .liftM_bind fun values _ => ?_
    split
    · exact .pure trivial
    · exact Issues.fresh.bind fun _ _ => .pure trivial
  refine hprepare.bind fun (id, values) _ => ?_
  have hkey : (r.entity.columnType primaryKey).sqlName = "text" :=
    congrArg ColumnType.sqlName (Entity.columnType_of_mem he he.key_mem)
  have hrow : Casting (fun _ => True) (r.insertRow id values input) := by
    refine .transaction ((hhooks.preCreate id values input).bind fun hooked _ => ?_)
    refine .liftM_bind fun assigned hassigned => ?_
    have hsuit : Sql.AssignmentsSuit r.entity ((primaryKey, .text id) :: assigned) :=
      List.forall_mem_cons.2 ⟨hkey ▸ SqlValue.suits_text id, suits_of_assignments hassigned⟩
    have hinsert : (Statement.insert r.entity
        ((primaryKey, .text id) :: assigned)).MatchesCasts :=
      .of_typed rfl (Sql.typed_insert hsuit)
    exact (Issues.execute hinsert).bind fun _ _ => hhooks.relationship id input none
  refine hrow.bind fun _ _ => (casting_reread he hhooks id).bind fun record _ => ?_
  exact (hhooks.postCreate record).bind fun _ _ => .pure trivial

theorem casting_update (current : Record) (input : Row) :
    Casting (fun _ => True) (r.update current input) := by
  unfold update
  refine .liftM_bind fun (values, _) _ => ?_
  have hrow : Casting (fun _ => True) (r.updateRow current values input) := by
    refine .transaction ((hhooks.preUpdate current values input).bind fun hooked _ => ?_)
    refine .liftM_bind fun (kept, changes) _ => .liftM_bind fun _ _ => ?_
    have hassign : Casting (fun _ => True) (assign r.entity current.id kept) := by
      unfold assign
      split
      · exact .pure trivial
      · refine .liftM_bind fun assigned hassigned => .execute ?_
        exact .of_typed rfl
          (Sql.typed_update current.id (suits_of_assignments hassigned))
    exact hassign.bind fun _ _ =>
      (hhooks.relationship current.id input (some current)).bind fun _ _ => .pure trivial
  refine hrow.bind fun changes _ => (casting_reread he hhooks current.id).bind fun record _ => ?_
  exact (hhooks.postUpdate record changes).bind fun _ _ => .pure trivial

/-- every operation -/
theorem casting_operation {α : Type} {x : Action α} (hx : r.Operation x) :
    Casting (fun _ => True) x := by
  cases hx with
  | get filters => exact casting_get he hhooks filters
  | getNotNone filters =>
    exact (casting_get he hhooks filters).bind fun _ _ => .liftM fun _ _ => trivial
  | getById id => exact casting_get he hhooks _
  | getAll filters sort => exact casting_read he hhooks fun _ load hplan => casting_fetch hplan load
  | getByIds ids =>
    unfold getByIds
    split
    · exact .pure trivial
    · exact casting_read he hhooks fun _ load hplan => casting_fetch hplan load
  | isThere id =>
    exact .query (.of_typed rfl (Sql.typed_rowExists r.entity id)) fun _ _ _ => trivial
  | list filters sort includes p =>
    exact casting_read he hhooks fun _ load hplan => casting_paginate hplan load p
  | getExport filters sort includes =>
    exact casting_read he hhooks fun _ load hplan => casting_fetch hplan load
  | search params filters sort p => exact casting_search he hhooks params filters sort p
  | fetch hplan load => exact casting_fetch (typed_of_plans he hhooks hplan) load
  | paginate hplan load p => exact casting_paginate (typed_of_plans he hhooks hplan) load p
  | chunks filters size limit => exact casting_chunks he hhooks filters size limit
  | create input => exact casting_create he hhooks input
  | update current input => exact casting_update he hhooks current input
  | remove id =>
    have hdelete : (Statement.delete r.entity id).MatchesCasts :=
      .of_typed rfl (Sql.typed_delete r.entity id)
    exact (Issues.query hdelete fun _ _ _ => trivial).bind fun _ _ => .pure trivial

end
end Repository

/-! ### the rules for partners -/

namespace Partner

theorem casting_ensureUniqueName (partners : Entity) (name exceptId : String) :
    Casting (fun _ => True) (ensureUniqueName partners name exceptId) := by
  have hask : (Statement.nameTaken partners name exceptId).MatchesCasts :=
    .nameTaken partners name exceptId
  refine Issues.bind (.query hask fun _ _ _ => trivial) fun taken _ => ?_
  split
  · exact .liftM fun _ _ => trivial
  · exact .pure trivial

theorem casting_rules {schema : Schema} (partners : Entity) {members : Entity}
    (hmembers : members.WellFormed) : (rules schema partners members).Casting where
  preCreate id values input := by
    show Casting _ (preCreate partners id values input)
    unfold preCreate
    split
    · exact .pure trivial
    · exact (casting_ensureUniqueName _ _ _).bind fun _ _ => .pure trivial
  postCreate record := by
    show Casting _ (postCreate (.plain schema members) record)
    unfold postCreate
    split
    · exact .pure trivial
    · exact .discard (Repository.casting_create hmembers Hooks.casting_none _)
  preUpdate current values input := by
    show Casting _ (preUpdate partners current values input)
    unfold preUpdate
    split
    · exact .pure trivial
    · exact (casting_ensureUniqueName _ _ _).bind fun _ _ => .pure trivial
  postUpdate _ _ := .pure trivial
  relationship _ _ _ := .pure trivial
  customizeQuery _ _ h := .pure h
  modifyLoadPlan _ _ := .pure trivial

end Partner

/-- in whatever order its values are bound, the placeholders of a rendered statement are numbered
from one in the order of the text, each once; and whatever an operation of an accepted schema
executes, its values suit their casts -/
theorem placeholders_match_parameters :
    (∀ q : Statement, q.isRendered = true →
      q.rendered.placeholders = List.range' 1 q.rendered.params.length) ∧
    ∀ (d : Document) (r : Repository), d.resolve = .ok r.schema → r.entity ∈ r.schema.entities →
      r.hooks.Casting → ∀ (α : Type) (x : Action α), r.Operation x →
        ∀ (σ : Type) (store : Store σ) (s : σ) (q : Statement),
          .executed q ∈ (x.runOn store s).2.1 → q.MatchesCasts := by
  refine ⟨fun q hq => Statement.placeholders_rendered hq, ?_⟩
  intro d r hd hr hhooks α x hx σ store s q hq
  have he := (Document.wellFormed_of_resolve hd).entity r.entity hr
  exact (Repository.casting_operation he hhooks hx).of_mem_log hq

/-- the insertion of a partner, under its rules, with two texts and a double -/
theorem partner_insertion_matches :
    ∃ q, .executed q ∈ ((Partner.partners.create
          (Dict.ofList [("name", .str " Acme "), ("rating", .int 4)])).runOn
        Partner.scripted [Partner.flag false]).2.1 ∧
      q.rendered.placeholders = [1, 2, 3] ∧
      Sql.castOf 3 (Sql.tokens q.rendered.text) = some "double precision" ∧ q.MatchesCasts := by
  obtain ⟨hplaceholders, hcasts⟩ := placeholders_match_parameters
  let q : Statement := .insert Partner.partnersEntity
    [("id", .text "fresh"), ("name", .text "Acme"), ("rating", .float (.ofInt 4))]
  have hlog : ∃ plan, ((Partner.partners.create
        (Dict.ofList [("name", .str " Acme "), ("rating", .int 4)])).runOn
      Partner.scripted [Partner.flag false]).2.1 =
        [.marked .begin, .executed (.nameTaken Partner.partnersEntity "Acme" "fresh"), .executed q,
          .marked .commit, .executed (.select Partner.partnersSchema plan)] := ⟨_, rfl⟩
  obtain ⟨plan, hlog⟩ := hlog
  have hmem : .executed q ∈ ((Partner.partners.create
        (Dict.ofList [("name", .str " Acme "), ("rating", .int 4)])).runOn
      Partner.scripted [Partner.flag false]).2.1 := by
    rw [hlog]
    simp
  have hentities := (Document.wellFormed_of_resolve Partner.resolve_partnersDocument).entity
  have hrules : (Partner.rules Partner.partnersSchema Partner.partnersEntity
      Partner.membersEntity).Casting :=
    Partner.casting_rules _ (hentities Partner.membersEntity (by decide))
  exact ⟨q, hmem, hplaceholders q rfl, by decide, hcasts Partner.partnersDocument Partner.partners
    Partner.resolve_partnersDocument (by decide) hrules _ _ (.create _) _ _ _ q hmem⟩

end EntityAccess
