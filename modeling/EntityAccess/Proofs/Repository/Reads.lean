import EntityAccess.Proofs.Issues
import EntityAccess.Proofs.Repository.Faults
import EntityAccess.Repository.Batches

/-!
# what reads execute and load

A read executes a statement for its roots, and one for each relationship that it loads; a page also
executes one for the count.  The records of a read have loaded what its load plan names, and nothing
else.

* `Record.Loads` : records as a read of a load plan returns them;
* `issues_loadRelated` : one relationship after the other;
* `issues_fetch`, `issues_paginate` : the records of a plan, and of a page of it;
* `issues_list`, `issues_search`, `issues_batches` : the reads that compile their plans.
-/

namespace EntityAccess

open EntityAccess.Action Outcome
open Program (Store)

variable {P : Statement → Prop}

/-- nothing is executed, so every test of statements is passed -/
theorem Action.Issues.of_silent {α : Type} {x : Action α} {Q : α → Prop} (h : Silent x)
    (hx : Ends (fun _ => True) Q x) : Issues P Q x := by
  intro σ store s
  refine ⟨fun q hq => ?_, (hx σ store s).1⟩
  rw [show (x.run.run store s).2.1 = [] from h σ store s] at hq
  cases hq

/-! ### what is loaded -/

theorem LoadPlan.contains_iff {load : LoadPlan} {name : String} :
    load.contains name = true ↔ name ∈ load.names := Dict.contains_iff

theorem Record.isLoaded_withRelated {record : Record} {name other : String} {rows : Related} :
    (record.withRelated name rows).isLoaded other = true ↔
      other = name ∨ record.isLoaded other = true := Dict.contains_insert

/-- a record as a read returns it: a row of its entity, with what the load plan names -/
structure Record.Loads (e : Entity) (load : LoadPlan) (record : Record) : Prop where
  read : record.ReadAs e
  loaded : ∀ name, record.isLoaded name = true ↔ load.contains name = true

/-- statements for related rows pass a test -/
def RelatedPass (P : Statement → Prop) : Prop :=
  ∀ (rel : Relationship) (target : Entity) (records : List Record) (keys : List SqlValue),
    keyValues rel target records = .ok keys → P (.related target rel.remoteColumn keys)

namespace Repository

variable {r : Repository} {plan : SelectPlan} {load : LoadPlan}

theorem issues_loadOne (hrelated : RelatedPass P) (records : List Record) (name : String) :
    Issues P (fun found => ∃ related : Record → Related,
      found = records.map fun record => record.withRelated name (related record))
      (r.loadOne records name) := by
  unfold loadOne
  refine .liftM_bind fun (rel, target) _ => .liftM_bind fun keys hkeys => ?_
  refine Issues.bind (Q := fun _ => True) ?_ fun rows _ => .pure ⟨_, rfl⟩
  unfold relatedRows
  split
  · exact .pure trivial
  · exact .query (hrelated rel target records keys hkeys) fun _ _ _ => trivial

/-- the relationships are loaded one after the other, and leave values and what is loaded -/
theorem issues_loadAll (hrelated : RelatedPass P) (names : List String) (records : List Record) :
    Issues P (fun found => ∀ record ∈ found, ∃ old ∈ records, record.values = old.values ∧
      ∀ name, record.isLoaded name = true ↔ name ∈ names ∨ old.isLoaded name = true)
      (names.foldlM r.loadOne records) := by
  induction names generalizing records with
  | nil =>
    refine .pure fun record hrecord => ⟨record, hrecord, rfl, fun name => ?_⟩
    rw [or_iff_right List.not_mem_nil]
  | cons first names ih =>
    rw [List.foldlM_cons]
    refine (issues_loadOne hrelated records first).bind fun found hfound => ?_
    obtain ⟨related, rfl⟩ := hfound
    refine (ih _).mono fun final hfinal record hrecord => ?_
    obtain ⟨mid, hmid, hvalues, hloaded⟩ := hfinal record hrecord
    obtain ⟨old, hold, rfl⟩ := List.mem_map.1 hmid
    refine ⟨old, hold, hvalues, fun name => ?_⟩
    rw [hloaded, Record.isLoaded_withRelated, List.mem_cons, or_left_comm, or_assoc]

theorem issues_loadRelated (hrelated : RelatedPass P) {records : List Record}
    (hrecords : ∀ record ∈ records, record.ReadAs r.entity ∧ record.loaded = .empty) :
    Issues P (fun found => ∀ record ∈ found, record.Loads r.entity load)
      (r.loadRelated records load) := by
  unfold loadRelated
  split
  · exact .pure (List.forall_mem_nil _)
  · refine (issues_loadAll hrelated load.names records).mono fun found hfound record hrecord => ?_
    obtain ⟨old, hold, hvalues, hloaded⟩ := hfound record hrecord
    obtain ⟨⟨columns, cells, hread⟩, hempty⟩ := hrecords old hold
    refine ⟨⟨columns, cells, hvalues ▸ hread⟩, fun name => ?_⟩
    have hnone : ¬ old.isLoaded name = true := by
      unfold Record.isLoaded
      rw [hempty]
      exact Bool.false_ne_true
    rw [hloaded, or_iff_left hnone, LoadPlan.contains_iff]

/-- the records of a plan -/
theorem issues_fetch (hselect : P (.select r.schema plan)) (hrelated : RelatedPass P) :
    Issues P (fun records => ∀ record ∈ records, record.Loads r.entity load)
      (r.fetch plan load) := by
  unfold fetch
  have hrows : Issues P (fun rows => ∀ row ∈ rows, (Record.ofRow row).ReadAs r.entity)
      (Action.query (.select r.schema plan) (ResultSet.readRows r.entity)) :=
    .query hselect fun rs rows hread row hrow => by
      obtain ⟨cells, _, hcells⟩ := exists_of_mem_result hread hrow
      exact ⟨rs.columns, cells, hcells⟩
  refine hrows.bind fun rows hrows => issues_loadRelated hrelated fun record hrecord => ?_
  obtain ⟨row, hrow, rfl⟩ := List.mem_map.1 ((firstOfEach_sublist _ _ _).subset hrecord)
  exact ⟨hrows row hrow, rfl⟩

/-- the records of a page -/
theorem issues_paginate (p : PageParams) (hcount : P (.count r.schema plan))
    (hselect : P (.select r.schema (plan.window (some p.perPage) (some p.offset))))
    (hrelated : RelatedPass P) :
    Issues P (fun page => ∀ record ∈ page.items, record.Loads r.entity load)
      (r.paginate plan load p) := by
  have hitems : ∀ (items : List Record) (total : Nat),
      (∀ record ∈ items, record.Loads r.entity load) →
        ∀ record ∈ (Page.create items total p).items, record.Loads r.entity load := by
    intro items total h
    unfold Page.create
    dsimp only
    split
    · exact List.forall_mem_nil _
    · exact h
  unfold paginate
  refine Issues.bind (Q := fun _ => True) (.query hcount fun _ _ _ => trivial) fun total _ => ?_
  split
  · exact .pure (hitems [] total (List.forall_mem_nil _))
  · exact (issues_fetch hselect hrelated).bind fun items h => .pure (hitems items total h)

section

variable (hhooks : r.hooks.Preparing) {filters : Filters} {sort : List SortKey}
  {policy : SortPolicy}
  {includes : List String}

include hhooks

theorem issues_compile :
    Issues P (fun plan => planOf r.schema r.entity filters sort policy = .ok plan)
      (r.compile filters sort policy) :=
  .of_silent (silent_compile hhooks) (ends_compile hhooks fun _ _ => trivial)

theorem issues_resolveLoadPlan :
    Issues P (fun load => r.entity.includeAll r.loadPlan includes = .ok load)
      (r.resolveLoadPlan filters includes) :=
  .of_silent (silent_resolveLoadPlan hhooks) (ends_resolveLoadPlan hhooks fun _ _ => trivial)

/-- a page of all rows -/
theorem issues_list (p : PageParams)
    (hroots : ∀ plan, planOf r.schema r.entity filters sort .paged = .ok plan →
      P (.count r.schema plan) ∧
        P (.select r.schema (plan.window (some p.perPage) (some p.offset))))
    (hrelated : RelatedPass P) :
    Issues P (fun page => ∃ load, r.entity.includeAll r.loadPlan includes = .ok load ∧
        ∀ record ∈ page.items, record.Loads r.entity load)
      (r.list filters sort includes p) := by
  refine (issues_compile hhooks).bind fun plan hplan => ?_
  refine (issues_resolveLoadPlan hhooks).bind fun load hload => ?_
  obtain ⟨hcount, hselect⟩ := hroots plan hplan
  exact (issues_paginate p hcount hselect hrelated).mono fun page hpage => ⟨load, hload, hpage⟩

/-- a page of a search -/
theorem issues_search {params : SearchParams} (p : PageParams)
    (hroots : ∀ plan found, planOf r.schema r.entity filters sort .paged = .ok plan →
      plan.search params = .ok found → P (.count r.schema found) ∧
        P (.select r.schema (found.window (some p.perPage) (some p.offset))))
    (hrelated : RelatedPass P) :
    Issues P (fun page => ∀ record ∈ page.items, record.Loads r.entity r.loadPlan)
      (r.search params filters sort p) := by
  refine (issues_compile hhooks).bind fun plan hplan => .liftM_bind fun found hfound => ?_
  refine (issues_resolveLoadPlan hhooks).bind fun load hload => ?_
  obtain rfl : r.loadPlan = load := Except.ok.inj hload
  obtain ⟨hcount, hselect⟩ := hroots plan found hplan hfound
  exact issues_paginate p hcount hselect hrelated

/-- where batches come from -/
theorem issues_batches (hselect : ∀ plan after n batch,
      planOf r.schema r.entity filters [] .unsorted = .ok plan →
        plan.keysetPlan after n = .ok batch → P (.select r.schema batch))
    (hrelated : RelatedPass P) :
    Issues P (fun source => ∀ after n,
        Issues P (fun records => ∀ record ∈ records, record.Loads r.entity r.loadPlan)
          (.mk (source after n)))
      (r.batches filters) := by
  unfold batches
  refine (issues_compile hhooks).bind fun plan hplan => ?_
  refine (issues_resolveLoadPlan hhooks).bind fun load hload => .pure fun after n => ?_
  obtain rfl : r.loadPlan = load := Except.ok.inj hload
  have hbatch : Issues P (fun records => ∀ record ∈ records, record.Loads r.entity r.loadPlan)
      (r.fetchAfter plan r.loadPlan after n) :=
    .liftM_bind fun batch hbatch => issues_fetch (hselect plan after n batch hplan hbatch) hrelated
  exact hbatch

end

/-- the records of batches -/
theorem issues_drain {source : Chunks.Source Program Record} {size limit : Nat}
    (hsource : ∀ after n, Issues P (fun records => ∀ record ∈ records, record.Loads r.entity load)
      (.mk (source after n))) :
    Issues P (fun found => ∀ records fault after, found = some (records, fault, after) →
      ∀ record ∈ records, record.Loads r.entity load)
      (ExceptT.lift ((Chunks.start size).drain Record.id source limit)) :=
  .lift (Issues.drain hsource (List.forall_mem_nil _))

end Repository
end EntityAccess
