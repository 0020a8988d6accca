import EntityAccess.Proofs.Ends
import EntityAccess.Proofs.Query.Addressing
import EntityAccess.Proofs.Query.Scope
import EntityAccess.Proofs.Repository.CurrentValues
import EntityAccess.Proofs.Repository.Distinct
import EntityAccess.Proofs.Transitions.Runs

/-!
# what reads fail with

A read that has a plan fails with the database, or because a key that is stored is none of the
column that it is compared with.  Everything else that a caller can do wrong is found before.

* `Error.isCaller` : the errors of callers;
* `Repository.KeyFault` : stored keys that cannot be compared;
* `planOf_id` : reading by the primary key always has a plan;
* `ends_fetch_of` : what is true of all records of a read;
* `ends_fetch`, `ends_reread` : what reads fail with;
* `early_list`, `early_search` : what reads by filters fail with.
-/

namespace EntityAccess

open EntityAccess.Action Outcome
open Program (Store)

/-- the codes of what a caller can do wrong -/
def callerCodes : List String :=
  ["bad_request", "invalid_date_format", "invalid_filter", "no_update_data"]

def Error.isCaller (e : Error) : Bool := callerCodes.contains e.status.2

theorem Error.isCaller_database (e : DatabaseError) : (Error.database e).isCaller = false := by
  simp only [isCaller, status]
  split
  · decide
  · split
    · decide
    · split
      · decide
      · decide

/-! ### records as they are read -/

/-- the values of a record are those of a row -/
def Record.ReadAs (record : Record) (e : Entity) : Prop :=
  ∃ columns cells, ResultSet.readRow e columns cells = .ok record.values

/-- a value that is read is one of its column -/
theorem Record.ReadAs.fits {record : Record} {e : Entity} (h : record.ReadAs e) {name : String}
    {v : Json} (hv : record.get? name = some v) (hnull : v.isNull = false) :
    ∃ c ∈ e.columns, c.name = name ∧ ∃ x : SqlValue, x.fits c.type = true ∧ v = x.sent.toJson := by
  obtain ⟨columns, cells, hrow⟩ := h
  obtain ⟨c, hc, hname, source, hcell⟩ := of_readRow_get? hrow hv
  obtain ⟨rfl, hfits⟩ := ResultSet.readCell_eq_ok hcell
  refine ⟨c, hc, hname, _, hfits.resolve_left fun hno => ?_, rfl⟩
  cases hx : (cells.get? name).getD .null with
  | null =>
    rw [hx] at hnull
    cases hnull
  | _ =>
    rw [hx] at hno
    cases hno

/-! ### plans -/

/-- an accepted entity has the time stamp by which it is listed -/
theorem Document.exists_createdAt {d : Document} {schema : Schema} (hd : d.resolve = .ok schema)
    {e : Entity} (he : e ∈ schema.entities) :
    ∃ c ∈ e.columns, c.name = createdAt ∧ c.type ≠ .searchVector := by
  obtain ⟨hv, rfl⟩ := Document.resolve_eq_ok hd
  obtain ⟨all, hall, _⟩ := Document.validate_eq_ok hv
  obtain ⟨decl, hdecl, rfl⟩ := List.mem_map.1 he
  obtain ⟨_, _, hknown, _⟩ := Document.declareEntities_eq_ok hall
  obtain ⟨columns, hcolumns, _⟩ := hknown decl hdecl
  obtain ⟨htypes, _⟩ := EntityDeclaration.knownColumns_eq_ok hcolumns
  show ∃ c ∈ decl.resolvedColumns, _
  unfold EntityDeclaration.resolvedColumns
  cases hdeclares : decl.declares createdAt with
  | true =>
    obtain ⟨c, hc, hname⟩ := List.any_eq_true.1 hdeclares
    refine ⟨c.toColumn, ?_, of_decide_eq_true hname, (htypes c hc).2⟩
    simp only [List.mem_append, List.mem_cons, List.mem_map]
    exact .inl (.inl (.inr ⟨c, hc, rfl⟩))
  | false =>
    refine ⟨createdAtColumn, ?_, rfl, by decide⟩
    simp [EntityDeclaration.implicitStamps, hdeclares]

theorem readFilterKey_primaryKey : readFilterKey primaryKey = .ok ⟨[], primaryKey, .exact⟩ :=
  readFilterKey_fieldKey (p := []) (by simp) EntityDeclaration.isIdentifier_implicit.1

/-- a read by the primary key has a plan -/
theorem planOf_id {e : Entity} (he : e.WellFormed)
    (hcreated : ∃ c ∈ e.columns, c.name = createdAt ∧ c.type ≠ .searchVector) (schema : Schema)
    (id : String) : ∃ plan, planOf schema e [(primaryKey, .str id)] [] .listing = .ok plan := by
  obtain ⟨c, hc, hname, ht⟩ := hcreated
  have hkey : e.scalarColumn primaryKey = .ok keyColumn :=
    Entity.scalarColumn_of_mem he he.key_mem (by decide)
  have hstamp : e.scalarColumn createdAt = .ok c := by
    rw [← hname]
    exact Entity.scalarColumn_of_mem he hc ht
  have hfilters : readFilters (Filters.present [(primaryKey, .str id)]) =
      .ok [⟨⟨[], primaryKey, .exact⟩, .str id⟩] := by
    unfold Filters.present readFilters
    simp [Json.isNull, readFilterKey_primaryKey, bind, Except.bind, pure, Except.pure]
  have hpred : ∀ joins, predicateOf schema e joins ⟨⟨[], primaryKey, .exact⟩, .str id⟩ =
      .ok (Operator.exact.build ⟨rootAlias, primaryKey, .text⟩ (.value (.text id))) := by
    intro joins
    unfold predicateOf columnRef
    rw [if_pos rfl, hkey]
    rfl
  have horder : ∀ joins, orderOf schema e joins ⟨[], createdAt, true⟩ =
      .ok (.column ⟨rootAlias, c.name, c.type⟩ true) := by
    intro joins
    unfold orderOf columnRef
    rw [if_pos rfl, hstamp]
    rfl
  have hjoins : resolveJoins schema e [[], []] = .ok .empty := rfl
  unfold planOf
  rw [hfilters]
  show ∃ plan, SelectPlan.assemble schema e _ [] .listing = .ok plan
  unfold SelectPlan.assemble SelectPlan.apply SelectPlan.extend SelectPlan.ofEntity
  simp only [effectiveSort, ne_eq, reduceCtorEq, not_false_eq_true, and_true, if_true, false_and,
    if_false, List.map_cons, List.map_nil, SortKey.byDescending, List.cons_append, List.nil_append]
  rw [hjoins]
  dsimp only
  rw [hpred, horder]
  exact ⟨_, rfl⟩

/-! ### load plans -/

/-- every relationship of a load plan is one of the entity -/
def LoadPlan.Of (e : Entity) (load : LoadPlan) : Prop :=
  ∀ name ∈ load.names, e.isRelationship name = true

theorem LoadPlan.of_empty (e : Entity) : LoadPlan.empty.Of e := fun _ h => nomatch h

theorem LoadPlan.Of.singleton {e : Entity} {name : String} (h : e.isRelationship name = true) :
    (LoadPlan.ofNames [name]).Of e := by
  intro other hother
  obtain rfl : other = name := List.mem_singleton.1 hother
  exact h

theorem LoadPlan.Of.includeAll {e : Entity} {names : List String} {load found : LoadPlan}
    (h : load.Of e) (hfound : e.includeAll load names = .ok found) : found.Of e := by
  unfold Entity.includeAll at hfound
  induction names generalizing load with
  | nil =>
    obtain rfl : load = found := Except.ok.inj hfound
    exact h
  | cons name names ih =>
    rw [List.foldlM_cons] at hfound
    obtain ⟨mid, hmid, hrest⟩ := bind_eq_ok.1 hfound
    refine ih (fun other hother => ?_) hrest
    unfold Entity.includeOne at hmid
    split at hmid
    · next hname =>
      obtain rfl := Except.ok.inj hmid
      obtain ⟨entry, hentry, rfl⟩ := List.mem_map.1 hother
      rcases Dict.mem_insert.1 hentry with rfl | ⟨_, hentry⟩
      · exact hname
      · exact h _ (List.mem_map_of_mem hentry)
    · cases hmid

/-- relationships that are included are there beside those that have been there -/
theorem LoadPlan.contains_includeAll {e : Entity} {names : List String} {load found : LoadPlan}
    (h : e.includeAll load names = .ok found) (name : String) :
    found.contains name = true ↔ load.contains name = true ∨ name ∈ names := by
  unfold Entity.includeAll at h
  induction names generalizing load with
  | nil =>
    obtain rfl : load = found := Except.ok.inj h
    rw [or_iff_left List.not_mem_nil]
  | cons first names ih =>
    rw [List.foldlM_cons] at h
    obtain ⟨mid, hmid, hrest⟩ := bind_eq_ok.1 h
    unfold Entity.includeOne at hmid
    split at hmid
    · obtain rfl := Except.ok.inj hmid
      have hinsert : (load.insert first).contains name = true ↔
          name = first ∨ load.contains name = true := Dict.contains_insert
      rw [ih hrest, hinsert, List.mem_cons, or_assoc, or_left_comm]
    · cases hmid

/-- the first name that is not of a relationship is an error -/
theorem Entity.includeAll_error {e : Entity} {names : List String} {unknown : String}
    (h : names.find? (fun name => !e.isRelationship name) = some unknown) (load : LoadPlan) :
    e.includeAll load names = .error (.noSuchRelationship unknown e.name) := by
  unfold includeAll
  induction names generalizing load with
  | nil => cases h
  | cons first names ih =>
    rw [List.foldlM_cons]
    cases hfirst : e.isRelationship first with
    | true =>
      rw [List.find?_cons_of_neg (by simp [hfirst])] at h
      rw [Entity.includeOne_eq_ok hfirst]
      exact ih h _
    | false =>
      rw [List.find?_cons_of_pos (by simp [hfirst])] at h
      obtain rfl := Option.some.inj h
      have hone : e.includeOne load first = .error (.noSuchRelationship first e.name) := by
        simp [includeOne, hfirst]
      rw [hone]
      rfl

/-! ### reads -/

namespace Repository

/-- a relationship between columns of which one can hold a key that is none of the other -/
def KeyFault (r : Repository) (name : String) (err : Error) : Prop :=
  ∃ rel target, r.relation name = .ok (rel, target) ∧
    ∃ c ∈ r.entity.columns, c.name = rel.localColumn ∧ ∃ x : SqlValue, x.fits c.type = true ∧
      castFilter (target.columnType rel.remoteColumn) x.sent.toJson = .error err

/-- what a read fails with, once it has its plans -/
def ReadFault (r : Repository) (load : LoadPlan) (err : Error) : Prop :=
  err.isCaller = false ∨ ∃ name ∈ load.names, r.KeyFault name err

/-- what a read fails with, whatever it loads -/
def Fault (r : Repository) (err : Error) : Prop :=
  err.isCaller = false ∨ ∃ name, r.KeyFault name err

theorem ReadFault.fault {r : Repository} {load : LoadPlan} {err : Error}
    (h : r.ReadFault load err) : r.Fault err :=
  h.imp_right fun ⟨name, _, hfault⟩ => ⟨name, hfault⟩

/-- without relationships to load a read does not fail with what a caller can do wrong -/
theorem ReadFault.of_empty {r : Repository} {err : Error} (h : r.ReadFault .empty err) :
    err.isCaller = false :=
  h.resolve_right fun ⟨_, hname, _⟩ => nomatch hname

/-- a repository of an accepted schema, with rules that leave its reads alone -/
structure Served (r : Repository) : Prop where
  schema : r.schema.WellFormed
  entity : r.entity ∈ r.schema.entities
  createdAt : ∃ c ∈ r.entity.columns, c.name = createdAt ∧ c.type ≠ .searchVector
  loadPlan : r.loadPlan.Of r.entity
  hooks : r.hooks.Preparing

variable {r : Repository} {load : LoadPlan} {plan : SelectPlan}

theorem readFault_database (e : DatabaseError) : r.ReadFault load (.database e) :=
  .inl (Error.isCaller_database e)

theorem readFault_of_relation {name : String} (hname : r.entity.isRelationship name = true)
    {err : Error} (h : r.relation name = .error err) : r.ReadFault load err := by
  unfold relation at h
  split at h
  · next hnone =>
    unfold Entity.isRelationship at hname
    rw [hnone] at hname
    cases hname
  · split at h
    · obtain rfl := Except.error.inj h
      exact .inl rfl
    · cases h

theorem ends_relatedRows {P : Error → Prop} (hdatabase : ∀ e, P (.database e)) {target : Entity}
    {column : String} {keys : List SqlValue} :
    Ends P (fun _ => True) (relatedRows target column keys) := by
  unfold relatedRows
  split
  · exact .pure trivial
  · exact .query (fun _ _ _ => trivial) hdatabase

theorem readAs_attach {e : Entity} {records : List Record} (h : ∀ record ∈ records, record.ReadAs e)
    (name : String) (rel : Relationship) (rows : List Row) :
    ∀ record ∈ records.map (·.attach name rel rows), record.ReadAs e := by
  intro record hrecord
  obtain ⟨old, hold, rfl⟩ := List.mem_map.1 hrecord
  exact h old hold

/-- loading one relationship of records that have been read -/
theorem ends_loadOne {records : List Record} (hrecords : ∀ record ∈ records, record.ReadAs r.entity)
    (hload : load.Of r.entity) {name : String} (hname : name ∈ load.names) :
    Ends (r.ReadFault load) (fun found => ∀ record ∈ found, record.ReadAs r.entity)
      (r.loadOne records name) := by
  unfold loadOne
  refine .liftM_bind (fun err h => readFault_of_relation (hload name hname) h)
    fun ⟨rel, target⟩ hrel => ?_
  refine .liftM_bind (fun err h => ?_) fun keys _ => ?_
  -- a stored key is cast as if a caller had filtered by it
  · obtain ⟨v, hv, hcast⟩ := mapM_error h
    obtain ⟨record, hrecord, hkey⟩ :=
      List.mem_filterMap.1 ((firstOfEach_sublist _ _ _).subset hv)
    obtain ⟨hget, hnull⟩ := Option.filter_eq_some_iff.1 hkey
    obtain ⟨c, hc, hlocal, x, hfits, rfl⟩ :=
      (hrecords record hrecord).fits hget (by simpa using hnull)
    exact .inr ⟨name, hname, rel, target, hrel, c, hc, hlocal, x, hfits, hcast⟩
  · exact (ends_relatedRows readFault_database).bind fun rows _ =>
      .pure (readAs_attach hrecords name rel rows)

/-- what is true of rows as they are read, and stays so when a relationship is loaded, is true of
all records of a read -/
theorem ends_fetch_of {P : Error → Prop} {Q : Record → Prop} (hdatabase : ∀ e, P (.database e))
    (hrow : ∀ row, (Record.ofRow row).ReadAs r.entity → Q (.ofRow row))
    (hone : ∀ records name, (∀ record ∈ records, Q record) → name ∈ load.names →
      Ends P (fun found => ∀ record ∈ found, Q record) (r.loadOne records name)) :
    Ends P (fun found => ∀ record ∈ found, Q record) (r.fetch plan load) := by
  unfold fetch
  have hrows : Ends P (fun rows => ∀ row ∈ rows, (Record.ofRow row).ReadAs r.entity)
      (Action.query (.select r.schema plan) (ResultSet.readRows r.entity)) := by
    refine .query (fun rs rows hread row hrow => ?_) hdatabase
    obtain ⟨cells, _, hcells⟩ := exists_of_mem_result hread hrow
    exact ⟨rs.columns, cells, hcells⟩
  refine hrows.bind fun rows hrows => ?_
  have hrecords : ∀ record ∈ firstOfEach Record.id [] (rows.map Record.ofRow), Q record := by
    intro record hrecord
    obtain ⟨row, hmem, rfl⟩ := List.mem_map.1 ((firstOfEach_sublist _ _ _).subset hrecord)
    exact hrow row (hrows row hmem)
  unfold loadRelated
  split
  · exact .pure (List.forall_mem_nil _)
  · exact .foldlM (fun records name hrecords hname => hone records name hrecords hname) hrecords

theorem ends_fetch (hload : load.Of r.entity) :
    Ends (r.ReadFault load) (fun _ => True) (r.fetch plan load) :=
  (ends_fetch_of readFault_database (fun _ h => h) fun _ _ h hname =>
    ends_loadOne h hload hname).mono (fun _ h => h) fun _ _ => trivial

theorem isCaller_of_required {found : Option Record} {e : Error}
    (h : r.required found = .error e) : e.isCaller = false := by
  unfold required at h
  split at h
  · cases h
  · obtain rfl := Except.error.inj h
    rfl

theorem ends_required (found : Option Record) :
    Ends (r.ReadFault load) (fun _ => True) (liftM (r.required found) : Action Record) :=
  .liftM (fun _ _ => trivial) fun _ he => .inl (isCaller_of_required he)

/-- a page, once it has its plans -/
theorem ends_paginate (hload : load.Of r.entity) (p : PageParams) :
    Ends (r.ReadFault load) (fun _ => True) (r.paginate plan load p) := by
  unfold paginate
  refine Ends.bind (Q := fun _ => True) (.query (fun _ _ _ => trivial) readFault_database)
    fun total _ => ?_
  split
  · exact .pure trivial
  · exact (ends_fetch hload).bind fun items _ => .pure trivial

variable {filters : Filters} {sort : List SortKey} {policy : SortPolicy} {includes : List String}

section

variable (hhooks : r.hooks.Preparing)

include hhooks

/-- compiling is planning -/
theorem compile_eq : r.compile filters sort policy =
    liftM (planOf r.schema r.entity filters sort policy) := by
  unfold compile
  cases planOf r.schema r.entity filters sort policy with
  | error e => rfl
  | ok plan => exact hhooks.customizeQuery plan filters.present

theorem silent_compile : Silent (r.compile filters sort policy) := by
  rw [compile_eq hhooks]
  exact .liftM _

theorem ends_compile {P : Error → Prop}
    (herr : ∀ e, planOf r.schema r.entity filters sort policy = .error e → P e) :
    Ends P (fun plan => planOf r.schema r.entity filters sort policy = .ok plan)
      (r.compile filters sort policy) := by
  rw [compile_eq hhooks]
  exact .liftM (fun _ h => h) herr

theorem resolveLoadPlan_eq : r.resolveLoadPlan filters includes =
    liftM (r.entity.includeAll r.loadPlan includes) := by
  unfold resolveLoadPlan
  cases r.entity.includeAll r.loadPlan includes with
  | error e => rfl
  | ok load =>
    show (ExceptT.lift (r.hooks.modifyLoadPlan filters load) : Action LoadPlan) = _
    rw [hhooks.modifyLoadPlan]
    rfl

theorem silent_resolveLoadPlan : Silent (r.resolveLoadPlan filters includes) := by
  rw [resolveLoadPlan_eq hhooks]
  exact .liftM _

theorem ends_resolveLoadPlan {P : Error → Prop}
    (herr : ∀ e, r.entity.includeAll r.loadPlan includes = .error e → P e) :
    Ends P (fun load => r.entity.includeAll r.loadPlan includes = .ok load)
      (r.resolveLoadPlan filters includes) := by
  rw [resolveLoadPlan_eq hhooks]
  exact .liftM (fun _ h => h) herr

end

section

variable (hr : r.Served)

include hr

/-- a read by the primary key -/
theorem ends_getById (id : String) :
    Ends (r.ReadFault r.loadPlan) (fun _ => True) (r.getById id) := by
  obtain ⟨plan, hplan⟩ := planOf_id (hr.schema.entity _ hr.entity) hr.createdAt r.schema id
  unfold getById get
  refine (ends_compile hr.hooks fun e he => ?_).bind fun plan _ => ?_
  · rw [hplan] at he
    cases he
  refine (ends_resolveLoadPlan hr.hooks fun e he => ?_).bind fun load hload => ?_
  · cases he
  obtain rfl : r.loadPlan = load := Except.ok.inj hload
  exact (ends_fetch hr.loadPlan).bind fun records _ => .pure trivial

theorem ends_reread (id : String) :
    Ends (r.ReadFault r.loadPlan) (fun _ => True) (r.reread id) :=
  (ends_getById hr id).bind fun found _ => ends_required found

/-- a read by filters, up to its plans -/
theorem early_planned {α : Type} {Q : α → Prop} {f : SelectPlan → LoadPlan → Action α}
    (hf : ∀ plan load, plan.entity = r.entity → load.Of r.entity →
      Early r.Fault Q (f plan load)) :
    Early r.Fault Q (do
      let plan ← r.compile filters sort policy
      let load ← r.resolveLoadPlan filters includes
      f plan load) := by
  refine .silent_bind (silent_compile hr.hooks) (ends_compile hr.hooks fun _ _ => trivial)
    fun plan hplan => ?_
  refine .silent_bind (silent_resolveLoadPlan hr.hooks)
    (ends_resolveLoadPlan hr.hooks fun _ _ => trivial) fun load hload => ?_
  exact hf plan load (sound_of_planOf hr.schema hr.entity hplan).entity
    (hr.loadPlan.includeAll hload)

theorem early_list (p : PageParams) :
    Early r.Fault (fun _ => True) (r.list filters sort includes p) :=
  early_planned hr fun _ _ _ hload =>
    .of_ends ((ends_paginate hload p).mono (fun _ h => h.fault) fun _ h => h)

theorem early_search (params : SearchParams) (p : PageParams) :
    Early r.Fault (fun _ => True) (r.search params filters sort p) := by
  unfold search
  refine .silent_bind (silent_compile hr.hooks) (ends_compile hr.hooks fun _ _ => trivial)
    fun plan _ => ?_
  -- the plan of a search need not be known: nothing has been executed if there is none
  refine .liftM_bind fun plan _ => ?_
  refine .silent_bind (silent_resolveLoadPlan hr.hooks)
    (ends_resolveLoadPlan hr.hooks fun _ _ => trivial) fun load hload => ?_
  exact .of_ends ((ends_paginate (hr.loadPlan.includeAll hload) p).mono (fun _ h => h.fault)
    fun _ h => h)

/-- a batch, once its plans are there -/
theorem ends_fetchAfter (hload : load.Of r.entity) (hplan : plan.entity = r.entity)
    (after : Option String) (limit : Nat) :
    Ends (r.ReadFault load) (fun _ => True) (r.fetchAfter plan load after limit) := by
  have hkey : plan.rootColumn primaryKey = .ok ⟨rootAlias, primaryKey, .text⟩ :=
    SelectPlan.rootColumn_primaryKey (hplan ▸ hr.schema.entity _ hr.entity)
  unfold fetchAfter
  refine .liftM_bind (fun e he => ?_) fun batch _ => ends_fetch hload
  unfold SelectPlan.keysetPlan at he
  rw [hkey] at he
  cases he

end

end Repository
end EntityAccess
