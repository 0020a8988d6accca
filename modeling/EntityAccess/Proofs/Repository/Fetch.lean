import EntityAccess.Proofs.Actions
import EntityAccess.Proofs.Outcome
import EntityAccess.Repository.Read

/-!
# what a read returns

The records of a read are the rows of the answer, each primary key once; what is loaded beside them
changes no value.

* `loadRelated_values` : loading keeps the values;
* `fetch_eq_ok` : the values of the records that are fetched;
* `getById_eq_ok` : the values of the record of a primary key.
-/

namespace EntityAccess.Repository

open EntityAccess.Action
open Program (Store)

variable {r : Repository} {σ : Type} {store : Store σ} {s s' : σ} {log : List Event}

theorem loadOne_values {records found : List Record} {name : String}
    (h : (r.loadOne records name).runOn store s = (.ok found, log, s')) :
    found.map (·.values) = records.map (·.values) := by
  unfold loadOne at h
  obtain ⟨⟨rel, target⟩, _, _, _, _, h, _⟩ := of_runOn_bind h
  obtain ⟨keys, _, _, _, _, h, _⟩ := of_runOn_bind h
  obtain ⟨rows, _, _, _, _, h, _⟩ := of_runOn_bind h
  obtain ⟨rfl, _⟩ := of_runOn_pure h
  rw [List.map_map]
  refine List.map_congr_left fun record _ => ?_
  rfl

theorem loadRelated_values {records found : List Record} {load : LoadPlan}
    (h : (r.loadRelated records load).runOn store s = (.ok found, log, s')) :
    found.map (·.values) = records.map (·.values) := by
  unfold loadRelated at h
  split at h
  · next hempty =>
    obtain rfl : records = [] := by simpa using hempty
    obtain ⟨rfl, _⟩ := of_runOn_pure h
    rfl
  · generalize load.names = names at h
    clear * - h
    induction names generalizing records s log with
    | nil =>
      rw [List.foldlM_nil] at h
      obtain ⟨rfl, _⟩ := of_runOn_pure h
      rfl
    | cons name names ih =>
      rw [List.foldlM_cons] at h
      obtain ⟨mid, _, _, _, hone, h, _⟩ := of_runOn_bind h
      rw [ih h, loadOne_values hone]

theorem firstOfEach_map {α β : Type} (f : α → β) (key : β → String) (seen : List String)
    (l : List α) :
    firstOfEach key seen (l.map f) = (firstOfEach (fun a => key (f a)) seen l).map f := by
  induction l generalizing seen with
  | nil => rfl
  | cons a l ih =>
    rw [List.map_cons]
    unfold firstOfEach
    split
    · exact ih seen
    · rw [List.map_cons, ih]

/-- the values of the records that are fetched -/
theorem fetch_eq_ok {plan : SelectPlan} {load : LoadPlan} {records : List Record}
    (h : (r.fetch plan load).runOn store s = (.ok records, log, s')) :
    ∃ rs rows, (store.reply (.select r.schema plan) s).1 = .ok rs ∧
      rs.readRows r.entity = .ok rows ∧
      records.map (·.values) = firstOfEach rowId [] rows := by
  unfold fetch at h
  obtain ⟨rows, _, _, _, hquery, h, _⟩ := of_runOn_bind h
  obtain ⟨⟨rs, hreply, hrows⟩, _⟩ := of_runOn_query hquery
  refine ⟨rs, rows, hreply, hrows, ?_⟩
  rw [loadRelated_values h, firstOfEach_map, List.map_map]
  exact List.map_id _

/-- a read has these records, and their values with whatever is loaded beside them -/
structure Fetches (r : Repository) {σ : Type} (store : Store σ) (s : σ) (plan : SelectPlan)
    (records : List Record) : Prop where
  alone : ((r.fetch plan .empty).runOn store s).1 = .ok records
  loaded : ∀ load found, ((r.fetch plan load).runOn store s).1 = .ok found →
    found.map (·.values) = records.map (·.values)

theorem runOn_loadRelated_empty (records : List Record) :
    (r.loadRelated records .empty).runOn store s = (.ok records, [], s) := by
  unfold loadRelated
  cases records with
  | nil => rfl
  | cons record records => rfl

/-- a read whose answer has those rows -/
theorem fetches_of_rows {plan : SelectPlan} {rs : ResultSet} {rows : List Row}
    (hreply : (store.reply (.select r.schema plan) s).1 = .ok rs)
    (hrows : rs.readRows r.entity = .ok rows) :
    r.Fetches store s plan (firstOfEach Record.id [] (rows.map Record.ofRow)) where
  alone := by
    have hquery : (query (.select r.schema plan) (ResultSet.readRows r.entity)).runOn store s =
        (.ok rows, [.executed (.select r.schema plan)],
          (store.reply (.select r.schema plan) s).2) := by
      rw [runOn_query, hreply]
      unfold ofReply
      rw [show (Except.ok rs : Reply).bind (ResultSet.readRows r.entity) = .ok rows from hrows]
      rfl
    unfold fetch
    rw [runOn_bind_ok _ hquery, runOn_loadRelated_empty]
  loaded load found h := by
    obtain ⟨rs', rows', hreply', hrows', hvalues⟩ := fetch_eq_ok (Prod.ext h rfl)
    obtain rfl : rs = rs' := Except.ok.inj (hreply.symm.trans hreply')
    obtain rfl : rows = rows' := Except.ok.inj (hrows.symm.trans hrows')
    rw [hvalues, firstOfEach_map, List.map_map]
    exact (List.map_id _).symm

/-- what is compiled and loaded under rules that leave reads alone -/
theorem compile_eq_ok (hq : ∀ plan filters, r.hooks.customizeQuery plan filters = pure plan)
    {filters : Filters} {sort : List SortKey} {policy : SortPolicy} {plan : SelectPlan}
    (h : (r.compile filters sort policy).runOn store s = (.ok plan, log, s')) :
    planOf r.schema r.entity filters sort policy = .ok plan ∧ s' = s := by
  unfold compile at h
  obtain ⟨plan', hplan, hcustom⟩ := of_runOn_liftM_bind h
  rw [hq] at hcustom
  obtain ⟨rfl, hs⟩ := of_runOn_pure hcustom
  exact ⟨hplan, hs⟩

theorem resolveLoadPlan_eq_ok
    (hl : ∀ filters plan, r.hooks.modifyLoadPlan filters plan = pure plan) {filters : Filters}
    {includes : List String} {load : LoadPlan}
    (h : (r.resolveLoadPlan filters includes).runOn store s = (.ok load, log, s')) : s' = s := by
  unfold resolveLoadPlan at h
  obtain ⟨load', _, mid, _, hlift, hmodify, _⟩ := of_runOn_bind h
  obtain ⟨_, _, hmid⟩ := of_runOn_liftM hlift
  rw [hl] at hmodify
  have hpure : runOn (ExceptT.lift (pure load' : Program LoadPlan)) store mid =
      (.ok load', [], mid) := rfl
  rw [hpure] at hmodify
  exact (congrArg (·.2.2) hmodify).symm.trans hmid

/-- the record of a primary key has the first row of the answer -/
theorem getById_eq_ok (hq : ∀ plan filters, r.hooks.customizeQuery plan filters = pure plan)
    (hl : ∀ filters plan, r.hooks.modifyLoadPlan filters plan = pure plan) {id : String}
    {found : Option Record} (h : (r.getById id).runOn store s = (.ok found, log, s')) :
    ∃ plan rs rows, planOf r.schema r.entity [(primaryKey, .str id)] [] .listing = .ok plan ∧
      (store.reply (.select r.schema (plan.window (some 1) none)) s).1 = .ok rs ∧
      rs.readRows r.entity = .ok rows ∧ found.map (·.values) = rows.head? := by
  unfold getById get at h
  obtain ⟨plan, _, s₁, _, hcompile, hrest, _⟩ := of_runOn_bind h
  obtain ⟨hplan, hs₁⟩ := compile_eq_ok hq hcompile
  obtain ⟨load, _, s₂, _, hload, hrest, _⟩ := of_runOn_bind hrest
  have hs₂ := resolveLoadPlan_eq_ok hl hload
  obtain ⟨records, _, _, _, hfetch, hhead, _⟩ := of_runOn_bind hrest
  rw [hs₂, hs₁] at hfetch
  obtain ⟨rs, rows, hreply, hrows, hvalues⟩ := fetch_eq_ok hfetch
  obtain ⟨rfl, _⟩ := of_runOn_pure hhead
  refine ⟨plan, rs, rows, hplan, hreply, hrows, ?_⟩
  rw [← List.head?_map, hvalues]
  cases rows with
  | nil => rfl
  | cons row rows => rw [firstOfEach_cons (List.not_mem_nil) rows]; rfl

end EntityAccess.Repository
