import EntityAccess.Proofs.Repository.Assignment
import EntityAccess.Proofs.Repository.CurrentValues
import EntityAccess.Proofs.Sql.Results
import EntityAccess.Proofs.Transitions.Runs

/-!
# a table with one row

A store that holds one row of an entity: an update assigns its columns and sets the time stamp, a
read shows the row.  An update is refused whose values do not fit their columns, or that sets the
time stamp twice.

* `rowStore` : the store;
* `keeps_rowStore` : it keeps what is bound to a field;
* `found_rowStore`, `executed_rowStore` : it has the row, and executes what can be assigned.
-/

namespace EntityAccess

open EntityAccess.Action Engine
open Program (Store)

/-- a row with that primary key, whose cells fit their columns -/
def Entity.isRow (e : Entity) (id : String) (t : Tuple) : Bool :=
  (match cell t primaryKey with
    | .text s => s == id
    | _ => false) &&
  e.selectable.all fun c => (cell t c.name).isNull || (cell t c.name).fits c.type

structure StoredRow (e : Entity) (id : String) where
  tuple : Tuple
  isRow : e.isRow id tuple = true

/-- a row after an update at a time -/
def Entity.updatedRow (e : Entity) (now : SqlValue) (assigned : Sql.Assignments) (t : Tuple) :
    Tuple :=
  .ofList (e.selectable.map fun c => (c.name, if e.isStamp c.name then now
    else ((assigned.lookup c.name).map SqlValue.sent).getD (cell t c.name)))

/-- an update at a time -/
def StoredRow.update {e : Entity} {id : String} (row : StoredRow e id) (now : SqlValue)
    (assigned : Sql.Assignments) : Reply × StoredRow e id :=
  if h : assigned.any (fun a => e.isStamp a.1) = false ∧
      e.isRow id (e.updatedRow now assigned row.tuple) = true then
    (.ok .empty, ⟨_, h.2⟩)
  else (.error .driver, row)

/-- a store with one row, whose clock shows `now` -/
def rowStore (e : Entity) (id : String) (now : SqlValue) : Store (StoredRow e id) where
  reply q row := match q with
    | .select _ _ => (.ok (resultOf e [row.tuple]), row)
    | .update e' id' assigned =>
      if e' = e ∧ id' = id then row.update now assigned else (.ok .empty, row)
    | _ => (.ok .empty, row)
  fresh row := ("another", row)

section

variable {e : Entity} {id : String} {now : SqlValue} {row : StoredRow e id}
  {assigned : Sql.Assignments}

theorem StoredRow.update_of_ok {rs : ResultSet} (h : (row.update now assigned).1 = .ok rs) :
    (row.update now assigned).2.tuple = e.updatedRow now assigned row.tuple := by
  unfold update at h ⊢
  split at h
  · next hrow => rw [dif_pos hrow]
  · cases h

theorem StoredRow.update_of_error {err : DatabaseError}
    (h : (row.update now assigned).1 = .error err) : (row.update now assigned).2 = row := by
  unfold update at h ⊢
  split at h
  · cases h
  · next hrow => rw [dif_neg hrow]

theorem reply_update : (rowStore e id now).reply (.update e id assigned) row =
    row.update now assigned :=
  if_pos ⟨rfl, rfl⟩

theorem Entity.cell_key_of_isRow {t : Tuple} (h : e.isRow id t = true) :
    cell t primaryKey = .text id := by
  obtain ⟨hkey, _⟩ := Bool.and_eq_true_iff.1 h
  revert hkey
  cases cell t primaryKey <;> simp

/-- what is read of the row fits the schema -/
theorem StoredRow.conforms (row : StoredRow e id) : Content.Conforms (fun _ => [row.tuple]) e := by
  obtain ⟨_, hcells⟩ := Bool.and_eq_true_iff.1 row.isRow
  refine ⟨fun t ht c hc => ?_, fun t ht => ?_, List.nodup_singleton _⟩
  · obtain rfl := List.mem_singleton.1 ht
    simpa using List.all_eq_true.1 hcells c hc
  · obtain rfl := List.mem_singleton.1 ht
    exact ⟨id, Entity.cell_key_of_isRow row.isRow⟩

end

section

variable {schema : Schema} {e : Entity} {id : String} {now : SqlValue} (he : e.WellFormed)

include he

theorem cell_updatedRow {c : Column} (hc : c ∈ e.selectable) (assigned : Sql.Assignments)
    (t : Tuple) :
    cell (e.updatedRow now assigned t) c.name = if e.isStamp c.name then now
      else ((assigned.lookup c.name).map SqlValue.sent).getD (cell t c.name) := by
  unfold cell Entity.updatedRow
  rw [get?_ofList_selectable he _ hc]
  rfl

theorem keeps_rowStore {c : Column} (hc : c ∈ e.fields) :
    Keeps (rowStore e id now) schema e id c.name fun row => cell row.tuple c.name where
  updated row assigned rs h := by
    rw [reply_update] at h ⊢
    obtain ⟨hselectable, _, hstamp⟩ := Entity.mem_fields.1 hc
    rw [StoredRow.update_of_ok h, cell_updatedRow he hselectable, hstamp]
    rfl
  refused row assigned err h := by
    rw [reply_update] at h ⊢
    rw [StoredRow.update_of_error h]
  others row q hq := by
    cases q with
    | update e' id' assigned =>
      have hne : ¬ (e' = e ∧ id' = id) := by
        rintro ⟨rfl, rfl⟩
        exact hq assigned rfl
      have hreply : (rowStore e id now).reply (.update e' id' assigned) row = (.ok .empty, row) :=
        if_neg hne
      rw [hreply]
    | _ => rfl
  fresh row := rfl
  read row plan rs _ h := by
    obtain rfl : resultOf e [row.tuple] = rs := Except.ok.inj h
    have hkey : keyColumn ∈ e.selectable := List.mem_filter.2 ⟨he.key_mem, rfl⟩
    have hfield : c ∈ e.selectable := (Entity.mem_fields.1 hc).1
    have hcontains : ∀ c ∈ e.selectable,
        (resultOf e [row.tuple]).columns.contains c.name = true := by
      intro c hc
      unfold Dict.contains
      rw [show (resultOf e [row.tuple]).columns.get? c.name = some c.type.sqlName from
        get?_ofList_selectable he (fun c => c.type.sqlName) hc]
      rfl
    refine ⟨hcontains keyColumn hkey, hcontains c hfield, fun shown hshown => ?_⟩
    obtain rfl := List.mem_singleton.1 hshown
    have hproject : ∀ c ∈ e.selectable,
        ((project e row.tuple).get? c.name).getD .null = cell row.tuple c.name := by
      intro c hc
      unfold project
      rw [get?_ofList_selectable he (fun c => cell row.tuple c.name) hc]
      rfl
    refine ⟨?_, hproject c hfield⟩
    rw [← Entity.cell_key_of_isRow row.isRow]
    exact hproject keyColumn hkey

/-- a read by the primary key finds the row -/
theorem found_rowStore {plan : SelectPlan}
    (hplan : planOf schema e [(primaryKey, .str id)] [] .listing = .ok plan)
    (row : StoredRow e id) :
    ∃ record, ((Repository.getById ⟨schema, e, .none, .empty⟩ id).runOn (rowStore e id now) row).1 =
      .ok (some record) ∧ record.id = id := by
  have hroots : ∀ t ∈ [row.tuple], t ∈ [row.tuple] := fun _ ht => ht
  have hfetches : Repository.Fetches ⟨schema, e, .none, .empty⟩ (rowStore e id now) row
      (plan.window (some 1) none) [recordOf e row.tuple] :=
    fetches_of_reply (r := ⟨schema, e, .none, .empty⟩) he row.conforms hroots rfl
  have hid : (recordOf e row.tuple).id = id := by
    rw [recordOf_id he row.conforms List.mem_cons_self]
    unfold rootId
    rw [Entity.cell_key_of_isRow row.isRow]
  refine ⟨recordOf e row.tuple, ?_, hid⟩
  have hcompile : (Repository.compile ⟨schema, e, .none, .empty⟩ [(primaryKey, .str id)] []
      .listing).runOn (rowStore e id now) row = (.ok plan, [], row) := by
    unfold Repository.compile
    rw [hplan, runOn_liftM_bind]
    rfl
  have hload : (Repository.resolveLoadPlan ⟨schema, e, .none, .empty⟩ [(primaryKey, .str id)]
      []).runOn (rowStore e id now) row = (.ok .empty, [], row) := rfl
  rcases hfetch : (Repository.fetch ⟨schema, e, .none, .empty⟩ (plan.window (some 1) none)
    .empty).runOn (rowStore e id now) row with ⟨outcome, log, row'⟩
  have halone := hfetches.alone
  rw [hfetch] at halone
  obtain rfl : outcome = .ok [recordOf e row.tuple] := halone
  unfold Repository.getById Repository.get
  rw [runOn_bind_ok _ hcompile]
  dsimp only
  rw [runOn_bind_ok _ hload]
  dsimp only
  rw [runOn_bind_ok _ hfetch]
  rfl

/-- what is assigned to a column is one of it -/
theorem fits_of_assigned {kept : Row} {assigned : Sql.Assignments}
    (h : e.assignments kept = .ok assigned) {c : Column} (hc : c ∈ e.columns) {x : SqlValue}
    (hx : (c.name, x) ∈ assigned) : x.sent.isNull = true ∨ x.sent.fits c.type = true := by
  obtain ⟨v, c', _, hassignable, hcast⟩ := Entity.of_mem_assignments h hx
  have hfound := (Option.filter_eq_some_iff.1 hassignable).1
  rw [Entity.column?_of_mem he hc] at hfound
  obtain rfl := Option.some.inj hfound
  rw [x.fits_sent]
  rcases fits_of_castWrite hcast with hnull | hfits
  · cases x <;> first
      | exact .inl rfl
      | cases hnull
  · exact .inr hfits

/-- an update that leaves the time stamp out is executed -/
theorem executed_rowStore
    (hnow : ∀ c ∈ e.selectable, e.isStamp c.name = true → now.fits c.type = true)
    {current : Record} {input : Row} {assigned : Sql.Assignments}
    (hassigning : e.assigning current input = .ok assigned)
    (hstamp : ∀ name, e.isStamp name = true → input.get? name = none) (row : StoredRow e id) :
    ∃ rs, ((rowStore e id now).reply (.update e id assigned) row).1 = .ok rs := by
  obtain ⟨_, _, _, hassign⟩ := Entity.assigning_eq_ok.1 hassigning
  have honce : assigned.any (fun a => e.isStamp a.1) = false := by
    rw [List.any_eq_false]
    rintro ⟨name, x⟩ hx hyes
    have hpresent := Entity.isSome_of_mem_assigning hassigning hx
    rw [hstamp name hyes] at hpresent
    cases hpresent
  have hkey : cell (e.updatedRow now assigned row.tuple) primaryKey = .text id := by
    have hselectable : keyColumn ∈ e.selectable := List.mem_filter.2 ⟨he.key_mem, rfl⟩
    have hcell : cell (e.updatedRow now assigned row.tuple) primaryKey =
        if e.isStamp primaryKey then now
        else ((assigned.lookup primaryKey).map SqlValue.sent).getD (cell row.tuple primaryKey) :=
      cell_updatedRow he hselectable assigned row.tuple
    have hno : e.isStamp primaryKey = false := by
      simp [Entity.isStamp, primaryKey, updatedAt]
    rw [hcell, hno, Entity.lookup_primaryKey hassign]
    exact Entity.cell_key_of_isRow row.isRow
  have hcells : ∀ c ∈ e.selectable,
      (cell (e.updatedRow now assigned row.tuple) c.name).isNull = true ∨
        (cell (e.updatedRow now assigned row.tuple) c.name).fits c.type = true := by
    intro c hc
    rw [cell_updatedRow he hc]
    split
    · next hyes => exact .inr (hnow c hc hyes)
    · cases hlookup : assigned.lookup c.name with
      | none => exact row.conforms.typed row.tuple List.mem_cons_self c hc
      | some x =>
        obtain ⟨before, after, rfl, _⟩ := List.lookup_eq_some_iff.1 hlookup
        refine fits_of_assigned he hassign (List.mem_filter.1 hc).1 ?_
        exact List.mem_append_right _ List.mem_cons_self
  have hrow : e.isRow id (e.updatedRow now assigned row.tuple) = true := by
    unfold Entity.isRow
    rw [hkey, Bool.and_eq_true_iff, List.all_eq_true]
    refine ⟨beq_self_eq_true id, fun c hc => ?_⟩
    simpa using hcells c hc
  rw [reply_update]
  unfold StoredRow.update
  rw [dif_pos ⟨honce, hrow⟩]
  exact ⟨.empty, rfl⟩

end

end EntityAccess
