import EntityAccess.Proofs.Pages.FirstRows
import EntityAccess.Proofs.Repository.Fetch
import EntityAccess.Proofs.Sql.Rows

/-!
# answers that are read back

The roots of an answer are read as rows with the values of their columns when the root table fits
the schema.

* `Content.Conforms` : what a database keeps of its root table;
* `readRows_resultOf` : the rows of an answer;
* `fetches_of_reply` : the records of a read, each root once.
-/

namespace EntityAccess

open Engine Sql
open Program (Store)

/-- the rows of an entity fit its columns and are told apart by their primary keys -/
structure Content.Conforms (db : Content) (e : Entity) : Prop where
  typed : ∀ t ∈ db (tableOf e), ∀ c ∈ e.selectable,
    (cell t c.name).isNull = true ∨ (cell t c.name).fits c.type = true
  keyed : ∀ t ∈ db (tableOf e), ∃ id, cell t primaryKey = .text id
  nodup : ((db (tableOf e)).map rootId).Nodup

/-- a root as a row that was read -/
def rowOf (e : Entity) (t : Tuple) : Row :=
  .ofList (e.selectable.map fun c => (c.name, (cell t c.name).sent.toJson))

/-- a root as a record -/
def recordOf (e : Entity) (t : Tuple) : Record := .ofRow (rowOf e t)

variable {e : Entity} {db : Content}

theorem Entity.WellFormed.selectable_nodup (he : e.WellFormed) :
    (e.selectable.map (·.name)).Nodup :=
  he.columns_nodup.sublist (List.filter_sublist.map _)

theorem get?_ofList_selectable {α : Type} (he : e.WellFormed) (f : Column → α) {c : Column}
    (hc : c ∈ e.selectable) :
    (Dict.ofList (e.selectable.map fun c => (c.name, f c))).get? c.name = some (f c) := by
  refine Dict.get?_ofList ?_ (List.mem_map.2 ⟨c, hc, rfl⟩)
  rw [List.map_map]
  exact he.selectable_nodup

theorem ColumnType.sqlName_mem_sources {type : ColumnType} (h : type ≠ .searchVector) :
    type.sqlName ∈ type.sources := by
  cases type <;> first
    | exact absurd rfl h
    | simp [sqlName, sources]

theorem readCell_of_fits {type : ColumnType} (ht : type ≠ .searchVector) {v : SqlValue}
    (hv : v.isNull = true ∨ v.fits type = true) :
    ResultSet.readCell type type.sqlName v = .ok v.sent.toJson := by
  unfold ResultSet.readCell
  split
  · cases v <;> simp_all [SqlValue.isNull]
    rfl
  · next hno =>
    have hsource : type.sources.contains type.sqlName = true := by
      simpa using ColumnType.sqlName_mem_sources ht
    rw [hsource, hv.resolve_left hno]
    rfl

/-- a selected row is read with the values of its columns -/
theorem readRow_project (he : e.WellFormed) (hdb : db.Conforms e) {t : Tuple}
    (ht : t ∈ db (tableOf e)) :
    ResultSet.readRow e (.ofList (e.selectable.map fun c => (c.name, c.type.sqlName)))
      (project e t) = .ok (rowOf e t) := by
  have hpresent : (e.selectable.filterMap fun c =>
      ((Dict.ofList (e.selectable.map fun c => (c.name, c.type.sqlName))).get? c.name).map
        fun source => (c, source)) = e.selectable.map fun c => (c, c.type.sqlName) := by
    rw [← congrFun (List.filterMap_eq_map (f := fun c : Column => (c, c.type.sqlName))) _]
    refine List.filterMap_congr fun c hc => ?_
    rw [get?_ofList_selectable he (fun c => c.type.sqlName) hc]
    rfl
  have hcells : ((e.selectable.map fun c => (c, c.type.sqlName)).mapM fun p => do
      return (p.1.name,
        ← ResultSet.readCell p.1.type p.2 (((project e t).get? p.1.name).getD .null)))
      = (.ok (e.selectable.map fun c => (c.name, (cell t c.name).sent.toJson)) :
        Except DatabaseError (List (String × Json))) := by
    rw [Outcome.mapM_eq_ok, List.forall₂_map_left_iff, List.forall₂_map_right_iff]
    refine List.forall₂_same.2 fun c hc => ?_
    have hvector : c.type ≠ .searchVector := by simpa using (List.mem_filter.1 hc).2
    unfold project
    rw [get?_ofList_selectable he (fun c => cell t c.name) hc, Option.getD_some,
      readCell_of_fits hvector (hdb.typed t ht c hc)]
    rfl
  unfold ResultSet.readRow
  rw [hpresent]
  exact Outcome.bind_eq_ok.2 ⟨_, hcells, rfl⟩

theorem readRows_resultOf (he : e.WellFormed) (hdb : db.Conforms e) {roots : List Tuple}
    (hroots : ∀ t ∈ roots, t ∈ db (tableOf e)) :
    (resultOf e roots).readRows e = .ok (roots.map (rowOf e)) := by
  unfold ResultSet.readRows resultOf
  rw [Outcome.mapM_eq_ok, List.forall₂_map_left_iff, List.forall₂_map_right_iff]
  exact List.forall₂_same.2 fun t ht => readRow_project he hdb (hroots t ht)

theorem recordOf_id (he : e.WellFormed) (hdb : db.Conforms e) {t : Tuple}
    (ht : t ∈ db (tableOf e)) : (recordOf e t).id = rootId t := by
  have hkey : keyColumn ∈ e.selectable := List.mem_filter.2 ⟨he.key_mem, rfl⟩
  obtain ⟨id, hid⟩ := hdb.keyed t ht
  have hget := get?_ofList_selectable he (fun c => (cell t c.name).sent.toJson) hkey
  unfold Record.id recordOf Record.ofRow rowId rowOf rootId
  rw [show primaryKey = keyColumn.name from rfl] at hid ⊢
  rw [hget, hid]
  rfl

/-- the records of a read whose answer has those roots -/
theorem fetches_of_reply {r : Repository} (he : r.entity.WellFormed) (hdb : db.Conforms r.entity)
    {σ : Type} {store : Store σ} {s : σ} {plan : SelectPlan} {roots : List Tuple}
    (hroots : ∀ t ∈ roots, t ∈ db (tableOf r.entity))
    (hreply : (store.reply (.select r.schema plan) s).1 = .ok (resultOf r.entity roots)) :
    r.Fetches store s plan ((firstOfEach rootId [] roots).map (recordOf r.entity)) := by
  have hrows := Repository.fetches_of_rows hreply (readRows_resultOf he hdb hroots)
  have hkeys : firstOfEach (fun t => (recordOf r.entity t).id) [] roots =
      firstOfEach rootId [] roots :=
    firstOfEach_congr fun t ht => recordOf_id he hdb (hroots t ht)
  rw [List.map_map, Repository.firstOfEach_map] at hrows
  rw [← hkeys]
  exact hrows

end EntityAccess
