import EntityAccess.Proofs.Repository.Related
import EntityAccess.Proofs.Schema.References
import EntityAccess.Proofs.Sql.Rows

/-!
# stored keys as values of another column

Related rows are asked for with the stored keys of records, which are cast to the type of the column
that they are compared with.  One end of a relationship is a primary key, a text; the other one can
be a column of any type.  Casts to text take everything but structured values of a json column, and
casts of texts are safe into text and json only: with any other foreign key, there are records whose
relationships cannot be loaded, and the caller is blamed for it.

* `ColumnType.CastsTo` : every value of one type is cast to the other;
* `castsTo_text_iff`, `text_castsTo_iff` : with text on one side;
* `exists_readAs` : what fits a column can be read from it;
* `Relationship.KeysCast`, `Relationship.Castable` : all keys are cast, and the types for which this
  is so;
* `keysCast_iff` : relationships of an accepted schema;
* `ends_loadOne_of_keysCast`, `error_of_keyValues` : relationships whose keys are cast, and others;
* `loaded_without_blame_iff` : the load plans that leave the caller out of it.
-/

namespace EntityAccess

open EntityAccess.Action Outcome

/-! ### casts between column types -/

namespace ColumnType

/-- every value that is read from a column of the one type is cast to the other -/
def CastsTo (own other : ColumnType) : Prop :=
  ∀ x : SqlValue, x.fits own = true → ∃ y, castFilter other x.sent.toJson = .ok y

variable {own other : ColumnType}

theorem castsTo_text_iff : own.CastsTo .text ↔ own ≠ .json := by
  constructor
  · rintro h rfl
    obtain ⟨_, hcast⟩ := h (.json (.arr [])) rfl
    cases hcast
  · intro hne x hx
    cases x with
    | null => exact ⟨_, rfl⟩
    | text s => exact ⟨_, rfl⟩
    | int n => exact ⟨_, rfl⟩
    | bool b => exact ⟨_, rfl⟩
    | date d => exact ⟨_, rfl⟩
    | dateTime t => exact ⟨_, rfl⟩
    | float x => cases x <;> exact ⟨_, rfl⟩
    | json v =>
      cases own with
      | json => exact absurd rfl hne
      | _ => cases hx

/-- a text that is not a value of any other type -/
theorem castFilter_x_error (hother : ¬ (other = .text ∨ other = .json)) :
    ∃ e, castFilter other (.str "x") = .error e := by
  cases other with
  | text => exact absurd (.inl rfl) hother
  | json => exact absurd (.inr rfl) hother
  | boolean =>
    have hword : readTruth "x" = none := by decide +kernel
    refine ⟨.badRequest (.unexpectedValue .boolean (.str "x")), ?_⟩
    show expect .boolean (.str "x") ((readTruth "x").map .bool) = _
    rw [hword]
    rfl
  | _ => exact ⟨_, rfl⟩

theorem text_castsTo_iff : CastsTo .text other ↔ other = .text ∨ other = .json := by
  constructor
  · intro h
    by_contra hother
    obtain ⟨e, herror⟩ := castFilter_x_error hother
    obtain ⟨y, hcast⟩ := h (.text "x") rfl
    cases hcast.symm.trans herror
  · rintro (rfl | rfl) x hx
    · exact castsTo_text_iff.2 (by decide) x hx
    · cases x with
      | text s => exact ⟨_, rfl⟩
      | _ => cases hx

end ColumnType

/-! ### values that can be read -/

theorem SqlValue.exists_source_of_fits {x : SqlValue} {type : ColumnType} (h : x.fits type = true) :
    x.isNull = false ∧ type ≠ .searchVector ∧ ∃ source, type.sources.contains source = true := by
  cases type <;> cases x <;> first
    | exact ⟨rfl, by decide, _, List.contains_iff_mem.2 List.mem_cons_self⟩
    | cases h

/-- a row is read if each of its cells is -/
theorem ResultSet.exists_readRow {e : Entity} {columns : Dict String} {cells : Dict SqlValue}
    (h : ∀ c ∈ e.selectable, ∀ source, columns.get? c.name = some source →
      ∃ v, readCell c.type source ((cells.get? c.name).getD .null) = .ok v) :
    ∃ values, readRow e columns cells = .ok values := by
  unfold readRow
  have hcells : ∀ p ∈ e.selectable.filterMap (fun c => (columns.get? c.name).map fun s => (c, s)),
      ∃ cell, (do return (p.1.name,
        ← readCell p.1.type p.2 ((cells.get? p.1.name).getD .null)) : Except DatabaseError _) =
          .ok cell := by
    intro p hp
    obtain ⟨c, hc, hpair⟩ := List.mem_filterMap.1 hp
    obtain ⟨source, hget, rfl⟩ := Option.map_eq_some_iff.1 hpair
    obtain ⟨v, hv⟩ := h c hc source hget
    exact ⟨(c.name, v), bind_eq_ok.2 ⟨v, hv, rfl⟩⟩
  obtain ⟨found, hfound⟩ := mapM_isOk.2 hcells
  exact ⟨Dict.ofList found, bind_eq_ok.2 ⟨found, hfound, rfl⟩⟩

theorem exists_readAs {e : Entity} (he : e.WellFormed) {c : Column} (hc : c ∈ e.columns)
    {x : SqlValue} (hx : x.fits c.type = true) :
    ∃ record : Record, record.ReadAs e ∧ record.get? c.name = some x.sent.toJson := by
  obtain ⟨hnull, htype, source, hsource⟩ := SqlValue.exists_source_of_fits hx
  let columns : Dict String := .insert .empty c.name source
  let cells : Dict SqlValue := .insert .empty c.name x
  have hcell : ResultSet.readCell c.type source ((cells.get? c.name).getD .null) =
      .ok x.sent.toJson := by
    rw [Dict.get?_insert_self, Option.getD_some]
    unfold ResultSet.readCell
    rw [hnull, hsource, hx]
    rfl
  have hrow : ∃ values, ResultSet.readRow e columns cells = .ok values := by
    refine ResultSet.exists_readRow fun c' hc' source' hget => ?_
    -- no other column is in the answer
    have hname : c'.name = c.name := by
      by_contra hne
      rw [Dict.get?_insert_ne _ _ (Ne.symm hne)] at hget
      cases hget
    obtain rfl : c' = c :=
      List.inj_on_of_nodup_map he.columns_nodup (List.mem_filter.1 hc').1 hc hname
    rw [Dict.get?_insert_self] at hget
    obtain rfl := Option.some.inj hget
    exact ⟨_, hcell⟩
  obtain ⟨values, hvalues⟩ := hrow
  obtain ⟨v, hv, hget⟩ := ResultSet.readRow_get? hvalues he hc htype (Dict.get?_insert_self _ _ _)
  obtain rfl := Except.ok.inj (hcell.symm.trans hv)
  exact ⟨.ofRow values, ⟨columns, cells, hvalues⟩, hget⟩

/-! ### the keys of relationships -/

namespace Relationship

/-- every key of a record that is read is cast to the type of the column that it is compared with -/
def KeysCast (rel : Relationship) (owner target : Entity) : Prop :=
  ∀ record : Record, record.ReadAs owner → ∀ key, record.localKey rel = some key →
    ∃ x, castFilter (target.columnType rel.remoteColumn) key = .ok x

/-- the foreign key suits a primary key, which is a text: to one row its values have texts, and to
many rows it takes texts -/
def Castable (rel : Relationship) (owner target : Entity) : Prop :=
  match rel.kind with
  | .manyToOne => owner.columnType rel.localColumn ≠ .json
  | .oneToMany => target.columnType rel.remoteColumn = .text ∨
      target.columnType rel.remoteColumn = .json

variable {rel : Relationship} {owner target : Entity}

theorem keysCast_iff_castsTo (howner : owner.WellFormed) :
    rel.KeysCast owner target ↔ ∀ c ∈ owner.columns, c.name = rel.localColumn →
      c.type.CastsTo (target.columnType rel.remoteColumn) := by
  constructor
  · intro h c hc hname x hx
    obtain ⟨record, hread, hget⟩ := exists_readAs howner hc hx
    cases hnull : x.sent.toJson.isNull with
    | true =>
      unfold castFilter
      rw [if_pos hnull]
      exact ⟨_, rfl⟩
    | false =>
      refine h record hread _ ?_
      unfold Record.localKey
      rw [← hname, hget]
      exact Option.filter_eq_some_iff.2 ⟨rfl, by rw [hnull]; rfl⟩
  · intro h record hread key hkey
    obtain ⟨hget, hnull⟩ := Option.filter_eq_some_iff.1 hkey
    obtain ⟨c, hc, hname, x, hx, rfl⟩ := hread.fits hget (by simpa using hnull)
    exact h c hc hname x hx

/-- the types for which the keys of a relationship are cast, whatever they are -/
theorem keysCast_iff {d : Document} {s : Schema} (hd : d.resolve = .ok s)
    (howner : owner ∈ s.entities) (htarget : target ∈ s.entities)
    (hrel : rel ∈ owner.relationships) :
    rel.KeysCast owner target ↔ rel.Castable owner target := by
  have hs := Document.wellFormed_of_resolve hd
  have hkey := Document.key_of_relationship hd howner hrel
  have hid : ∀ e ∈ s.entities, e.columnType primaryKey = .text := fun e he =>
    Entity.columnType_of_mem (hs.entity e he) (hs.entity e he).key_mem
  have howned := hs.entity owner howner
  rw [keysCast_iff_castsTo howned]
  unfold Castable
  cases hkind : rel.kind with
  | manyToOne =>
    rw [hkind] at hkey
    rw [hkey, hid target htarget]
    constructor
    · intro h hjson
      -- a type that is json is that of a column
      unfold Entity.columnType at hjson
      cases hc : owner.column? rel.localColumn with
      | none =>
        rw [hc] at hjson
        cases hjson
      | some c =>
        rw [hc] at hjson
        exact ColumnType.castsTo_text_iff.1 (h c (List.mem_of_find?_eq_some hc)
          (by simpa using List.find?_some hc)) hjson
    · intro h c hc hname
      rw [← hname, Entity.columnType_of_mem howned hc] at h
      exact ColumnType.castsTo_text_iff.2 h
  | oneToMany =>
    rw [hkind] at hkey
    rw [hkey]
    constructor
    · exact fun h => ColumnType.text_castsTo_iff.1 (h keyColumn howned.key_mem rfl)
    · intro h c hc hname
      have htext : c.type = .text := by
        rw [← Entity.columnType_of_mem howned hc, hname, hid owner howner]
      rw [htext]
      exact ColumnType.text_castsTo_iff.2 h

theorem KeysCast.exists_keyValues (h : rel.KeysCast owner target) {records : List Record}
    (hread : ∀ record ∈ records, record.ReadAs owner) :
    ∃ keys, keyValues rel target records = .ok keys := by
  refine mapM_isOk.2 fun key hkey => ?_
  obtain ⟨record, hrecord, hlocal⟩ :=
    List.mem_filterMap.1 ((firstOfEach_sublist _ _ _).subset hkey)
  exact h record (hread record hrecord) key hlocal

/-- the key of a single record, if it is cast -/
theorem exists_cast_of_keyValues {record : Record} {keys : List SqlValue}
    (h : keyValues rel target [record] = .ok keys) {key : Json}
    (hkey : record.localKey rel = some key) :
    ∃ x, castFilter (target.columnType rel.remoteColumn) key = .ok x := by
  refine mapM_isOk.1 ⟨keys, h⟩ key ?_
  have hkeys : keysOf rel [record] = [key] := by
    unfold keysOf
    rw [List.filterMap_cons, hkey]
    rfl
  rw [hkeys]
  exact List.mem_singleton_self key

end Relationship

namespace Repository

variable {r : Repository} {name : String} {rel : Relationship} {target : Entity}
  {records : List Record}

/-! ### loading relationships -/

/-- relationships whose keys are cast fail with the database only -/
theorem ends_loadOne_of_keysCast (hrel : r.relation name = .ok (rel, target))
    (hcast : rel.KeysCast r.entity target) (hread : ∀ record ∈ records, record.ReadAs r.entity) :
    Ends (fun e => ∃ fault, e = .database fault)
      (fun found => ∀ record ∈ found, record.ReadAs r.entity) (r.loadOne records name) := by
  obtain ⟨keys, hkeys⟩ := hcast.exists_keyValues hread
  rw [loadOne_of_keys hrel hkeys]
  exact (ends_relatedRows fun fault => ⟨fault, rfl⟩).bind fun rows _ =>
    .pure (readAs_attach hread name rel rows)

/-- related rows do not change what other relationships are loaded by -/
theorem keyValues_attach (name : String) (other : Relationship) (rows : List Row) :
    keyValues rel target (records.map (·.attach name other rows)) =
      keyValues rel target records := by
  unfold keyValues keysOf
  rw [List.filterMap_map]
  rfl

/-- a database that answers nothing has no related rows -/
theorem runOn_relatedRows_unanswered (target : Entity) (column : String) (keys : List SqlValue) :
    ∃ log, (relatedRows target column keys).runOn Partner.scripted [] = (.ok [], log, []) := by
  cases keys with
  | nil => exact ⟨[], rfl⟩
  | cons key keys => exact ⟨[.executed (.related target column (key :: keys))], rfl⟩

/-- keys that cannot be cast are an error of the caller, be it theirs or that of other keys -/
theorem error_of_keyValues {names : List String}
    (hdeclared : ∀ name ∈ names, ∃ rel target, r.relation name = .ok (rel, target))
    (hname : name ∈ names) (hrel : r.relation name = .ok (rel, target)) {e : Error}
    (hfails : keyValues rel target records = .error e) :
    ∃ e', e'.CastFault ∧
      ((names.foldlM r.loadOne records).runOn Partner.scripted []).1 = .error e' := by
  induction names generalizing records with
  | nil => cases hname
  | cons first names ih =>
    obtain ⟨rel', target', hrel'⟩ := hdeclared first List.mem_cons_self
    rw [List.foldlM_cons]
    cases hkeys : keyValues rel' target' records with
    | error e' =>
      have hload : (r.loadOne records first).runOn Partner.scripted [] = (.error e', [], []) := by
        unfold loadOne
        rw [hrel', liftM_ok_bind]
        dsimp only
        rw [hkeys, runOn_liftM_bind]
      rw [runOn_bind_error _ hload]
      exact ⟨e', keyValues_error hkeys, rfl⟩
    | ok keys =>
      obtain ⟨log, hrows⟩ := runOn_relatedRows_unanswered target' rel'.remoteColumn keys
      have hload := runOn_bind_ok (fun rows => pure (records.map (·.attach first rel' rows))) hrows
      rw [← loadOne_of_keys hrel' hkeys, runOn_pure] at hload
      rw [runOn_bind_ok _ hload]
      rcases List.mem_cons.1 hname with rfl | hname
      · -- its own keys have been cast
        obtain ⟨rfl, rfl⟩ := Prod.mk.inj (Except.ok.inj (hrel.symm.trans hrel'))
        cases hfails.symm.trans hkeys
      · refine ih (fun name hname => hdeclared name (List.mem_cons_of_mem _ hname)) hname ?_
        rw [keyValues_attach]
        exact hfails

/-- relationships are loaded without blaming the caller for what is stored, if and only if none of
them is to one row by a json column, or to many rows by a column other than of text or json -/
theorem loaded_without_blame_iff {d : Document} (hd : d.resolve = .ok r.schema)
    (he : r.entity ∈ r.schema.entities) {load : LoadPlan} (hload : load.Of r.entity) :
    (∀ name ∈ load.names, ∃ rel target, r.relation name = .ok (rel, target) ∧
      (rel.KeysCast r.entity target ↔ rel.Castable r.entity target)) ∧
    ((∀ records : List Record, (∀ record ∈ records, record.ReadAs r.entity) →
        Ends (fun e => ∃ fault, e = .database fault) (fun _ => True)
          (r.loadRelated records load)) ↔
      ∀ name ∈ load.names, ∀ rel target, r.relation name = .ok (rel, target) →
        rel.Castable r.entity target) := by
  have hdeclared : ∀ name ∈ load.names, ∃ rel target, r.relation name = .ok (rel, target) ∧
      (rel.KeysCast r.entity target ↔ rel.Castable r.entity target) := by
    intro name hname
    obtain ⟨rel, hmem, target, htarget, hrel⟩ :=
      exists_declared (Document.wellFormed_of_resolve hd) he (hload name hname)
    exact ⟨rel, target, hrel, Relationship.keysCast_iff hd he htarget hmem⟩
  have hcast : ∀ name ∈ load.names, ∀ rel target, r.relation name = .ok (rel, target) →
      (rel.KeysCast r.entity target ↔ rel.Castable r.entity target) := by
    intro name hname rel target hrel
    obtain ⟨rel', target', hrel', hiff⟩ := hdeclared name hname
    obtain ⟨rfl, rfl⟩ := Prod.mk.inj (Except.ok.inj (hrel.symm.trans hrel'))
    exact hiff
  refine ⟨hdeclared, fun h name hname rel target hrel => ?_, fun h records hread => ?_⟩
  · rw [← hcast name hname rel target hrel]
    intro record hrecord key hkey
    cases hkeys : keyValues rel target [record] with
    | ok keys => exact Relationship.exists_cast_of_keyValues hkeys hkey
    | error e =>
      obtain ⟨e', hfault, herror⟩ := error_of_keyValues
        (fun name hname => (hdeclared name hname).imp fun _ h => h.imp fun _ h => h.1)
        hname hrel hkeys
      obtain ⟨fault, rfl⟩ := (h [record] (List.forall_mem_singleton.2 hrecord) _ _ _).2 e' herror
      cases hfault
  · unfold loadRelated
    split
    · exact .pure trivial
    · have hall : Ends (fun e => ∃ fault, e = .database fault)
          (fun found => ∀ record ∈ found, record.ReadAs r.entity)
          (load.names.foldlM r.loadOne records) := by
        refine .foldlM (fun found name hfound hname => ?_) hread
        obtain ⟨rel, target, hrel, hiff⟩ := hdeclared name hname
        exact ends_loadOne_of_keysCast hrel (hiff.2 (h name hname rel target hrel)) hfound
      exact hall.mono (fun _ he => he) fun _ _ => trivial

/-! ### tasks by the texts and by the numbers of their owners -/

/-- the tasks of users are loaded for any users -/
theorem tasks_of_users_blameless :
    tasksDocument.resolve = .ok users.schema ∧ users.entity ∈ users.schema.entities ∧
    LoadPlan.Of users.entity (.ofNames ["tasks"]) ∧
    users.relation "tasks" = .ok (tasksOfOwner, tasksEntity) ∧
    tasksOfOwner.KeysCast usersEntity tasksEntity ∧
    ∀ records : List Record, (∀ record ∈ records, record.ReadAs users.entity) →
      Ends (fun e => ∃ fault, e = .database fault) (fun _ => True)
        (users.loadRelated records (.ofNames ["tasks"])) := by
  have hmem : users.entity ∈ users.schema.entities := List.mem_cons_of_mem _ List.mem_cons_self
  have hload : LoadPlan.Of users.entity (.ofNames ["tasks"]) := .singleton rfl
  have hrel : users.relation "tasks" = .ok (tasksOfOwner, tasksEntity) := rfl
  have hcastable : tasksOfOwner.Castable usersEntity tasksEntity := .inl rfl
  obtain ⟨hkeys, hblame⟩ := loaded_without_blame_iff (r := users) resolve_tasksDocument hmem hload
  obtain ⟨rel, target, h, hiff⟩ := hkeys "tasks" List.mem_cons_self
  obtain ⟨rfl, rfl⟩ := Prod.mk.inj (Except.ok.inj (hrel.symm.trans h))
  refine ⟨resolve_tasksDocument, hmem, hload, hrel, hiff.2 hcastable,
    hblame.2 fun name hname rel target h => ?_⟩
  obtain rfl : name = "tasks" := List.mem_singleton.1 hname
  obtain ⟨rfl, rfl⟩ := Prod.mk.inj (Except.ok.inj (hrel.symm.trans h))
  exact hcastable

/-- tasks that have the number of their owner, whose primary key is a text all the same -/
def numberedTasks : EntityDeclaration :=
  { tasksDeclaration with columns := [⟨"state", .text, true, false, none, false⟩,
      ⟨"owner_id", .integer, true, false, none, false⟩] }

def numberedDocument : Document := ⟨"public", [numberedTasks, usersDeclaration]⟩

/-- users of tasks with numbers -/
def numberedUsers : Repository :=
  .plain ⟨[numberedTasks.toEntity "public", usersEntity]⟩ usersEntity

/-- a user whose tasks cannot be loaded: the document is accepted, the relationship is declared and
the row is one of the table, and yet the caller is told to have asked for something else -/
theorem tasks_of_user_refused :
    numberedDocument.resolve = .ok numberedUsers.schema ∧
    numberedUsers.entity ∈ numberedUsers.schema.entities ∧
    LoadPlan.Of numberedUsers.entity (.ofNames ["tasks"]) ∧
    (user "u1").ReadAs numberedUsers.entity ∧
    (user "u1").localKey tasksOfOwner = some (.str "u1") ∧
    castFilter .integer (.str "u1") = .error (.badRequest (.unexpectedValue .integer (.str "u1"))) ∧
    (numberedUsers.loadRelated [user "u1"] (.ofNames ["tasks"])).runOn Partner.scripted [] =
      (.error (.badRequest (.unexpectedValue .integer (.str "u1"))), [], []) := by
  have hread : (user "u1").ReadAs numberedUsers.entity :=
    ⟨Dict.ofList [("id", "text")], Dict.ofList [("id", .text "u1")], rfl⟩
  exact ⟨by rfl, List.mem_cons_of_mem _ List.mem_cons_self, .singleton rfl, hread, rfl, rfl, rfl⟩

end Repository
end EntityAccess
