import EntityAccess.Proofs.Partner.Rules
import EntityAccess.Proofs.Repository.Faults
import EntityAccess.Proofs.Schema.References

/-!
# records as objects

The names of an accepted schema stand for one thing each: entities among themselves, and in an
entity its columns, search vectors among them, and its relationships.  So the object of a record has
a field for each value that has been read and one for each relationship that has been loaded, and
none of them stands in the place of another.

* `Entity.NamesApart` : the names of an entity;
* `Record.Of` : records as they are read and loaded;
* `Record.Whole` : what the object of a record has;
* `ends_fetch_record` : all records of a read are such;
* `names_never_clash` : the names of an accepted schema, and what they make of its records.
-/

namespace EntityAccess

open EntityAccess.Action Outcome
open Program (Store)

/-! ### names -/

/-- the names of an entity, the primary key first -/
structure Entity.NamesApart (s : Schema) (e : Entity) : Prop where
  columns_nodup : (e.columns.map (·.name)).Nodup
  key_first : e.columns.head? = some keyColumn
  relationships_nodup : (e.relationships.map (·.name)).Nodup
  column_ne : ∀ rel ∈ e.relationships, ∀ c ∈ e.columns, c.name ≠ rel.name
  vector_ne : ∀ rel ∈ e.relationships, ∀ v ∈ e.searchVectors, v.name ≠ rel.name
  target : ∀ rel ∈ e.relationships, ∃ t ∈ s.entities, s.entity? rel.target = some t

theorem Document.head?_columns {d : Document} {s : Schema} (h : d.resolve = .ok s) {e : Entity}
    (he : e ∈ s.entities) : e.columns.head? = some keyColumn := by
  obtain ⟨_, rfl⟩ := resolve_eq_ok h
  obtain ⟨declaration, _, rfl⟩ := List.mem_map.1 he
  rfl

theorem Document.namesApart {d : Document} {s : Schema} (h : d.resolve = .ok s) {e : Entity}
    (he : e ∈ s.entities) : e.NamesApart s := by
  have hs := wellFormed_of_resolve h
  have hwf := hs.entity e he
  have hcolumn : ∀ rel ∈ e.relationships, ∀ c ∈ e.columns, c.name ≠ rel.name :=
    fun _ hrel _ hc => column_ne_relationship h he hrel hc
  refine ⟨hwf.columns_nodup, head?_columns h he, hwf.relationships_nodup, hcolumn,
    fun rel hrel v hv => ?_, fun rel hrel => Schema.exists_target hs he hrel⟩
  obtain ⟨c, hc, hname, _⟩ := column_of_vector h he hv
  exact hname ▸ hcolumn rel hrel c hc

/-! ### records -/

/-- a record with the values of a row, and relationships of its entity -/
structure Record.Of (e : Entity) (record : Record) : Prop where
  read : record.ReadAs e
  loaded : ∀ name, record.isLoaded name = true → e.isRelationship name = true

/-- the object of a record: the values of its row and its relationships as fields, and nothing
else; a column of the answer is shown with what has been decoded there -/
structure Record.Whole (e : Entity) (record : Record) : Prop where
  fields : ∃ fields, record.toJson = .obj fields ∧ (fields.map (·.1)).Nodup ∧
    fields.Perm (record.values.entries ++
      record.loaded.entries.map fun entry => (entry.1, entry.2.toJson))
  decoded : ∃ header cells, ResultSet.readRow e header cells = .ok record.values ∧
    ∀ c ∈ e.selectable, ∀ source, header.get? c.name = some source →
      ∃ v, ResultSet.readCell c.type source ((cells.get? c.name).getD .null) = .ok v ∧
        record.toJson.field? c.name = some v
  related : ∀ name rows, record.related name = .ok rows →
    record.toJson.field? name = some rows.toJson

/-- no value of a row has the name of a relationship -/
theorem Record.ReadAs.relationship_not_mem {d : Document} {s : Schema} (hd : d.resolve = .ok s)
    {e : Entity} (he : e ∈ s.entities) {record : Record} (h : record.ReadAs e)
    {rel : Relationship} (hrel : rel ∈ e.relationships) : rel.name ∉ record.values.keys := by
  intro hmem
  obtain ⟨v, hv⟩ := Option.isSome_iff_exists.1 (Dict.contains_iff.2 hmem)
  obtain ⟨columns, cells, hrow⟩ := h
  obtain ⟨c, hc, hname, _⟩ := of_readRow_get? hrow hv
  exact Document.column_ne_relationship hd he hrel hc hname

/-- nothing is in the place of anything else in the object of a record -/
theorem Record.Of.whole {d : Document} {s : Schema} (hd : d.resolve = .ok s) {e : Entity}
    (he : e ∈ s.entities) {record : Record} (h : record.Of e) : record.Whole e := by
  have hnew : ∀ name ∈ record.loaded.entries.map (·.1), name ∉ record.values.keys := by
    intro name hname
    obtain ⟨rel, hrel⟩ := Option.isSome_iff_exists.1 (h.loaded name (Dict.contains_iff.2 hname))
    obtain rfl : rel.name = name := by simpa using List.find?_some hrel
    exact h.read.relationship_not_mem hd he (List.mem_of_find?_eq_some hrel)
  let object := record.loaded.entries.foldl (fun d e => d.insert e.1 e.2.toJson) record.values
  have hperm : object.entries.Perm (record.values.entries ++
      record.loaded.entries.map fun entry => (entry.1, entry.2.toJson)) :=
    Dict.perm_foldl_insert record.loaded.nodup_keys hnew
  have hfield : ∀ entry, entry ∈ record.values.entries ++
      record.loaded.entries.map (fun entry => (entry.1, entry.2.toJson)) →
        record.toJson.field? entry.1 = some entry.2 := fun entry hentry =>
    Dict.get?_eq_some_iff.2 (hperm.mem_iff.2 hentry)
  refine ⟨⟨object.entries, rfl, object.nodup_keys, hperm⟩, ?_, fun name rows hrows => ?_⟩
  · obtain ⟨header, cells, hrow⟩ := h.read
    refine ⟨header, cells, hrow, fun c hc source hsource => ?_⟩
    obtain ⟨hmem, htype⟩ := List.mem_filter.1 hc
    obtain ⟨v, hv, hget⟩ := ResultSet.readRow_get? hrow
      ((Document.wellFormed_of_resolve hd).entity e he) hmem (by simpa using htype) hsource
    exact ⟨v, hv, hfield (c.name, v) (List.mem_append_left _ (Dict.get?_eq_some_iff.1 hget))⟩
  · unfold Record.related at hrows
    split at hrows
    · next found hfound =>
      obtain rfl := Except.ok.inj hrows
      refine hfield (name, found.toJson) (List.mem_append_right _ ?_)
      exact List.mem_map.2 ⟨(name, found), Dict.get?_eq_some_iff.1 hfound, rfl⟩
    · cases hrows

namespace Repository

variable {r : Repository}

/-- a relationship that has been loaded is one of the entity -/
theorem ends_loadOne_record {records : List Record} (h : ∀ record ∈ records, record.Of r.entity)
    (name : String) :
    Ends (fun _ => True) (fun found => ∀ record ∈ found, record.Of r.entity)
      (r.loadOne records name) := by
  unfold loadOne
  refine .liftM_bind (fun _ _ => trivial) fun (rel, target) hrel => ?_
  refine .liftM_bind (fun _ _ => trivial) fun keys _ => ?_
  have hname : r.entity.isRelationship name = true := by
    unfold relation at hrel
    unfold Entity.isRelationship
    split at hrel
    · cases hrel
    · next hfound => rw [hfound, Option.isSome_some]
  refine (ends_relatedRows fun _ => trivial).bind fun rows _ => .pure fun record hrecord => ?_
  obtain ⟨old, hold, rfl⟩ := List.mem_map.1 hrecord
  refine ⟨(h old hold).read, fun other hother => ?_⟩
  rcases Dict.contains_insert.1 hother with rfl | hother
  · exact hname
  · exact (h old hold).loaded other hother

/-- all records of a read, whatever it is to load -/
theorem ends_fetch_record (r : Repository) (plan : SelectPlan) (load : LoadPlan) :
    Ends (fun _ => True) (fun found => ∀ record ∈ found, record.Of r.entity)
      (r.fetch plan load) :=
  ends_fetch_of (fun _ => trivial) (fun _ hread => ⟨hread, fun _ hloaded => nomatch hloaded⟩)
    fun _ name hrecords _ => ends_loadOne_record hrecords name

end Repository

/-- the names of an accepted schema are apart, so that the object of every record that is read of it
has all values and relationships of the record -/
theorem names_never_clash {d : Document} {s : Schema} (h : d.resolve = .ok s) :
    (s.entities.map (·.name)).Nodup ∧ (∀ e ∈ s.entities, s.entity? e.name = some e) ∧
      ∀ e ∈ s.entities, e.NamesApart s ∧ (∀ record : Record, record.Of e → record.Whole e) ∧
        ∀ r : Repository, r.entity = e → ∀ (plan : SelectPlan) (load : LoadPlan) (σ : Type)
          (store : Store σ) (state state' : σ) (log : List Event) (records : List Record),
          (r.fetch plan load).runOn store state = (.ok records, log, state') →
            ∀ record ∈ records, record.Whole e := by
  have hs := Document.wellFormed_of_resolve h
  refine ⟨hs.names_nodup, fun e he => Schema.entity?_of_mem hs he, fun e he =>
    ⟨Document.namesApart h he, fun record => Record.Of.whole h he, ?_⟩⟩
  rintro r rfl plan load σ store state state' log records hrun record hrecord
  have hof := (r.ends_fetch_record plan load σ store state).1 records
  rw [hrun] at hof
  exact (hof rfl record hrecord).whole h he

/-! ### a partner and its owner -/

/-- a partner, and the user that it refers to -/
def ownedPartner : List Reply :=
  [Partner.oneRow Partner.partnersEntity
      [("id", .text "p1"), ("name", .text "Bolt"), ("owner_id", .text "u1")],
    Partner.oneRow Partner.usersEntity [("id", .text "u1"), ("name", .text "Ann")]]

/-- the object of a partner has the key of its owner, and the owner -/
theorem partner_with_owner :
    ∃ (record : Record) (owner : Json) (log : List Event),
      ((Repository.plain Partner.partnersSchema Partner.partnersEntity).fetch
          (.ofEntity Partner.partnersEntity) (.ofNames ["owner"])).runOn Partner.scripted
        ownedPartner = (.ok [record], log, []) ∧
      record.Whole Partner.partnersEntity ∧
      record.toJson.field? "owner_id" = some (.str "u1") ∧
      record.toJson.field? "owner" = some owner ∧ owner.field? "name" = some (.str "Ann") := by
  have hpartners : Partner.partnersEntity ∈ Partner.partnersSchema.entities :=
    List.mem_cons_of_mem _ List.mem_cons_self
  have hrun : ∃ (record : Record) (owner : Json) (log : List Event),
      ((Repository.plain Partner.partnersSchema Partner.partnersEntity).fetch
          (.ofEntity Partner.partnersEntity) (.ofNames ["owner"])).runOn Partner.scripted
        ownedPartner = (.ok [record], log, []) ∧
      record.toJson.field? "owner_id" = some (.str "u1") ∧
      record.toJson.field? "owner" = some owner ∧ owner.field? "name" = some (.str "Ann") :=
    ⟨_, _, _, rfl, rfl, rfl, rfl⟩
  obtain ⟨record, owner, log, hrun, hkey, howner, hname⟩ := hrun
  obtain ⟨_, _, hentities⟩ := names_never_clash Partner.resolve_partnersDocument
  have hwhole := (hentities _ hpartners).2.2 _ rfl _ _ _ _ _ _ _ _ hrun record
    (List.mem_singleton_self _)
  exact ⟨record, owner, log, hrun, hwhole, hkey, howner, hname⟩

end EntityAccess
