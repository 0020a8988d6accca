import EntityAccess.Proofs.Schema.Columns

/-!
# accepted schemas

What a schema has when its document has been accepted: names that are identifiers and stand for one
thing each, the primary key, and relationships that lead to entities.

* `Entity.WellFormed`, `Schema.WellFormed` : these promises;
* `Document.wellFormed_of_resolve` : every resolved document keeps them;
* `column?_of_mem`, `relationship?_of_mem`, `entity?_of_mem` : a name finds what it names.
-/

namespace EntityAccess

open Outcome

/-- the promises of one entity -/
structure Entity.WellFormed (e : Entity) : Prop where
  columns_nodup : (e.columns.map (·.name)).Nodup
  columns_identifier : ∀ c ∈ e.columns, isIdentifier c.name = true
  key_mem : keyColumn ∈ e.columns
  relationships_nodup : (e.relationships.map (·.name)).Nodup
  relationships_identifier : ∀ r ∈ e.relationships, isIdentifier r.name = true

/-- the promises of a schema -/
structure Schema.WellFormed (s : Schema) : Prop where
  names_nodup : (s.entities.map (·.name)).Nodup
  entity : ∀ e ∈ s.entities, e.WellFormed
  target : ∀ e ∈ s.entities, ∀ r ∈ e.relationships, ∃ t ∈ s.entities, t.name = r.target

/-! ### what a name finds -/

/-- names that differ find their elements -/
theorem find?_of_mem {α : Type} (name : α → String) {l : List α} (hnd : (l.map name).Nodup)
    {a : α} (ha : a ∈ l) : l.find? (name · = name a) = some a := by
  cases hf : l.find? (name · = name a) with
  | none =>
    have hno := List.find?_eq_none.1 hf a ha
    simp at hno
  | some b =>
    have hb : name b = name a := by simpa using List.find?_some hf
    rw [List.inj_on_of_nodup_map hnd (List.mem_of_find?_eq_some hf) ha hb]

namespace Entity

variable {e : Entity}

theorem column?_of_mem (h : e.WellFormed) {c : Column} (hc : c ∈ e.columns) :
    e.column? c.name = some c :=
  find?_of_mem _ h.columns_nodup hc

theorem columnType_of_mem (h : e.WellFormed) {c : Column} (hc : c ∈ e.columns) :
    e.columnType c.name = c.type := by
  unfold columnType
  rw [column?_of_mem h hc]
  rfl

theorem scalarColumn_of_mem (h : e.WellFormed) {c : Column} (hc : c ∈ e.columns)
    (ht : c.type ≠ .searchVector) : e.scalarColumn c.name = .ok c := by
  unfold scalarColumn scalarColumn?
  rw [column?_of_mem h hc]
  simp [Option.filter, ht]

theorem relationship?_of_mem (h : e.WellFormed) {r : Relationship} (hr : r ∈ e.relationships) :
    e.relationship? r.name = some r :=
  find?_of_mem _ h.relationships_nodup hr

end Entity

namespace Schema

variable {s : Schema}

theorem entity?_of_mem (h : s.WellFormed) {e : Entity} (he : e ∈ s.entities) :
    s.entity? e.name = some e :=
  find?_of_mem _ h.names_nodup he

/-- a relationship leads to the entity that its target names -/
theorem exists_target (h : s.WellFormed) {e : Entity} (he : e ∈ s.entities) {r : Relationship}
    (hr : r ∈ e.relationships) : ∃ t ∈ s.entities, s.entity? r.target = some t := by
  obtain ⟨t, ht, hname⟩ := h.target e he r hr
  exact ⟨t, ht, hname ▸ entity?_of_mem h ht⟩

end Schema

namespace Document

/-! ### entities that have been declared -/

theorem declareEntity_eq_ok {known after : EntityColumns} {e : EntityDeclaration}
    (h : declareEntity known e = .ok after) :
    known.lookup e.name = none ∧
      ∃ columns, knownColumns e = .ok columns ∧ after = (e.name, columns) :: known := by
  unfold declareEntity at h
  obtain ⟨_, _, h⟩ := bind_eq_ok.1 h
  have hrest : (do
      if (known.lookup e.name).isSome then
        throw (ConfigError.duplicate .entity e.name)
      return (e.name, ← knownColumns e) :: known) = Except.ok after := by
    cases ht : e.table with
    | none => simpa [ht] using h
    | some table =>
      rw [ht] at h
      obtain ⟨_, _, h⟩ := bind_eq_ok.1 h
      exact h
  obtain ⟨hnew, hrest⟩ := guard_eq_ok.1 hrest
  obtain ⟨columns, hcols, hafter⟩ := bind_eq_ok.1 hrest
  refine ⟨Option.not_isSome_iff_eq_none.1 hnew, columns, hcols, ?_⟩
  simpa [pure, Except.pure] using hafter.symm

/-- entities declared one after the other have names of their own and accepted columns -/
theorem declareEntities_eq_ok {l : List EntityDeclaration} {known after : EntityColumns}
    (h : l.foldlM declareEntity known = .ok after) :
    (l.map (·.name)).Nodup ∧ (∀ e ∈ l, known.lookup e.name = none) ∧
      (∀ e ∈ l, ∃ columns, knownColumns e = .ok columns ∧ after.lookup e.name = some columns) ∧
      (∀ name, name ∉ l.map (·.name) → after.lookup name = known.lookup name) := by
  induction l generalizing known with
  | nil =>
    obtain rfl : known = after := by simpa [pure, Except.pure] using h
    simp
  | cons e l ih =>
    rw [List.foldlM_cons] at h
    obtain ⟨mid, he, h⟩ := bind_eq_ok.1 h
    obtain ⟨hnew, columns, hcols, rfl⟩ := declareEntity_eq_ok he
    obtain ⟨hnd, hfresh, hall, hother⟩ := ih h
    have hmem : e.name ∉ l.map (·.name) := by
      intro hin
      obtain ⟨f, hf, hname⟩ := List.mem_map.1 hin
      have := hfresh f hf
      simp [hname] at this
    refine ⟨List.nodup_cons.2 ⟨hmem, hnd⟩, ?_, ?_, ?_⟩
    · refine List.forall_mem_cons.2 ⟨hnew, fun f hf => ?_⟩
      have hne : (f.name == e.name) = false := by
        simpa using fun heq : f.name = e.name => hmem (heq ▸ List.mem_map_of_mem hf)
      simpa [List.lookup_cons, hne] using hfresh f hf
    · refine List.forall_mem_cons.2 ⟨⟨columns, hcols, ?_⟩, hall⟩
      rw [hother e.name hmem]
      simp
    · intro name hno
      rw [List.map_cons, List.mem_cons, not_or] at hno
      rw [hother name hno.2]
      have hne : (name == e.name) = false := by simpa using hno.1
      simp [List.lookup_cons, hne]

/-! ### relationships -/

theorem checkRelationship_eq_ok {all : EntityColumns} {entity : String} {known : KnownColumns}
    {earlier : List String} {r : RelationshipDeclaration}
    (h : checkRelationship all entity known earlier r = .ok ()) :
    isIdentifier r.name = true ∧ r.name ∉ earlier ∧ (all.lookup r.target).isSome = true := by
  unfold checkRelationship at h
  obtain ⟨_, hid, h⟩ := bind_eq_ok.1 h
  obtain ⟨hnew, h⟩ := guard_eq_ok.1 h
  refine ⟨checkIdentifier_eq_ok.1 hid, fun hin => hnew (.inl hin), ?_⟩
  cases ht : all.lookup r.target with
  | some target => rfl
  | none => simp [ht, throw, throwThe, MonadExceptOf.throw] at h

theorem checkRelationships_eq_ok {all : EntityColumns} {entity : String} {known : KnownColumns}
    {l : List RelationshipDeclaration} {earlier : List String}
    (h : checkRelationships all entity known earlier l = .ok ()) :
    (l.map (·.name)).Nodup ∧
      ∀ r ∈ l, r.name ∉ earlier ∧ isIdentifier r.name = true ∧
        (all.lookup r.target).isSome = true := by
  induction l generalizing earlier with
  | nil => simp
  | cons r l ih =>
    unfold checkRelationships at h
    obtain ⟨_, hr, h⟩ := bind_eq_ok.1 h
    obtain ⟨hid, hnew, htarget⟩ := checkRelationship_eq_ok hr
    obtain ⟨hnd, hall⟩ := ih h
    refine ⟨List.nodup_cons.2 ⟨fun hin => ?_, hnd⟩,
      List.forall_mem_cons.2 ⟨⟨hnew, hid, htarget⟩, fun q hq => ?_⟩⟩
    · obtain ⟨q, hq, hname⟩ := List.mem_map.1 hin
      exact (hall q hq).1 (hname ▸ List.mem_cons_self)
    · obtain ⟨hno, hrest⟩ := hall q hq
      exact ⟨fun hin => hno (List.mem_cons_of_mem _ hin), hrest⟩

theorem checkReferences_eq_ok {all : EntityColumns} {e : EntityDeclaration}
    (h : checkReferences all e = .ok ()) :
    checkRelationships all e.name ((all.lookup e.name).getD []) [] e.relationships = .ok () ∧
      ∀ t, e.transitions = some t → ((all.lookup e.name).getD []).has t.key = true := by
  unfold checkReferences at h
  obtain ⟨_, hrel, h⟩ := bind_eq_ok.1 h
  obtain ⟨_, _, h⟩ := bind_eq_ok.1 h
  obtain ⟨_, _, h⟩ := bind_eq_ok.1 h
  refine ⟨hrel, fun t ht => ?_⟩
  rw [ht] at h
  change checkTransitions e.name _ t = .ok () at h
  unfold checkTransitions at h
  split at h
  · next hkey => exact hkey
  · simp at h

/-! ### the promises -/

theorem validate_eq_ok {d : Document} (h : d.validate = .ok ()) :
    ∃ all, d.entities.foldlM declareEntity [] = .ok all ∧
      ∀ e ∈ d.entities, checkReferences all e = .ok () := by
  unfold validate at h
  obtain ⟨_, _, h⟩ := bind_eq_ok.1 h
  obtain ⟨all, hall, h⟩ := bind_eq_ok.1 h
  exact ⟨all, hall, forM_eq_ok.1 h⟩

theorem resolve_eq_ok {d : Document} {s : Schema} (h : d.resolve = .ok s) :
    d.validate = .ok () ∧ s = ⟨d.entities.map (EntityDeclaration.toEntity d.schemaName)⟩ := by
  unfold resolve at h
  obtain ⟨_, hv, h⟩ := bind_eq_ok.1 h
  exact ⟨hv, by simpa [pure, Except.pure] using h.symm⟩

theorem toRelationship_name (r : RelationshipDeclaration) :
    r.toRelationship.name = r.name ∧ r.toRelationship.target = r.target := by
  unfold RelationshipDeclaration.toRelationship
  split <;> exact ⟨rfl, rfl⟩

/-- what a resolved document keeps -/
theorem wellFormed_of_resolve {d : Document} {s : Schema} (h : d.resolve = .ok s) :
    s.WellFormed := by
  obtain ⟨hv, rfl⟩ := resolve_eq_ok h
  obtain ⟨all, hall, hrefs⟩ := validate_eq_ok hv
  obtain ⟨hnd, _, hcols, hother⟩ := declareEntities_eq_ok hall
  have hnames : (d.entities.map (EntityDeclaration.toEntity d.schemaName)).map (·.name) =
      d.entities.map (·.name) := by
    rw [List.map_map]
    rfl
  have hrels : ∀ e : EntityDeclaration,
      (e.relationships.map RelationshipDeclaration.toRelationship).map (·.name) =
        e.relationships.map (·.name) := by
    intro e
    rw [List.map_map]
    exact List.map_congr_left fun r _ => (toRelationship_name r).1
  refine ⟨hnames ▸ hnd, ?_, ?_⟩
  · intro e' he'
    obtain ⟨e, he, rfl⟩ := List.mem_map.1 he'
    obtain ⟨known, hknown, _⟩ := hcols e he
    obtain ⟨hrnd, hrel⟩ := checkRelationships_eq_ok (checkReferences_eq_ok (hrefs e he)).1
    refine ⟨EntityDeclaration.resolvedColumns_nodup hknown,
      fun c hc => EntityDeclaration.isIdentifier_of_mem_resolvedColumns hknown hc,
      by simp [EntityDeclaration.toEntity, EntityDeclaration.resolvedColumns], ?_, ?_⟩
    · exact (hrels e).symm ▸ hrnd
    · intro r' hr'
      obtain ⟨r, hr, rfl⟩ := List.mem_map.1 hr'
      rw [(toRelationship_name r).1]
      exact (hrel r hr).2.1
  · intro e' he' r' hr'
    obtain ⟨e, he, rfl⟩ := List.mem_map.1 he'
    obtain ⟨r, hr, rfl⟩ := List.mem_map.1 hr'
    have hsome := ((checkRelationships_eq_ok (checkReferences_eq_ok (hrefs e he)).1).2 r hr).2.2
    rw [(toRelationship_name r).2]
    by_cases hin : r.target ∈ d.entities.map (·.name)
    · obtain ⟨t, ht, hname⟩ := List.mem_map.1 hin
      exact ⟨_, List.mem_map_of_mem ht, hname⟩
    · rw [hother _ hin] at hsome
      simp at hsome

end Document

/-! ### tasks and their owners -/

def tasksDeclaration : EntityDeclaration where
  name := "tasks"
  table := none
  columns := [⟨"state", .text, true, false, none, false⟩,
    ⟨"owner_id", .text, true, false, none, false⟩, ⟨"effort", .integer, true, false, none, false⟩]
  relationships := [⟨"owner", .manyToOne, "users", none, none⟩]
  searchVectors := []
  unique := []
  trackUpdatedAt := false
  transitions := some ⟨"state", Dict.ofList [("", ["open"]), ("open", ["done"])]⟩

def usersDeclaration : EntityDeclaration where
  name := "users"
  table := none
  columns := [⟨"email", .text, false, true, none, false⟩]
  relationships := [⟨"tasks", .oneToMany, "tasks", some "owner_id", none⟩]
  searchVectors := []
  unique := []
  trackUpdatedAt := false
  transitions := none

/-- a document whose two entities refer to each other -/
def tasksDocument : Document := ⟨"public", [tasksDeclaration, usersDeclaration]⟩

def tasksEntity : Entity := tasksDeclaration.toEntity "public"

def usersEntity : Entity := usersDeclaration.toEntity "public"

/-- from a task to its owner -/
def ownerOfTask : Relationship := ⟨"owner", .manyToOne, "users", "owner_id", "id", none⟩

/-- from an owner to the tasks -/
def tasksOfOwner : Relationship := ⟨"tasks", .oneToMany, "tasks", "id", "owner_id", none⟩

def tasksSchema : Schema := ⟨[tasksEntity, usersEntity]⟩

theorem resolve_tasksDocument : tasksDocument.resolve = .ok tasksSchema := by rfl

end EntityAccess
