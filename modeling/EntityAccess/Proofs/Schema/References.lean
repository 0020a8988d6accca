import EntityAccess.Proofs.Schema.Accepted

/-!
# where the references of a schema lead

Relationships, unique groups, transition keys and search vectors name columns.  The check of a
document knows the columns of every entity, and counts both time stamps among them; an entity that
does not keep track of its updates and declares no `updated_at` has none.  A reference to that one
column may lead nowhere; every other one leads to a column.

* `Schema.Refers` : which columns a schema names;
* `exists_column_of_lookup` : what has been known is a column, or that time stamp;
* `key_of_relationship` : one end of every relationship is a primary key;
* `column_ne_relationship` : columns and relationships have different names;
* `references_resolve` : where every reference of an accepted schema leads;
* `updated_at_not_found` : an accepted schema that names a column it does not have.
-/

namespace EntityAccess

open Outcome

/-- a schema names a column of an entity -/
inductive Schema.Refers (s : Schema) : Entity → String → Prop
  | localColumn {e : Entity} {r : Relationship} (he : e ∈ s.entities) (hr : r ∈ e.relationships) :
    Refers s e r.localColumn
  | remoteColumn {e t : Entity} {r : Relationship} (he : e ∈ s.entities)
    (hr : r ∈ e.relationships) (ht : s.entity? r.target = some t) : Refers s t r.remoteColumn
  | unique {e : Entity} {group : List String} {name : String} (he : e ∈ s.entities)
    (hg : group ∈ e.unique) (hname : name ∈ group) : Refers s e name
  | transitionKey {e : Entity} {g : TransitionGraph} (he : e ∈ s.entities)
    (hg : e.transitions = some g) : Refers s e g.key
  | indexed {e : Entity} {v : SearchVector} {name : String} (he : e ∈ s.entities)
    (hv : v ∈ e.searchVectors) (hname : name ∈ v.columns) : Refers s e name

/-! ### what the checks know -/

namespace EntityDeclaration

variable {e : EntityDeclaration} {known : KnownColumns}

theorem has_primaryKey (h : Document.knownColumns e = .ok known) :
    known.has primaryKey = true := by
  obtain ⟨_, _, _, rfl⟩ := knownColumns_eq_ok h
  exact KnownColumns.has_iff.2 (by simp [KnownColumns.names])

/-- a time stamp that counts as known is a column, unless updates are not tracked -/
theorem mem_implicitStamps_of_mem {name : String} {type : ColumnType}
    (h : (name, type) ∈ e.stampEntries) :
    (∃ c ∈ e.implicitStamps, c.name = name ∧ c.type = type) ∨
      (name = updatedAt ∧ type = .dateTime ∧ e.trackUpdatedAt = false) := by
  unfold stampEntries at h
  unfold implicitStamps
  rcases List.mem_append.1 h with h | h
  · split at h
    · simp at h
    · next hno =>
      obtain ⟨rfl, rfl⟩ := Prod.mk.inj (List.mem_singleton.1 h)
      refine .inl ⟨createdAtColumn, List.mem_append_left _ ?_, rfl, rfl⟩
      simp [hno]
  · split at h
    · simp at h
    · next hno =>
      obtain ⟨rfl, rfl⟩ := Prod.mk.inj (List.mem_singleton.1 h)
      cases htrack : e.trackUpdatedAt with
      | false => exact .inr ⟨rfl, rfl, rfl⟩
      | true =>
        refine .inl ⟨updatedAtColumn, List.mem_append_right _ ?_, rfl, rfl⟩
        simp [hno]

/-- what counts as known is a column of that type, or the time stamp of updates that are not
tracked -/
theorem exists_column_of_lookup (h : Document.knownColumns e = .ok known) {name : String}
    {type : ColumnType} (hname : known.lookup name = some type) :
    (∃ c ∈ e.resolvedColumns, c.name = name ∧ c.type = type) ∨
      (name = updatedAt ∧ type = .dateTime ∧ e.trackUpdatedAt = false) := by
  obtain ⟨_, _, _, hknown⟩ := knownColumns_eq_ok h
  have hmem : (name, type) ∈ known := by
    obtain ⟨before, rest, hsplit, _⟩ := List.lookup_eq_some_iff.1 hname
    exact hsplit ▸ List.mem_append_right before List.mem_cons_self
  rw [hknown] at hmem
  unfold resolvedColumns
  simp only [List.mem_append, List.mem_cons, List.mem_reverse] at hmem ⊢
  rcases hmem with hvector | hkey | hstamp | hdeclared
  · obtain ⟨v, hv, hentry⟩ := List.mem_map.1 hvector
    obtain ⟨rfl, rfl⟩ := Prod.mk.inj hentry
    exact .inl ⟨v.toColumn, .inr (List.mem_map_of_mem hv), rfl, rfl⟩
  · obtain ⟨rfl, rfl⟩ := Prod.mk.inj hkey
    exact .inl ⟨keyColumn, .inl (.inl (.inl rfl)), rfl, rfl⟩
  · rcases mem_implicitStamps_of_mem hstamp with ⟨c, hc, hentry⟩ | huntracked
    · exact .inl ⟨c, .inl (.inr hc), hentry⟩
    · exact .inr huntracked
  · obtain ⟨c, hc, hentry⟩ := List.mem_map.1 hdeclared
    obtain ⟨rfl, rfl⟩ := Prod.mk.inj hentry
    exact .inl ⟨c.toColumn, .inl (.inl (.inr (List.mem_map_of_mem hc))), rfl, rfl⟩

end EntityDeclaration

namespace Document

theorem checkColumn_eq_ok {known : KnownColumns} {entity column : String} :
    checkColumn known entity column = .ok () ↔ known.has column = true := by
  unfold checkColumn
  split <;> simp [*]

theorem checkIndexed_eq_ok {entity vector : String} {known : KnownColumns} {column : String} :
    checkIndexed entity vector known column = .ok () ↔ known.lookup column = some .text := by
  unfold checkIndexed
  split
  · next htext => simp [htext]
  · next type hne htype => simpa [htype] using hne
  · next hnone => simp [hnone]

/-- both columns of a relationship are known, each to the entity that it is of -/
theorem checkRelationship_columns {all : EntityColumns} {entity : String} {known : KnownColumns}
    {earlier : List String} {r : RelationshipDeclaration}
    (h : checkRelationship all entity known earlier r = .ok ()) :
    ∃ target, all.lookup r.target = some target ∧
      (known.has r.toRelationship.localColumn = true ∨ r.toRelationship.localColumn = primaryKey) ∧
      (target.has r.toRelationship.remoteColumn = true ∨
        r.toRelationship.remoteColumn = primaryKey) := by
  unfold checkRelationship at h
  obtain ⟨_, _, h⟩ := bind_eq_ok.1 h
  obtain ⟨_, h⟩ := guard_eq_ok.1 h
  cases ht : all.lookup r.target with
  | none => simp [ht, throw, throwThe, MonadExceptOf.throw] at h
  | some target =>
    rw [ht] at h
    obtain ⟨column, hcolumn, h⟩ := bind_eq_ok.1 h
    refine ⟨target, rfl, ?_⟩
    obtain ⟨name, kind, _, declared, _⟩ := r
    cases kind with
    | manyToOne =>
      obtain ⟨_, hheld, _⟩ := bind_eq_ok.1 h
      have hlocal : declared.getD (defaultForeignColumn name) = column := by
        cases declared <;> exact Except.ok.inj hcolumn
      refine ⟨.inl ?_, .inr rfl⟩
      change known.has (declared.getD (defaultForeignColumn name)) = true
      rw [hlocal]
      exact checkColumn_eq_ok.1 hheld
    | oneToMany =>
      obtain ⟨_, hheld, _⟩ := bind_eq_ok.1 h
      cases declared with
      | none => simp [foreignColumn] at hcolumn
      | some c =>
        obtain rfl : c = column := Except.ok.inj hcolumn
        exact ⟨.inr rfl, .inl (checkColumn_eq_ok.1 hheld)⟩

theorem forall_checkRelationship {all : EntityColumns} {entity : String} {known : KnownColumns}
    {l : List RelationshipDeclaration} {earlier : List String}
    (h : checkRelationships all entity known earlier l = .ok ()) :
    ∀ r ∈ l, ∃ earlier, checkRelationship all entity known earlier r = .ok () := by
  induction l generalizing earlier with
  | nil => simp
  | cons r l ih =>
    unfold checkRelationships at h
    obtain ⟨_, hr, h⟩ := bind_eq_ok.1 h
    exact List.forall_mem_cons.2 ⟨⟨earlier, hr⟩, ih h⟩

/-- a relationship has a name that is not known as that of a column -/
theorem checkRelationship_new {all : EntityColumns} {entity : String} {known : KnownColumns}
    {earlier : List String} {r : RelationshipDeclaration}
    (h : checkRelationship all entity known earlier r = .ok ()) : known.has r.name ≠ true := by
  unfold checkRelationship at h
  obtain ⟨_, _, h⟩ := bind_eq_ok.1 h
  exact fun hknown => (guard_eq_ok.1 h).1 (.inr hknown)

/-- a relationship to one row ends at the primary key, and one to many rows begins there -/
theorem key_of_relationship {d : Document} {s : Schema} (h : d.resolve = .ok s) {e : Entity}
    (he : e ∈ s.entities) {rel : Relationship} (hrel : rel ∈ e.relationships) :
    match rel.kind with
    | .manyToOne => rel.remoteColumn = primaryKey
    | .oneToMany => rel.localColumn = primaryKey := by
  obtain ⟨_, rfl⟩ := resolve_eq_ok h
  obtain ⟨declaration, _, rfl⟩ := List.mem_map.1 he
  obtain ⟨⟨name, kind, target, column, onDelete⟩, _, rfl⟩ := List.mem_map.1 hrel
  cases kind <;> rfl

/-- no column of an accepted entity has the name of a relationship -/
theorem column_ne_relationship {d : Document} {s : Schema} (h : d.resolve = .ok s) {e : Entity}
    (he : e ∈ s.entities) {rel : Relationship} (hrel : rel ∈ e.relationships) {c : Column}
    (hc : c ∈ e.columns) : c.name ≠ rel.name := by
  obtain ⟨hv, rfl⟩ := resolve_eq_ok h
  obtain ⟨all, hall, hrefs⟩ := validate_eq_ok hv
  obtain ⟨declaration, hdeclared, rfl⟩ := List.mem_map.1 he
  obtain ⟨r, hr, rfl⟩ := List.mem_map.1 hrel
  obtain ⟨_, _, hcolumns, _⟩ := declareEntities_eq_ok hall
  obtain ⟨known, hknown, hlookup⟩ := hcolumns declaration hdeclared
  have hchecks := (checkReferences_eq_ok (hrefs declaration hdeclared)).1
  rw [hlookup, Option.getD_some] at hchecks
  obtain ⟨earlier, hcheck⟩ := forall_checkRelationship hchecks r hr
  intro hname
  rw [(toRelationship_name r).1] at hname
  exact checkRelationship_new hcheck
    (hname ▸ EntityDeclaration.has_of_mem_resolvedColumns hknown hc)

/-- every column that an accepted entity names on its own is known to it -/
theorem checkReferences_columns {all : EntityColumns} {e : EntityDeclaration}
    {known : KnownColumns} (hknown : all.lookup e.name = some known)
    (h : checkReferences all e = .ok ()) :
    (∀ r ∈ e.relationships, ∃ earlier, checkRelationship all e.name known earlier r = .ok ()) ∧
      (∀ v ∈ e.searchVectors, ∀ name ∈ v.columns, known.lookup name = some .text) ∧
      (∀ group ∈ e.unique, ∀ name ∈ group, known.has name = true) ∧
      ∀ t, e.transitions = some t → known.has t.key = true := by
  have htransitions := (checkReferences_eq_ok h).2
  unfold checkReferences at h
  rw [hknown, Option.getD_some] at h htransitions
  obtain ⟨_, hrel, h⟩ := bind_eq_ok.1 h
  obtain ⟨_, hvec, h⟩ := bind_eq_ok.1 h
  obtain ⟨_, huniq, _⟩ := bind_eq_ok.1 h
  refine ⟨forall_checkRelationship hrel, fun v hv => ?_, fun group hg name hname => ?_,
    htransitions⟩
  · have hcheck := forM_eq_ok.1 hvec v hv
    unfold checkVector at hcheck
    obtain ⟨_, hcheck⟩ := guard_eq_ok.1 hcheck
    obtain ⟨_, hcolumns, _⟩ := bind_eq_ok.1 hcheck
    exact fun name hname => checkIndexed_eq_ok.1 (forM_eq_ok.1 hcolumns name hname)
  · exact checkColumn_eq_ok.1 (forM_eq_ok.1 (forM_eq_ok.1 huniq group hg) name hname)

end Document

/-! ### what is known of a resolved entity -/

namespace Entity

/-- a name leads to a column of the entity, or is the time stamp of updates that are not tracked -/
def Knows (e : Entity) (name : String) : Prop :=
  (∃ c ∈ e.columns, c.name = name) ∨ (name = updatedAt ∧ e.tracksUpdatedAt = false)

/-- the columns that an entity names are among those that are known -/
structure Checked (all : Document.EntityColumns) (e : Entity) (known : KnownColumns) : Prop where
  lookup : all.lookup e.name = some known
  has_key : known.has primaryKey = true
  column : ∀ name type, known.lookup name = some type →
    (∃ c ∈ e.columns, c.name = name ∧ c.type = type) ∨
      (name = updatedAt ∧ type = .dateTime ∧ e.tracksUpdatedAt = false)
  relationship : ∀ r ∈ e.relationships, ∃ target, all.lookup r.target = some target ∧
    (known.has r.localColumn = true ∨ r.localColumn = primaryKey) ∧
      (target.has r.remoteColumn = true ∨ r.remoteColumn = primaryKey)
  unique : ∀ group ∈ e.unique, ∀ name ∈ group, known.has name = true
  transitionKey : ∀ g, e.transitions = some g → known.has g.key = true
  indexed : ∀ v ∈ e.searchVectors, ∀ name ∈ v.columns, known.lookup name = some .text

end Entity

theorem Document.checked_toEntity {all : EntityColumns} {declaration : EntityDeclaration}
    {known : KnownColumns} (hknown : knownColumns declaration = .ok known)
    (hlookup : all.lookup declaration.name = some known)
    (h : checkReferences all declaration = .ok ()) (schemaName : String) :
    (declaration.toEntity schemaName).Checked all known := by
  obtain ⟨hrelationships, hindexed, hunique, hkey⟩ := checkReferences_columns hlookup h
  refine ⟨hlookup, EntityDeclaration.has_primaryKey hknown,
    fun _ _ => EntityDeclaration.exists_column_of_lookup hknown, fun r' hr' => ?_, hunique,
    fun g hg => ?_, fun v' hv' => ?_⟩
  · obtain ⟨r, hr, rfl⟩ := List.mem_map.1 hr'
    obtain ⟨_, hcheck⟩ := hrelationships r hr
    rw [(toRelationship_name r).2]
    exact checkRelationship_columns hcheck
  · obtain ⟨t, ht, rfl⟩ := Option.map_eq_some_iff.1 hg
    exact hkey t ht
  · obtain ⟨v, hv, rfl⟩ := List.mem_map.1 hv'
    exact hindexed v hv

theorem Document.exists_checked {d : Document} {s : Schema} (h : d.resolve = .ok s) :
    ∃ all, ∀ e ∈ s.entities, ∃ known, e.Checked all known := by
  obtain ⟨hv, rfl⟩ := resolve_eq_ok h
  obtain ⟨all, hall, hrefs⟩ := validate_eq_ok hv
  obtain ⟨_, _, hcols, _⟩ := declareEntities_eq_ok hall
  refine ⟨all, fun e he => ?_⟩
  obtain ⟨declaration, hmem, rfl⟩ := List.mem_map.1 he
  obtain ⟨known, hknown, hlookup⟩ := hcols declaration hmem
  exact ⟨known, checked_toEntity hknown hlookup (hrefs declaration hmem) d.schemaName⟩

namespace Entity.Checked

variable {all : Document.EntityColumns} {e : Entity} {known : KnownColumns}

theorem knows (h : e.Checked all known) {name : String} (hname : known.has name = true) :
    e.Knows name := by
  obtain ⟨type, htype⟩ := Option.isSome_iff_exists.1 hname
  rcases h.column name type htype with ⟨c, hc, hentry, _⟩ | ⟨hstamp, _, huntracked⟩
  · exact .inl ⟨c, hc, hentry⟩
  · exact .inr ⟨hstamp, huntracked⟩

theorem knows_key (h : e.Checked all known) {name : String}
    (hname : known.has name = true ∨ name = primaryKey) : e.Knows name := by
  rcases hname with hname | rfl
  · exact h.knows hname
  · exact h.knows h.has_key

theorem indexed_text (h : e.Checked all known) {v : SearchVector} (hv : v ∈ e.searchVectors)
    {name : String} (hname : name ∈ v.columns) :
    ∃ c ∈ e.columns, c.name = name ∧ c.type = .text := by
  -- the time stamp that may be missing is no text
  rcases h.column name .text (h.indexed v hv name hname) with htext | ⟨_, htype, _⟩
  · exact htext
  · simp at htype

end Entity.Checked

/-- every column that an accepted schema names is there, or is the time stamp of an entity that
does not keep track of its updates; relationships lead to entities, and what is indexed is text -/
theorem references_resolve {d : Document} {s : Schema} (h : d.resolve = .ok s) :
    (∀ e name, s.Refers e name → e.Knows name) ∧
      (∀ e ∈ s.entities, ∀ r ∈ e.relationships, ∃ t, s.entity? r.target = some t) ∧
      ∀ e ∈ s.entities, ∀ v ∈ e.searchVectors, ∀ name ∈ v.columns,
        ∃ c ∈ e.columns, c.name = name ∧ c.type = .text := by
  obtain ⟨all, hall⟩ := Document.exists_checked h
  refine ⟨fun e name href => ?_, fun e he r hr => ?_, fun e he v hv name hname => ?_⟩
  · cases href with
    | localColumn he hr =>
      obtain ⟨known, hchecked⟩ := hall e he
      obtain ⟨_, _, hlocal, _⟩ := hchecked.relationship _ hr
      exact hchecked.knows_key hlocal
    | @remoteColumn owner _ r howner hr ht =>
      obtain ⟨_, howner⟩ := hall owner howner
      obtain ⟨target, htarget, _, hremote⟩ := howner.relationship r hr
      obtain ⟨known, hchecked⟩ := hall e (List.mem_of_find?_eq_some ht)
      have hname : e.name = r.target := by simpa using List.find?_some ht
      obtain rfl : target = known := by
        rw [← Option.some_inj, ← htarget, ← hchecked.lookup, hname]
      exact hchecked.knows_key hremote
    | unique he hg hname =>
      obtain ⟨known, hchecked⟩ := hall e he
      exact hchecked.knows (hchecked.unique _ hg name hname)
    | transitionKey he hg =>
      obtain ⟨known, hchecked⟩ := hall e he
      exact hchecked.knows (hchecked.transitionKey _ hg)
    | indexed he hv hname =>
      obtain ⟨known, hchecked⟩ := hall e he
      obtain ⟨c, hc, hentry, _⟩ := hchecked.indexed_text hv hname
      exact .inl ⟨c, hc, hentry⟩
  · have hwell := Document.wellFormed_of_resolve h
    obtain ⟨t, ht, htarget⟩ := hwell.target e he r hr
    exact ⟨t, htarget ▸ Schema.entity?_of_mem hwell ht⟩
  · obtain ⟨known, hchecked⟩ := hall e he
    exact hchecked.indexed_text hv hname

/-! ### notes that do not keep track of their updates -/

def notesDeclaration : EntityDeclaration where
  name := "notes"
  table := none
  columns := [⟨"title", .text, false, false, none, false⟩,
    ⟨"parent_id", .text, true, false, none, false⟩]
  relationships := [⟨"parent", .manyToOne, "notes", none, none⟩,
    ⟨"replies", .oneToMany, "notes", some "parent_id", none⟩]
  searchVectors := [⟨"words", ["title"], none⟩]
  unique := [["title", "updated_at"]]
  trackUpdatedAt := false
  transitions := none

def notesDocument : Document := ⟨"public", [notesDeclaration]⟩

def notesEntity : Entity := notesDeclaration.toEntity "public"

def notesSchema : Schema := ⟨[notesEntity]⟩

theorem resolve_notesDocument : notesDocument.resolve = .ok notesSchema := by rfl

/-- what the notes name is known, and their words are indexed by a text -/
theorem notes_references :
    notesDocument.resolve = .ok notesSchema ∧
      (∀ name, notesSchema.Refers notesEntity name → notesEntity.Knows name) ∧
      (∃ t, notesSchema.entity? "notes" = some t) ∧
      ∃ c ∈ notesEntity.columns, c.name = "title" ∧ c.type = .text := by
  obtain ⟨hrefers, htarget, hindexed⟩ := references_resolve resolve_notesDocument
  have hnotes : notesEntity ∈ notesSchema.entities := List.mem_singleton_self _
  exact ⟨resolve_notesDocument, hrefers notesEntity,
    htarget notesEntity hnotes ⟨"parent", .manyToOne, "notes", "parent_id", "id", none⟩
      List.mem_cons_self,
    hindexed notesEntity hnotes ⟨"words", ["title"], "simple"⟩ List.mem_cons_self "title"
      List.mem_cons_self⟩

/-- a unique group of the notes names a column that they do not have -/
theorem updated_at_not_found :
    notesDocument.resolve = .ok notesSchema ∧ notesSchema.Refers notesEntity "updated_at" ∧
      ∀ c ∈ notesEntity.columns, c.name ≠ "updated_at" := by
  have hgroup : ["title", "updated_at"] ∈ notesEntity.unique := List.mem_cons_self
  refine ⟨resolve_notesDocument, ?_, by decide⟩
  exact .unique (List.mem_singleton_self _) hgroup (by decide)

end EntityAccess
