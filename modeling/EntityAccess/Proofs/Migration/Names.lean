import EntityAccess.Proofs.Migration.Objects
import Mathlib.Data.List.Flatten
import Mathlib.Data.List.Nodup
import Mathlib.Data.List.Perm.Basic

/-!
# names of what migrations create

The names of constraints, indexes, functions and triggers are put together from names of tables,
columns and search vectors, with a separator that these may contain themselves; and a document may
give one table to several entities.  So the objects of an accepted schema can coincide, and one of
two that do is missing, since its definition finds the other there and is content with it.  What
follows says exactly when this happens.

* `append_separator_eq` : where two names with a separator can be cut;
* `stem_eq_iff` : search vectors whose objects have one name;
* `Schema.Separate` : declarations whose objects differ;
* `created_perm` : the objects of a schema, kind by kind;
* `nodup_created_iff` : they differ exactly under this condition;
* `created_distinct_iff` : so do those that a migration creates;
* `namesakes_created` : an accepted schema whose objects coincide.
-/

namespace EntityAccess

open Program (Store)

/-! ### names with separators -/

/-- a name that goes on where another one has its separator -/
theorem eq_or_middle_of_cut {t v u w : String} {cs : List Char} (hu : u.toList = t.toList ++ cs)
    (hv : '_' :: v.toList = cs ++ '_' :: w.toList) :
    (t = u ∧ v = w) ∨ ∃ middle, u = t ++ "_" ++ middle ∧ v = middle ++ "_" ++ w := by
  cases cs with
  | nil =>
    rw [List.append_nil] at hu
    exact .inl ⟨(String.toList_inj.1 hu).symm, String.toList_inj.1 (List.cons.inj hv).2⟩
  | cons c cs =>
    obtain ⟨rfl, hv⟩ := List.cons.inj hv
    refine .inr ⟨String.ofList cs, String.toList_inj.1 ?_, String.toList_inj.1 ?_⟩
    · simpa using hu
    · simpa using hv

/-- equal names around a separator are cut at the same place, or one of them contains two
separators -/
theorem append_separator_eq {t v u w : String} :
    t ++ "_" ++ v = u ++ "_" ++ w ↔ (t = u ∧ v = w) ∨
      (∃ middle, u = t ++ "_" ++ middle ∧ v = middle ++ "_" ++ w) ∨
        ∃ middle, t = u ++ "_" ++ middle ∧ w = middle ++ "_" ++ v := by
  constructor
  · intro h
    have hlist : t.toList ++ '_' :: v.toList = u.toList ++ '_' :: w.toList := by
      simpa using congrArg String.toList h
    rcases List.append_eq_append_iff.1 hlist with ⟨cs, hu, hv⟩ | ⟨cs, ht, hw⟩
    · exact (eq_or_middle_of_cut hu hv).imp_right .inl
    · rcases eq_or_middle_of_cut ht hw with ⟨rfl, rfl⟩ | hmiddle
      · exact .inl ⟨rfl, rfl⟩
      · exact .inr (.inr hmiddle)
  · rintro (⟨rfl, rfl⟩ | ⟨middle, rfl, rfl⟩ | ⟨middle, rfl, rfl⟩)
    · rfl
    · simp only [String.append_assoc]
    · simp only [String.append_assoc]

theorem concat_four (a b c d : String) : Text.concat [a, b, c, d] = a ++ b ++ c ++ d := by
  simp [String.append_assoc]

/-- what the names of the objects of a search vector have in common -/
def Entity.stem (e : Entity) (v : SearchVector) : String := e.tableName ++ "_" ++ v.name

/-- two search vectors whose objects have one name although their tables differ -/
def Entity.Overlaps (e : Entity) (v : SearchVector) (f : Entity) (w : SearchVector) : Prop :=
  ∃ middle, f.tableName = e.tableName ++ "_" ++ middle ∧ v.name = middle ++ "_" ++ w.name

section

variable {e f : Entity} {v w : SearchVector} {r q : Relationship}

theorem Entity.stem_eq_iff :
    e.stem v = f.stem w ↔
      (e.tableName = f.tableName ∧ v.name = w.name) ∨ e.Overlaps v f w ∨ f.Overlaps w e v :=
  append_separator_eq

/-- vectors that overlap belong to different tables -/
theorem Entity.Overlaps.tableName_ne (h : e.Overlaps v f w) : e.tableName ≠ f.tableName := by
  obtain ⟨middle, hf, _⟩ := h
  intro heq
  have hlength := congrArg String.length (heq.trans hf)
  rw [String.length_append, String.length_append] at hlength
  have hseparator : "_".length = 1 := rfl
  omega

theorem constraintObject_eq_iff :
    e.constraintObject r = f.constraintObject q ↔ e.schemaName = f.schemaName ∧
      e.tableName = f.tableName ∧ r.localColumn = q.localColumn := by
  unfold Entity.constraintObject Definition.constraintName
  rw [DatabaseObject.constraint.injEq, concat_four, concat_four]
  refine and_congr_right fun _ => and_congr_right fun htable => ?_
  rw [htable, String.append_right_inj]

theorem indexObject_eq_iff :
    e.indexObject v = f.indexObject w ↔ e.schemaName = f.schemaName ∧ e.stem v = f.stem w := by
  unfold Entity.indexObject Definition.indexName Entity.stem
  simp only [DatabaseObject.index.injEq, concat_four, String.append_assoc,
    String.append_right_inj]

theorem functionObject_eq_iff :
    e.functionObject v = f.functionObject w ↔
      e.schemaName = f.schemaName ∧ e.stem v = f.stem w := by
  unfold Entity.functionObject Definition.functionName Entity.stem
  rw [DatabaseObject.function.injEq, concat_four, concat_four, String.append_left_inj]

theorem triggerObject_eq_iff :
    e.triggerObject v = f.triggerObject w ↔ e.schemaName = f.schemaName ∧
      e.tableName = f.tableName ∧ v.name = w.name := by
  unfold Entity.triggerObject Definition.triggerName
  rw [DatabaseObject.trigger.injEq, concat_four, concat_four, String.append_left_inj]
  refine and_congr_right fun _ => and_congr_right fun htable => ?_
  rw [htable, String.append_right_inj]

end

/-! ### the objects of a schema -/

namespace Schema

/-- parts of all entities, each with its entity -/
def each {α : Type} (s : Schema) (parts : Entity → List α) : List (Entity × α) :=
  s.entities.flatMap fun e => (parts e).map (e, ·)

/-- the relationships that entities refer by -/
def referring (s : Schema) : List (Entity × Relationship) := s.each (·.referring)

/-- the search vectors of all entities -/
def vectors (s : Schema) : List (Entity × SearchVector) := s.each (·.searchVectors)

/-- the objects that the definitions of a schema create, in their order -/
def created (s : Schema) : List DatabaseObject := s.definitions.filterMap Definition.creates

/-- the objects of a schema by their kinds -/
def objectKinds (s : Schema) : List (List DatabaseObject) :=
  [s.namespaces.map .namespaceNamed, s.entities.map Entity.tableObject,
    s.referring.map fun p => p.1.constraintObject p.2, s.vectors.map fun p => p.1.indexObject p.2,
    s.vectors.map fun p => p.1.functionObject p.2, s.vectors.map fun p => p.1.triggerObject p.2]

/-- declarations whose objects differ: every entity has a table of its own, no two relationships
refer by one column, and no vectors overlap -/
structure Separate (s : Schema) : Prop where
  tables : ∀ e ∈ s.entities, ∀ f ∈ s.entities, e.tableName = f.tableName → e = f
  references : ∀ e r q, (e, r) ∈ s.referring → (e, q) ∈ s.referring →
    r.localColumn = q.localColumn → r = q
  vectors : ∀ e v f w, (e, v) ∈ s.vectors → (f, w) ∈ s.vectors → ¬ e.Overlaps v f w

variable {s : Schema}

theorem mem_referring {e : Entity} {r : Relationship} :
    (e, r) ∈ s.referring ↔ e ∈ s.entities ∧ r ∈ e.relationships ∧ r.kind = .manyToOne := by
  simp [referring, each, Entity.referring]

theorem mem_vectors {e : Entity} {v : SearchVector} :
    (e, v) ∈ s.vectors ↔ e ∈ s.entities ∧ v ∈ e.searchVectors := by
  simp [vectors, each]

theorem map_each {α β : Type} (parts : Entity → List α) (g : Entity → α → β) :
    (s.each parts).map (fun p => g p.1 p.2) = s.entities.flatMap fun e => (parts e).map (g e) := by
  unfold each
  rw [List.map_flatMap]
  refine List.flatMap_congr fun e _ => ?_
  rw [List.map_map]
  rfl

/-- two kinds of parts, entity by entity, or one kind after the other -/
theorem each_perm {α β γ : Type} (parts : Entity → List α) (more : Entity → List β)
    (f : Entity → α → γ) (g : Entity → β → γ) :
    (s.entities.flatMap fun e => (parts e).map (f e) ++ (more e).map (g e)).Perm
      ((s.each parts).map (fun p => f p.1 p.2) ++ (s.each more).map fun p => g p.1 p.2) := by
  rw [map_each, map_each]
  exact (List.flatMap_append_perm _ _ _).symm

theorem creates_references (hs : s.WellFormed) {e : Entity} (he : e ∈ s.entities) :
    (e.references s).filterMap Definition.creates = e.referring.map e.constraintObject := by
  unfold Entity.references
  rw [List.filterMap_filterMap, ← List.filterMap_eq_map]
  refine List.filterMap_congr fun r hr => ?_
  obtain ⟨t, _, htarget⟩ := exists_target hs he (List.mem_of_mem_filter hr)
  rw [htarget]
  rfl

/-- definitions that create one object each -/
theorem creates_map {α : Type} (l : List α) {definition : α → Definition}
    {object : α → DatabaseObject} (h : ∀ a, (definition a).creates = some (object a)) :
    (l.map definition).filterMap Definition.creates = l.map object := by
  rw [List.filterMap_map, ← List.filterMap_eq_map]
  exact List.filterMap_congr fun a _ => h a

/-- the objects of a schema are those of its kinds -/
theorem created_perm (hs : s.WellFormed) : s.created.Perm s.objectKinds.flatten := by
  have hkeys : ((s.entities.flatMap fun e => e.references s ++ e.searchIndexes).filterMap
      Definition.creates).Perm ((s.referring.map fun p => p.1.constraintObject p.2) ++
        s.vectors.map fun p => p.1.indexObject p.2) := by
    rw [List.filterMap_flatMap]
    refine .trans (.of_eq (List.flatMap_congr fun e he => ?_)) (each_perm _ _ _ _)
    rw [List.filterMap_append, creates_references hs he]
    exact congrArg _ (creates_map _ fun _ => rfl)
  have htriggers : ((s.entities.flatMap fun e => e.searchVectors.flatMap
      e.searchTrigger).filterMap Definition.creates).Perm
        ((s.vectors.map fun p => p.1.functionObject p.2) ++
          s.vectors.map fun p => p.1.triggerObject p.2) := by
    rw [List.filterMap_flatMap]
    refine .trans (.flatMap_left _ fun e _ => ?_) (each_perm _ _ _ _)
    rw [List.filterMap_flatMap, List.map_eq_flatMap (f := e.triggerObject)]
    exact (List.map_append_flatMap_perm _ _ _).symm
  unfold created objectKinds
  rw [s.definitions_eq, List.filterMap_append, List.filterMap_append, List.filterMap_append,
    creates_map _ fun _ => rfl, creates_map _ fun _ => rfl]
  simpa only [List.flatten_cons, List.flatten_nil, List.append_nil, List.append_assoc] using
    (hkeys.append htriggers).append_left
      (s.namespaces.map DatabaseObject.namespaceNamed ++ s.entities.map Entity.tableObject)

theorem disjoint_map_of_ne {α β : Type} {f : α → DatabaseObject} {g : β → DatabaseObject}
    (h : ∀ a b, f a ≠ g b) (l : List α) (l' : List β) : (l.map f).Disjoint (l'.map g) := by
  intro x hx hx'
  obtain ⟨a, _, rfl⟩ := List.mem_map.1 hx
  obtain ⟨b, _, hb⟩ := List.mem_map.1 hx'
  exact h a b hb.symm

/-- kinds have no object in common -/
theorem nodup_objectKinds :
    s.objectKinds.flatten.Nodup ↔ ∀ objects ∈ s.objectKinds, objects.Nodup := by
  rw [List.nodup_flatten]
  refine and_iff_left ?_
  unfold objectKinds
  simp only [List.pairwise_cons, List.forall_mem_cons, List.not_mem_nil, false_implies,
    implies_true, List.Pairwise.nil, and_true]
  refine ⟨⟨?_, ?_, ?_, ?_, ?_⟩, ⟨?_, ?_, ?_, ?_⟩, ⟨?_, ?_, ?_⟩, ⟨?_, ?_⟩, ?_⟩ <;>
    exact disjoint_map_of_ne (by intro _ _ h; cases h) _ _

section

variable (hs : s.WellFormed)

include hs

theorem nodup_entities : s.entities.Nodup := .of_map _ hs.names_nodup

theorem nodup_each {α : Type} {parts : Entity → List α}
    (h : ∀ e ∈ s.entities, (parts e).Nodup) : (s.each parts).Nodup := by
  refine List.nodup_flatMap.2 ⟨fun e he => (h e he).map fun a b hab => (Prod.mk.inj hab).2, ?_⟩
  refine (nodup_entities hs).imp fun hne => ?_
  rintro p he hf
  obtain ⟨r, _, rfl⟩ := List.mem_map.1 he
  obtain ⟨q, _, heq⟩ := List.mem_map.1 hf
  exact hne (Prod.mk.inj heq).1.symm

theorem nodup_referring : s.referring.Nodup :=
  nodup_each hs fun e he => (List.Nodup.of_map _ (hs.entity e he).relationships_nodup).filter _

end

section

variable {d : Document} (hd : d.resolve = .ok s)

include hd

theorem nodup_vectors : s.vectors.Nodup :=
  nodup_each (Document.wellFormed_of_resolve hd) fun _ he => .of_map _ (nodup_vectorNames hd he)

/-- all entities of a document are in one namespace -/
theorem schemaName_eq {e f : Entity} (he : e ∈ s.entities) (hf : f ∈ s.entities) :
    e.schemaName = f.schemaName := by
  obtain ⟨_, rfl⟩ := Document.resolve_eq_ok hd
  obtain ⟨declaration, _, rfl⟩ := List.mem_map.1 he
  obtain ⟨other, _, rfl⟩ := List.mem_map.1 hf
  rfl

theorem eq_of_vectorName {e : Entity} {v w : SearchVector} (he : e ∈ s.entities)
    (hv : v ∈ e.searchVectors) (hw : w ∈ e.searchVectors) (h : v.name = w.name) : v = w :=
  List.inj_on_of_nodup_map (nodup_vectorNames hd he) hv hw h

/-- tables differ -/
theorem nodup_tables : (s.entities.map Entity.tableObject).Nodup ↔
    ∀ e ∈ s.entities, ∀ f ∈ s.entities, e.tableName = f.tableName → e = f := by
  rw [List.nodup_map_iff_inj_on (nodup_entities (Document.wellFormed_of_resolve hd))]
  refine forall₂_congr fun e he => forall₂_congr fun f hf => ?_
  unfold Entity.tableObject
  rw [DatabaseObject.table.injEq, and_iff_right (schemaName_eq hd he hf)]

section

variable (htables : ∀ e ∈ s.entities, ∀ f ∈ s.entities, e.tableName = f.tableName → e = f)

include htables

/-- constraints differ if no table has two of them by one column -/
theorem nodup_constraints : (s.referring.map fun p => p.1.constraintObject p.2).Nodup ↔
    ∀ e r q, (e, r) ∈ s.referring → (e, q) ∈ s.referring → r.localColumn = q.localColumn →
      r = q := by
  rw [List.nodup_map_iff_inj_on (nodup_referring (Document.wellFormed_of_resolve hd))]
  constructor
  · intro h e r q hr hq hcolumn
    have hsame := h _ hr _ hq (constraintObject_eq_iff.2 ⟨rfl, rfl, hcolumn⟩)
    exact (Prod.mk.inj hsame).2
  · rintro h ⟨e, r⟩ hr ⟨f, q⟩ hq hsame
    obtain ⟨_, htable, hcolumn⟩ := constraintObject_eq_iff.1 hsame
    obtain rfl := htables e (mem_referring.1 hr).1 f (mem_referring.1 hq).1 htable
    rw [h e r q hr hq hcolumn]

/-- objects that are named by the stems of search vectors differ if no vectors overlap -/
theorem nodup_stems {object : Entity → SearchVector → DatabaseObject}
    (hobject : ∀ {e v f w}, object e v = object f w ↔
      e.schemaName = f.schemaName ∧ e.stem v = f.stem w) :
    (s.vectors.map fun p => object p.1 p.2).Nodup ↔
      ∀ e v f w, (e, v) ∈ s.vectors → (f, w) ∈ s.vectors → ¬ e.Overlaps v f w := by
  rw [List.nodup_map_iff_inj_on (nodup_vectors hd)]
  constructor
  · intro h e v f w hv hw hoverlap
    have hname := schemaName_eq hd (mem_vectors.1 hv).1 (mem_vectors.1 hw).1
    have hstem := Entity.stem_eq_iff.2 (.inr (.inl hoverlap))
    obtain ⟨rfl, _⟩ := Prod.mk.inj (h _ hv _ hw (hobject.2 ⟨hname, hstem⟩))
    exact hoverlap.tableName_ne rfl
  · rintro h ⟨e, v⟩ hv ⟨f, w⟩ hw hsame
    obtain ⟨he, hv'⟩ := mem_vectors.1 hv
    obtain ⟨hf, hw'⟩ := mem_vectors.1 hw
    rcases Entity.stem_eq_iff.1 (hobject.1 hsame).2 with ⟨htable, hname⟩ | hoverlap | hoverlap
    · obtain rfl := htables e he f hf htable
      rw [eq_of_vectorName hd he hv' hw' hname]
    · exact absurd hoverlap (h e v f w hv hw)
    · exact absurd hoverlap (h f w e v hw hv)

/-- triggers belong to their tables -/
theorem nodup_triggers : (s.vectors.map fun p => p.1.triggerObject p.2).Nodup := by
  rw [List.nodup_map_iff_inj_on (nodup_vectors hd)]
  rintro ⟨e, v⟩ hv ⟨f, w⟩ hw hsame
  obtain ⟨he, hv⟩ := mem_vectors.1 hv
  obtain ⟨hf, hw⟩ := mem_vectors.1 hw
  obtain ⟨_, htable, hname⟩ := triggerObject_eq_iff.1 hsame
  obtain rfl := htables e he f hf htable
  rw [eq_of_vectorName hd he hv hw hname]

end

/-- the objects of an accepted schema differ exactly if its declarations are separate -/
theorem nodup_created_iff : s.created.Nodup ↔ s.Separate := by
  have hnamespaces : (s.namespaces.map DatabaseObject.namespaceNamed).Nodup :=
    (Dict.nodup_keys _).map fun a b h => DatabaseObject.namespaceNamed.inj h
  rw [(created_perm (Document.wellFormed_of_resolve hd)).nodup_iff, nodup_objectKinds]
  unfold objectKinds
  simp only [List.forall_mem_cons, List.not_mem_nil, false_implies, implies_true, and_true,
    hnamespaces, true_and, nodup_tables hd]
  constructor
  · rintro ⟨htables, hconstraints, hindexes, _, _⟩
    exact ⟨htables, (nodup_constraints hd htables).1 hconstraints,
      (nodup_stems hd htables indexObject_eq_iff).1 hindexes⟩
  · rintro ⟨htables, hreferences, hvectors⟩
    exact ⟨htables, (nodup_constraints hd htables).2 hreferences,
      (nodup_stems hd htables indexObject_eq_iff).2 hvectors,
      (nodup_stems hd htables functionObject_eq_iff).2 hvectors, nodup_triggers hd htables⟩

end

end Schema

/-- a migration of an accepted schema creates the objects of the schema, all of them or the first
ones up to a definition that is refused; they differ exactly if every entity has a table of its own,
no two relationships of an entity refer by one column, and no search vectors overlap -/
theorem created_distinct_iff {d : Document} {s : Schema} (hd : d.resolve = .ok s) :
    (s.created.Nodup ↔ s.Separate) ∧
    ∀ (σ : Type) (store : Store σ) (start : σ), ∃ result log finish,
      s.migrate.runOn store start = (result, log, finish) ∧
      (definitionsOf log).filterMap Definition.creates <+: s.created ∧
      (result = .ok () → (definitionsOf log).filterMap Definition.creates = s.created) := by
  refine ⟨Schema.nodup_created_iff hd, fun σ store start => ?_⟩
  obtain ⟨entries, result, finish, hcourse, hgoes⟩ := takes_migrate hd σ store start
  exact ⟨result, _, finish, hcourse.runOn_eq, hgoes.definitions_prefix.filterMap _,
    fun hok => congrArg _ (hgoes.definitions_eq hok)⟩

/-- a database that accepts whatever it is asked -/
def accepting : Store Unit := ⟨fun _ s => (.ok .empty, s), fun s => ("", s)⟩

/-- the declarations of the notes are separate, and so are all objects that are created for them -/
theorem notes_created_distinct :
    notesSchema.Separate ∧ ∃ log,
      notesSchema.migrate.runOn accepting () = (.ok (), log, ()) ∧
      (definitionsOf log).filterMap Definition.creates = notesSchema.created ∧
      notesSchema.created.length = 6 ∧ notesSchema.created.Nodup := by
  obtain ⟨hdistinct, hruns⟩ := created_distinct_iff resolve_notesDocument
  have hnodup : notesSchema.created.Nodup := by decide
  obtain ⟨result, log, finish, hrun, _, hall⟩ := hruns Unit accepting ()
  have hok : result = .ok () := (congrArg Prod.fst hrun).symm
  exact ⟨hdistinct.1 hnodup, log, hok ▸ hrun, hall hok, by decide, hnodup⟩

/-! ### people and their log -/

def peopleDocument : Document where
  schemaName := "public"
  entities := [
    { name := "people", table := none, columns := [⟨"name", .text, true, false, none, false⟩],
      relationships := [], searchVectors := [⟨"log_words", ["name"], none⟩], unique := [],
      trackUpdatedAt := false, transitions := none },
    { name := "people_log", table := none,
      columns := [⟨"person_id", .text, true, false, none, false⟩,
        ⟨"entry", .text, true, false, none, false⟩],
      relationships := [⟨"author", .manyToOne, "people", some "person_id", none⟩,
        ⟨"reader", .manyToOne, "archive", some "person_id", none⟩],
      searchVectors := [⟨"words", ["entry"], none⟩], unique := [], trackUpdatedAt := false,
      transitions := none },
    { name := "archive", table := some "people",
      columns := [⟨"reason", .text, true, false, none, false⟩], relationships := [],
      searchVectors := [], unique := [], trackUpdatedAt := false, transitions := none }]

def peopleSchema : Schema :=
  ⟨peopleDocument.entities.map (EntityDeclaration.toEntity peopleDocument.schemaName)⟩

/-- two entities with one table, two constraints by one column, and two vectors that overlap: all is
accepted, and the migration succeeds -/
theorem namesakes_created :
    peopleDocument.resolve = .ok peopleSchema ∧ ∃ log,
      peopleSchema.migrate.runOn accepting () = (.ok (), log, ()) ∧
      ∃ created, (definitionsOf log).filterMap Definition.creates = created ∧
        created.count (.table "public" "people") = 2 ∧
        created.count (.constraint "public" "people_log" "fk_people_log_person_id") = 2 ∧
        created.count (.index "public" "ix_people_log_words") = 2 ∧
        created.count (.function "public" "people_log_words_refresh") = 2 :=
  ⟨by rfl, _, rfl, _, rfl, by decide, by decide, by decide, by decide⟩

end EntityAccess
