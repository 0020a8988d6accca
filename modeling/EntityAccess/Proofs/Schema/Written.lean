import EntityAccess.Proofs.Dict
import EntityAccess.Proofs.Json.RoundTrip
import EntityAccess.Proofs.Outcome
import EntityAccess.Schema.Printer
import EntityAccess.Schema.Reader

/-!
# documents that are written and read again

What is written of a document is read back part by part.  Only defaults are not: they are written
under the word for their kind, and no default is read from an object with such a word.

* `PartReader.ReadsBack` : what is written of a value is read as that value, or there is a fault;
* `readsBack_optional`, `readsBack_list`, `readsBack_dict`, `record_ofFields` : parts that are put
  together;
* `ColumnDefault.fault` : the fault of a default;
* `readsBack_column`, `readsBack_entity`, `readsBack_document` : the parts of a document;
* `Document.plain_toSource` : documents are written in texts, truth values and nulls;
* `Document.read_write` : the document, or the fault of its first default;
* `reread_iff` : the documents that are read back.
-/

namespace EntityAccess

open Json (Source)
open Outcome

/-! ### readers -/

namespace PartReader

variable {α : Type}

/-- what is written of a value, in at most so many containers, is read as that value unless there
is a fault in it -/
def ReadsBack (r : PartReader α) (write : α → Source) (fault? : α → Option LoadFault)
    (depth : Nat) : Prop :=
  ∀ a room, depth ≤ room → r room (write a) = (fault? a).elim (.ok a) .error

variable {r : PartReader α} {write : α → Source} {fault? : α → Option LoadFault} {depth : Nat}

theorem readsBack_text : ReadsBack text Source.ofText (fun _ => none) 0 := fun _ _ _ => rfl

theorem readsBack_bool : ReadsBack bool Source.ofBool (fun _ => none) 0 := fun _ _ _ => rfl

theorem readsBack_word {ofWord? : String → Option α} {toWord : α → String}
    (h : ∀ a, ofWord? (toWord a) = some a) :
    ReadsBack (word ofWord?) (fun a => Source.ofText (toWord a)) (fun _ => none) 0 := by
  intro a room _
  show ((ofWord? (toWord a)).elim (.error .unreadable) .ok : Except LoadFault α) = _
  rw [h]
  rfl

theorem ReadsBack.congr (h : ReadsBack r write fault? depth)
    {faults : α → Option LoadFault} (heq : ∀ a, fault? a = faults a) :
    ReadsBack r write faults depth :=
  fun a room hroom => heq a ▸ h a room hroom

/-- null is written for nothing, and for nothing else -/
theorem readsBack_optional (h : ReadsBack r write fault? depth)
    (hnull : ∀ a, write a ≠ .value .null) :
    ReadsBack (optional r) (Source.ofOption write) (·.bind fault?) depth := by
  intro o room hroom
  cases o with
  | none => rfl
  | some a =>
    have hsome : optional r room (write a) = (r room (write a)).map some := by
      unfold optional
      split
      · next heq => exact absurd heq (hnull a)
      · rfl
    show optional r room (write a) = (fault? a).elim (.ok (some a)) .error
    rw [hsome, h a room hroom]
    cases fault? a with
    | none => rfl
    | some fault => rfl

theorem mapM_elim {β : Type} {f : α → Except LoadFault β} {g : α → β}
    (h : ∀ a, f a = (fault? a).elim (.ok (g a)) .error) (xs : List α) :
    xs.mapM f = (xs.findSome? fault?).elim (.ok (xs.map g)) .error := by
  induction xs with
  | nil => rfl
  | cons x xs ih =>
    rw [List.mapM_cons, h, ih, List.findSome?_cons]
    cases fault? x with
    | some fault => rfl
    | none =>
      cases xs.findSome? fault? with
      | some fault => rfl
      | none => rfl

/-- the first fault of a list is its fault -/
theorem readsBack_list (h : ReadsBack r write fault? depth) :
    ReadsBack (list r) (fun xs => .arr (xs.map write)) (·.findSome? fault?) (depth + 1) := by
  intro xs room hroom
  obtain ⟨room, rfl⟩ := Nat.exists_eq_add_of_lt hroom
  have hitem : ∀ a, (r (depth + room) ∘ write) a = (fault? a).elim (.ok a) .error :=
    fun a => h a _ (Nat.le_add_right _ _)
  show (xs.map write).mapM (r (depth + room)) = _
  rw [List.mapM_map, mapM_elim hitem, List.map_id']

/-- the entries of a dictionary are written in its order -/
theorem readsBack_dict (h : ReadsBack r write (fun _ => none) depth) :
    ReadsBack (dict r) (fun d => .ofFields (d.entries.map fun e => (e.1, write e.2)))
      (fun _ => none) (depth + 1) := by
  intro d room hroom
  obtain ⟨room, rfl⟩ := Nat.exists_eq_add_of_lt hroom
  show ((((d.entries.map fun e => (e.1, write e.2)).map fun f => (some f.1, f.2)).mapM _ >>= fun
    entries => pure (Dict.ofList entries) : Except LoadFault (Dict α))) = .ok d
  rw [List.map_map, List.mapM_map]
  refine bind_eq_ok.2 ⟨d.entries, mapM_eq_ok.2 (List.forall₂_same.2 fun e _ => ?_), ?_⟩
  · show (r (depth + room) (write e.2)).map (e.1, ·) = .ok e
    rw [h e.2 _ (Nat.le_add_right _ _)]
    rfl
  · exact congrArg Except.ok (Dict.ext (Dict.entries_ofList d.sorted))

/-- values without faults in a list -/
theorem readsBack_all (h : ReadsBack r write (fun _ => none) depth) :
    ReadsBack (list r) (fun xs => .arr (xs.map write)) (fun _ => none) (depth + 1) :=
  (readsBack_list h).congr fun xs => by simp

theorem readsBack_texts : ReadsBack (list text) Source.ofTexts (fun _ => none) 1 :=
  readsBack_all readsBack_text

/-- a value without faults, or none -/
theorem readsBack_option (h : ReadsBack r write (fun _ => none) depth)
    (hnull : ∀ a, write a ≠ .value .null) :
    ReadsBack (optional r) (Source.ofOption write) (fun _ => none) depth :=
  (readsBack_optional h hnull).congr fun o => by cases o <;> rfl

theorem readsBack_text? : ReadsBack (optional text) (Source.ofOption Source.ofText)
    (fun _ => none) 0 :=
  readsBack_option readsBack_text fun _ heq => by cases heq

/-- a field that is met for the first time -/
theorem once_of_readsBack (h : ReadsBack r write fault? depth) (a : α) {room : Nat}
    (hroom : depth ≤ room) :
    once none r room (write a) = (fault? a).elim (.ok (some a)) .error := by
  show (r room (write a)).map some = _
  rw [h a room hroom]
  cases fault? a with
  | none => rfl
  | some fault => rfl

/-- a field of a value without faults -/
theorem ReadsBack.once (h : ReadsBack r write (fun _ => none) depth) (a : α) {room : Nat}
    (hroom : depth ≤ room) : PartReader.once none r room (write a) = .ok (some a) :=
  once_of_readsBack h a hroom

/-- a record whose fields are all known is read field by field -/
theorem record_ofFields {δ : Type} {known : List String}
    (step : Nat → δ → String → Source → Except LoadFault δ) (start : δ) (room : Nat)
    {fields : List (String × Source)} (h : ∀ f ∈ fields, f.1 ∈ known) :
    record known step start (room + 1) (.ofFields fields) =
      fields.foldlM (fun draft f => step room draft f.1 f.2) start := by
  show (fields.map fun f => (some f.1, f.2)).foldlM (field known (step room)) start = _
  rw [List.foldlM_map]
  induction fields generalizing start with
  | nil => rfl
  | cons f fields ih =>
    obtain ⟨hf, hfields⟩ := List.forall_mem_cons.1 h
    rw [List.foldlM_cons, List.foldlM_cons, readField_known hf]
    exact bind_congr fun draft => ih draft hfields

end PartReader

open PartReader

/-! ### defaults and columns -/

/-- the word under which a default is written -/
def ColumnDefault.tag : ColumnDefault → String
  | .literal _ => "Literal"
  | .expression _ => "Expression"

/-- the fault of a default that is read as it is written -/
def ColumnDefault.fault (d : ColumnDefault) : LoadFault := .columnDefault (.object [d.tag])

theorem readsBack_default :
    ReadsBack columnDefault ColumnDefault.toSource (fun d => some d.fault) 2 := by
  intro d room hroom
  obtain ⟨room, rfl⟩ := Nat.exists_eq_add_of_le' hroom
  cases d with
  | literal sql => rfl
  | expression sql => rfl

def ColumnDeclaration.fault? (c : ColumnDeclaration) : Option LoadFault :=
  c.default.bind fun d => some d.fault

theorem readsBack_column : ReadsBack ColumnDeclaration.read ColumnDeclaration.toSource
    ColumnDeclaration.fault? 3 := by
  intro c room hroom
  obtain ⟨room, rfl⟩ := Nat.exists_eq_add_of_le' hroom
  obtain ⟨name, type, nullable, unique, default, readOnly⟩ := c
  have htype := (readsBack_word ColumnType.ofWord?_word).once type (Nat.zero_le (room + 2))
  have hdefault := once_of_readsBack (readsBack_optional readsBack_default fun d heq => by
    cases d <;> cases heq) default (Nat.le_add_left 2 room)
  unfold ColumnDeclaration.read ColumnDeclaration.toSource ColumnDeclaration.fault?
  rw [record_ofFields _ _ _ (by simp)]
  simp only [List.foldlM_cons, List.foldlM_nil, ColumnDraft.step, readsBack_text.once,
    readsBack_bool.once, Nat.zero_le, htype, hdefault, bind, Except.bind, pure, Except.pure]
  cases default with
  | none => rfl
  | some d => rfl

/-! ### the other parts of an entity -/

theorem RelationKind.ofWord?_word (k : RelationKind) : ofWord? k.word = some k := by
  cases k <;> rfl

theorem readsBack_relationship : ReadsBack RelationshipDeclaration.read
    RelationshipDeclaration.toSource (fun _ => none) 1 := by
  intro r room hroom
  obtain ⟨room, rfl⟩ := Nat.exists_eq_add_of_le' hroom
  have hkind := (readsBack_word RelationKind.ofWord?_word).once r.kind (Nat.zero_le room)
  unfold RelationshipDeclaration.read RelationshipDeclaration.toSource
  rw [record_ofFields _ _ _ (by simp)]
  simp only [List.foldlM_cons, List.foldlM_nil, RelationshipDraft.step, readsBack_text.once,
    readsBack_text?.once, Nat.zero_le, hkind, bind, Except.bind, pure, Except.pure]
  rfl

theorem readsBack_vector : ReadsBack VectorDeclaration.read VectorDeclaration.toSource
    (fun _ => none) 2 := by
  intro v room hroom
  obtain ⟨room, rfl⟩ := Nat.exists_eq_add_of_le' hroom
  have hcolumns := readsBack_texts.once v.columns (Nat.le_add_left 1 room)
  unfold VectorDeclaration.read VectorDeclaration.toSource
  rw [record_ofFields _ _ _ (by simp)]
  simp only [List.foldlM_cons, List.foldlM_nil, VectorDraft.step, readsBack_text.once,
    readsBack_text?.once, Nat.zero_le, hcolumns, bind, Except.bind, pure, Except.pure]
  rfl

theorem readsBack_transition : ReadsBack TransitionDeclaration.read TransitionDeclaration.toSource
    (fun _ => none) 3 := by
  intro t room hroom
  obtain ⟨room, rfl⟩ := Nat.exists_eq_add_of_le' hroom
  have hgraph := (readsBack_dict readsBack_texts).once t.graph (Nat.le_add_left 2 room)
  unfold TransitionDeclaration.read TransitionDeclaration.toSource
  rw [record_ofFields _ _ _ (by simp)]
  simp only [List.foldlM_cons, List.foldlM_nil, TransitionDraft.step, readsBack_text.once,
    Nat.zero_le, hgraph, bind, Except.bind, pure, Except.pure]
  rfl

/-! ### entities and documents -/

/-- the fault of the first default of an entity -/
def EntityDeclaration.fault? (e : EntityDeclaration) : Option LoadFault :=
  e.columns.findSome? ColumnDeclaration.fault?

theorem readsBack_entity : ReadsBack EntityDeclaration.read EntityDeclaration.toSource
    EntityDeclaration.fault? 5 := by
  intro e room hroom
  obtain ⟨room, rfl⟩ := Nat.exists_eq_add_of_le' hroom
  obtain ⟨name, table, columns, relationships, searchVectors, unique, trackUpdatedAt,
    transitions⟩ := e
  have hdepth : ∀ {n}, n ≤ 4 → n ≤ room + 4 := fun h => Nat.le_trans h (Nat.le_add_left 4 room)
  have hcolumns := once_of_readsBack (readsBack_list readsBack_column) columns
    (hdepth (by decide))
  have hrelationships := (readsBack_all readsBack_relationship).once relationships
    (hdepth (by decide))
  have hvectors := (readsBack_all readsBack_vector).once searchVectors (hdepth (by decide))
  have hunique := (readsBack_all readsBack_texts).once unique (hdepth (by decide))
  have htransitions := (readsBack_option readsBack_transition fun _ heq => by cases heq).once
    transitions (hdepth (by decide))
  unfold EntityDeclaration.read EntityDeclaration.toSource EntityDeclaration.fault?
  rw [record_ofFields _ _ _ (by simp)]
  generalize columns.findSome? ColumnDeclaration.fault? = fault? at hcolumns ⊢
  cases fault? with
  | some fault =>
    simp only [List.foldlM_cons, EntityDraft.step, readsBack_text.once, readsBack_text?.once,
      Nat.zero_le, hcolumns, Option.elim_some, bind, Except.bind, pure, Except.pure]
  | none =>
    simp only [List.foldlM_cons, List.foldlM_nil, EntityDraft.step, readsBack_text.once,
      readsBack_text?.once, readsBack_bool.once, Nat.zero_le, hcolumns, Option.elim_none,
      hrelationships, hvectors, hunique, htransitions, bind, Except.bind, pure, Except.pure]
    rfl

/-- the fault of the first default of a document -/
def Document.fault? (d : Document) : Option LoadFault :=
  d.entities.findSome? EntityDeclaration.fault?

theorem readsBack_document : ReadsBack Document.ofSource Document.toSource Document.fault? 7 := by
  intro d room hroom
  obtain ⟨room, rfl⟩ := Nat.exists_eq_add_of_le' hroom
  obtain ⟨schemaName, entities⟩ := d
  have hentities := once_of_readsBack (readsBack_list readsBack_entity) entities
    (Nat.le_add_left 6 room)
  unfold Document.ofSource Document.toSource Document.fault?
  rw [record_ofFields _ _ _ (by simp)]
  simp only [List.foldlM_cons, List.foldlM_nil, DocumentDraft.step, readsBack_text.once,
    Nat.zero_le, hentities, bind, Except.bind, pure, Except.pure]
  cases entities.findSome? EntityDeclaration.fault? with
  | none => rfl
  | some fault => rfl

/-! ### documents as text -/

theorem plain_ofTexts (ss : List String) : (Source.ofTexts ss).Plain :=
  .arr fun _ hx => by
    obtain ⟨s, _, rfl⟩ := List.mem_map.1 hx
    exact .text s

theorem plain_ofOption {α : Type} {f : α → Source} (h : ∀ a, (f a).Plain) (o : Option α) :
    (Source.ofOption f o).Plain := by
  cases o with
  | none => exact .null
  | some a => exact h a

theorem plain_map {α : Type} {f : α → Source} (h : ∀ a, (f a).Plain) (xs : List α) :
    (Source.arr (xs.map f)).Plain :=
  .arr fun _ hx => by
    obtain ⟨a, _, rfl⟩ := List.mem_map.1 hx
    exact h a

theorem ColumnDefault.plain_toSource (d : ColumnDefault) : d.toSource.Plain := by
  cases d with
  | literal sql => exact .obj (List.forall_mem_singleton.2 (.text sql))
  | expression sql =>
    have hobject : (Source.ofFields [("expression", .ofText sql)]).Plain :=
      .obj (List.forall_mem_singleton.2 (.text sql))
    exact .obj (List.forall_mem_singleton.2 hobject)

theorem ColumnDeclaration.plain_toSource (c : ColumnDeclaration) : c.toSource.Plain := by
  refine .obj ?_
  simp only [List.forall_mem_cons]
  exact ⟨.text _, .text _, .bool _, .bool _, plain_ofOption ColumnDefault.plain_toSource _,
    .bool _, List.forall_mem_nil _⟩

theorem RelationshipDeclaration.plain_toSource (r : RelationshipDeclaration) :
    r.toSource.Plain := by
  refine .obj ?_
  simp only [List.forall_mem_cons]
  exact ⟨.text _, .text _, .text _, plain_ofOption .text _, plain_ofOption .text _,
    List.forall_mem_nil _⟩

theorem VectorDeclaration.plain_toSource (v : VectorDeclaration) : v.toSource.Plain := by
  refine .obj ?_
  simp only [List.forall_mem_cons]
  exact ⟨.text _, plain_ofTexts _, plain_ofOption .text _, List.forall_mem_nil _⟩

theorem TransitionDeclaration.plain_toSource (t : TransitionDeclaration) : t.toSource.Plain := by
  have hgraph : (Source.ofFields (t.graph.entries.map fun e => (e.1, .ofTexts e.2))).Plain := by
    refine .obj fun f hf => ?_
    obtain ⟨e, _, rfl⟩ := List.mem_map.1 hf
    exact plain_ofTexts e.2
  refine .obj ?_
  simp only [List.forall_mem_cons]
  exact ⟨.text _, hgraph, List.forall_mem_nil _⟩

theorem EntityDeclaration.plain_toSource (e : EntityDeclaration) : e.toSource.Plain := by
  refine .obj ?_
  simp only [List.forall_mem_cons]
  exact ⟨.text _, plain_ofOption .text _, plain_map ColumnDeclaration.plain_toSource _,
    plain_map RelationshipDeclaration.plain_toSource _,
    plain_map VectorDeclaration.plain_toSource _, plain_map plain_ofTexts _, .bool _,
    plain_ofOption TransitionDeclaration.plain_toSource _, List.forall_mem_nil _⟩

namespace Document

theorem plain_toSource (d : Document) : d.toSource.Plain := by
  refine .obj ?_
  simp only [List.forall_mem_cons]
  exact ⟨.text _, plain_map EntityDeclaration.plain_toSource _, List.forall_mem_nil _⟩

/-- a document is read back from its text, or there is the fault of its first default -/
theorem read_write (d : Document) : Document.read d.write = d.fault?.elim (.ok d) .error := by
  have hread := readsBack_document d Json.maxDepth (by decide)
  unfold Document.read write
  rw [Json.read_write d.plain_toSource]
  dsimp only
  rw [hread]
  cases d.fault? with
  | none => rfl
  | some fault => rfl

/-- the defaults of a document, in its order -/
def defaults (d : Document) : List ColumnDefault :=
  d.entities.flatMap fun e => e.columns.filterMap (·.default)

theorem fault?_eq (d : Document) : d.fault? = d.defaults.head?.map ColumnDefault.fault := by
  have hcolumn : ∀ c : ColumnDeclaration, c.fault? = c.default.map ColumnDefault.fault :=
    fun _ => Option.map_eq_bind.symm
  have hentity : ∀ e : EntityDeclaration, e.fault? =
      (e.columns.filterMap (·.default)).head?.map ColumnDefault.fault := by
    intro e
    rw [List.head?_filterMap, List.map_findSome?]
    exact congrArg (List.findSome? · e.columns) (funext hcolumn)
  unfold fault? defaults
  rw [List.head?_flatMap, List.map_findSome?]
  exact congrArg (List.findSome? · d.entities) (funext hentity)

end Document

/-- a document is read back from its text exactly if no column of it has a default; else the fault
is that of its first default, which is read as an object with the word for its kind -/
theorem reread_iff (d : Document) :
    (Document.read d.write = .ok d ↔ ∀ e ∈ d.entities, ∀ c ∈ e.columns, c.default = none) ∧
      ∀ default more, d.defaults = default :: more →
        Document.read d.write = .error (.columnDefault (.object [default.tag])) := by
  have hdefaults : d.defaults = [] ↔ ∀ e ∈ d.entities, ∀ c ∈ e.columns, c.default = none := by
    simp only [Document.defaults, List.flatMap_eq_nil_iff, List.filterMap_eq_nil_iff]
  rw [← hdefaults, d.read_write, d.fault?_eq]
  cases d.defaults with
  | nil => simp
  | cons default more => simp [ColumnDefault.fault]

/-! ### a document of notes -/

/-- a document with one column, which has a default -/
def stampedDocument (default : ColumnDefault) : Document where
  schemaName := "public"
  entities := [{
    name := "notes"
    table := none
    columns := [⟨"noted_at", .dateTime, true, false, some default, false⟩]
    relationships := []
    searchVectors := []
    unique := []
    trackUpdatedAt := true
    transitions := none }]

/-- neither kind of default is read as it is written -/
theorem stamped_not_reread :
    Document.read (stampedDocument (.literal "now()")).write =
        .error (.columnDefault (.object ["Literal"])) ∧
      Document.read (stampedDocument (.expression "now()")).write =
        .error (.columnDefault (.object ["Expression"])) ∧
      Document.read (stampedDocument (.literal "now()")).write ≠
        .ok (stampedDocument (.literal "now()")) := by
  have hliteral := (stampedDocument (.literal "now()")).read_write
  refine ⟨hliteral, (stampedDocument (.expression "now()")).read_write, fun heq => ?_⟩
  cases hliteral.symm.trans heq

end EntityAccess
