import EntityAccess.Json.Source
import EntityAccess.Schema.Document

/-!
# reading schema documents

A document is read from JSON text in the order of the text, so the first fault met is the one
reported.  A record is an object, or the array of its fields in the order of their declaration;
a field that is repeated or missing is a fault, one that is not known is passed over, and it may be
null only where it may be missing for good.

* `readField_known` : a known field is read once.
-/

namespace EntityAccess

open Json (Source)

/-! ### records -/

namespace Json

mutual

/-- the text goes on after this source -/
def Source.isComplete : Source → Bool
  | .value _ => true
  | .unusable => true
  | .broken => false
  | .arr items => Source.areComplete items
  | .obj fields => Source.haveComplete fields

def Source.areComplete : List Source → Bool
  | [] => true
  | x :: xs => x.isComplete && Source.areComplete xs

def Source.haveComplete : List (Option String × Source) → Bool
  | [] => true
  | (_, x) :: xs => x.isComplete && Source.haveComplete xs

end

end Json

/-- a reader of one part of a document, in which at most that many containers may still be opened -/
abbrev PartReader (α : Type) := Nat → Source → Except LoadFault α

namespace PartReader

variable {α δ : Type}

def text : PartReader String
  | _, .value (.str s) => .ok s
  | _, _ => .error .unreadable

def bool : PartReader Bool
  | _, .value (.bool b) => .ok b
  | _, _ => .error .unreadable

/-- null, or what `r` reads -/
def optional (r : PartReader α) : PartReader (Option α)
  | _, .value .null => .ok none
  | room, x => (r room x).map some

def list (r : PartReader α) : PartReader (List α)
  | room + 1, .arr items => items.mapM (r room)
  | _, _ => .error .unreadable

/-- an object whose keys are data; the last of a key wins -/
def dict (r : PartReader α) : PartReader (Dict α)
  | room + 1, .obj fields => do
    let entries ← fields.mapM fun
      | (some k, x) => (r room x).map (k, ·)
      | (none, _) => .error .unreadable
    return Dict.ofList entries
  | _, _ => .error .unreadable

/-- a word, alone or as the only key of an object with the value null -/
def word (ofWord? : String → Option α) : PartReader α
  | _, .value (.str w) => (ofWord? w).elim (.error .unreadable) .ok
  | _ + 1, .obj [(some w, .value .null)] => (ofWord? w).elim (.error .unreadable) .ok
  | _, _ => .error .unreadable

/-- a field that has not been read before -/
def once (slot : Option α) (r : PartReader α) (room : Nat) (x : Source) :
    Except LoadFault (Option α) :=
  if slot.isSome then .error .unreadable else (r room x).map some

/-- a field of a record: a known one changes the draft, any other is passed over -/
def field (known : List String) (step : δ → String → Source → Except LoadFault δ) (draft : δ) :
    Option String × Source → Except LoadFault δ
  | (none, _) => .error .unreadable
  | (some k, x) =>
    if k ∈ known then step draft k x
    else if x.isComplete then .ok draft else .error .unreadable

theorem readField_known {known : List String} {k : String} (h : k ∈ known)
    (step : δ → String → Source → Except LoadFault δ) (draft : δ) (x : Source) :
    field known step draft (some k, x) = step draft k x := by
  simp [field, h]

/-- the draft of a record after all its fields -/
def record (known : List String) (step : Nat → δ → String → Source → Except LoadFault δ)
    (start : δ) : PartReader δ
  | room + 1, .obj fields => fields.foldlM (field known (step room)) start
  | room + 1, .arr items => do
    let draft ← (known.zip items).foldlM (fun d (k, x) => step room d k x) start
    if known.length < items.length then .error .unreadable else .ok draft
  | _, _ => .error .unreadable

/-- a field that may not be missing -/
def required (slot : Option α) : Except LoadFault α := slot.elim (.error .unreadable) .ok

end PartReader

open PartReader

/-! ### column defaults -/

/-- a default from a JSON value: SQL text, a literal, or an object with an expression -/
def ColumnDefault.ofJson : Json → Except DefaultFault ColumnDefault
  | .str sql => .ok (.literal sql)
  | .bool b => .ok (.literal (Json.bool b).write)
  | .int n => .ok (.literal (Json.int n).write)
  | .float x => .ok (.literal (Json.float x).write)
  | .obj fields =>
    match findEntry "expression" fields with
    | some (.str sql) => .ok (.expression sql)
    | _ => .error (.object ((fields.map (·.1)).filter (· ≠ "expression")))
  | v => .error (.value v)

def columnDefault : PartReader ColumnDefault := fun room x =>
  match x.value? room with
  | none => .error .unreadable
  | some v => (ColumnDefault.ofJson v).mapError .columnDefault

/-! ### columns -/

structure ColumnDraft where
  name : Option String
  type : Option ColumnType
  nullable : Option Bool
  unique : Option Bool
  default : Option (Option ColumnDefault)
  readOnly : Option Bool

def ColumnDraft.step (room : Nat) (d : ColumnDraft) (k : String) (x : Source) :
    Except LoadFault ColumnDraft :=
  match k with
  | "name" => do return { d with name := ← once d.name text room x }
  | "type" => do return { d with type := ← once d.type (word ColumnType.ofWord?) room x }
  | "nullable" => do return { d with nullable := ← once d.nullable bool room x }
  | "unique" => do return { d with unique := ← once d.unique bool room x }
  | "default" => do
    return { d with default := ← once d.default (optional columnDefault) room x }
  | _ => do return { d with readOnly := ← once d.readOnly bool room x }

def ColumnDeclaration.read : PartReader ColumnDeclaration := fun room x => do
  let d ← record ["name", "type", "nullable", "unique", "default", "read_only"] ColumnDraft.step
    ⟨none, none, none, none, none, none⟩ room x
  return {
    name := ← required d.name
    type := ← required d.type
    nullable := d.nullable.getD true
    unique := d.unique.getD false
    default := d.default.getD none
    readOnly := d.readOnly.getD false }

/-! ### relationships -/

structure RelationshipDraft where
  name : Option String
  kind : Option RelationKind
  target : Option String
  column : Option (Option String)
  onDelete : Option (Option String)

def RelationshipDraft.step (room : Nat) (d : RelationshipDraft) (k : String) (x : Source) :
    Except LoadFault RelationshipDraft :=
  match k with
  | "name" => do return { d with name := ← once d.name text room x }
  | "kind" => do return { d with kind := ← once d.kind (word RelationKind.ofWord?) room x }
  | "target" => do return { d with target := ← once d.target text room x }
  | "column" => do return { d with column := ← once d.column (optional text) room x }
  | _ => do return { d with onDelete := ← once d.onDelete (optional text) room x }

def RelationshipDeclaration.read : PartReader RelationshipDeclaration := fun room x => do
  let d ← record ["name", "kind", "target", "column", "on_delete"] RelationshipDraft.step
    ⟨none, none, none, none, none⟩ room x
  return {
    name := ← required d.name
    kind := ← required d.kind
    target := ← required d.target
    column := d.column.getD none
    onDelete := d.onDelete.getD none }

/-! ### search vectors -/

structure VectorDraft where
  name : Option String
  columns : Option (List String)
  config : Option (Option String)

def VectorDraft.step (room : Nat) (d : VectorDraft) (k : String) (x : Source) :
    Except LoadFault VectorDraft :=
  match k with
  | "name" => do return { d with name := ← once d.name text room x }
  | "columns" => do return { d with columns := ← once d.columns (list text) room x }
  | _ => do return { d with config := ← once d.config (optional text) room x }

def VectorDeclaration.read : PartReader VectorDeclaration := fun room x => do
  let d ← record ["name", "columns", "config"] VectorDraft.step ⟨none, none, none⟩ room x
  return {
    name := ← required d.name
    columns := ← required d.columns
    config := d.config.getD none }

/-! ### transitions -/

structure TransitionDraft where
  key : Option String
  graph : Option (Dict (List String))

def TransitionDraft.step (room : Nat) (d : TransitionDraft) (k : String) (x : Source) :
    Except LoadFault TransitionDraft :=
  match k with
  | "key" => do return { d with key := ← once d.key text room x }
  | _ => do return { d with graph := ← once d.graph (dict (list text)) room x }

def TransitionDeclaration.read : PartReader TransitionDeclaration := fun room x => do
  let d ← record ["key", "graph"] TransitionDraft.step ⟨none, none⟩ room x
  return { key := ← required d.key, graph := ← required d.graph }

/-! ### entities and documents -/

structure EntityDraft where
  name : Option String
  table : Option (Option String)
  columns : Option (List ColumnDeclaration)
  relationships : Option (List RelationshipDeclaration)
  searchVectors : Option (List VectorDeclaration)
  unique : Option (List (List String))
  trackUpdatedAt : Option Bool
  transitions : Option (Option TransitionDeclaration)

def EntityDraft.step (room : Nat) (d : EntityDraft) (k : String) (x : Source) :
    Except LoadFault EntityDraft :=
  match k with
  | "name" => do return { d with name := ← once d.name text room x }
  | "table" => do return { d with table := ← once d.table (optional text) room x }
  | "columns" => do
    return { d with columns := ← once d.columns (list ColumnDeclaration.read) room x }
  | "relationships" => do
    return { d with
      relationships := ← once d.relationships (list RelationshipDeclaration.read) room x }
  | "search_vectors" => do
    return { d with
      searchVectors := ← once d.searchVectors (list VectorDeclaration.read) room x }
  | "unique" => do return { d with unique := ← once d.unique (list (list text)) room x }
  | "track_updated_at" => do
    return { d with trackUpdatedAt := ← once d.trackUpdatedAt bool room x }
  | _ => do
    return { d with
      transitions := ← once d.transitions (optional TransitionDeclaration.read) room x }

def EntityDeclaration.read : PartReader EntityDeclaration := fun room x => do
  let d ← record ["name", "table", "columns", "relationships", "search_vectors", "unique",
      "track_updated_at", "transitions"] EntityDraft.step
    ⟨none, none, none, none, none, none, none, none⟩ room x
  return {
    name := ← required d.name
    table := d.table.getD none
    columns := ← required d.columns
    relationships := d.relationships.getD []
    searchVectors := d.searchVectors.getD []
    unique := d.unique.getD []
    trackUpdatedAt := d.trackUpdatedAt.getD true
    transitions := d.transitions.getD none }

structure DocumentDraft where
  schemaName : Option String
  entities : Option (List EntityDeclaration)

def DocumentDraft.step (room : Nat) (d : DocumentDraft) (k : String) (x : Source) :
    Except LoadFault DocumentDraft :=
  match k with
  | "schema" => do return { d with schemaName := ← once d.schemaName text room x }
  | _ => do
    return { d with entities := ← once d.entities (list EntityDeclaration.read) room x }

/-- a document without a schema name is about the schema `public` -/
def Document.ofSource : PartReader Document := fun room x => do
  let d ← record ["schema", "entities"] DocumentDraft.step ⟨none, none⟩ room x
  return { schemaName := d.schemaName.getD "public", entities := ← required d.entities }

/-- the document of a text -/
def Document.read (s : String) : Except LoadFault Document := do
  let (x, rest) := Source.read s
  let document ← Document.ofSource Json.maxDepth x
  match rest with
  | some rest => if Json.skipSpaces rest = [] then .ok document else .error .unreadable
  | none => .error .unreadable

end EntityAccess
