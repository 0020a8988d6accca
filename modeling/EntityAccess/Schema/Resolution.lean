import EntityAccess.Schema.Basic
import EntityAccess.Schema.Reader

/-!
# from documents to schemas

Resolving a document checks it and then fills in what it leaves out: the primary key in front, the
time stamps after the declared columns, the search vectors at the end, and the names that have
defaults.
-/

namespace EntityAccess

def ColumnDeclaration.toColumn (c : ColumnDeclaration) : Column :=
  ⟨c.name, c.type, c.nullable, c.unique, c.default, c.readOnly⟩

def keyColumn : Column := ⟨primaryKey, .text, false, false, none, true⟩

def createdAtColumn : Column :=
  ⟨createdAt, .dateTime, false, false, some (.expression "NOW()"), true⟩

def updatedAtColumn : Column := ⟨updatedAt, .dateTime, true, false, none, true⟩

def VectorDeclaration.toColumn (v : VectorDeclaration) : Column :=
  ⟨v.name, .searchVector, true, false, none, true⟩

/-- the text-search configuration of a vector that names none -/
def defaultSearchConfig : String := "simple"

def VectorDeclaration.toVector (v : VectorDeclaration) : SearchVector :=
  ⟨v.name, v.columns, v.config.getD defaultSearchConfig⟩

def RelationshipDeclaration.toRelationship (r : RelationshipDeclaration) : Relationship :=
  match r.kind with
  | .manyToOne =>
    ⟨r.name, r.kind, r.target, r.column.getD (Document.defaultForeignColumn r.name), primaryKey,
      r.onDelete⟩
  | .oneToMany => ⟨r.name, r.kind, r.target, primaryKey, r.column.getD "", r.onDelete⟩

namespace EntityDeclaration

def declares (e : EntityDeclaration) (name : String) : Bool := e.columns.any (·.name = name)

/-- the time stamps that an entity has and does not declare -/
def implicitStamps (e : EntityDeclaration) : List Column :=
  (if e.declares createdAt then [] else [createdAtColumn]) ++
    if e.trackUpdatedAt && !e.declares updatedAt then [updatedAtColumn] else []

def resolvedColumns (e : EntityDeclaration) : List Column :=
  keyColumn :: e.columns.map ColumnDeclaration.toColumn ++ e.implicitStamps ++
    e.searchVectors.map VectorDeclaration.toColumn

def toEntity (schemaName : String) (e : EntityDeclaration) : Entity where
  name := e.name
  schemaName := schemaName
  tableName := e.table.getD e.name
  columns := e.resolvedColumns
  relationships := e.relationships.map RelationshipDeclaration.toRelationship
  searchVectors := e.searchVectors.map VectorDeclaration.toVector
  unique := e.unique
  tracksUpdatedAt := e.trackUpdatedAt
  transitions := e.transitions.map fun t => ⟨t.key, t.graph⟩

end EntityDeclaration

namespace Document

/-- the schema of an accepted document -/
def resolve (d : Document) : Except ConfigError Schema := do
  d.validate
  return ⟨d.entities.map (EntityDeclaration.toEntity d.schemaName)⟩

end Document

/-- the schema of a text -/
def Schema.read (s : String) : Except ConfigError Schema := do
  let document ← (Document.read s).mapError .load
  document.resolve

end EntityAccess
