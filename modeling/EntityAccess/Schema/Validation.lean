import EntityAccess.Schema.Document
import EntityAccess.Schema.Identifier

/-!
# which documents are accepted

Names are identifiers and are declared once; references lead to declared entities and columns;
search vectors index text.  The columns are looked at first, for all entities, then everything that
refers to them.  Implicit columns count as declared: the key, and both time stamps.
-/

namespace EntityAccess

/-- the implicit primary key -/
def primaryKey : String := "id"

def createdAt : String := "created_at"
def updatedAt : String := "updated_at"

/-- the columns that references may name, with their types -/
abbrev KnownColumns := List (String × ColumnType)

namespace KnownColumns

def declare (known : KnownColumns) (name : String) (type : ColumnType) : KnownColumns :=
  (name, type) :: known

def has (known : KnownColumns) (name : String) : Bool := (known.lookup name).isSome

/-- a column that may be declared anyway -/
def declareImplicit (known : KnownColumns) (name : String) (type : ColumnType) : KnownColumns :=
  if known.has name then known else known.declare name type

end KnownColumns

namespace Document

def checkIdentifier (kind : IdentifierKind) (name : String) : Except ConfigError Unit :=
  if isIdentifier name then .ok () else .error (.invalidIdentifier (.named kind name))

/-- `entity.name` -/
def qualified (entity name : String) : String := Text.concat [entity, ".", name]

/-! ### columns -/

def declareColumn (entity : String) (known : KnownColumns) (c : ColumnDeclaration) :
    Except ConfigError KnownColumns := do
  checkIdentifier .column c.name
  if c.type = .searchVector then throw (.validation (.declaredVector entity c.name))
  if known.has c.name then throw (.duplicate .column (qualified entity c.name))
  return known.declare c.name c.type

def declareVector (entity : String) (known : KnownColumns) (v : VectorDeclaration) :
    Except ConfigError KnownColumns := do
  checkIdentifier .searchVector v.name
  if known.has v.name then throw (.duplicate .column (qualified entity v.name))
  return known.declare v.name .searchVector

/-- the columns of one entity: declared, implicit and search vectors -/
def knownColumns (e : EntityDeclaration) : Except ConfigError KnownColumns := do
  let declared ← e.columns.foldlM (declareColumn e.name) []
  if declared.has primaryKey then throw (.validation (.declaredKey e.name))
  let implicit := (declared.declareImplicit createdAt .dateTime).declareImplicit updatedAt .dateTime
  e.searchVectors.foldlM (declareVector e.name) (implicit.declare primaryKey .text)

/-- the columns of every entity, by its name -/
abbrev EntityColumns := List (String × KnownColumns)

def declareEntity (known : EntityColumns) (e : EntityDeclaration) :
    Except ConfigError EntityColumns := do
  checkIdentifier .entity e.name
  if let some table := e.table then checkIdentifier .table table
  if (known.lookup e.name).isSome then throw (.duplicate .entity e.name)
  return (e.name, ← knownColumns e) :: known

/-! ### references -/

/-- what a database may do with referring rows -/
def referentialActions : List String := ["CASCADE", "SET NULL", "RESTRICT", "NO ACTION"]

/-- the column of a many-to-one relationship that names none -/
def defaultForeignColumn (relationship : String) : String := Text.concat [relationship, "_id"]

def checkColumn (known : KnownColumns) (entity column : String) : Except ConfigError Unit :=
  if known.has column then .ok ()
  else .error (.missingReference .column (qualified entity column))

/-- the column that refers to the other side -/
def foreignColumn (entity : String) (r : RelationshipDeclaration) : Except ConfigError String :=
  match r.column, r.kind with
  | some c, _ => .ok c
  | none, .manyToOne => .ok (defaultForeignColumn r.name)
  | none, .oneToMany => .error (.validation (.missingForeignColumn entity r.name))

/-- one relationship, after those with the names `earlier` -/
def checkRelationship (all : EntityColumns) (entity : String) (known : KnownColumns)
    (earlier : List String) (r : RelationshipDeclaration) : Except ConfigError Unit := do
  checkIdentifier .relationship r.name
  if r.name ∈ earlier ∨ known.has r.name then
    throw (.duplicate .relationship (qualified entity r.name))
  match all.lookup r.target with
  | none =>
    throw (.missingReference .entity
      (Text.concat [r.target, " (relationship ", qualified entity r.name, ")"]))
  | some target =>
    let column ← foreignColumn entity r
    match r.kind with
    | .manyToOne => checkColumn known entity column
    | .oneToMany => checkColumn target r.target column
    match r.onDelete with
    | some action =>
      if action ∈ referentialActions then return
      else throw (.validation (.unsupportedAction entity r.name action))
    | none => return

/-- relationships in order, each against those before it -/
def checkRelationships (all : EntityColumns) (entity : String) (known : KnownColumns) :
    List String → List RelationshipDeclaration → Except ConfigError Unit
  | _, [] => .ok ()
  | earlier, r :: rs => do
    checkRelationship all entity known earlier r
    checkRelationships all entity known (r.name :: earlier) rs

def checkIndexed (entity vector : String) (known : KnownColumns) (column : String) :
    Except ConfigError Unit :=
  match known.lookup column with
  | some .text => .ok ()
  | some _ => .error (.validation (.indexedNotText entity vector column))
  | none => .error (.missingReference .column (qualified entity column))

def checkVector (entity : String) (known : KnownColumns) (v : VectorDeclaration) :
    Except ConfigError Unit := do
  if v.columns = [] then throw (.validation (.emptyVector entity v.name))
  v.columns.forM (checkIndexed entity v.name known)
  match v.config with
  | some config => checkIdentifier .searchConfig config
  | none => return

def checkTransitions (entity : String) (known : KnownColumns) (t : TransitionDeclaration) :
    Except ConfigError Unit :=
  if known.has t.key then .ok ()
  else .error (.missingReference .column
    (Text.concat [qualified entity t.key, " (transition key)"]))

/-- everything in an entity that refers to columns -/
def checkReferences (all : EntityColumns) (e : EntityDeclaration) : Except ConfigError Unit := do
  let known := (all.lookup e.name).getD []
  checkRelationships all e.name known [] e.relationships
  e.searchVectors.forM (checkVector e.name known)
  e.unique.forM fun group => group.forM (checkColumn known e.name)
  match e.transitions with
  | some t => checkTransitions e.name known t
  | none => return

/-- the document is accepted, or the first fault -/
def validate (d : Document) : Except ConfigError Unit := do
  checkIdentifier .schema d.schemaName
  let all ← d.entities.foldlM declareEntity []
  d.entities.forM (checkReferences all)

end Document
end EntityAccess
