import EntityAccess.Error

/-!
# schema documents

A document names a database schema and declares its entities: columns, relationships, search
vectors, unique groups and the graph of permitted state transitions.  What is implicit (the primary
key, the time stamps, default names) is left out here and filled in by `Document.resolve`.

* `ofWord?_word` : a column type is read back from its word.
-/

namespace EntityAccess

/-- the type of a column -/
inductive ColumnType where
  | text
  | integer
  | float
  | boolean
  | date
  | dateTime
  | json
  /-- an index for full-text search, kept by a trigger -/
  | searchVector
deriving DecidableEq

namespace ColumnType

/-- the word for a type in documents -/
def word : ColumnType → String
  | .text => "text"
  | .integer => "integer"
  | .float => "float"
  | .boolean => "boolean"
  | .date => "date"
  | .dateTime => "date_time"
  | .json => "json"
  | .searchVector => "search_vector"

/-- the type of a word; date-times have two words -/
def ofWord? : String → Option ColumnType
  | "text" => some .text
  | "integer" => some .integer
  | "float" => some .float
  | "boolean" => some .boolean
  | "date" => some .date
  | "date_time" => some .dateTime
  | "timestamp" => some .dateTime
  | "json" => some .json
  | "search_vector" => some .searchVector
  | _ => none

theorem ofWord?_word (t : ColumnType) : ofWord? t.word = some t := by cases t <;> rfl

/-- the name of a type in SQL -/
def sqlName : ColumnType → String
  | .text => "text"
  | .integer => "bigint"
  | .float => "double precision"
  | .boolean => "boolean"
  | .date => "date"
  | .dateTime => "timestamp"
  | .json => "jsonb"
  | .searchVector => "tsvector"

end ColumnType

/-- which side of a relationship holds the reference -/
inductive RelationKind where
  /-- our column refers to their primary key -/
  | manyToOne
  /-- their column refers to our primary key -/
  | oneToMany
deriving DecidableEq

def RelationKind.word : RelationKind → String
  | .manyToOne => "many_to_one"
  | .oneToMany => "one_to_many"

def RelationKind.ofWord? : String → Option RelationKind
  | "many_to_one" => some .manyToOne
  | "one_to_many" => some .oneToMany
  | _ => none

/-- the default of a column: SQL, either a literal or an expression -/
inductive ColumnDefault where
  | literal (sql : String)
  | expression (sql : String)
deriving DecidableEq

def ColumnDefault.sql : ColumnDefault → String
  | .literal sql => sql
  | .expression sql => sql

structure ColumnDeclaration where
  name : String
  type : ColumnType
  nullable : Bool
  unique : Bool
  default : Option ColumnDefault
  /-- never taken from a payload -/
  readOnly : Bool
deriving DecidableEq

structure RelationshipDeclaration where
  name : String
  kind : RelationKind
  target : String
  /-- the referring column; of a many-to-one relationship by default `<name>_id` -/
  column : Option String
  onDelete : Option String
deriving DecidableEq

structure VectorDeclaration where
  name : String
  columns : List String
  config : Option String
deriving DecidableEq

structure TransitionDeclaration where
  key : String
  graph : Dict (List String)
deriving DecidableEq

structure EntityDeclaration where
  name : String
  /-- by default the name -/
  table : Option String
  columns : List ColumnDeclaration
  relationships : List RelationshipDeclaration
  searchVectors : List VectorDeclaration
  unique : List (List String)
  trackUpdatedAt : Bool
  transitions : Option TransitionDeclaration
deriving DecidableEq

/-- a schema document -/
structure Document where
  schemaName : String
  entities : List EntityDeclaration
deriving DecidableEq

end EntityAccess
