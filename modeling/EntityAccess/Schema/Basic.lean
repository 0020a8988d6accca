import EntityAccess.Schema.Document
import EntityAccess.Schema.Validation
import EntityAccess.Transition

/-!
# resolved schemas

An entity with all its columns, the implicit ones included, and its relationships with the two
columns that they join.  A `scalar` column can be read, filtered and sorted by; a `writable` one can
be assigned from a payload.

* `scalarColumn_mem`, `writableColumn_mem` : what is found is among the columns.
-/

namespace EntityAccess

structure Column where
  name : String
  type : ColumnType
  nullable : Bool
  unique : Bool
  default : Option ColumnDefault
  readOnly : Bool
deriving DecidableEq

/-- a relationship; its join condition is `related.remoteColumn = owner.localColumn` -/
structure Relationship where
  name : String
  kind : RelationKind
  target : String
  localColumn : String
  remoteColumn : String
  onDelete : Option String
deriving DecidableEq

structure SearchVector where
  name : String
  columns : List String
  config : String
deriving DecidableEq

structure Entity where
  name : String
  schemaName : String
  tableName : String
  columns : List Column
  relationships : List Relationship
  searchVectors : List SearchVector
  unique : List (List String)
  tracksUpdatedAt : Bool
  transitions : Option TransitionGraph
deriving DecidableEq

namespace Entity

def column? (e : Entity) (name : String) : Option Column := e.columns.find? (·.name = name)

/-- a column that is no search vector -/
def scalarColumn? (e : Entity) (name : String) : Option Column :=
  (e.column? name).filter (·.type ≠ .searchVector)

def scalarColumn (e : Entity) (name : String) : Except Error Column :=
  match e.scalarColumn? name with
  | some c => .ok c
  | none => .error (.unknownField name e.name)

/-- the columns that are read -/
def selectable (e : Entity) : List Column := e.columns.filter (·.type ≠ .searchVector)

/-- a column that a payload may assign -/
def writableColumn? (e : Entity) (name : String) : Option Column :=
  (e.column? name).filter fun c => !c.readOnly && c.type ≠ .searchVector && c.name ≠ primaryKey

/-- a column that a write may assign -/
def assignableColumn? (e : Entity) (name : String) : Option Column :=
  (e.column? name).filter fun c => c.type ≠ .searchVector && c.name ≠ primaryKey

/-- the type of a column; a column that is not there counts as text -/
def columnType (e : Entity) (name : String) : ColumnType :=
  ((e.column? name).map (·.type)).getD .text

def relationship? (e : Entity) (name : String) : Option Relationship :=
  e.relationships.find? (·.name = name)

def searchVector? (e : Entity) (name : String) : Option SearchVector :=
  e.searchVectors.find? (·.name = name)

theorem scalarColumn_mem {e : Entity} {name : String} {c : Column}
    (h : e.scalarColumn name = .ok c) : c ∈ e.columns ∧ c.name = name ∧ c.type ≠ .searchVector := by
  unfold scalarColumn at h
  split at h
  · next c' hc =>
    obtain rfl : c' = c := by simpa using h
    obtain ⟨hf, ht⟩ := Option.filter_eq_some_iff.1 hc
    exact ⟨List.mem_of_find?_eq_some hf, by simpa using List.find?_some hf, by simpa using ht⟩
  · simp at h

theorem writableColumn_mem {e : Entity} {name : String} {c : Column}
    (h : e.writableColumn? name = some c) : c ∈ e.columns ∧ c.name = name ∧ c.readOnly = false := by
  obtain ⟨hf, ht⟩ := Option.filter_eq_some_iff.1 h
  refine ⟨List.mem_of_find?_eq_some hf, by simpa using List.find?_some hf, ?_⟩
  revert ht
  cases c.readOnly <;> simp

end Entity

/-- all entities of a document, in its order -/
structure Schema where
  entities : List Entity
deriving DecidableEq

def Schema.entity? (s : Schema) (name : String) : Option Entity :=
  s.entities.find? (·.name = name)

end EntityAccess
