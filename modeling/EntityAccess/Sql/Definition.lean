import EntityAccess.Sql.Read

/-!
# definitions of tables, keys, indexes and triggers

What has to be defined in a database so that it can hold the rows of a schema.  Each definition may
be repeated without harm.

* `foreignKey_of_found` : a relationship whose target exists gets its constraint.
-/

namespace EntityAccess

open Text (concat joinWith)
open Sql (quoted qualified tableOf)

inductive Definition where
  | namespaceNamed (name : String)
  | table (entity : Entity)
  | foreignKey (entity : Entity) (relationship : Relationship) (target : Entity)
  | searchIndex (entity : Entity) (vector : SearchVector)
  | dropTrigger (entity : Entity) (vector : SearchVector)
  | dropFunction (entity : Entity) (vector : SearchVector)
  /-- the function that computes a search vector -/
  | triggerFunction (entity : Entity) (vector : SearchVector)
  | trigger (entity : Entity) (vector : SearchVector)
  /-- writes every row once, so that its vector is computed -/
  | touchRows (entity : Entity) (vector : SearchVector)

namespace Definition

/-! ### names -/

def constraintName (e : Entity) (r : Relationship) : String :=
  concat ["fk_", e.tableName, "_", r.localColumn]

def indexName (e : Entity) (v : SearchVector) : String := concat ["ix_", e.tableName, "_", v.name]

def functionName (e : Entity) (v : SearchVector) : String :=
  concat [e.tableName, "_", v.name, "_refresh"]

def triggerName (e : Entity) (v : SearchVector) : String :=
  concat [e.tableName, "_", v.name, "_trigger"]

def qualifiedFunction (e : Entity) (v : SearchVector) : String :=
  qualified e.schemaName (functionName e v)

/-! ### texts -/

/-- what follows the type of a column -/
def columnRules (c : Column) : String :=
  if c.name = primaryKey then " PRIMARY KEY"
  else
    concat [if c.nullable then "" else " NOT NULL", if c.unique then " UNIQUE" else "",
      match c.default with
      | some d => concat [" DEFAULT ", d.sql]
      | none => ""]

def columnLine (c : Column) : String := concat [quoted c.name, " ", c.type.sqlName, columnRules c]

def uniqueLine (group : List String) : String :=
  concat ["UNIQUE (", joinWith ", " (group.map quoted), ")"]

def tableText (e : Entity) : String :=
  concat ["CREATE TABLE IF NOT EXISTS ", tableOf e, " (\n  ",
    joinWith ",\n  " (e.columns.map columnLine ++ e.unique.map uniqueLine), "\n)"]

def foreignKeyText (e : Entity) (r : Relationship) (target : Entity) : String :=
  concat ["DO $$ BEGIN ALTER TABLE ", tableOf e, " ADD CONSTRAINT ",
    quoted (constraintName e r), " FOREIGN KEY (", quoted r.localColumn, ") REFERENCES ",
    tableOf target, " (", quoted r.remoteColumn, ")",
    match r.onDelete with
    | some action => concat [" ON DELETE ", action]
    | none => "",
    "; EXCEPTION WHEN duplicate_object THEN NULL; END $$"]

/-- the indexed text of a row -/
def documentText (v : SearchVector) : String :=
  joinWith " || ' ' || " (v.columns.map fun c => concat ["coalesce(NEW.", quoted c, ", '')"])

def functionText (e : Entity) (v : SearchVector) : String :=
  concat ["CREATE FUNCTION ", qualifiedFunction e v, "() RETURNS trigger AS $$ BEGIN NEW.",
    quoted v.name, " := to_tsvector('", v.config, "'::regconfig, ", documentText v,
    "); RETURN NEW; END $$ LANGUAGE plpgsql"]

/-- the column that is assigned to itself -/
def touchedColumn (v : SearchVector) : String := quoted (v.columns.headD primaryKey)

def text : Definition → String
  | .namespaceNamed name => concat ["CREATE SCHEMA IF NOT EXISTS ", quoted name]
  | .table e => tableText e
  | .foreignKey e r target => foreignKeyText e r target
  | .searchIndex e v =>
    concat ["CREATE INDEX IF NOT EXISTS ", quoted (indexName e v), " ON ", tableOf e,
      " USING GIN (", quoted v.name, ")"]
  | .dropTrigger e v =>
    concat ["DROP TRIGGER IF EXISTS ", quoted (triggerName e v), " ON ", tableOf e]
  | .dropFunction e v => concat ["DROP FUNCTION IF EXISTS ", qualifiedFunction e v, "()"]
  | .triggerFunction e v => functionText e v
  | .trigger e v =>
    concat ["CREATE TRIGGER ", quoted (triggerName e v), " BEFORE INSERT OR UPDATE ON ",
      tableOf e, " FOR EACH ROW EXECUTE FUNCTION ", qualifiedFunction e v, "()"]
  | .touchRows e v =>
    concat ["UPDATE ", tableOf e, " SET ", touchedColumn v, " = ", touchedColumn v]

end Definition

namespace Entity

/-- the constraint of a relationship that this entity refers by -/
def foreignKey (schema : Schema) (e : Entity) (r : Relationship) :
    Except ConfigError Definition :=
  match schema.entity? r.target with
  | some target => .ok (.foreignKey e r target)
  | none => .error (.missingReference .entity r.target)

/-- one constraint for every relationship to one row -/
def foreignKeys (schema : Schema) (e : Entity) : Except ConfigError (List Definition) :=
  (e.relationships.filter (·.kind = .manyToOne)).mapM (foreignKey schema e)

def searchIndexes (e : Entity) : List Definition := e.searchVectors.map (.searchIndex e)

/-- what keeps a search vector up to date -/
def searchTrigger (e : Entity) (v : SearchVector) : List Definition :=
  [.dropTrigger e v, .dropFunction e v, .triggerFunction e v, .trigger e v, .touchRows e v]

theorem foreignKey_of_found {schema : Schema} {e target : Entity} {r : Relationship}
    (h : schema.entity? r.target = some target) :
    foreignKey schema e r = .ok (.foreignKey e r target) := by
  simp [foreignKey, h]

end Entity
end EntityAccess
