import EntityAccess.Program
import EntityAccess.Query.Search

/-!
# migrations

A schema is applied to a database by defining everything it describes: namespaces, tables, then keys
and indexes, then the triggers of the search vectors, each of these in a transaction.  Tables come
before keys, so the order of the entities does not matter.
-/

namespace EntityAccess

/-- executes definitions, one after the other -/
def defineAll (definitions : List Definition) : Action Unit :=
  definitions.forM fun d => Action.execute (.define d)

/-- defines the trigger of a search vector anew -/
def Entity.syncVector (e : Entity) (v : SearchVector) : Action Unit :=
  Action.transaction (defineAll (e.searchTrigger v))

/-- defines the trigger of the search vector of that name anew -/
def Entity.syncTrigger (e : Entity) (vector : String) : Action Unit := do
  e.syncVector (← e.resolveVector (some vector))

namespace Schema

/-- the namespaces of all tables, each once, in the order of their names -/
def namespaces (s : Schema) : List String :=
  (Dict.ofList (s.entities.map fun e => (e.schemaName, ()))).keys

/-- the constraints and indexes of an entity -/
def defineKeys (s : Schema) (e : Entity) : Action Unit := do
  let keys ← (e.foreignKeys s).mapError Error.config
  defineAll (keys ++ e.searchIndexes)

/-- defines everything that a schema describes -/
def migrate (s : Schema) : Action Unit := do
  defineAll (s.namespaces.map .namespaceNamed)
  defineAll (s.entities.map .table)
  s.entities.forM s.defineKeys
  s.entities.forM fun e => e.searchVectors.forM fun v => e.syncTrigger v.name

end Schema
end EntityAccess
