import EntityAccess.Repository.Basic

/-!
# catalogs

A catalog has one repository for every entity of a schema, with the hooks and the default load plan
that are registered for it.
-/

namespace EntityAccess

structure Catalog where
  schema : Schema
  hooks : Dict Hooks
  loadPlans : Dict LoadPlan

namespace Catalog

/-- no rules and no load plans -/
def plain (schema : Schema) : Catalog := ⟨schema, .empty, .empty⟩

/-- the repository of the entity of that name -/
def repository? (c : Catalog) (name : String) : Option Repository :=
  (c.schema.entity? name).map fun e =>
    ⟨c.schema, e, (c.hooks.get? name).getD .none, (c.loadPlans.get? name).getD .empty⟩

/-- checks that there is an entity of that name -/
def requireEntity (schema : Schema) (name : String) : Except ConfigError Entity :=
  match schema.entity? name with
  | some e => .ok e
  | none => .error (.missingReference .entity name)

/-- checks a default load plan -/
def checkLoadPlan (schema : Schema) (name : String) (plan : LoadPlan) :
    Except ConfigError Unit := do
  let e ← requireEntity schema name
  match plan.names.find? fun r => !e.isRelationship r with
  | some missing => .error (.missingReference .relationship (Text.concat [name, ".", missing]))
  | none => .ok ()

/-- a catalog with hooks and default load plans, all of them for entities and relationships that
there are -/
def build (schema : Schema) (hooks : Dict Hooks) (loadPlans : Dict LoadPlan) :
    Except ConfigError Catalog := do
  hooks.keys.forM fun name => discard (requireEntity schema name)
  loadPlans.entries.forM fun e => checkLoadPlan schema e.1 e.2
  return ⟨schema, hooks, loadPlans⟩

end Catalog
end EntityAccess
