import EntityAccess.Sql.Buffer
import EntityAccess.Sql.Definition

/-!
# statements

Everything that is ever asked of a database: how it is written, and the pieces that it consists of.

* `fragment_select` : the pieces of a plan.
-/

namespace EntityAccess

inductive Statement where
  /-- the rows of a plan -/
  | select (schema : Schema) (plan : SelectPlan)
  /-- how many roots a plan has -/
  | count (schema : Schema) (plan : SelectPlan)
  | related (entity : Entity) (column : String) (keys : List SqlValue)
  | rowExists (entity : Entity) (id : String)
  | nameTaken (entity : Entity) (name exceptId : String)
  | insert (entity : Entity) (values : Sql.Assignments)
  | update (entity : Entity) (id : String) (values : Sql.Assignments)
  | delete (entity : Entity) (id : String)
  | define (definition : Definition)
  | databaseExists (name : String)
  | createDatabase (name : String)
  /-- asks for nothing but an answer -/
  | probe
  /-- a statement of a hook -/
  | other (text : String)

/-- the text that is sent and the values that are bound -/
def Statement.rendered : Statement → Sql.Buffer
  | .select schema plan => Sql.Buffer.finish (Sql.Buffer.select schema plan)
  | .count schema plan => Sql.Buffer.finish (Sql.Buffer.count schema plan)
  | .related e column keys => Sql.Buffer.finish (Sql.Buffer.relatedRows e column keys)
  | .rowExists e id => Sql.Buffer.finish (Sql.Buffer.rowExists e id)
  | .nameTaken e name exceptId => Sql.Buffer.nameTaken e name exceptId
  | .insert e values => Sql.Buffer.finish (Sql.Buffer.insert e values)
  | .update e id values => Sql.Buffer.finish (Sql.Buffer.update e id values)
  | .delete e id => Sql.Buffer.finish (Sql.Buffer.delete e id)
  | .define d => ⟨d.text, []⟩
  | .databaseExists name => Sql.Buffer.databaseExists name
  | .createDatabase name => ⟨Text.concat ["CREATE DATABASE ", Sql.quoted name], []⟩
  | .probe => ⟨"SELECT 1", []⟩
  | .other text => ⟨text, []⟩

/-- its pieces, in the order of the text -/
def Statement.fragment : Statement → Sql.Fragment
  | .select schema plan => Sql.select schema plan
  | .count schema plan => Sql.count schema plan
  | .related e column keys => Sql.relatedRows e column keys
  | .rowExists e id => Sql.rowExists e id
  | .nameTaken e name exceptId => Sql.nameTaken e name exceptId
  | .insert e values => Sql.insert e values
  | .update e id values => Sql.update e id values
  | .delete e id => Sql.delete e id
  | .define d => Sql.sql [d.text]
  | .databaseExists name => Sql.databaseExists name
  | .createDatabase name => Sql.createDatabase name
  | .probe => Sql.sql ["SELECT 1"]
  | .other text => Sql.sql [text]

theorem Statement.fragment_select (schema : Schema) (plan : SelectPlan) :
    (Statement.select schema plan).fragment = Sql.select schema plan := rfl

end EntityAccess
