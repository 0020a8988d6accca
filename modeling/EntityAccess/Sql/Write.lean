import EntityAccess.Sql.Read

/-!
# writes and look-ups as SQL

Single rows by their primary key, and the rows related to many others at once.
-/

namespace EntityAccess.Sql

open Fragment

/-- columns with the values they are given -/
abbrev Assignments := List (String × SqlValue)

/-- a value as one of a column -/
def boundFor (e : Entity) (column : String) (v : SqlValue) : Fragment :=
  bound v (e.columnType column).sqlName

/-- the selectable columns by name -/
def columnList (e : Entity) : String :=
  Text.joinWith ", " (e.selectable.map fun c => quoted c.name)

def insert (e : Entity) (values : Assignments) : Fragment :=
  sql ["INSERT INTO ", tableOf e, " (",
      Text.joinWith ", " (values.map fun a => quoted a.1), ") VALUES ("] ++
    joinWith ", " (values.map fun a => boundFor e a.1 a.2) ++ sql [")"]

/-- one column that an update sets -/
def setClause (e : Entity) (a : String × SqlValue) : Fragment :=
  sql [quoted a.1, " = "] ++ boundFor e a.1 a.2

/-- the time stamp of an update, if there is one -/
def stampClauses (e : Entity) : List Fragment :=
  if e.tracksUpdatedAt then [sql [quoted updatedAt, " = NOW()"]] else []

/-- an update of the given columns, which also sets the time stamp -/
def update (e : Entity) (id : String) (values : Assignments) : Fragment :=
  sql ["UPDATE ", tableOf e, " SET "] ++
    joinWith ", " (values.map (setClause e) ++ stampClauses e) ++
    sql [" WHERE ", quoted primaryKey, " = "] ++ bound (.text id) "text"

/-- removes a row and returns it -/
def delete (e : Entity) (id : String) : Fragment :=
  sql ["DELETE FROM ", tableOf e, " WHERE ", quoted primaryKey, " = "] ++
    bound (.text id) "text" ++ sql [" RETURNING ", columnList e]

/-- the rows with one of the given values in a column -/
def relatedRows (e : Entity) (column : String) (values : List SqlValue) : Fragment :=
  let head := sql ["SELECT ", columnList e, " FROM ", tableOf e, " WHERE "]
  if values.isEmpty then head ++ sql ["1 = 0"]
  else
    head ++ sql [quoted column, " IN ("] ++
      joinWith ", " (values.map (boundFor e column)) ++
      sql [") ORDER BY ", quoted primaryKey]

/-- whether there is a row -/
def rowExists (e : Entity) (id : String) : Fragment :=
  sql ["SELECT EXISTS (SELECT 1 FROM ", tableOf e, " WHERE ", quoted primaryKey, " = "] ++
    bound (.text id) "text" ++ sql [") AS \"exists\""]

/-- whether another row has that name, in any case of its letters -/
def nameTaken (e : Entity) (name exceptId : String) : Fragment :=
  sql ["SELECT EXISTS (SELECT 1 FROM ", tableOf e, " WHERE lower(\"name\") = lower("] ++
    [.param (.text name) none] ++ sql [") AND \"id\" <> "] ++ [.param (.text exceptId) none] ++
    sql [") AS \"exists\""]

/-- whether there is a database of that name -/
def databaseExists (name : String) : Fragment :=
  sql ["SELECT EXISTS(SELECT 1 FROM pg_database WHERE datname = "] ++
    [.param (.text name) none] ++ sql [")"]

def createDatabase (name : String) : Fragment := sql ["CREATE DATABASE ", quoted name]

end EntityAccess.Sql
