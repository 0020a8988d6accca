import EntityAccess.Sql.Statement
import Mathlib.Data.List.Forall2

/-!
# the columns that a statement assigns

An insertion lists its columns once, an update writes each of them in front of its value, and the
time stamp after the others.

* `Statement.columns` : the columns;
* `fragment_insert`, `fragment_update` : where they stand in the text of the statement.
-/

namespace EntityAccess

open Sql

/-- the column that every update of an entity sets, if its rows have a time stamp -/
def Entity.stampColumns (e : Entity) : List String := if e.tracksUpdatedAt then [updatedAt] else []

/-- the columns that a statement assigns, in the order of its text -/
def Statement.columns : Statement → List String
  | .insert _ values => values.map (·.1)
  | .update e _ values => values.map (·.1) ++ e.stampColumns
  | _ => []

/-- a clause that sets a column, whatever the number of its first placeholder -/
def Sql.Sets (column : String) (clause : Fragment) : Prop :=
  ∀ n, ∃ value : String,
    Text.concat (Fragment.textsFrom n clause) = quoted column ++ (" = " ++ value)

namespace Sql

theorem sets_setClause (e : Entity) (a : String × SqlValue) : Sets a.1 (setClause e a) := by
  intro n
  refine ⟨Text.concat (Fragment.textsFrom n (boundFor e a.1 a.2)), ?_⟩
  have hclause : Fragment.textsFrom n (setClause e a) =
      Text.concat [quoted a.1, " = "] :: Fragment.textsFrom n (boundFor e a.1 a.2) := rfl
  rw [hclause]
  simp only [Text.concat_cons, Text.concat_nil, String.append_empty, String.append_assoc]

theorem sets_stampClauses (e : Entity) : List.Forall₂ Sets e.stampColumns (stampClauses e) := by
  unfold Entity.stampColumns stampClauses
  split
  · refine .cons (fun n => ⟨"NOW()", ?_⟩) .nil
    have hclause : Fragment.textsFrom n (sql [quoted updatedAt, " = NOW()"]) =
        [Text.concat [quoted updatedAt, " = NOW()"]] := rfl
    rw [hclause]
    simp only [Text.concat_cons, Text.concat_nil, String.append_empty]
    rfl
  · exact .nil

end Sql

namespace Statement

theorem columns_insert (e : Entity) (values : Assignments) :
    (Statement.insert e values).columns = values.map (·.1) := rfl

theorem columns_update (e : Entity) (id : String) (values : Assignments) :
    (Statement.update e id values).columns = values.map (·.1) ++ e.stampColumns := rfl

/-- the columns of an insertion stand between brackets, each once for each time that it is there -/
theorem fragment_insert (e : Entity) (values : Assignments) :
    (Statement.insert e values).fragment =
      sql ["INSERT INTO ", tableOf e, " (",
        Text.joinWith ", " ((Statement.insert e values).columns.map quoted), ") VALUES ("] ++
        Fragment.joinWith ", " (values.map fun a => boundFor e a.1 a.2) ++ sql [")"] := by
  rw [columns_insert, List.map_map]
  rfl

/-- an update has one clause for each of its columns, in their order -/
theorem fragment_update (e : Entity) (id : String) (values : Assignments) :
    ∃ clauses, List.Forall₂ Sets (Statement.update e id values).columns clauses ∧
      (Statement.update e id values).fragment =
        sql ["UPDATE ", tableOf e, " SET "] ++ Fragment.joinWith ", " clauses ++
          sql [" WHERE ", quoted primaryKey, " = "] ++ bound (.text id) "text" := by
  refine ⟨values.map (setClause e) ++ stampClauses e, ?_, rfl⟩
  refine List.rel_append (R := Sets) ?_ (sets_stampClauses e)
  induction values with
  | nil => exact .nil
  | cons a values ih => exact .cons (sets_setClause e a) ih

end Statement
end EntityAccess
