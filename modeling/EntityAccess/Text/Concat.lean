/-!
# putting texts together

* `concat_append` : parts of parts;
* `toList_concat` : the characters of the parts, one part after the other.
-/

namespace EntityAccess.Text

/-- the parts one after the other -/
def concat (parts : List String) : String := String.intercalate "" parts

/-- the parts with a separator between them -/
def joinWith (separator : String) (parts : List String) : String :=
  String.intercalate separator parts

@[simp]
theorem concat_nil : concat [] = "" := String.intercalate_nil

@[simp]
theorem concat_cons (s : String) (parts : List String) :
    concat (s :: parts) = s ++ concat parts := by
  cases parts with
  | nil => simp [concat]
  | cons t parts => simp [concat, String.intercalate_cons_cons]

theorem concat_append (ss ts : List String) : concat (ss ++ ts) = concat ss ++ concat ts := by
  induction ss with
  | nil => simp
  | cons s ss ih => simp [ih, String.append_assoc]

theorem toList_concat (parts : List String) :
    (concat parts).toList = parts.flatMap String.toList := by
  induction parts with
  | nil => simp
  | cons s parts ih => simp [ih]

end EntityAccess.Text
