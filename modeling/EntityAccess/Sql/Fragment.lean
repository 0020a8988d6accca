import EntityAccess.Sql.Value
import EntityAccess.Text.Concat

/-!
# pieces of statements

A statement is a list of pieces: SQL text, and values.  A value never becomes text; it is bound to
the placeholder that stands in its place, and placeholders are numbered from left to right.  So
statements read; they are written part by part while their values are bound, and that the numbers
come out in this order is `Statement.rendered_eq`.  Identifiers are quoted, a quote inside being
written twice.

* `params_append`, `textsFrom_append` : both readings of a fragment go piece by piece;
* `doubled_cons` : one character of a quoted name.
-/

namespace EntityAccess.Sql

/-! ### identifiers -/

/-- characters with every double quote written twice -/
def doubled : List Char → List Char
  | [] => []
  | c :: cs => if c = '"' then '"' :: '"' :: doubled cs else c :: doubled cs

theorem doubled_cons (c : Char) (cs : List Char) :
    doubled (c :: cs) = (if c = '"' then ['"', '"'] else [c]) ++ doubled cs := by
  simp only [doubled]
  split <;> simp

/-- a quoted identifier -/
def quoted (name : String) : String := String.ofList ('"' :: doubled name.toList ++ ['"'])

/-- two quoted identifiers with a point between them -/
def qualified (outer inner : String) : String := Text.concat [quoted outer, ".", quoted inner]

/-! ### fragments -/

/-- text of a statement, or a bound value with the type it is cast to -/
inductive Piece where
  | text (s : String)
  | param (v : SqlValue) (type : Option String)

abbrev Fragment := List Piece

/-- a fragment of text alone -/
def sql (parts : List String) : Fragment := [.text (Text.concat parts)]

/-- a placeholder with a cast -/
def bound (v : SqlValue) (type : String) : Fragment := [.param v (some type)]

namespace Fragment

/-- the values, in the order of their placeholders -/
def params : Fragment → List SqlValue
  | [] => []
  | .text _ :: ps => params ps
  | .param v _ :: ps => v :: params ps

/-- a placeholder -/
def placeholder (n : Nat) : Option String → String
  | some type => Text.concat ["$", toString n, "::", type]
  | none => Text.concat ["$", toString n]

/-- the texts of the pieces, the first placeholder being number `n` -/
def textsFrom (n : Nat) : Fragment → List String
  | [] => []
  | .text s :: ps => s :: textsFrom n ps
  | .param _ type :: ps => placeholder n type :: textsFrom (n + 1) ps

/-- the text of a statement -/
def text (f : Fragment) : String := Text.concat (textsFrom 1 f)

/-- fragments with a text between them -/
def joinWith (separator : String) : List Fragment → Fragment
  | [] => []
  | [f] => f
  | f :: g :: fs => f ++ .text separator :: joinWith separator (g :: fs)

@[simp]
theorem params_append (f g : Fragment) : params (f ++ g) = params f ++ params g := by
  induction f with
  | nil => rfl
  | cons p f ih => cases p <;> simp [params, ih]

theorem textsFrom_append (n : Nat) (f g : Fragment) :
    textsFrom n (f ++ g) = textsFrom n f ++ textsFrom (n + (params f).length) g := by
  induction f generalizing n with
  | nil => simp [textsFrom, params]
  | cons p f ih =>
    cases p with
    | text s => simp [textsFrom, params, ih]
    | param v type => simp [textsFrom, params, ih, Nat.add_assoc, Nat.add_comm 1]

end Fragment
end EntityAccess.Sql
