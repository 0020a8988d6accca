import EntityAccess.Sql.Statement

/-!
# names between double quotes

A name in double quotes is read up to the first quote that is not doubled, and a doubled quote
stands for one.  A text begins with at most one name, and with one exactly if it begins with what
that name is quoted as and no quote follows.  What a server does with a name once it is read is left
out: it refuses an empty one, and cuts a long one.

* `identifier?` : the name that a text begins with, and what follows it;
* `identifier?_eq_some_iff` : the texts that begin with a name;
* `quoted_append_inj` : texts that begin with quoted names, whatever follows these but a quote;
* `quoted_unambiguous` : quoted and qualified names are told apart, and the statement that creates a
  database names the one that is meant.
-/

namespace EntityAccess.Sql

/-! ### the reader -/

/-- the characters of a name after the quote in front of it, and what follows the quote that ends
it -/
def nameBody? : List Char → Option (List Char × List Char)
  | '"' :: '"' :: cs => (nameBody? cs).map (Prod.map ('"' :: ·) id)
  | '"' :: cs => some ([], cs)
  | c :: cs => (nameBody? cs).map (Prod.map (c :: ·) id)
  | [] => none

/-- the name in double quotes that a text begins with, and what follows it -/
def identifier? (text : String) : Option (String × String) :=
  match text.toList with
  | '"' :: cs => (nameBody? cs).map (Prod.map String.ofList String.ofList)
  | _ => none

section

variable {rest : List Char}

/-- a quote that no other one follows ends the name -/
theorem nameBody?_quote (h : rest.head? ≠ some '"') :
    nameBody? ('"' :: rest) = some ([], rest) := by
  cases rest with
  | nil => rfl
  | cons c cs =>
    have hc : c ≠ '"' := fun hc => h (congrArg some hc)
    simp [nameBody?, hc]

theorem nameBody?_cons {c : Char} (h : c ≠ '"') (cs : List Char) :
    nameBody? (c :: cs) = (nameBody? cs).map (Prod.map (c :: ·) id) := by
  simp [nameBody?, h]

/-- what a name is quoted as is read up to its last quote, however many quotes it ends with -/
theorem nameBody?_doubled (h : rest.head? ≠ some '"') (name : List Char) :
    nameBody? (doubled name ++ '"' :: rest) = some (name, rest) := by
  induction name with
  | nil => exact nameBody?_quote h
  | cons c name ih =>
    rw [doubled_cons, List.append_assoc]
    by_cases hc : c = '"'
    · subst hc
      simp [nameBody?, ih]
    · rw [if_neg hc, List.singleton_append, nameBody?_cons hc, ih]
      rfl

theorem exists_of_map_cons {c : Char} {name : List Char} {read : Option (List Char × List Char)}
    (h : read.map (Prod.map (c :: ·) id) = some (name, rest)) :
    ∃ tail, read = some (tail, rest) ∧ name = c :: tail := by
  obtain ⟨⟨tail, _⟩, hread, heq⟩ := Option.map_eq_some_iff.1 h
  obtain ⟨rfl, rfl⟩ := Prod.mk.inj heq
  exact ⟨tail, hread, rfl⟩

/-- what is read as a name is what it is quoted as, up to a quote that no other one follows -/
theorem of_nameBody?_eq_some {cs name : List Char} (h : nameBody? cs = some (name, rest)) :
    cs = doubled name ++ '"' :: rest ∧ rest.head? ≠ some '"' := by
  induction cs using nameBody?.induct generalizing name with
  | case1 cs ih =>
    -- a doubled quote, which is one of the name
    obtain ⟨tail, hread, rfl⟩ := exists_of_map_cons h
    obtain ⟨rfl, hrest⟩ := ih hread
    exact ⟨by simp [doubled], hrest⟩
  | case2 cs hsingle =>
    -- the quote that ends the name
    have hhead : cs.head? ≠ some '"' := by
      intro hhead
      obtain ⟨tail, rfl⟩ := List.head?_eq_some_iff.1 hhead
      exact hsingle tail rfl
    rw [nameBody?_quote hhead] at h
    cases h
    exact ⟨rfl, hhead⟩
  | case3 c cs _ hc ih =>
    -- any other character
    rw [nameBody?_cons hc] at h
    obtain ⟨tail, hread, rfl⟩ := exists_of_map_cons h
    obtain ⟨rfl, hrest⟩ := ih hread
    rw [doubled_cons, if_neg hc]
    exact ⟨rfl, hrest⟩
  | case4 => cases h

end

/-! ### quoted names -/

section

variable {text name rest : String}

theorem toList_quoted_append (name rest : String) :
    (quoted name ++ rest).toList = '"' :: (doubled name.toList ++ '"' :: rest.toList) := by
  simp [quoted]

/-- a text begins with a name exactly if it begins with that name in quotes, and the last of them
ends it -/
theorem identifier?_eq_some_iff :
    identifier? text = some (name, rest) ↔
      text = quoted name ++ rest ∧ rest.toList.head? ≠ some '"' := by
  constructor
  · intro h
    unfold identifier? at h
    split at h
    · next cs htext =>
      obtain ⟨⟨nameChars, restChars⟩, hread, heq⟩ := Option.map_eq_some_iff.1 h
      obtain ⟨rfl, rfl⟩ := Prod.mk.inj heq
      obtain ⟨rfl, hrest⟩ := of_nameBody?_eq_some hread
      refine ⟨String.toList_inj.1 ?_, by rwa [String.toList_ofList]⟩
      rw [htext, toList_quoted_append, String.toList_ofList, String.toList_ofList]
    · cases h
  · rintro ⟨rfl, hrest⟩
    unfold identifier?
    rw [toList_quoted_append]
    simp only [nameBody?_doubled hrest, Option.map_some, Prod.map_apply, String.ofList_toList]

example : identifier? "\"a\"\"\".\"b\"" = some ("a\"", ".\"b\"") := by rfl

theorem identifier?_quoted_append (name : String) (h : rest.toList.head? ≠ some '"') :
    identifier? (quoted name ++ rest) = some (name, rest) :=
  identifier?_eq_some_iff.2 ⟨rfl, h⟩

theorem identifier?_quoted (name : String) : identifier? (quoted name) = some (name, "") :=
  identifier?_eq_some_iff.2 ⟨String.append_empty.symm, by simp⟩

/-- where names are followed by anything but a quote, equal texts begin with the same name -/
theorem quoted_append_inj {name' rest' : String} (h : rest.toList.head? ≠ some '"')
    (h' : rest'.toList.head? ≠ some '"') (heq : quoted name ++ rest = quoted name' ++ rest') :
    name = name' ∧ rest = rest' := by
  have hread := identifier?_quoted_append name h
  rw [heq, identifier?_quoted_append name' h'] at hread
  obtain ⟨hname, hrest⟩ := Prod.mk.inj (Option.some.inj hread)
  exact ⟨hname.symm, hrest.symm⟩

theorem quoted_inj {name' : String} : quoted name = quoted name' ↔ name = name' := by
  refine ⟨fun heq => ?_, congrArg quoted⟩
  have hend : "".toList.head? ≠ some '"' := by simp
  exact (quoted_append_inj hend hend (congrArg (· ++ "") heq)).1

end

/-! ### qualified names -/

theorem qualified_eq (outer inner : String) :
    qualified outer inner = quoted outer ++ ("." ++ quoted inner) := by
  simp [qualified]

/-- the point between two names is the one after the first name, whatever points the names have -/
theorem qualified_inj {outer inner outer' inner' : String} :
    qualified outer inner = qualified outer' inner' ↔ outer = outer' ∧ inner = inner' := by
  constructor
  · intro heq
    rw [qualified_eq, qualified_eq] at heq
    have hpoint (s : String) : ("." ++ s).toList.head? ≠ some '"' := by simp
    obtain ⟨houter, hrest⟩ := quoted_append_inj (hpoint _) (hpoint _) heq
    exact ⟨houter, quoted_inj.1 ((String.append_right_inj ".").1 hrest)⟩
  · rintro ⟨rfl, rfl⟩
    rfl

theorem text_createDatabase (name : String) :
    (Statement.createDatabase name).fragment.text = "CREATE DATABASE " ++ quoted name := by
  simp [Statement.fragment, createDatabase, sql, Fragment.text, Fragment.textsFrom]

/-- a quoted name is read up to its end exactly if no quote follows it, and then it is the name that
was quoted; so no two names are quoted alike, no two tables qualified alike, and after the words of
the statement that creates a database stands its name, and nothing else -/
theorem quoted_unambiguous :
    (∀ name rest : String,
      identifier? (quoted name ++ rest) = some (name, rest) ↔ rest.toList.head? ≠ some '"') ∧
    (∀ name name' : String, quoted name = quoted name' ↔ name = name') ∧
    (∀ outer inner outer' inner' : String,
      qualified outer inner = qualified outer' inner' ↔ outer = outer' ∧ inner = inner') ∧
    ∀ name : String, ∃ tail, (Statement.createDatabase name).fragment.text =
      "CREATE DATABASE " ++ tail ∧ identifier? tail = some (name, "") := by
  refine ⟨fun name rest => ?_, fun _ _ => quoted_inj, fun _ _ _ _ => qualified_inj, fun name =>
    ⟨quoted name, text_createDatabase name, identifier?_quoted name⟩⟩
  rw [identifier?_eq_some_iff]
  exact and_iff_right rfl

end EntityAccess.Sql
