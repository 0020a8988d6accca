import EntityAccess.Text.Blank

/-!
# cutting a text at a separator

`pieces` cuts at every occurrence of a separator, found from the left and without overlap;
`lastCut` cuts once, at the occurrence that starts furthest right.  With one-character separators
the two agree; with `___` they differ inside a run of four underscores.

* `lastCut_cons` : one character further;
* `append_of_lastCut` : the two sides and the separator make up the text.
-/

namespace EntityAccess.Text

/-- what follows `sep` at the start of a text -/
def afterStart : (sep cs : List Char) → Option (List Char)
  | [], cs => some cs
  | _ :: _, [] => none
  | s :: sep, c :: cs => if s = c then afterStart sep cs else none

theorem append_of_afterStart {sep cs rest : List Char} (h : afterStart sep cs = some rest) :
    cs = sep ++ rest := by
  induction sep generalizing cs with
  | nil => simpa [afterStart] using h
  | cons s sep ih =>
    cases cs with
    | nil => simp [afterStart] at h
    | cons c cs =>
      simp only [afterStart] at h
      split at h
      · next hs => subst hs; simp [ih h]
      · simp at h

/-- the text on both sides of the occurrence of `sep` that starts furthest right -/
def lastCut (sep : List Char) : List Char → Option (List Char × List Char)
  | [] => if sep = [] then some ([], []) else none
  | c :: cs =>
    match lastCut sep cs with
    | some (before, after) => some (c :: before, after)
    | none => (afterStart sep (c :: cs)).map ([], ·)

theorem lastCut_cons (sep : List Char) (c : Char) (cs : List Char) :
    lastCut sep (c :: cs) = match lastCut sep cs with
      | some (before, after) => some (c :: before, after)
      | none => (afterStart sep (c :: cs)).map ([], ·) := rfl

theorem append_of_lastCut {sep cs before after : List Char}
    (h : lastCut sep cs = some (before, after)) : cs = before ++ sep ++ after := by
  induction cs generalizing before with
  | nil =>
    simp only [lastCut] at h
    split at h
    · next hs => simp_all
    · simp at h
  | cons c cs ih =>
    rw [lastCut_cons] at h
    split at h
    · next b a hb =>
      obtain ⟨rfl, rfl⟩ : c :: b = before ∧ a = after := by simpa using h
      simp [ih hb]
    · obtain ⟨rest, hr, he⟩ := Option.map_eq_some_iff.1 h
      obtain ⟨rfl, rfl⟩ : [] = before ∧ rest = after := by simpa using he
      simpa using append_of_afterStart hr

/-- the pieces between the occurrences of `sep`; `cur` is the piece being read, backwards,
and `skip` counts the characters of a separator still to be passed over -/
def piecesFrom (sep : List Char) : (skip : Nat) → (cur : List Char) → List Char → List (List Char)
  | _, cur, [] => [cur.reverse]
  | skip + 1, cur, _ :: cs => piecesFrom sep skip cur cs
  | 0, cur, c :: cs =>
    if (afterStart sep (c :: cs)).isSome then
      cur.reverse :: piecesFrom sep (sep.length - 1) [] cs
    else piecesFrom sep 0 (c :: cur) cs

/-- the pieces of a text between the occurrences of a separator that is not empty -/
def pieces (sep cs : List Char) : List (List Char) := piecesFrom sep 0 [] cs

/-- `pieces` on strings -/
def splitBy (sep s : String) : List String := (pieces sep.toList s.toList).map String.ofList

/-- `lastCut` on strings -/
def splitLast (sep s : String) : Option (String × String) :=
  (lastCut sep.toList s.toList).map fun (a, b) => (String.ofList a, String.ofList b)

/-- the items of a comma separated list, trimmed, blank ones left out -/
def commaItems (s : String) : List String :=
  ((splitBy "," s).map trim).filter (· ≠ "")

end EntityAccess.Text
