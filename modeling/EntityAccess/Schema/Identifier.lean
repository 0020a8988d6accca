/-!
# identifiers

An identifier has 1 to 63 characters, small letters, digits and underscores; it starts with a
letter, does not end in an underscore and has no two underscores in a row.  So underscores in a row
are free to be separators.

* `isIdentifierChar_iff` : the characters.
-/

namespace EntityAccess

def isSmallLetter (c : Char) : Bool := 'a' ≤ c && c ≤ 'z'

def isIdentifierChar (c : Char) : Bool := isSmallLetter c || c.isDigit || c == '_'

theorem isIdentifierChar_iff (c : Char) :
    isIdentifierChar c = true ↔ isSmallLetter c = true ∨ c.isDigit = true ∨ c = '_' := by
  simp [isIdentifierChar, or_assoc]

/-- no underscore follows another, and none is last -/
def underscoresApart : List Char → Bool
  | [] => true
  | '_' :: [] => false
  | '_' :: '_' :: _ => false
  | _ :: cs => underscoresApart cs

/-- an identifier, as its characters -/
def isIdentifierChars : List Char → Bool
  | [] => false
  | c :: cs =>
    isSmallLetter c && cs.all isIdentifierChar && decide (cs.length ≤ 62) &&
      underscoresApart (c :: cs)

def isIdentifier (s : String) : Bool := isIdentifierChars s.toList

end EntityAccess
