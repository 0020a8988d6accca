import EntityAccess.Connection.Domain.Excluded
import EntityAccess.Text.Printable
import EntityAccess.Text.Split

/-!
# labels of a domain

A label is a text between the points of a domain.  One that starts with `xn--` stands for a text
with characters beyond ASCII: its ASCII characters come first, and after a last hyphen numbers tell
where the others are inserted and how far each is above the one before it.  A number is written with
the letters and digits as its 36 digits, lowest first, and ends with a digit below a threshold that
adapts to the numbers before it.

* `decodeNumber_length_lt` : a number takes at least one character.
-/

namespace EntityAccess.Connection.Domain

/-- the value of a letter or digit -/
def digitValue? (c : Char) : Option Nat :=
  if c.isLower then some (c.toNat - 97)
  else if c.isUpper then some (c.toNat - 65)
  else if c.isDigit then some (c.toNat - 22)
  else none

/-- a digit below this one, at `place`, is the last one of its number -/
def threshold (place bias : Nat) : Nat :=
  if place ≤ bias then 1 else if bias + 26 ≤ place then 26 else place - bias

/-- how often a difference is divided before it is small, and what is left of it -/
def adaptSteps (difference : Nat) : Nat × Nat :=
  if 455 < difference then
    let (steps, left) := adaptSteps (difference / 35)
    (steps + 1, left)
  else (0, difference)
termination_by difference
decreasing_by exact Nat.div_lt_self (by omega) (by omega)

/-- the bias after a number, in a text that has `count` characters with the new one -/
def adapted (difference count : Nat) (isFirst : Bool) : Nat :=
  let start := difference / (if isFirst then 700 else 2)
  let (steps, left) := adaptSteps (start + start / count)
  36 * steps + 36 * left / (left + 38)

/-- adds the number at the start of a text to `total`; the number goes on at `place`, where a digit
counts `weight` times -/
def decodeNumber (bias place weight total : Nat) : List Char → Option (Nat × List Char)
  | [] => none
  | c :: rest =>
    match digitValue? c with
    | none => none
    | some d =>
      let t := threshold place bias
      if d < t then some (total + d * weight, rest)
      else decodeNumber bias (place + 36) (weight * (36 - t)) (total + d * weight) rest

theorem decodeNumber_length_lt {bias place weight total : Nat} {cs : List Char}
    {r : Nat × List Char} (h : decodeNumber bias place weight total cs = some r) :
    r.2.length < cs.length := by
  induction cs generalizing place weight total with
  | nil => simp [decodeNumber] at h
  | cons c rest ih =>
    rw [decodeNumber] at h
    split at h
    · simp at h
    · dsimp only at h
      split at h
      · rw [← Option.some.inj h]
        simp
      · have := ih h
        simp only [List.length_cons]
        omega

/-- the character of a code point, if it has one -/
def character? (n : Nat) : Option Char := if n.isValidChar then some (Char.ofNat n) else none

/-- inserts the characters that are told by the rest of a label: the next one is counted from the
code point `least` and the position `index` on -/
def decodeFrom (bias least index : Nat) (done : List Char) (cs : List Char) :
    Option (List Char) :=
  match cs with
  | [] => some done
  | c :: rest =>
    match _h : decodeNumber bias 36 1 index (c :: rest) with
    | none => none
    | some (total, after) =>
      let count := done.length + 1
      let code := least + total / count
      match character? code with
      | none => none
      | some new =>
        decodeFrom (adapted (total - index) count (index == 0)) code (total % count + 1)
          (done.insertIdx (total % count) new) after
termination_by cs.length
decreasing_by
  have := decodeNumber_length_lt _h
  simpa using this

/-- the text that a label with `xn--` stands for, given without this start -/
def decode? (cs : List Char) : Option (List Char) :=
  match Text.lastCut ['-'] cs with
  | some (_, []) => none
  | some (plain, numbers) => decodeFrom 72 128 0 plain numbers
  | none => if cs = [] then none else decodeFrom 72 128 0 [] cs

/-- a character that joins others and stands after a mark only -/
def isJoiner (c : Char) : Bool := c.toNat == 0x200C || c.toNat == 0x200D

/-- a character that changes the one before it -/
def isMark (c : Char) : Bool := 128 ≤ c.toNat && !Text.isPrintable c

/-- whether no joiner stands at the start or after a character that is no mark -/
def joinsMarks : List Char → Bool
  | c :: d :: rest => (!isJoiner d || isMark c) && joinsMarks (d :: rest)
  | _ => true

/-- a text that can be a label: no excluded character, and no mark at its start -/
def isPlainLabel (cs : List Char) : Bool :=
  cs.all (!isExcluded ·) && !(cs.head?.any isMark) && joinsMarks cs

def isLabel (cs : List Char) : Bool :=
  match Text.afterStart ['x', 'n', '-', '-'] cs with
  | some rest =>
    match decode? rest with
    | some text => isPlainLabel text
    | none => false
  | none => isPlainLabel cs

end EntityAccess.Connection.Domain
