import EntityAccess.Json.Number

/-!
# reading JSON text

A text is read into a `Source`: what it says, in the order in which it says it, repeated fields
included, up to the place where it stops being JSON.  A reader of documents walks the source and
so meets faults in the order of the text; `Source.value?` is the reader of plain values.

* a literal can be well formed and have no value (`unusable`): a number out of range, a string with
  half a surrogate pair.  Where the value is not asked for this is no fault.
-/

namespace EntityAccess.Json

/-- a JSON text as it was read -/
inductive Source where
  /-- null, a truth value, a number or a string -/
  | value (v : Json)
  /-- a well-formed literal without a value -/
  | unusable
  | arr (items : List Source)
  /-- a key is missing when it is unusable -/
  | obj (fields : List (Option String × Source))
  /-- the text is not JSON from here on -/
  | broken

instance : Inhabited Source := ⟨.broken⟩

/-- what is left of a text; none once it is broken -/
abbrev Rest := Option (List Char)

def isSpace (c : Char) : Bool := c == ' ' || c == '\n' || c == '\r' || c == '\t'

def skipSpaces (cs : List Char) : List Char := cs.dropWhile isSpace

/-! ### strings -/

/-- where the reader stands inside a string -/
inductive StringMode where
  | plain
  | escape
  | hex (missing : Nat) (unit : Nat)

/-- a string being read: its characters backwards, a leading surrogate that waits for its partner,
and whether every escape so far stands for a character -/
structure StringState where
  mode : StringMode
  read : List Char
  leading : Option Nat
  usable : Bool

def StringState.start : StringState := ⟨.plain, [], none, true⟩

/-- the state after one character that is not part of a surrogate pair -/
def StringState.push (s : StringState) (c : Char) : StringState :=
  ⟨.plain, c :: s.read, none, s.usable && s.leading.isNone⟩

/-- the state after one unit of UTF-16 -/
def StringState.pushUnit (s : StringState) (u : Nat) : StringState :=
  match s.leading with
  | some h =>
    if 0xDC00 ≤ u ∧ u ≤ 0xDFFF then
      ⟨.plain, Char.ofNat (0x10000 + (h - 0xD800) * 0x400 + (u - 0xDC00)) :: s.read, none,
        s.usable⟩
    else if 0xD800 ≤ u ∧ u ≤ 0xDBFF then ⟨.plain, s.read, some u, false⟩
    else ⟨.plain, Char.ofNat u :: s.read, none, false⟩
  | none =>
    if 0xD800 ≤ u ∧ u ≤ 0xDBFF then ⟨.plain, s.read, some u, s.usable⟩
    else if 0xDC00 ≤ u ∧ u ≤ 0xDFFF then ⟨.plain, s.read, none, false⟩
    else s.push (Char.ofNat u)

/-- the character of a one-letter escape -/
def escaped? : Char → Option Char
  | '"' => some '"'
  | '\\' => some '\\'
  | '/' => some '/'
  | 'b' => some (Char.ofNat 8)
  | 'f' => some (Char.ofNat 12)
  | 'n' => some '\n'
  | 'r' => some '\r'
  | 't' => some '\t'
  | _ => none

def hexValue? (c : Char) : Option Nat :=
  if c.isDigit then some (c.toNat - '0'.toNat)
  else if 'a' ≤ c ∧ c ≤ 'f' then some (c.toNat - 'a'.toNat + 10)
  else if 'A' ≤ c ∧ c ≤ 'F' then some (c.toNat - 'A'.toNat + 10)
  else none

/-- the string before the closing quote, none if it is unusable, and what follows the quote -/
def readString (s : StringState) : List Char → Option String × Rest
  | [] => (none, none)
  | c :: cs =>
    match s.mode with
    | .plain =>
      if c = '"' then
        (if s.usable && s.leading.isNone then some (String.ofList s.read.reverse) else none,
          some cs)
      else if c = '\\' then readString { s with mode := .escape } cs
      else if c.toNat < 32 then (none, none)
      else readString (s.push c) cs
    | .escape =>
      if c = 'u' then readString { s with mode := .hex 3 0 } cs
      else match escaped? c with
        | some e => readString (s.push e) cs
        | none => (none, none)
    | .hex missing unit =>
      match hexValue? c, missing with
      | some d, 0 => readString (s.pushUnit (unit * 16 + d)) cs
      | some d, missing + 1 => readString { s with mode := .hex missing (unit * 16 + d) } cs
      | none, _ => (none, none)

/-! ### numbers -/

/-- the exponent of a literal, if one begins here -/
def readLiteralExponent : List Char → Option (Option Int × List Char)
  | e :: cs =>
    if e = 'e' ∨ e = 'E' then
      let (negative, ds) := match cs with
        | '-' :: ds => (true, ds)
        | '+' :: ds => (false, ds)
        | ds => (false, ds)
      let (digits, rest) := Number.spanDigits ds
      if digits = [] then none
      else
        let n : Int := Number.ofDigits digits
        some (some (if negative then -n else n), rest)
    else some (none, e :: cs)
  | [] => some (none, [])

/-- an unsigned number literal -/
def readLiteral (negative : Bool) (cs : List Char) : Option (Literal × List Char) := do
  let (whole, rest) := Number.spanDigits cs
  if whole = [] then none
  if whole.length ≠ 1 ∧ whole.head? = some '0' then none
  let (fraction, rest) ← match rest with
    | '.' :: after =>
      let (fraction, rest) := Number.spanDigits after
      if fraction = [] then none else some (fraction, rest)
    | rest => some ([], rest)
  let (exponent, rest) ← readLiteralExponent rest
  some (⟨negative, whole, fraction, exponent⟩, rest)

def readNumber (cs : List Char) : Source × Rest :=
  let literal := match cs with
    | '-' :: cs => readLiteral true cs
    | cs => readLiteral false cs
  match literal with
  | some (l, rest) => ((l.value?.map .value).getD .unusable, some rest)
  | none => (.broken, none)

/-! ### values -/

/-- a keyword with its value -/
def readWord (word : List Char) (v : Json) (cs : List Char) : Source × Rest :=
  if word.isPrefixOf cs then (.value v, some (cs.drop word.length)) else (.broken, none)

mutual

/-- one value; the fuel bounds the nesting and the number of items together -/
def readValue : Nat → List Char → Source × Rest
  | 0, _ => (.broken, none)
  | fuel + 1, cs =>
    match skipSpaces cs with
    | [] => (.broken, none)
    | c :: cs =>
      if c = 'n' then readWord ['u', 'l', 'l'] .null cs
      else if c = 't' then readWord ['r', 'u', 'e'] (.bool true) cs
      else if c = 'f' then readWord ['a', 'l', 's', 'e'] (.bool false) cs
      else if c = '"' then
        match readString .start cs with
        | (some s, some rest) => (.value (.str s), some rest)
        | (none, some rest) => (.unusable, some rest)
        | (_, none) => (.broken, none)
      else if c = '[' then
        match skipSpaces cs with
        | ']' :: rest => (.arr [], some rest)
        | cs => readItems fuel [] cs
      else if c = '\x7b' then
        match skipSpaces cs with
        | '\x7d' :: rest => (.obj [], some rest)
        | cs => readFields fuel [] cs
      else readNumber (c :: cs)

/-- the items of an array from one on, after those already read, backwards -/
def readItems : Nat → List Source → List Char → Source × Rest
  | 0, done, _ => (.arr (.broken :: done).reverse, none)
  | fuel + 1, done, cs =>
    match readValue fuel cs with
    | (x, none) => (.arr (x :: done).reverse, none)
    | (x, some rest) =>
      match skipSpaces rest with
      | ',' :: rest => readItems fuel (x :: done) rest
      | ']' :: rest => (.arr (x :: done).reverse, some rest)
      | _ => (.arr (.broken :: x :: done).reverse, none)

/-- the fields of an object from one on, after those already read, backwards -/
def readFields : Nat → List (Option String × Source) → List Char → Source × Rest
  | 0, done, _ => (.obj ((none, .broken) :: done).reverse, none)
  | fuel + 1, done, cs =>
    let broken := (none, Source.broken)
    match skipSpaces cs with
    | '"' :: cs =>
      match readString .start cs with
      | (_, none) => (.obj (broken :: done).reverse, none)
      | (key, some rest) =>
        match skipSpaces rest with
        | ':' :: rest =>
          match readValue fuel rest with
          | (x, none) => (.obj ((key, x) :: done).reverse, none)
          | (x, some rest) =>
            match skipSpaces rest with
            | ',' :: rest => readFields fuel ((key, x) :: done) rest
            | '\x7d' :: rest => (.obj ((key, x) :: done).reverse, some rest)
            | _ => (.obj (broken :: (key, x) :: done).reverse, none)
        | _ => (.obj ((key, .broken) :: done).reverse, none)
    | _ => (.obj (broken :: done).reverse, none)

end

/-- the first value of a text and what follows it -/
def Source.read (text : String) : Source × Rest :=
  let cs := text.toList
  readValue (cs.length + 1) cs

/-! ### plain values -/

mutual

/-- the value of a source in which at most `room` arrays and objects are open at once; of a
repeated field the last one counts -/
def Source.value? : (room : Nat) → Source → Option Json
  | _, .value v => some v
  | _, .unusable => none
  | _, .broken => none
  | 0, .arr _ => none
  | 0, .obj _ => none
  | room + 1, .arr items => (Source.items? room items).map .arr
  | room + 1, .obj fields => (Source.fields? room fields).map ofFields

def Source.items? : (room : Nat) → List Source → Option (List Json)
  | _, [] => some []
  | room, x :: xs =>
    match x.value? room, Source.items? room xs with
    | some v, some vs => some (v :: vs)
    | _, _ => none

def Source.fields? : (room : Nat) → List (Option String × Source) → Option (List (String × Json))
  | _, [] => some []
  | room, (k, x) :: xs =>
    match k, x.value? room, Source.fields? room xs with
    | some k, some v, some vs => some ((k, v) :: vs)
    | _, _, _ => none

end

/-- how many arrays and objects may be open at once -/
def maxDepth : Nat := 127

/-- the first value of a text, whatever follows it -/
def readFirst? (text : String) : Option Json := (Source.read text).1.value? maxDepth

/-- the value of a text that is one value and nothing else -/
def read? (text : String) : Option Json :=
  match Source.read text with
  | (x, some rest) => if skipSpaces rest = [] then x.value? maxDepth else none
  | _ => none

end EntityAccess.Json
