import EntityAccess.Calendar.Date
import EntityAccess.Number.Reading
import EntityAccess.Text.Blank

/-!
# dates and times as text

A pattern is a list of items, read from left to right and used up exactly.  Numbers may have white
space before them; a year has an optional sign and then any number of digits, without sign at most
four; the other fields have one or two digits.  `Moment` texts with a zone have fixed widths and
are converted to universal time.

Written dates have four year digits, more with a sign outside 0 to 9999; written times have as many
fraction digits, of 0, 3, 6 or 9, as are exact.

* `readItems_nil`, `readItems_cons` : a pattern is read item by item.
-/

namespace EntityAccess.Calendar

open Text (trimStart)

/-! ### writing -/

/-- a number with leading zeros, at least `width` digits -/
def padded (width n : Nat) : List Char :=
  let ds := Nat.toDigits 10 n
  List.replicate (width - ds.length) '0' ++ ds

def yearText (year : Int) : List Char :=
  if 0 ≤ year ∧ year ≤ 9999 then padded 4 year.natAbs
  else (if year < 0 then '-' else '+') :: padded 4 year.natAbs

/-- a point and three, six or nine digits, or nothing -/
def fractionText (nano : Nat) : List Char :=
  if nano = 0 then []
  else if nano % 1000000 = 0 then '.' :: padded 3 (nano / 1000000)
  else if nano % 1000 = 0 then '.' :: padded 6 (nano / 1000)
  else '.' :: padded 9 nano

def dateChars (d : Date) : List Char :=
  yearText d.year ++ '-' :: padded 2 d.month ++ '-' :: padded 2 d.day

def timeChars (t : TimeOfDay) : List Char :=
  padded 2 t.hour ++ ':' :: padded 2 t.minute ++ ':' :: padded 2 t.second ++ fractionText t.nano

def dateText (d : Date) : String := String.ofList (dateChars d)

def dateTimeText (t : DateTime) : String :=
  String.ofList (dateChars t.date ++ 'T' :: timeChars t.time)

/-! ### reading by patterns -/

/-- one item of a pattern -/
inductive Item where
  | year
  | month
  | day
  | hour
  | minute
  | second
  /-- an optional fraction of a second -/
  | fraction
  /-- any amount of white space, also none -/
  | blanks
  | literal (c : Char)
deriving DecidableEq

/-- what has been read of a date-time -/
structure Parts where
  year : Int
  month : Nat
  day : Nat
  hour : Nat
  minute : Nat
  second : Nat
  nano : Nat

def Parts.start : Parts := ⟨0, 0, 0, 0, 0, 0, 0⟩

/-- one to `width` digits -/
def readField (width : Nat) (cs : List Char) : Option (Nat × List Char) :=
  let ds := (Number.spanDigits cs).1.take width
  if ds = [] then none else some (Number.ofDigits ds, cs.drop ds.length)

/-- a sign and any number of digits, or up to four digits -/
def readYear : List Char → Option (Int × List Char)
  | '-' :: cs => (readField cs.length cs).map fun (n, rest) => (-(n : Int), rest)
  | '+' :: cs => (readField cs.length cs).map fun (n, rest) => ((n : Int), rest)
  | cs => (readField 4 cs).map fun (n, rest) => ((n : Int), rest)

/-- the nanoseconds that fraction digits write; digits after the ninth do not count -/
def nanoOfDigits (ds : List Char) : Nat :=
  Number.ofDigits (ds.take 9) * Nat.pow 10 (9 - ds.length)

/-- a point and at least one digit, or nothing if there is no point -/
def readFraction : List Char → Option (Nat × List Char)
  | '.' :: cs =>
    match Number.spanDigits cs with
    | ([], _) => none
    | (ds, rest) => some (nanoOfDigits ds, rest)
  | cs => some (0, cs)

def readItem (p : Parts) (cs : List Char) : Item → Option (Parts × List Char)
  | .year => (readYear (trimStart cs)).map fun (n, rest) => ({ p with year := n }, rest)
  | .month => (readField 2 (trimStart cs)).map fun (n, rest) => ({ p with month := n }, rest)
  | .day => (readField 2 (trimStart cs)).map fun (n, rest) => ({ p with day := n }, rest)
  | .hour => (readField 2 (trimStart cs)).map fun (n, rest) => ({ p with hour := n }, rest)
  | .minute => (readField 2 (trimStart cs)).map fun (n, rest) => ({ p with minute := n }, rest)
  | .second => (readField 2 (trimStart cs)).map fun (n, rest) => ({ p with second := n }, rest)
  | .fraction => (readFraction cs).map fun (n, rest) => ({ p with nano := n }, rest)
  | .blanks => some (p, trimStart cs)
  | .literal c =>
    match cs with
    | c' :: rest => if c' = c then some (p, rest) else none
    | [] => none

/-- a whole text by a pattern -/
def readItems (p : Parts) : List Char → List Item → Option Parts
  | cs, [] => if cs = [] then some p else none
  | cs, i :: is =>
    match readItem p cs i with
    | some (p, rest) => readItems p rest is
    | none => none

theorem readItems_nil (p : Parts) : readItems p [] [] = some p := rfl

theorem readItems_cons (p : Parts) (cs : List Char) (i : Item) (is : List Item) :
    readItems p cs (i :: is) = match readItem p cs i with
      | some (p, rest) => readItems p rest is
      | none => none := rfl

def Parts.date? (p : Parts) : Option Date := Date.ofParts? p.year p.month p.day

def Parts.dateTime? (p : Parts) : Option DateTime := do
  some ⟨← p.date?, ← TimeOfDay.ofParts? p.hour p.minute p.second p.nano⟩

/-- year, month and day with hyphens -/
def datePattern : List Item := [.year, .literal '-', .month, .literal '-', .day]

/-- hour and minute -/
def minutePattern : List Item := [.hour, .literal ':', .minute]

/-- hour, minute, second and an optional fraction -/
def secondPattern : List Item := minutePattern ++ [.literal ':', .second, .fraction]

def readDate (s : String) : Option Date :=
  (readItems .start s.toList datePattern).bind Parts.date?

/-- a date-time by the first pattern that fits -/
def readDateTime (patterns : List (List Item)) (s : String) : Option DateTime :=
  patterns.findSome? fun is => (readItems .start s.toList is).bind Parts.dateTime?

/-! ### texts with a zone -/

/-- exactly `width` digits -/
def readFixed (width : Nat) (cs : List Char) : Option (Nat × List Char) :=
  let ds := cs.take width
  if ds.length = width ∧ ds.all Char.isDigit then some (Number.ofDigits ds, cs.drop width)
  else none

def readMark (p : Char → Bool) : List Char → Option (List Char)
  | c :: cs => if p c then some cs else none
  | [] => none

/-- a zone at the end of a text, in minutes ahead of universal time -/
def readZone : List Char → Option Int
  | [] => none
  | c :: cs =>
    if c = 'Z' ∨ c = 'z' then if cs = [] then some 0 else none
    else if c = '+' ∨ c = '-' ∨ c = Char.ofNat 0x2212 then do
      let (hours, cs) ← readFixed 2 cs
      let cs ← readMark (· == ':') cs
      let (minutes, cs) ← readFixed 2 cs
      if cs = [] ∧ hours ≤ 23 ∧ minutes ≤ 59 then
        some (if c = '+' then (hours * 60 + minutes : Nat) else -(hours * 60 + minutes : Nat))
      else none
    else none

/-- a date-time with a zone, in universal time -/
def readMoment (s : String) : Option DateTime := do
  let (year, cs) ← readFixed 4 s.toList
  let (month, cs) ← readFixed 2 (← readMark (· == '-') cs)
  let (day, cs) ← readFixed 2 (← readMark (· == '-') cs)
  let (hour, cs) ← readFixed 2 (← readMark (fun c => c == 'T' || c == 't' || c == ' ') cs)
  let (minute, cs) ← readFixed 2 (← readMark (· == ':') cs)
  let (second, cs) ← readFixed 2 (← readMark (· == ':') cs)
  let (nano, cs) ← readFraction cs
  let zone ← readZone cs
  let here ← (Parts.mk year month day hour minute second nano).dateTime?
  here.addMinutes? (-zone)

end EntityAccess.Calendar
