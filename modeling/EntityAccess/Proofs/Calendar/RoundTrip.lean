import EntityAccess.Calendar.Format
import Mathlib.Algebra.Order.Group.Nat
import Mathlib.Tactic.Ring

/-!
# written dates read back

A date that is written is read as the same date, in every year of the calendar, and a date-time is
read as the same date-time, whatever its fraction of a second.  Each number that is written ends
where the reader stops.

* `ofDigits_padded`, `readField_padded` : numbers with leading zeros;
* `readYear_yearText`, `readFraction_fractionText` : the two fields of changing width;
* `readDate_dateText`, `readDateTime_dateTimeText` : whole texts.
-/

namespace EntityAccess.Calendar

open Number
open Text (trimStart isBlank)

/-! ### digits -/

/-- a text in which no digit comes first -/
def Ends (cs : List Char) : Prop := ∀ c ∈ cs.head?, c.isDigit = false

theorem ends_nil : Ends [] := by simp [Ends]

theorem ends_cons {c : Char} (h : c.isDigit = false) (cs : List Char) : Ends (c :: cs) := by
  simpa [Ends] using h

theorem ofDigits_eq (ds : List Char) : ofDigits ds = Nat.ofDigitChars 10 ds 0 := by
  unfold ofDigits Nat.ofDigitChars
  congr 1
  funext n c
  rw [Nat.mul_comm]

theorem ofDigits_zeros (k : Nat) (ds : List Char) :
    ofDigits (List.replicate k '0' ++ ds) = ofDigits ds := by
  induction k with
  | zero => rfl
  | succ k ih => exact ih

theorem ofDigits_padded (width n : Nat) : ofDigits (padded width n) = n := by
  unfold padded
  rw [ofDigits_zeros, ofDigits_eq, Nat.ofDigitChars_toDigits (by decide) (by decide)]

theorem isDigit_of_mem_padded {width n : Nat} {c : Char} (h : c ∈ padded width n) :
    c.isDigit = true := by
  rcases List.mem_append.1 h with h | h
  · rw [List.eq_of_mem_replicate h]
    rfl
  · exact Nat.isDigit_of_mem_toDigits (by decide) (by decide) h

theorem padded_eq_cons (width n : Nat) :
    ∃ c cs, padded width n = c :: cs ∧ c.isDigit = true := by
  have hne : padded width n ≠ [] := by
    intro h
    exact Nat.toDigits_ne_nil (List.append_eq_nil_iff.1 h).2
  obtain ⟨c, cs, h⟩ := List.exists_cons_of_ne_nil hne
  exact ⟨c, cs, h, isDigit_of_mem_padded (h ▸ List.mem_cons_self)⟩

theorem length_padded {width n : Nat} (hw : 0 < width) (h : n < 10 ^ width) :
    (padded width n).length = width := by
  have hle : (Nat.toDigits 10 n).length ≤ width :=
    (Nat.length_toDigits_le_iff (by decide) hw).2 h
  unfold padded
  rw [List.length_append, List.length_replicate]
  omega

theorem spanDigits_append {ds rest : List Char} (hds : ∀ c ∈ ds, c.isDigit = true)
    (hrest : Ends rest) : spanDigits (ds ++ rest) = (ds, rest) := by
  induction ds with
  | nil =>
    cases rest with
    | nil => rfl
    | cons c rest =>
      have hc : c.isDigit = false := hrest c rfl
      simp [spanDigits, hc]
  | cons d ds ih =>
    have hd : d.isDigit = true := hds d List.mem_cons_self
    have hih := ih fun c hc => hds c (List.mem_cons_of_mem _ hc)
    simp [spanDigits, hd, hih]

/-- a digit is no blank -/
theorem isBlank_of_isDigit {c : Char} (h : c.isDigit = true) : isBlank c = false := by
  have hbounds : 48 ≤ c.toNat ∧ c.toNat ≤ 57 := by
    simpa [Char.isDigit, UInt32.le_iff_toNat_le] using h
  simp [isBlank]
  omega

/-! ### one number -/

/-- digits that are followed by none are a field of their own -/
theorem readField_digits {ds rest : List Char} {width : Nat} (hne : ds ≠ [])
    (hds : ∀ c ∈ ds, c.isDigit = true) (hlength : ds.length ≤ width) (hrest : Ends rest) :
    readField width (ds ++ rest) = some (ofDigits ds, rest) := by
  have hspan := spanDigits_append hds hrest
  unfold readField
  simp only [hspan, List.take_of_length_le hlength, hne, if_false, List.drop_left]

theorem readField_padded {k w n : Nat} {rest : List Char} (hrest : Ends rest)
    (hk : (padded w n).length ≤ k) : readField k (padded w n ++ rest) = some (n, rest) := by
  have hne : padded w n ≠ [] := by
    obtain ⟨c, cs, h, _⟩ := padded_eq_cons w n
    simp [h]
  rw [readField_digits hne (fun _ => isDigit_of_mem_padded) hk hrest, ofDigits_padded]

theorem trimStart_padded (w n : Nat) (rest : List Char) :
    trimStart (padded w n ++ rest) = padded w n ++ rest := by
  obtain ⟨c, cs, h, hc⟩ := padded_eq_cons w n
  rw [h]
  exact Text.trimStart_eq_self (isBlank_of_isDigit hc) _

/-- two digits, with the blanks that may be before them -/
theorem readField_two {n : Nat} {rest : List Char} (hrest : Ends rest) (h : n < 100) :
    readField 2 (trimStart (padded 2 n ++ rest)) = some (n, rest) := by
  have hlength : (padded 2 n).length = 2 := length_padded (by decide) h
  rw [trimStart_padded]
  exact readField_padded hrest hlength.le

theorem trimStart_yearText (year : Int) (rest : List Char) :
    trimStart (yearText year ++ rest) = yearText year ++ rest := by
  unfold yearText
  split
  · exact trimStart_padded _ _ _
  · split <;> exact Text.trimStart_eq_self (by decide) _

theorem readYear_minus (cs : List Char) :
    readYear ('-' :: cs) = (readField cs.length cs).map fun f => (-(f.1 : Int), f.2) := rfl

theorem readYear_plus (cs : List Char) :
    readYear ('+' :: cs) = (readField cs.length cs).map fun f => ((f.1 : Int), f.2) := rfl

/-- without a sign there are at most four digits -/
theorem readYear_digit {c : Char} (h : c.isDigit = true) (cs : List Char) :
    readYear (c :: cs) = (readField 4 (c :: cs)).map fun f => ((f.1 : Int), f.2) := by
  have hminus : c ≠ '-' := fun heq => by simp [heq, Char.isDigit] at h
  have hplus : c ≠ '+' := fun heq => by simp [heq, Char.isDigit] at h
  unfold readYear
  split
  · next heq => exact absurd (List.cons.inj heq).1 hminus
  · next heq => exact absurd (List.cons.inj heq).1 hplus
  · rfl

theorem readYear_yearText (year : Int) {rest : List Char} (hrest : Ends rest) :
    readYear (trimStart (yearText year ++ rest)) = some (year, rest) := by
  rw [trimStart_yearText]
  unfold yearText
  split
  · next hyear =>
    have hlength : (padded 4 year.natAbs).length = 4 := length_padded (by decide) (by omega)
    have hfield : readField 4 (padded 4 year.natAbs ++ rest) = some (year.natAbs, rest) :=
      readField_padded hrest hlength.le
    have hnat : (year.natAbs : Int) = year := by omega
    obtain ⟨c, cs, h, hc⟩ := padded_eq_cons 4 year.natAbs
    rw [h] at hfield ⊢
    rw [List.cons_append] at hfield ⊢
    rw [readYear_digit hc, hfield, Option.map_some, hnat]
  · -- after a sign the field takes all digits that there are
    have hfield : readField (padded 4 year.natAbs ++ rest).length (padded 4 year.natAbs ++ rest) =
        some (year.natAbs, rest) := readField_padded hrest (by simp)
    rw [List.cons_append]
    split
    · have hnat : -(year.natAbs : Int) = year := by omega
      rw [readYear_minus, hfield, Option.map_some, hnat]
    · have hnat : (year.natAbs : Int) = year := by omega
      rw [readYear_plus, hfield, Option.map_some, hnat]

/-- as many digits of a fraction as are written -/
theorem readFraction_padded {w n : Nat} (hw : 0 < w) (hw9 : w ≤ 9) (h : n < 10 ^ w) :
    readFraction ('.' :: padded w n) = some (n * 10 ^ (9 - w), []) := by
  have hspan : spanDigits (padded w n) = (padded w n, []) := by
    simpa using spanDigits_append (fun _ => isDigit_of_mem_padded) ends_nil
  have hlength : (padded w n).length = w := length_padded hw h
  have htake : (padded w n).take 9 = padded w n := List.take_of_length_le (by omega)
  have hnano : nanoOfDigits (padded w n) = n * 10 ^ (9 - w) := by
    unfold nanoOfDigits
    rw [htake, ofDigits_padded, hlength]
    rfl
  obtain ⟨c, cs, hcons, _⟩ := padded_eq_cons w n
  unfold readFraction
  simp only [hspan]
  rw [hcons] at hnano ⊢
  simp only [hnano]

theorem readFraction_fractionText {nano : Nat} (h : nano < 1000000000) :
    readFraction (fractionText nano) = some (nano, []) := by
  unfold fractionText
  split
  · next hzero => rw [hzero]; rfl
  · split
    · next hmod =>
      rw [readFraction_padded (by decide) (by decide) (by omega)]
      congr 2
      omega
    · split
      · next hmod =>
        rw [readFraction_padded (by decide) (by decide) (by omega)]
        congr 2
        omega
      · rw [readFraction_padded (by decide) (by decide) (by omega)]
        congr 2
        omega

/-! ### fronts of texts -/

/-- what a pattern reads at the front of a text, and what follows there -/
def readFront (p : Parts) (cs : List Char) (is : List Item) : Option (Parts × List Char) :=
  is.foldlM (fun s i => readItem s.1 s.2 i) (p, cs)

theorem readFront_nil (p : Parts) (cs : List Char) : readFront p cs [] = some (p, cs) := rfl

theorem readFront_cons (p : Parts) (cs : List Char) (i : Item) (is : List Item) :
    readFront p cs (i :: is) = (readItem p cs i).bind fun s => readFront s.1 s.2 is := rfl

theorem readItems_append (p : Parts) (cs : List Char) (is js : List Item) :
    readItems p cs (is ++ js) = (readFront p cs is).bind fun s => readItems s.1 s.2 js := by
  induction is generalizing p cs with
  | nil => rfl
  | cons i is ih =>
    rw [List.cons_append, readItems_cons, readFront_cons]
    cases readItem p cs i with
    | none => rfl
    | some s => exact ih s.1 s.2

/-- the three fields of a date -/
theorem readFront_datePattern (p : Parts) {cs cs₁ cs₂ rest : List Char} {year : Int}
    {month day : Nat} (hyear : readYear (trimStart cs) = some (year, '-' :: cs₁))
    (hmonth : readField 2 (trimStart cs₁) = some (month, '-' :: cs₂))
    (hday : readField 2 (trimStart cs₂) = some (day, rest)) :
    readFront p cs datePattern =
      some ({ p with year := year, month := month, day := day }, rest) := by
  unfold datePattern
  simp only [readFront_cons, readFront_nil, readItem, hyear, hmonth, hday, if_true,
    Option.map_some, Option.bind_some]

/-! ### dates and times -/

theorem readItems_literal (p : Parts) (c : Char) (cs : List Char) (is : List Item) :
    readItems p (c :: cs) (.literal c :: is) = readItems p cs is := by
  simp [readItems, readItem]

/-- a date, and what follows it -/
theorem readItems_dateChars (p : Parts) (d : Date) {rest : List Char} (hrest : Ends rest)
    (is : List Item) :
    readItems p (dateChars d ++ rest) (datePattern ++ is) =
      readItems { p with year := d.year, month := d.month, day := d.day } rest is := by
  have hmonth : d.month < 100 := by have := d.month_mem; omega
  have hday : d.day < 100 := by
    have hle : daysIn d.year d.month ≤ 31 := by unfold daysIn; split <;> (try split) <;> omega
    have := d.day_mem
    omega
  have hhyphen : ∀ cs : List Char, Ends ('-' :: cs) := ends_cons (by decide)
  have hfront := readFront_datePattern p
    (readYear_yearText d.year (hhyphen (padded 2 d.month ++ '-' :: (padded 2 d.day ++ rest))))
    (readField_two (hhyphen (padded 2 d.day ++ rest)) hmonth) (readField_two hrest hday)
  unfold dateChars
  simp only [List.append_assoc, List.cons_append]
  rw [readItems_append, hfront, Option.bind_some]

/-- a time up to its fraction -/
theorem readItems_timeChars (p : Parts) (t : TimeOfDay) :
    readItems p (timeChars t) secondPattern =
      some { p with hour := t.hour, minute := t.minute, second := t.second, nano := t.nano } := by
  have hhour : t.hour < 100 := by have := t.hour_lt; omega
  have hminute : t.minute < 100 := by have := t.minute_lt; omega
  have hsecond : t.second < 100 := by have := t.second_le; omega
  have hends : Ends (fractionText t.nano) := by
    unfold fractionText
    split
    · exact ends_nil
    · split
      · exact ends_cons (by decide) _
      · split <;> exact ends_cons (by decide) _
  unfold timeChars secondPattern minutePattern
  simp only [List.append_assoc, List.cons_append, List.nil_append]
  rw [readItems_cons, readItem, readField_two (ends_cons (by decide) _) hhour]
  simp only [Option.map_some]
  rw [readItems_literal, readItems_cons, readItem,
    readField_two (ends_cons (by decide) _) hminute]
  simp only [Option.map_some]
  rw [readItems_literal, readItems_cons, readItem, readField_two hends hsecond]
  simp only [Option.map_some]
  rw [readItems_cons, readItem, readFraction_fractionText t.nano_lt]
  rfl

/-! ### whole texts -/

theorem readDate_dateText (d : Date) : readDate (dateText d) = some d := by
  have hread := readItems_dateChars .start d ends_nil []
  unfold readDate dateText
  rw [String.toList_ofList]
  rw [List.append_nil, List.append_nil] at hread
  rw [hread, readItems_nil, Option.bind_some]
  exact d.ofParts?_self

/-- a date-time by a pattern with seconds, whatever the other patterns are -/
theorem readDateTime_dateTimeText (t : DateTime) (patterns : List (List Item)) :
    readDateTime ((datePattern ++ .literal 'T' :: secondPattern) :: patterns) (dateTimeText t) =
      some t := by
  have hends : Ends ('T' :: timeChars t.time) := ends_cons (by decide) _
  have hdate := readItems_dateChars .start t.date hends (.literal 'T' :: secondPattern)
  unfold readDateTime dateTimeText
  rw [String.toList_ofList, List.findSome?_cons, hdate, readItems_literal, readItems_timeChars,
    Option.bind_some]
  unfold Parts.dateTime? Parts.date?
  rw [t.date.ofParts?_self, t.time.ofParts?_self]
  rfl

end EntityAccess.Calendar
