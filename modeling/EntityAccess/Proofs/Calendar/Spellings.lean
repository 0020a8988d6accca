import EntityAccess.Filter.Cast
import EntityAccess.Proofs.Calendar.RoundTrip

/-!
# spellings of date-times

A pattern reads the front of a text in one way only, so two patterns that begin alike agree on what
follows.  A text that fits the pattern of minutes fits no earlier one, and a text that is a date has
nothing left for a time; so filters and payloads read the same date-time.

* `readFront`, `readItems_append` : the front of a text and the rest of the pattern;
* `front_of_readMoment` : a text with a zone goes on after its date;
* `readWriteDateTime_of_filter` : whatever is a date-time in a filter is the same in a payload.
-/

namespace EntityAccess.Calendar

open Number
open Text (trimStart isBlank)

/-! ### fronts of texts -/

/-- a whole text has nothing after its front -/
theorem front_of_readItems {p q : Parts} {cs : List Char} {is : List Item}
    (h : readItems p cs is = some q) : readFront p cs is = some (q, []) := by
  rw [← List.append_nil is, readItems_append] at h
  obtain ⟨⟨q', rest⟩, hfront, hrest⟩ := Option.bind_eq_some_iff.1 h
  cases rest with
  | nil =>
    obtain rfl : q' = q := Option.some.inj hrest
    exact hfront
  | cons c rest => cases hrest

/-! ### where a number does not begin -/

theorem readField_of_ends {cs : List Char} (h : Ends cs) (width : Nat) :
    readField width cs = none := by
  cases cs with
  | nil => simp [readField, spanDigits]
  | cons c cs =>
    have hc : c.isDigit = false := h c rfl
    simp [readField, spanDigits, hc]

/-- no time begins at a letter, with or without blanks before it -/
theorem readItems_blanks_letter (p : Parts) (cs : List Char) (is : List Item) :
    readItems p ('T' :: cs) (.blanks :: .hour :: is) = none := by
  have htrim : trimStart ('T' :: cs) = 'T' :: cs := Text.trimStart_eq_self (by decide) cs
  have hfield : readField 2 ('T' :: cs) = none := readField_of_ends (ends_cons (by decide) cs) 2
  rw [readItems_cons]
  show readItems p (trimStart ('T' :: cs)) (.hour :: is) = none
  rw [htrim, readItems_cons, readItem, htrim, hfield]
  rfl

theorem readItems_letter_of_blanks {p q : Parts} {cs : List Char} {is : List Item}
    (h : readItems p cs (.blanks :: .hour :: is) = some q) (js : List Item) :
    readItems p cs (.literal 'T' :: js) = none := by
  cases cs with
  | nil => rfl
  | cons c cs =>
    by_cases hc : c = 'T'
    · rw [hc, readItems_blanks_letter] at h
      cases h
    · have hitem : readItem p (c :: cs) (.literal 'T') = none := if_neg hc
      rw [readItems_cons, hitem]

/-- a text that ends with its minutes has no seconds -/
theorem readItems_seconds_of_minutes {p q : Parts} {cs : List Char}
    (h : readItems p cs (.blanks :: minutePattern) = some q) :
    readItems p cs (.blanks :: secondPattern) = none := by
  show readItems p cs ((.blanks :: minutePattern) ++ [.literal ':', .second, .fraction]) = none
  rw [readItems_append, front_of_readItems h]
  rfl

/-! ### texts with a zone -/

theorem readFixed_eq_some {width n : Nat} {cs rest : List Char}
    (h : readFixed width cs = some (n, rest)) :
    ∃ ds, cs = ds ++ rest ∧ ds.length = width ∧ (∀ c ∈ ds, c.isDigit = true) ∧
      n = ofDigits ds := by
  unfold readFixed at h
  dsimp only at h
  split at h
  · next hds =>
    obtain ⟨rfl, rfl⟩ := Prod.mk.inj (Option.some.inj h)
    exact ⟨cs.take width, (List.take_append_drop width cs).symm, hds.1,
      List.all_eq_true.1 hds.2, rfl⟩
  · cases h

theorem readMark_eq_some {p : Char → Bool} {cs rest : List Char}
    (h : readMark p cs = some rest) : ∃ c, cs = c :: rest ∧ p c = true := by
  cases cs with
  | nil => cases h
  | cons c cs =>
    obtain ⟨hp, hcs⟩ := Option.ite_none_right_eq_some.1 h
    exact ⟨c, by rw [Option.some.inj hcs], hp⟩

/-- a field of fixed width that ends there begins with a digit, and a pattern reads it as well -/
theorem field_of_readFixed {width n : Nat} {cs rest : List Char} (hw : 0 < width)
    (h : readFixed width cs = some (n, rest)) (hrest : Ends rest) :
    ∃ c tail, cs = c :: tail ∧ c.isDigit = true ∧ readField width cs = some (n, rest) := by
  obtain ⟨ds, rfl, hlength, hds, rfl⟩ := readFixed_eq_some h
  have hne : ds ≠ [] := by
    intro hnil
    rw [hnil, List.length_nil] at hlength
    omega
  have hfield := readField_digits hne hds hlength.le hrest
  obtain ⟨c, tail, rfl⟩ := List.exists_cons_of_ne_nil hne
  exact ⟨c, tail ++ rest, rfl, hds c List.mem_cons_self, hfield⟩

theorem readYear_of_readFixed {n : Nat} {cs rest : List Char}
    (h : readFixed 4 cs = some (n, rest)) (hrest : Ends rest) :
    readYear (trimStart cs) = some ((n : Int), rest) := by
  obtain ⟨c, tail, rfl, hc, hfield⟩ := field_of_readFixed (by decide) h hrest
  rw [Text.trimStart_eq_self (isBlank_of_isDigit hc), readYear_digit hc, hfield]
  rfl

theorem readField_of_readFixed {n : Nat} {cs rest : List Char}
    (h : readFixed 2 cs = some (n, rest)) (hrest : Ends rest) :
    readField 2 (trimStart cs) = some (n, rest) := by
  obtain ⟨c, tail, rfl, hc, hfield⟩ := field_of_readFixed (by decide) h hrest
  rw [Text.trimStart_eq_self (isBlank_of_isDigit hc), hfield]

/-- a text with a zone goes on after its date -/
theorem front_of_readMoment {s : String} {t : DateTime} (h : readMoment s = some t) :
    ∃ p c rest, readFront .start s.toList datePattern = some (p, c :: rest) := by
  unfold readMoment at h
  obtain ⟨⟨year, cs₁⟩, hyear, h⟩ := Option.bind_eq_some_iff.1 h
  obtain ⟨cs₂, hmark₁, h⟩ := Option.bind_eq_some_iff.1 h
  obtain ⟨⟨month, cs₃⟩, hmonth, h⟩ := Option.bind_eq_some_iff.1 h
  obtain ⟨cs₄, hmark₂, h⟩ := Option.bind_eq_some_iff.1 h
  obtain ⟨⟨day, cs₅⟩, hday, h⟩ := Option.bind_eq_some_iff.1 h
  obtain ⟨cs₆, hmark₃, _⟩ := Option.bind_eq_some_iff.1 h
  clear h
  obtain ⟨c₁, rfl, hc₁⟩ := readMark_eq_some hmark₁
  obtain ⟨c₂, rfl, hc₂⟩ := readMark_eq_some hmark₂
  obtain ⟨c₃, rfl, hc₃⟩ := readMark_eq_some hmark₃
  obtain rfl : c₁ = '-' := by simpa using hc₁
  obtain rfl : c₂ = '-' := by simpa using hc₂
  have hmark : c₃.isDigit = false := by
    rcases (by simpa using hc₃ : (c₃ = 'T' ∨ c₃ = 't') ∨ c₃ = ' ') with (rfl | rfl) | rfl <;> rfl
  exact ⟨_, c₃, cs₆, readFront_datePattern .start
    (readYear_of_readFixed hyear (ends_cons (by decide) _))
    (readField_of_readFixed hmonth (ends_cons (by decide) _))
    (readField_of_readFixed hday (ends_cons hmark _))⟩

/-! ### filters and payloads -/

theorem readWriteDateTime_of_minutes {s : String} {t : DateTime}
    (h : readDateTime filterDateTimePatterns s = some t) : readWriteDateTime s = some t := by
  have h : (readItems .start s.toList (datePattern ++ .blanks :: minutePattern)).bind
      Parts.dateTime? = some t := by
    unfold readDateTime filterDateTimePatterns at h
    rw [List.findSome?_cons] at h
    split at h
    · next u hu =>
      obtain rfl := Option.some.inj h
      exact hu
    · cases h
  obtain ⟨q, hq, ht⟩ := Option.bind_eq_some_iff.1 h
  rw [readItems_append] at hq
  obtain ⟨⟨p, rest⟩, hfront, hrest⟩ := Option.bind_eq_some_iff.1 hq
  have hread : readDateTime writeDateTimePatterns s = some t := by
    unfold readDateTime writeDateTimePatterns
    simp only [List.findSome?_cons, readItems_append, hfront, Option.bind_some]
    -- neither a letter nor seconds come after the date
    rw [readItems_letter_of_blanks hrest, readItems_seconds_of_minutes hrest,
      readItems_letter_of_blanks hrest, hrest, Option.bind_none, Option.bind_some, ht]
  unfold readWriteDateTime
  rw [hread]
  rfl

theorem readWriteDateTime_of_date {s : String} {d : Date} (h : readDate s = some d) :
    readWriteDateTime s = some (.ofDate d) := by
  obtain ⟨p, hp, _⟩ := Option.bind_eq_some_iff.1 h
  have hfront := front_of_readItems hp
  have hread : readDateTime writeDateTimePatterns s = none := by
    unfold readDateTime writeDateTimePatterns
    simp only [List.findSome?_cons, readItems_append, hfront, Option.bind_some]
    rfl
  have hmoment : readMoment s = none := by
    cases ht : readMoment s with
    | none => rfl
    | some t =>
      obtain ⟨p', c, rest, hmore⟩ := front_of_readMoment ht
      rw [hfront] at hmore
      cases hmore
  unfold readWriteDateTime
  rw [hread, hmoment, h]
  rfl

/-- whatever is a date-time in a filter is the same in a payload -/
theorem readWriteDateTime_of_filter {s : String} {t : DateTime}
    (h : readFilterDateTime s = some t) : readWriteDateTime s = some t := by
  unfold readFilterDateTime at h
  cases hminutes : readDateTime filterDateTimePatterns s with
  | some u =>
    rw [hminutes] at h
    obtain rfl : u = t := Option.some.inj h
    exact readWriteDateTime_of_minutes hminutes
  | none =>
    rw [hminutes] at h
    obtain ⟨d, hd, rfl⟩ := Option.map_eq_some_iff.1 h
    exact readWriteDateTime_of_date hd

end EntityAccess.Calendar
