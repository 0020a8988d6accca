import EntityAccess.Proofs.Calendar.Spellings
import EntityAccess.Proofs.Repository.CurrentValues

/-!
# literals of payloads

A payload takes each value in the form in which rows show it, and each literal of a filter, and
reads the same value from both.

* `SqlValue.IsShown`, `isNull_toJson` : the values that a row shows;
* `castWrite_shown_iff` : these, and no others, are read again as they were;
* `castWrite_of_castFilter` : what a literal means in a filter, it means in a payload.
-/

namespace EntityAccess

open Calendar

/-! ### values of rows -/

/-- a value that a row does not show as null -/
def SqlValue.IsShown : SqlValue → Prop
  | .null => False
  | .float x => ∃ y, x = .finite y
  | .json v => v.isNull = false
  | _ => True

theorem SqlValue.isNull_toJson (v : SqlValue) : v.toJson.isNull = false ↔ v.IsShown := by
  cases v with
  | null => simp [IsShown, toJson, Json.isNull]
  | float x => cases x <;> simp [IsShown, toJson, Json.isNull]
  | json w => exact Iff.rfl
  | _ => simp [IsShown, toJson, Json.isNull]

/-- a value of a column is read again from the form that a row shows -/
theorem castWrite_shown_iff {v : SqlValue} {type : ColumnType} (hfits : v.fits type = true)
    (hsized : v.isSized = true) : castWrite type v.toJson = .ok v ↔ v.IsShown := by
  rw [← v.isNull_toJson]
  constructor
  · intro h
    by_contra hnull
    have hnull : v.toJson.isNull = true := by simpa using hnull
    have hcast : castWrite type v.toJson = .ok .null := if_pos hnull
    rw [hcast] at h
    obtain rfl := Except.ok.inj h
    cases type <;> cases hfits
  · intro h
    exact castWrite_toJson hfits hsized h

/-- the last instant of a day before the common era, in a leap second -/
def leapSecond : DateTime :=
  ⟨(Date.ofParts? (-44) 3 15).get rfl, (TimeOfDay.ofParts? 23 59 60 999999999).get rfl⟩

theorem leapSecond_shown :
    (SqlValue.dateTime leapSecond).toJson = .str "-0044-03-15T23:59:60.999999999" ∧
      castWrite .dateTime (.str "-0044-03-15T23:59:60.999999999") = .ok (.dateTime leapSecond) := by
  have hshown : (SqlValue.dateTime leapSecond).toJson =
      .str "-0044-03-15T23:59:60.999999999" := by rfl
  have hfits : (SqlValue.dateTime leapSecond).fits .dateTime = true := rfl
  have hcast := (castWrite_shown_iff hfits rfl).2 trivial
  exact ⟨hshown, hshown ▸ hcast⟩

/-! ### literals of filters -/

theorem castTime_str {kind : ValueKind} {read : String → Option SqlValue} {s : String}
    {x : SqlValue} : castTime kind read (.str s) = .ok x ↔ read s = some x := by
  unfold castTime
  cases h : read s <;> simp [h]

theorem castTime_mono {kind : ValueKind} {read read' : String → Option SqlValue}
    (h : ∀ s x, read s = some x → read' s = some x) {v : Json} {x : SqlValue}
    (hx : castTime kind read v = .ok x) : castTime kind read' v = .ok x := by
  cases v with
  | str s => exact castTime_str.2 (h s x (castTime_str.1 hx))
  | _ => exact hx

/-- a text that is read as a date is written as that date -/
theorem castWrite_date {s : String} {d : Date} (h : readWriteDate s = some d) :
    castWrite .date (.str s) = .ok (.date d) := by
  show castTime .date (fun s => (readWriteDate s).map .date) (.str s) = _
  rw [castTime_str, h]
  rfl

/-- a text that is read as a date-time is written as that date-time -/
theorem castWrite_dateTime {s : String} {t : DateTime} (h : readWriteDateTime s = some t) :
    castWrite .dateTime (.str s) = .ok (.dateTime t) := by
  show castTime .dateTime (fun s => (readWriteDateTime s).map .dateTime) (.str s) = _
  rw [castTime_str, h]
  rfl

theorem castWrite_of_castFilter {type : ColumnType} {v : Json} {x : SqlValue}
    (h : castFilter type v = .ok x) : castWrite type v = .ok x := by
  unfold castFilter at h
  unfold castWrite
  by_cases hnull : v.isNull = true
  · rw [if_pos hnull] at h ⊢
    exact h
  · rw [if_neg hnull] at h ⊢
    cases type with
    | date =>
      refine castTime_mono (fun s x hx => ?_) h
      obtain ⟨d, hd, rfl⟩ := Option.map_eq_some_iff.1 hx
      unfold readWriteDate
      rw [hd]
      rfl
    | dateTime =>
      refine castTime_mono (fun s x hx => ?_) h
      obtain ⟨t, ht, rfl⟩ := Option.map_eq_some_iff.1 hx
      rw [readWriteDateTime_of_filter ht]
      rfl
    | _ => exact h

def leapDay : DateTime :=
  ⟨(Date.ofParts? 12024 2 29).get rfl, (TimeOfDay.ofParts? 9 5 0 0).get rfl⟩

/-- a signed year, a month of one digit, and two kinds of blanks before the hour -/
theorem leapDay_cast :
    castFilter .dateTime (.str "+12024-2-29\u2003 9:05") = .ok (.dateTime leapDay) ∧
      castWrite .dateTime (.str "+12024-2-29\u2003 9:05") = .ok (.dateTime leapDay) := by
  have h : castFilter .dateTime (.str "+12024-2-29\u2003 9:05") = .ok (.dateTime leapDay) := by rfl
  exact ⟨h, castWrite_of_castFilter h⟩

end EntityAccess
