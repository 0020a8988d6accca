import EntityAccess.Sql.Value

/-!
# date-times that are kept as they are

A database keeps a date-time in whole microseconds and without leap seconds.  What it keeps once, it
keeps as it is.

* `DateTime.Whole` : whole microseconds, no leap second;
* `stored_of_whole` : such a date-time is kept;
* `whole_of_wholeMicroseconds` : what is rounded is one;
* `stored_stored`, `sent_sent` : keeping twice is keeping once.
-/

namespace EntityAccess

namespace DateTime

variable {t u : DateTime} {second nano : Nat}

/-- whole microseconds, and no leap second -/
structure Whole (t : DateTime) : Prop where
  second_lt : t.time.second < 60
  nano_mod : t.time.nano % 1000 = 0

theorem time_of_withSecond (h : t.withSecond? second nano = some u) :
    u.time.second = second ∧ u.time.nano = nano := by
  obtain ⟨time, htime, rfl⟩ := Option.map_eq_some_iff.1 h
  unfold TimeOfDay.ofParts? at htime
  split at htime
  · obtain rfl := Option.some.inj htime
    exact ⟨rfl, rfl⟩
  · cases htime

theorem withSecond_self (t : DateTime) : t.withSecond? t.time.second t.time.nano = some t := by
  unfold withSecond?
  rw [TimeOfDay.ofParts?_self]
  rfl

theorem stored_of_whole (h : t.Whole) : t.stored = t := by
  have hleap : t.withoutLeap? = some t := by
    unfold withoutLeap?
    rw [if_neg (Nat.ne_of_lt h.second_lt)]
  have hnano := h.nano_mod
  have hlt := t.time.nano_lt
  have hmicros : (if t.date.year < 2000 then (t.time.nano + 999) / 1000
      else t.time.nano / 1000) = t.time.nano / 1000 := by
    split
    · omega
    · rfl
  have hround : t.wholeMicroseconds? = some t := by
    unfold wholeMicroseconds?
    dsimp only
    rw [hmicros, if_pos (by omega), show t.time.nano / 1000 * 1000 = t.time.nano by omega,
      withSecond_self]
  unfold stored
  rw [hleap]
  show (t.wholeMicroseconds?).getD t = t
  rw [hround]
  rfl

theorem second_of_withoutLeap (h : t.withoutLeap? = some u) : u.time.second < 60 := by
  unfold withoutLeap? at h
  split at h
  · obtain ⟨v, _, hu⟩ := Option.bind_eq_some_iff.1 h
    rw [(time_of_withSecond hu).1]
    decide
  · next hsecond =>
    obtain rfl := Option.some.inj h
    exact Nat.lt_of_le_of_ne t.time.second_le hsecond

theorem whole_of_wholeMicroseconds (ht : t.time.second < 60) (h : t.wholeMicroseconds? = some u) :
    u.Whole := by
  unfold wholeMicroseconds? at h
  dsimp only at h
  generalize (if t.date.year < 2000 then (t.time.nano + 999) / 1000
    else t.time.nano / 1000) = micros at h
  split at h
  · obtain ⟨hsecond, hnano⟩ := time_of_withSecond h
    exact ⟨hsecond ▸ ht, hnano ▸ Nat.mul_mod_left _ _⟩
  split at h
  · next hlast =>
    obtain ⟨hsecond, hnano⟩ := time_of_withSecond h
    exact ⟨by omega, by omega⟩
  · obtain ⟨v, _, hu⟩ := Option.bind_eq_some_iff.1 h
    obtain ⟨hsecond, hnano⟩ := time_of_withSecond hu
    exact ⟨by omega, by omega⟩

/-- a date-time beyond the last day that would be kept is left alone; every other one is whole -/
theorem stored_stored (t : DateTime) : t.stored.stored = t.stored := by
  cases h : (do (← t.withoutLeap?).wholeMicroseconds? : Option DateTime) with
  | none =>
    have hstored : t.stored = t := by
      unfold stored
      rw [h]
      rfl
    rw [hstored, hstored]
  | some u =>
    have hstored : t.stored = u := by
      unfold stored
      rw [h]
      rfl
    obtain ⟨v, hv, hu⟩ := Option.bind_eq_some_iff.1 h
    rw [hstored]
    exact stored_of_whole (whole_of_wholeMicroseconds (second_of_withoutLeap hv) hu)

end DateTime

theorem SqlValue.sent_sent (x : SqlValue) : x.sent.sent = x.sent := by
  cases x with
  | dateTime t => exact congrArg SqlValue.dateTime t.stored_stored
  | _ => rfl

end EntityAccess
