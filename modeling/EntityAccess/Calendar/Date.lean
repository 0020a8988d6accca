/-!
# dates and times

Days of the Gregorian calendar, carried back before its introduction, in the years from -262143 to
262142; times of day to the nanosecond, with leap seconds (`second = 60`) at the end of any
minute; date-times without a zone.

* `DateTime.stored` : the date-time as a database keeps it, in whole microseconds and with a leap
  second counted to the following minute.
-/

namespace EntityAccess

/-- every fourth year, but of the full centuries only every fourth -/
def isLeap (year : Int) : Bool := year % 4 == 0 && (year % 100 != 0 || year % 400 == 0)

/-- how many days a month has -/
def daysIn (year : Int) (month : Nat) : Nat :=
  if month = 2 then if isLeap year then 29 else 28
  else if month = 4 ∨ month = 6 ∨ month = 9 ∨ month = 11 then 30
  else 31

def firstYear : Int := -262143
def lastYear : Int := 262142

/-- a day of the calendar -/
structure Date where
  year : Int
  month : Nat
  day : Nat
  year_mem : firstYear ≤ year ∧ year ≤ lastYear
  month_mem : 1 ≤ month ∧ month ≤ 12
  day_mem : 1 ≤ day ∧ day ≤ daysIn year month
deriving DecidableEq

namespace Date

/-- the day of that name, if there is one -/
def ofParts? (year : Int) (month day : Nat) : Option Date :=
  if h : (firstYear ≤ year ∧ year ≤ lastYear) ∧ (1 ≤ month ∧ month ≤ 12) ∧
      (1 ≤ day ∧ day ≤ daysIn year month) then
    some ⟨year, month, day, h.1, h.2.1, h.2.2⟩
  else none

/-- the day after -/
def next? (d : Date) : Option Date :=
  if d.day < daysIn d.year d.month then ofParts? d.year d.month (d.day + 1)
  else if d.month < 12 then ofParts? d.year (d.month + 1) 1
  else ofParts? (d.year + 1) 1 1

/-- the day before -/
def prev? (d : Date) : Option Date :=
  if 1 < d.day then ofParts? d.year d.month (d.day - 1)
  else if 1 < d.month then ofParts? d.year (d.month - 1) (daysIn d.year (d.month - 1))
  else ofParts? (d.year - 1) 12 31

theorem ofParts?_self (d : Date) : ofParts? d.year d.month d.day = some d := by
  simp [ofParts?, d.year_mem, d.month_mem, d.day_mem]

end Date

/-- a time of day -/
structure TimeOfDay where
  hour : Nat
  minute : Nat
  second : Nat
  nano : Nat
  hour_lt : hour < 24
  minute_lt : minute < 60
  second_le : second ≤ 60
  nano_lt : nano < 1000000000
deriving DecidableEq

namespace TimeOfDay

def ofParts? (hour minute second nano : Nat) : Option TimeOfDay :=
  if h : hour < 24 ∧ minute < 60 ∧ second ≤ 60 ∧ nano < 1000000000 then
    some ⟨hour, minute, second, nano, h.1, h.2.1, h.2.2.1, h.2.2.2⟩
  else none

def midnight : TimeOfDay := ⟨0, 0, 0, 0, by decide, by decide, by decide, by decide⟩

theorem ofParts?_self (t : TimeOfDay) : ofParts? t.hour t.minute t.second t.nano = some t := by
  simp only [ofParts?, t.hour_lt, t.minute_lt, t.second_le, t.nano_lt, and_self, dite_true]

end TimeOfDay

/-- a date and a time of day -/
structure DateTime where
  date : Date
  time : TimeOfDay
deriving DecidableEq

namespace DateTime

/-- the beginning of a day -/
def ofDate (d : Date) : DateTime := ⟨d, .midnight⟩

/-- the date-time that many minutes later or earlier, less than two days away; the seconds are
kept -/
def addMinutes? (t : DateTime) (minutes : Int) : Option DateTime := do
  let total : Int := t.time.hour * 60 + t.time.minute + minutes
  let date ←
    if total < 0 then t.date.prev? else if 1440 ≤ total then t.date.next? else some t.date
  let ofDay := (total % 1440).toNat
  let time ← TimeOfDay.ofParts? (ofDay / 60) (ofDay % 60) t.time.second t.time.nano
  some ⟨date, time⟩

/-- the date-time with another second of the minute and another nanosecond -/
def withSecond? (t : DateTime) (second nano : Nat) : Option DateTime :=
  (TimeOfDay.ofParts? t.time.hour t.time.minute second nano).map (⟨t.date, ·⟩)

/-- a leap second counted to the following minute -/
def withoutLeap? (t : DateTime) : Option DateTime :=
  if t.time.second = 60 then do (← t.addMinutes? 1).withSecond? 0 t.time.nano else some t

/-- whole microseconds, towards the beginning of the year 2000 -/
def wholeMicroseconds? (t : DateTime) : Option DateTime :=
  let micros := if t.date.year < 2000 then (t.time.nano + 999) / 1000 else t.time.nano / 1000
  if micros < 1000000 then t.withSecond? t.time.second (micros * 1000)
  else if t.time.second < 59 then t.withSecond? (t.time.second + 1) 0
  else do (← t.addMinutes? 1).withSecond? 0 0

/-- the date-time as a database keeps it -/
def stored (t : DateTime) : DateTime :=
  (do (← t.withoutLeap?).wholeMicroseconds?).getD t

end DateTime
end EntityAccess
