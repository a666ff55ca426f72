import ArbBot.Foundation.Blocks
import Mathlib.Data.Int.ConditionallyCompleteOrder
import Mathlib.Data.Int.SuccPred
import Mathlib.Tactic.Ring

/-!
# The time of a report

`epoch_days_to_ymd` takes the years and then the months off a number of days. A difference or a
sum that leaves `u64` has no value, so a value means that there was none.

`Date` is a date of the proleptic Gregorian calendar and `Date.dayNumber` counts its days from
1970-01-01 on: years and months are consecutive blocks of days.
-/

namespace ArbBot

open Foundation

/-! ## The source -/

/-- `a - b` on `u64`. -/
def checkedSub (a b : UInt64) : Option UInt64 := if b ≤ a then some (a - b) else none

/-- `a + b` on `u64`. -/
def checkedAdd (a b : UInt64) : Option UInt64 :=
  if a.toNat + b.toNat < 2 ^ 64 then some (a + b) else none

def isLeap (y : UInt64) : Bool := (y % 4 == 0 && y % 100 != 0) || y % 400 == 0

/-- The days of a year. -/
def daysOfYear (year : UInt64) : UInt64 := if isLeap year then 366 else 365

/-- A difference has a value just when it is exact. -/
theorem checkedSub_eq_some_iff {a b c : UInt64} :
    checkedSub a b = some c ↔ c.toNat + b.toNat = a.toNat := by
  unfold checkedSub
  split
  · rename_i below
    rw [Option.some_inj, ← UInt64.toNat_inj, UInt64.toNat_sub_of_le _ _ below]
    have order := UInt64.le_iff_toNat_le.mp below
    omega
  · rename_i above
    rw [UInt64.le_iff_toNat_le] at above
    exact iff_of_false (fun taken => by cases taken) (by omega)

/-- A sum has a value just when it is exact. -/
theorem checkedAdd_eq_some_iff {a b c : UInt64} :
    checkedAdd a b = some c ↔ c.toNat = a.toNat + b.toNat := by
  have bound := c.toNat_lt
  unfold checkedAdd
  split
  · rename_i fits
    rw [Option.some_inj, ← UInt64.toNat_inj, UInt64.toNat_add, Nat.mod_eq_of_lt fits, eq_comm]
  · exact iff_of_false (fun taken => by cases taken) (by omega)

theorem checkedSub_lt {days dy rest : UInt64} (positive : 0 < dy)
    (left : checkedSub days dy = some rest) : rest.toNat < days.toNat := by
  have balance := checkedSub_eq_some_iff.mp left
  have first : 0 < dy.toNat := UInt64.lt_iff_toNat_lt.mp positive
  omega

theorem daysOfYear_pos (year : UInt64) : 0 < daysOfYear year := by
  unfold daysOfYear
  split <;> decide

/-- The loop over the years: the year and the days that are left of it. -/
def yearLoop (days year : UInt64) : Option (UInt64 × UInt64) :=
  if days < daysOfYear year then some (days, year)
  else
    match _left : checkedSub days (daysOfYear year) with
    | none => none
    | some rest =>
        match checkedAdd year 1 with
        | none => none
        | some next => yearLoop rest next
termination_by days.toNat
decreasing_by exact checkedSub_lt (daysOfYear_pos year) _left

def monthDays (year : UInt64) : List UInt64 :=
  if isLeap year then [31, 29, 31, 30, 31, 30, 31, 31, 30, 31, 30, 31]
  else [31, 28, 31, 30, 31, 30, 31, 31, 30, 31, 30, 31]

/-- The loop over the months. -/
def monthLoop : List UInt64 → UInt64 → UInt64 → Option (UInt64 × UInt64)
  | [], days, month => some (days, month)
  | dm :: rest, days, month =>
      if days < dm then some (days, month)
      else
        match checkedSub days dm with
        | none => none
        | some left =>
            match checkedAdd month 1 with
            | none => none
            | some next => monthLoop rest left next

def epochDaysToYmd (days : UInt64) : Option (UInt64 × UInt64 × UInt64) := do
  let (days, year) ← yearLoop days 1970
  let (days, month) ← monthLoop (monthDays year) days 1
  let day ← checkedAdd days 1
  return (year, month, day)

/-- The fields of `now_iso`. -/
structure IsoTime where
  year : UInt64
  month : UInt64
  day : UInt64
  h : UInt64
  m : UInt64
  s : UInt64
  deriving DecidableEq, Repr

def isoTime (totalSecs : UInt64) : Option IsoTime := do
  let s := totalSecs % 60
  let m := totalSecs / 60 % 60
  let h := totalSecs / 3600 % 24
  let (year, month, day) ← epochDaysToYmd (totalSecs / 86400)
  return { year := year, month := month, day := day, h := h, m := m, s := s }

/-- The number with leading zeros. -/
def padded (width : Nat) (n : UInt64) : String :=
  let digits := toString n.toNat
  String.ofList (List.replicate (width - digits.length) '0') ++ digits

/-- `now_iso`, for the seconds of the system clock. -/
def nowIso (totalSecs : UInt64) : Option String :=
  (isoTime totalSecs).map fun t =>
    padded 4 t.year ++ "-" ++ padded 2 t.month ++ "-" ++ padded 2 t.day ++ "T" ++
      padded 2 t.h ++ ":" ++ padded 2 t.m ++ ":" ++ padded 2 t.s ++ "Z"

/-- The fields in their order. -/
def IsoTime.fields (t : IsoTime) : List UInt64 := [t.year, t.month, t.day, t.h, t.m, t.s]

/-! ## The calendar -/

/-- Every fourth year but the centuries that are no multiple of 400. -/
def LeapYear (year : Int) : Prop := (year % 4 = 0 ∧ year % 100 ≠ 0) ∨ year % 400 = 0

instance (year : Int) : Decidable (LeapYear year) := inferInstanceAs (Decidable (_ ∨ _))

def yearLength (year : Int) : Int := if LeapYear year then 366 else 365

def monthLengths (year : Int) : List Nat :=
  [31, if LeapYear year then 29 else 28, 31, 30, 31, 30, 31, 31, 30, 31, 30, 31]

/-- The first day of a year: 1970 starts with day 0. -/
def yearStart (year : Int) : Int :=
  365 * (year - 1970) + ((year - 1) / 4 - 492) - ((year - 1) / 100 - 19) +
    ((year - 1) / 400 - 4)

theorem yearStart_epoch : yearStart 1970 = 0 := by decide

/-- A year is as long as it is. -/
theorem yearStart_succ (year : Int) : yearStart (year + 1) = yearStart year + yearLength year := by
  have fours : year / 4 = (year - 1) / 4 + if year % 4 = 0 then 1 else 0 := by
    split <;> omega
  have hundreds : year / 100 = (year - 1) / 100 + if year % 100 = 0 then 1 else 0 := by
    split <;> omega
  have fourHundreds : year / 400 = (year - 1) / 400 + if year % 400 = 0 then 1 else 0 := by
    split <;> omega
  have ofHundred : year % 100 = 0 → year % 4 = 0 := by omega
  have ofFourHundred : year % 400 = 0 → year % 100 = 0 := by omega
  unfold yearStart yearLength
  rw [Int.add_sub_cancel, fours, hundreds, fourHundreds]
  by_cases four : year % 4 = 0
  · by_cases hundred : year % 100 = 0
    · by_cases fourHundred : year % 400 = 0
      · have leap : LeapYear year := Or.inr fourHundred
        rw [if_pos four, if_pos hundred, if_pos fourHundred, if_pos leap]
        ring
      · have common : ¬ LeapYear year := by simp [LeapYear, hundred, fourHundred]
        rw [if_pos four, if_pos hundred, if_neg fourHundred, if_neg common]
        ring
    · have leap : LeapYear year := Or.inl ⟨four, hundred⟩
      rw [if_pos four, if_neg hundred, if_neg (mt ofFourHundred hundred), if_pos leap]
      ring
  · have hundred := mt ofHundred four
    have fourHundred := mt ofFourHundred hundred
    have common : ¬ LeapYear year := by simp [LeapYear, four, fourHundred]
    rw [if_neg four, if_neg hundred, if_neg fourHundred, if_neg common]
    ring

theorem length_monthLengths (year : Int) : (monthLengths year).length = 12 := rfl

/-- The months make up the year. -/
theorem sum_monthLengths (year : Int) : ((monthLengths year).sum : Int) = yearLength year := by
  unfold monthLengths yearLength
  split <;> rfl

/-- A date, with its month and its day counted from 1. -/
structure Date where
  year : Int
  month : Nat
  day : Nat
  month_pos : 1 ≤ month
  month_le : month ≤ 12
  day_pos : 1 ≤ day
  day_le : ∀ length ∈ (monthLengths year)[month - 1]?, day ≤ length

namespace Date

/-- The day of the year, from 0 on. -/
def dayOfYear (date : Date) : Nat :=
  blockStart (monthLengths date.year) (date.month - 1) + (date.day - 1)

/-- The days since 1970-01-01. -/
def dayNumber (date : Date) : Int := yearStart date.year + date.dayOfYear

variable {date other : Date}

theorem month_inside (date : Date) : date.month - 1 < (monthLengths date.year).length := by
  rw [length_monthLengths]
  have lower := date.month_pos
  have upper := date.month_le
  omega

/-- The day of the year lies in the month. -/
theorem month_block (date : Date) :
    Block (blockStart (monthLengths date.year)) (date.month - 1) date.dayOfYear := by
  refine ⟨Nat.le_add_right _ _, ?_⟩
  rw [blockStart_succ date.month_inside, dayOfYear]
  have length := date.day_le _ (List.getElem?_eq_getElem date.month_inside)
  have lower := date.day_pos
  omega

theorem dayOfYear_lt (date : Date) : (date.dayOfYear : Int) < yearLength date.year := by
  have starts : Monotone (blockStart (monthLengths date.year)) := blockStart_mono
  have bound := date.month_block.2.trans_le (starts (Nat.succ_le_of_lt date.month_inside))
  rw [blockStart, List.take_length, ← Int.ofNat_lt, sum_monthLengths] at bound
  exact bound

end Date

theorem yearStart_mono : Monotone yearStart := by
  apply monotone_int_of_le_succ
  intro year
  have length : 0 ≤ yearLength year := by
    unfold yearLength
    split <;> decide
  rw [yearStart_succ]
  omega

namespace Date

variable {date other : Date}

/-- The day lies in the year. -/
theorem year_block (date : Date) : Block yearStart date.year date.dayNumber := by
  have inside := date.dayOfYear_lt
  refine ⟨?_, ?_⟩
  · rw [dayNumber]
    omega
  · rw [yearStart_succ, dayNumber]
    omega

/-- **The order of dates.** Days come in the order of year, month and day. -/
theorem dayNumber_lt_iff : date.dayNumber < other.dayNumber ↔
    date.year < other.year ∨ date.year = other.year ∧
      (date.month < other.month ∨ date.month = other.month ∧ date.day < other.day) := by
  rw [date.year_block.lt_iff yearStart_mono other.year_block]
  refine or_congr_right (and_congr_right fun same => ?_)
  have months := other.month_block
  rw [← same] at months
  have days : date.dayNumber < other.dayNumber ↔ date.dayOfYear < other.dayOfYear := by
    rw [dayNumber, dayNumber, same]
    omega
  rw [days, date.month_block.lt_iff blockStart_mono months]
  have lower := date.month_pos
  have lower' := other.month_pos
  have first := date.day_pos
  have first' := other.day_pos
  refine or_congr (by omega) ?_
  constructor
  · intro order
    have month : date.month = other.month := by omega
    refine ⟨month, ?_⟩
    rw [dayOfYear, dayOfYear, month, same] at order
    omega
  · intro order
    refine ⟨by omega, ?_⟩
    rw [dayOfYear, dayOfYear, order.1, same]
    omega

/-- A day has one date. -/
theorem dayNumber_inj : date.dayNumber = other.dayNumber ↔ date = other := by
  constructor
  · intro same
    have before := mt dayNumber_lt_iff.mpr (by omega : ¬ date.dayNumber < other.dayNumber)
    have after := mt dayNumber_lt_iff.mpr (by omega : ¬ other.dayNumber < date.dayNumber)
    rcases date with ⟨year, month, day⟩
    rcases other with ⟨year', month', day'⟩
    simp only at before after
    have equal : year = year' ∧ month = month' ∧ day = day' := by omega
    rcases equal with ⟨rfl, rfl, rfl⟩
    rfl
  · intro same
    rw [same]

end Date

/-! ## The loops -/

section Loops

variable {days year : UInt64}

theorem exists_checkedSub {a b : UInt64} (below : b ≤ a) : ∃ c, checkedSub a b = some c :=
  ⟨a - b, if_pos below⟩

theorem exists_checkedAdd {a b : UInt64} (fits : a.toNat + b.toNat < 2 ^ 64) :
    ∃ c, checkedAdd a b = some c := ⟨a + b, if_pos fits⟩

theorem isLeap_iff (year : UInt64) : isLeap year = true ↔ LeapYear year.toNat := by
  simp only [isLeap, LeapYear, Bool.or_eq_true, Bool.and_eq_true, beq_iff_eq, bne_iff_ne, ne_eq,
    ← UInt64.toNat_inj, UInt64.toNat_mod]
  have four : (4 : UInt64).toNat = 4 := rfl
  have century : (100 : UInt64).toNat = 100 := rfl
  have cycle : (400 : UInt64).toNat = 400 := rfl
  have zero : (0 : UInt64).toNat = 0 := rfl
  rw [four, century, cycle, zero]
  omega

theorem toNat_daysOfYear (year : UInt64) :
    ((daysOfYear year).toNat : Int) = yearLength year.toNat := by
  unfold daysOfYear yearLength
  by_cases leap : isLeap year = true
  · rw [if_pos leap, if_pos ((isLeap_iff year).mp leap)]
    rfl
  · rw [if_neg leap, if_neg (mt (isLeap_iff year).mpr leap)]
    rfl

theorem monthDays_eq (year : UInt64) :
    (monthDays year).map UInt64.toNat = monthLengths year.toNat := by
  unfold monthDays monthLengths
  by_cases leap : isLeap year = true
  · rw [if_pos leap, if_pos ((isLeap_iff year).mp leap)]
    rfl
  · rw [if_neg leap, if_neg (mt (isLeap_iff year).mpr leap)]
    rfl

/-- The years come to an end, and the days that are left lie in the year that is left. -/
theorem yearLoop_eq_some (fits : year.toNat + days.toNat < 2 ^ 64) :
    ∃ rest last, yearLoop days year = some (rest, last) ∧
      yearStart last.toNat + rest.toNat = yearStart year.toNat + days.toNat ∧
        (rest.toNat : Int) < yearLength last.toNat := by
  have one : (1 : UInt64).toNat = 1 := rfl
  fun_induction yearLoop days year with
  | case1 days year inside =>
      refine ⟨days, year, rfl, rfl, ?_⟩
      rw [← toNat_daysOfYear, Int.ofNat_lt]
      exact UInt64.lt_iff_toNat_lt.mp inside
  | case2 days year beyond left =>
      rcases exists_checkedSub (UInt64.not_lt.mp beyond) with ⟨rest, taken⟩
      rw [taken] at left
      cases left
  | case3 days year beyond rest left full =>
      have shorter := checkedSub_lt (daysOfYear_pos year) left
      rcases exists_checkedAdd (by omega : year.toNat + (1 : UInt64).toNat < 2 ^ 64) with
        ⟨next, added⟩
      rw [added] at full
      cases full
  | case4 days year beyond rest left next added ih =>
      have shorter := checkedSub_lt (daysOfYear_pos year) left
      have taken := checkedSub_eq_some_iff.mp left
      have later := checkedAdd_eq_some_iff.mp added
      rcases ih (by omega) with ⟨days', last, ended, sum, inside⟩
      refine ⟨days', last, ended, sum.trans ?_, inside⟩
      rw [later, one, Nat.cast_add, Nat.cast_one, yearStart_succ, ← toNat_daysOfYear]
      omega

/-- The months come to an end in the month of the day. -/
theorem monthLoop_eq_some {lengths : List UInt64} {month : UInt64}
    (fits : month.toNat + lengths.length < 2 ^ 64)
    (inside : days.toNat < (lengths.map UInt64.toNat).sum) :
    ∃ rest last i, monthLoop lengths days month = some (rest, last) ∧
      last.toNat = month.toNat + i ∧ i < lengths.length ∧
        days.toNat = blockStart (lengths.map UInt64.toNat) i + rest.toNat ∧
          ∀ length ∈ (lengths.map UInt64.toNat)[i]?, rest.toNat < length := by
  induction lengths generalizing days month with
  | nil => cases inside
  | cons dm lengths ih =>
      rw [List.length_cons] at fits
      rw [List.map_cons, List.sum_cons] at inside
      unfold monthLoop
      split
      · rename_i here
        refine ⟨days, month, 0, rfl, rfl, Nat.succ_pos _, ?_, ?_⟩
        · simp [blockStart]
        · intro length found
          cases found
          exact UInt64.lt_iff_toNat_lt.mp here
      · rename_i beyond
        have one : (1 : UInt64).toNat = 1 := rfl
        rcases exists_checkedSub (UInt64.not_lt.mp beyond) with ⟨left, taken⟩
        rcases exists_checkedAdd (by omega : month.toNat + (1 : UInt64).toNat < 2 ^ 64) with
          ⟨next, added⟩
        have balance := checkedSub_eq_some_iff.mp taken
        have later := checkedAdd_eq_some_iff.mp added
        rcases ih (by omega : next.toNat + lengths.length < 2 ^ 64)
          (by omega : left.toNat < (lengths.map UInt64.toNat).sum) with
          ⟨rest, last, i, ended, sum, short, days', within⟩
        simp only [taken, added]
        refine ⟨rest, last, i + 1, ended, by omega, Nat.succ_lt_succ short, ?_, within⟩
        rw [List.map_cons, blockStart_cons]
        omega

/-- The words are the fields of the date. -/
structure Date.Shows (date : Date) (year month day : UInt64) : Prop where
  year : date.year = year.toNat
  month : date.month = month.toNat
  day : date.day = day.toNat

/-- The date of a number of days. -/
theorem epochDaysToYmd_eq_some (fits : days.toNat + 1970 < 2 ^ 64) :
    ∃ (date : Date) (year month day : UInt64), epochDaysToYmd days = some (year, month, day) ∧
      date.Shows year month day ∧ date.dayNumber = days.toNat := by
  have epoch : (1970 : UInt64).toNat = 1970 := rfl
  have one : (1 : UInt64).toNat = 1 := rfl
  rcases yearLoop_eq_some (by omega : (1970 : UInt64).toNat + days.toNat < 2 ^ 64) with
    ⟨ofYear, year, years, sum, inside⟩
  have length : (monthDays year).length = 12 := by
    rw [← List.length_map UInt64.toNat, monthDays_eq, length_monthLengths]
  have within : ofYear.toNat < ((monthDays year).map UInt64.toNat).sum := by
    rw [monthDays_eq, ← Int.ofNat_lt, sum_monthLengths]
    exact inside
  rcases monthLoop_eq_some (by omega : (1 : UInt64).toNat + (monthDays year).length < 2 ^ 64)
    within with ⟨ofMonth, month, i, months, number, short, split, below⟩
  have bound : ofMonth.toNat ≤ ofYear.toNat := by omega
  have short' : yearLength year.toNat ≤ 366 := by
    unfold yearLength
    split <;> decide
  rcases exists_checkedAdd (by omega : ofMonth.toNat + (1 : UInt64).toNat < 2 ^ 64) with
    ⟨day, added⟩
  have next := checkedAdd_eq_some_iff.mp added
  have index : month.toNat - 1 = i := by omega
  rw [monthDays_eq] at below split
  let date : Date := {
    year := year.toNat
    month := month.toNat
    day := day.toNat
    month_pos := by omega
    month_le := by omega
    day_pos := by omega
    day_le := by
      intro length found
      rw [index] at found
      have last := below length found
      omega }
  refine ⟨date, year, month, day, ?_, ⟨rfl, rfl, rfl⟩, ?_⟩
  · simp only [epochDaysToYmd, years, months, added, Option.bind_eq_bind, Option.bind_some,
      Option.pure_def]
  · rw [epoch, show ((1970 : Nat) : Int) = 1970 from rfl, yearStart_epoch] at sum
    have offset : date.dayOfYear = ofYear.toNat := by
      change blockStart (monthLengths year.toNat) (month.toNat - 1) + (day.toNat - 1) = _
      rw [index]
      omega
    change yearStart year.toNat + (date.dayOfYear : Int) = _
    rw [offset]
    omega

end Loops

/-! ## The time -/

/-- The fields of the time of a date and a time of day. -/
theorem isoTime_eq_some (totalSecs : UInt64) :
    ∃ (date : Date) (t : IsoTime), isoTime totalSecs = some t ∧
      epochDaysToYmd (totalSecs / 86400) = some (t.year, t.month, t.day) ∧
        date.Shows t.year t.month t.day ∧ date.dayNumber = (totalSecs.toNat / 86400 : Nat) ∧
          t.h.toNat = totalSecs.toNat / 3600 % 24 ∧ t.m.toNat = totalSecs.toNat / 60 % 60 ∧
            t.s.toNat = totalSecs.toNat % 60 := by
  have bound := totalSecs.toNat_lt
  have days : (totalSecs / 86400).toNat = totalSecs.toNat / 86400 := by
    rw [UInt64.toNat_div]
    rfl
  rcases epochDaysToYmd_eq_some (by omega : (totalSecs / 86400).toNat + 1970 < 2 ^ 64) with
    ⟨date, year, month, day, found, fields, number⟩
  let t : IsoTime := {
    year := year
    month := month
    day := day
    h := totalSecs / 3600 % 24
    m := totalSecs / 60 % 60
    s := totalSecs % 60 }
  refine ⟨date, t, ?_, found, fields, ?_, ?_, ?_, ?_⟩
  · simp only [isoTime, found, Option.bind_eq_bind, Option.bind_some, Option.pure_def]
    rfl
  · rw [number, days]
  · rw [UInt64.toNat_mod, UInt64.toNat_div]
    rfl
  · rw [UInt64.toNat_mod, UInt64.toNat_div]
    rfl
  · rw [UInt64.toNat_mod]
    rfl

/-- Days come in the order of the words of their dates. -/
theorem Date.Shows.days_lt_iff {date other : Date} {year month day year' month' day' : UInt64}
    {n n' : Nat} (shows : date.Shows year month day) (shows' : other.Shows year' month' day')
    (number : date.dayNumber = n) (number' : other.dayNumber = n') :
    n < n' ↔ year.toNat < year'.toNat ∨ year.toNat = year'.toNat ∧
      (month.toNat < month'.toNat ∨ month.toNat = month'.toNat ∧ day.toNat < day'.toNat) := by
  have order : date.dayNumber < other.dayNumber ↔ _ := Date.dayNumber_lt_iff
  rw [number, number', shows.year, shows'.year, shows.month, shows'.month, shows.day, shows'.day,
    Int.ofNat_lt, Int.ofNat_lt, Int.ofNat_inj] at order
  exact order

/-- Seconds come in the order of their day, hour, minute and second. -/
theorem secs_lt_iff (n m : Nat) : n < m ↔ n / 86400 < m / 86400 ∨ n / 86400 = m / 86400 ∧
    (n / 3600 % 24 < m / 3600 % 24 ∨ n / 3600 % 24 = m / 3600 % 24 ∧
      (n / 60 % 60 < m / 60 % 60 ∨ n / 60 % 60 = m / 60 % 60 ∧ n % 60 < m % 60)) := by
  have ofMinute : n < m ↔ n / 60 < m / 60 ∨ n / 60 = m / 60 ∧ n % 60 < m % 60 := by omega
  have ofHour : n / 60 < m / 60 ↔ n / 3600 < m / 3600 ∨
      n / 3600 = m / 3600 ∧ n / 60 % 60 < m / 60 % 60 := by omega
  have ofDay : n / 3600 < m / 3600 ↔ n / 86400 < m / 86400 ∨
      n / 86400 = m / 86400 ∧ n / 3600 % 24 < m / 3600 % 24 := by omega
  have sameMinute : n / 60 = m / 60 ↔ n / 3600 = m / 3600 ∧ n / 60 % 60 = m / 60 % 60 := by omega
  have sameHour : n / 3600 = m / 3600 ↔
      n / 86400 = m / 86400 ∧ n / 3600 % 24 = m / 3600 % 24 := by omega
  rw [ofMinute, ofHour, sameMinute, ofDay, sameHour]
  simp only [and_or_left, or_assoc, and_assoc]

/-- Times come in the order of their fields. -/
theorem isoTime_lt_iff {totalSecs later : UInt64} {t u : IsoTime}
    (first : isoTime totalSecs = some t) (second : isoTime later = some u) :
    totalSecs < later ↔ t.fields < u.fields := by
  rcases isoTime_eq_some totalSecs with ⟨date, _, shown, -, fields, number, h, m, s⟩
  rw [first] at shown
  cases shown
  rcases isoTime_eq_some later with ⟨other, _, shown', -, fields', number', h', m', s'⟩
  rw [second] at shown'
  cases shown'
  have before := fields.days_lt_iff fields' number number'
  have after := fields'.days_lt_iff fields number' number
  have same : totalSecs.toNat / 86400 = later.toNat / 86400 ↔
      t.year.toNat = u.year.toNat ∧ t.month.toNat = u.month.toNat ∧
        t.day.toNat = u.day.toNat := by
    omega
  simp only [IsoTime.fields, List.cons_lt_cons_iff, UInt64.lt_iff_toNat_lt, ← UInt64.toNat_inj,
    List.not_lt_nil, and_false, or_false]
  rw [secs_lt_iff, before, same, ← h, ← m, ← s, ← h', ← m', ← s']
  simp only [and_or_left, or_assoc, and_assoc]

/-- **The calendar.** The conversion ends without a wrapping difference in the one date of the
day, and the fields determine the time and order it. -/
theorem isoTime_calendar (totalSecs : UInt64) :
    (∃ (date : Date) (year month day : UInt64),
      epochDaysToYmd (totalSecs / 86400) = some (year, month, day) ∧
        date.Shows year month day ∧
          ∀ other : Date, other.dayNumber = (totalSecs.toNat / 86400 : Nat) ↔ other = date) ∧
      ∀ later : UInt64, ∃ t u, isoTime totalSecs = some t ∧ isoTime later = some u ∧
        (totalSecs < later ↔ t.fields < u.fields) ∧ (t = u → totalSecs = later) := by
  constructor
  · rcases isoTime_eq_some totalSecs with ⟨date, t, -, found, fields, number, -⟩
    refine ⟨date, _, _, _, found, fields, ?_⟩
    intro other
    rw [← number]
    exact Date.dayNumber_inj
  · intro later
    rcases isoTime_eq_some totalSecs with ⟨-, t, shown, -⟩
    rcases isoTime_eq_some later with ⟨-, u, shown', -⟩
    refine ⟨t, u, shown, shown', isoTime_lt_iff shown shown', ?_⟩
    intro same
    subst same
    have before := mt (isoTime_lt_iff shown shown').mp (List.lt_irrefl _)
    have after := mt (isoTime_lt_iff shown' shown).mp (List.lt_irrefl _)
    exact UInt64.le_antisymm (UInt64.not_lt.mp after) (UInt64.not_lt.mp before)

end ArbBot
