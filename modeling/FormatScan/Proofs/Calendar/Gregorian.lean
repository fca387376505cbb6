import FormatScan.Calendar
import Mathlib.Tactic.IntervalCases

/-!
# The Gregorian calendar

Years have 365 days, and leap years one more at the end of February. Counting the lengths
of the years from 1970 on and those of the months in a year gives the day of a date, and
with the time of day its seconds. The date that is computed for a number of seconds is one
that the calendar has, and counting gives the seconds back.

The computation starts its years in March. Its years of an era are found by a division in
which the leap days are left out beforehand, so it has to be right at the last day of every
fourth year, of every century and of the era.
-/

namespace FormatScan

namespace Calendar

/-- The leap years: every fourth, but of the full centuries only every fourth. -/
def isLeap (year : Nat) : Bool := year % 4 == 0 && (year % 100 != 0 || year % 400 == 0)

/-- The days that a year has beyond 365. -/
def leapDay (year : Nat) : Nat := if isLeap year then 1 else 0

/-- The days of a month. -/
def monthDays (year month : Nat) : Nat :=
  match month with
  | 2 => 28 + leapDay year
  | 4 | 6 | 9 | 11 => 30
  | _ => 31

/-- The days of a year in front of a month. -/
def daysOfMonths (year month : Nat) : Nat := ((List.range' 1 (month - 1)).map (monthDays year)).sum

/-- The days of a year. -/
def yearDays (year : Nat) : Nat := daysOfMonths year 13

/-- The days of the years from 1970 up to a year. -/
def daysOfYears (year : Nat) : Nat := ((List.range' 1970 (year - 1970)).map yearDays).sum

theorem leapDay_le (year : Nat) : leapDay year ≤ 1 := by
  unfold leapDay
  split <;> omega

theorem yearDays_eq (year : Nat) : yearDays year = 365 + leapDay year := by
  simp only [yearDays, daysOfMonths, monthDays, List.range', List.map_cons, List.map_nil,
    List.sum_cons, List.sum_nil]
  omega

/-! ## Years that start in March -/

/-- The days from the first of March of the year 0 to that of a year. -/
def marchStart (year : Nat) : Nat := 365 * year + year / 4 - year / 100 + year / 400

/-- A year that starts in March ends with the February of the next year. -/
theorem marchStart_succ (year : Nat) :
    marchStart (year + 1) = marchStart year + 365 + leapDay (year + 1) := by
  have hleap : leapDay (year + 1) =
      if 4 ∣ year + 1 ∧ (¬100 ∣ year + 1 ∨ 400 ∣ year + 1) then 1 else 0 := by
    simp [leapDay, isLeap, Nat.dvd_iff_mod_eq_zero]
  have hcenturies : year / 100 ≤ year / 4 := Nat.div_le_div_left (by decide) (by decide)
  rw [hleap, marchStart, marchStart, Nat.succ_div, Nat.succ_div, Nat.succ_div]
  split_ifs <;> omega

/-- The calendar repeats after an era. -/
theorem marchStart_add_era (year era : Nat) :
    marchStart (year + era * 400) = marchStart year + era * DateTime.eraDays := by
  unfold marchStart DateTime.eraDays
  omega

/-- Every day in front of the start of a year is in one of the years before. -/
theorem exists_year {years day : Nat} (h : day < marchStart years) :
    ∃ year < years, marchStart year ≤ day ∧ day < marchStart (year + 1) := by
  induction years with
  | zero => exact absurd h (Nat.not_lt_zero day)
  | succ years ih =>
    by_cases hday : day < marchStart years
    · obtain ⟨year, hyear, hplace⟩ := ih hday
      exact ⟨year, Nat.lt_succ_of_lt hyear, hplace⟩
    · exact ⟨years, Nat.lt_succ_self years, Nat.le_of_not_lt hday, h⟩

/-- The years from 1970 up to a year, and those before 1970 from March on, make up the time
up to the January of that year. -/
theorem daysOfYears_add_epochDay {year : Nat} (h : 1970 ≤ year) :
    daysOfYears year + DateTime.epochDay = marchStart (year - 1) + 306 := by
  obtain ⟨n, rfl⟩ := Nat.exists_eq_add_of_le h
  induction n with
  | zero => decide
  | succ n ih =>
    have hcount : daysOfYears (1970 + (n + 1)) = daysOfYears (1970 + n) + yearDays (1970 + n) := by
      unfold daysOfYears
      rw [Nat.add_sub_cancel_left, Nat.add_sub_cancel_left, List.range'_1_concat, List.map_append,
        List.sum_append, List.map_singleton, List.sum_singleton]
    have hbefore := ih (Nat.le_add_right 1970 n)
    have hyear : 1970 + (n + 1) - 1 = 1970 + n - 1 + 1 := by omega
    have hlast : 1970 + n - 1 + 1 = 1970 + n := by omega
    rw [hcount, yearDays_eq, hyear, marchStart_succ, hlast]
    omega

/-! ## The year of an era -/

/-- The year of an era that a day of it is in. -/
def yearOfEra (day : Nat) : Nat := (day - day / 1460 + day / 36524 - day / 146096) / 365

/-- A day is placed by its century, its four years, its year and its day in this. Without
the leap days before it, its year is a quotient. -/
theorem yearOfEra_of_place {century cycle year rest day : Nat} (hcentury : century < 4)
    (hcycle : cycle < 25) (hyear : year < 4)
    (hrest : rest ≤ 364 ∨ rest = 365 ∧ year = 3 ∧ (cycle < 24 ∨ century = 3))
    (hday : day = 36524 * century + 1461 * cycle + 365 * year + rest) :
    yearOfEra day = 100 * century + 4 * cycle + year := by
  -- the last day of the era is the only one behind its fourth century
  have hcenturies : day / 36524 = century + day / 146096 := by
    by_cases hlast : day < 146096
    · rw [Nat.div_eq_of_lt hlast]
      omega
    · omega
  -- late in the last of four years its own leap day is left out already
  obtain ⟨late, hlate, hcycles⟩ : ∃ late, (late = 0 ∧ rest ≤ 364 ∨ late = 1 ∧ 0 < rest) ∧
      day / 1460 = 25 * century + cycle + late := by
    by_cases hearly : 24 * century + cycle + 365 * year + rest < 1460
    · exact ⟨0, by omega, by omega⟩
    · exact ⟨1, by omega, by omega⟩
  have heven : day - day / 1460 + day / 36524 - day / 146096 =
      365 * (100 * century + 4 * cycle + year) + (rest - late) := by omega
  rw [yearOfEra, heven]
  omega

theorem yearOfEra_eq {year day : Nat} (hyear : year < 400) (hstart : marchStart year ≤ day)
    (hend : day < marchStart (year + 1)) : yearOfEra day = year := by
  obtain ⟨century, cycle, last, hcentury, hcycle, hlast, rfl⟩ : ∃ century cycle last,
      century < 4 ∧ cycle < 25 ∧ last < 4 ∧ year = 100 * century + 4 * cycle + last :=
    ⟨year / 100, year % 100 / 4, year % 4, by omega, by omega, by omega, by omega⟩
  have hplace : marchStart (100 * century + 4 * cycle + last) =
      36524 * century + 1461 * cycle + 365 * last := by
    unfold marchStart
    omega
  obtain ⟨rest, hday⟩ := Nat.exists_eq_add_of_le hstart
  rw [hplace] at hday
  have hrest : rest ≤ 364 ∨ rest = 365 ∧ last = 3 ∧ (cycle < 24 ∨ century = 3) := by
    unfold marchStart at hend
    omega
  exact yearOfEra_of_place hcentury hcycle hlast hrest hday

/-- A day of an era is in the year that is found for it. -/
theorem yearOfEra_spec {day : Nat} (h : day < DateTime.eraDays) :
    yearOfEra day < 400 ∧ marchStart (yearOfEra day) ≤ day ∧
      day < marchStart (yearOfEra day + 1) := by
  have hera : day < marchStart 400 := h
  obtain ⟨year, hyear, hstart, hend⟩ := exists_year hera
  rw [yearOfEra_eq hyear hstart hend]
  exact ⟨hyear, hstart, hend⟩

/-! ## Months and days -/

/-- The date of a day in a year that starts in March, with a time of day. -/
def dateOfMarchDay (year day seconds : Nat) : DateTime :=
  let monthFromMarch := (5 * day + 2) / 153
  let month := if monthFromMarch < 10 then monthFromMarch + 3 else monthFromMarch - 9
  { year := year + (if month ≤ 2 then 1 else 0)
    month := month
    day := day - (153 * monthFromMarch + 2) / 5 + 1
    hour := seconds / 3600
    minute := seconds % 3600 / 60
    second := seconds % 60 }

end Calendar

namespace DateTime

open Calendar

/-- A date that the calendar has, with a time that a day has. -/
structure Valid (t : DateTime) : Prop where
  /-- Months are counted from 1. -/
  month_pos : 1 ≤ t.month
  /-- There are 12 of them. -/
  month_le : t.month ≤ 12
  /-- Days are counted from 1. -/
  day_pos : 1 ≤ t.day
  /-- There are as many of them as the month has. -/
  day_le : t.day ≤ monthDays t.year t.month
  /-- A day has 24 hours. -/
  hour_lt : t.hour < 24
  /-- An hour has 60 minutes. -/
  minute_lt : t.minute < 60
  /-- A minute has 60 seconds. -/
  second_lt : t.second < 60

/-- The seconds from the start of 1970 to a date and time. -/
def seconds (t : DateTime) : Nat :=
  (daysOfYears t.year + daysOfMonths t.year t.month + (t.day - 1)) * 86400 +
    t.hour * 3600 + t.minute * 60 + t.second

end DateTime

namespace Calendar

/-- A day of a year that starts in March is a day of a month. -/
theorem valid_dateOfMarchDay {year day seconds : Nat} (hday : day < 365 + leapDay (year + 1))
    (hseconds : seconds < 86400) : (dateOfMarchDay year day seconds).Valid := by
  have hleap := leapDay_le (year + 1)
  have hmonth : (5 * day + 2) / 153 < 12 := by omega
  unfold dateOfMarchDay
  refine ⟨?_, ?_, ?_, ?_, ?_, ?_, ?_⟩
  · dsimp only
    split <;> omega
  · dsimp only
    split <;> omega
  · exact Nat.le_add_left 1 _
  · dsimp only
    generalize hm : (5 * day + 2) / 153 = month at hmonth
    interval_cases month <;> simp only [monthDays, Nat.reduceLT, Nat.reduceAdd, Nat.reduceSub,
      Nat.reduceLeDiff, if_true, if_false] <;> omega
  · dsimp only
    omega
  · dsimp only
    omega
  · dsimp only
    omega

/-- From March on, the months of a year in front of one make up those since March, and
January and February. -/
theorem daysOfMonths_from_march (year : Nat) {month : Nat} (h : month < 10) :
    daysOfMonths year (month + 3) = 59 + leapDay year + (153 * month + 2) / 5 := by
  interval_cases month <;>
    simp only [daysOfMonths, monthDays, List.range', List.map_cons, List.map_nil, List.sum_cons,
      List.sum_nil, Nat.reduceAdd, Nat.reduceSub, Nat.reduceMul, Nat.reduceDiv] <;> omega

/-- January and February have 306 days behind them since March. -/
theorem daysOfMonths_of_winter (year : Nat) {month : Nat} (h : 10 ≤ month) (h' : month < 12) :
    daysOfMonths year (month - 9) + 306 = (153 * month + 2) / 5 := by
  interval_cases month <;> rfl

/-- Counting the years and months up to a day of a year that starts in March gives that
day. -/
theorem days_dateOfMarchDay {year day : Nat} (seconds : Nat) (hday : day < 366)
    (hepoch : DateTime.epochDay ≤ marchStart year + day) :
    let t := dateOfMarchDay year day seconds
    daysOfYears t.year + daysOfMonths t.year t.month + (t.day - 1) + DateTime.epochDay =
      marchStart year + day := by
  have hmonth : (5 * day + 2) / 153 < 12 := by omega
  have hstart : (153 * ((5 * day + 2) / 153) + 2) / 5 ≤ day := by omega
  have hearly : 1969 ≤ year ∧ (year = 1969 → 306 ≤ day) := by
    unfold marchStart DateTime.epochDay at hepoch
    omega
  unfold dateOfMarchDay
  dsimp only
  by_cases hmarch : (5 * day + 2) / 153 < 10
  · have hyear : 1970 ≤ year := by omega
    have hyears := daysOfYears_add_epochDay hyear
    have hmonths := daysOfMonths_from_march year hmarch
    obtain ⟨before, rfl⟩ : ∃ before, year = before + 1 := ⟨year - 1, by omega⟩
    rw [if_pos hmarch, if_neg (by omega), Nat.add_zero, hmonths, marchStart_succ]
    rw [Nat.add_sub_cancel] at hyears
    omega
  · have hyear : 1970 ≤ year + 1 := Nat.succ_le_succ hearly.1
    have hyears := daysOfYears_add_epochDay hyear
    have hmonths := daysOfMonths_of_winter (year + 1) (Nat.le_of_not_lt hmarch) hmonth
    rw [if_neg hmarch, if_pos (by omega)]
    rw [Nat.add_sub_cancel] at hyears
    omega

end Calendar

namespace DateTime

open Calendar

/-- The date and time for a number of seconds is that of a day in a year of an era. -/
theorem ofSeconds_eq (count : Nat) :
    let era := (count / 86400 + epochDay) / eraDays
    let day := (count / 86400 + epochDay) % eraDays
    ofSeconds count = dateOfMarchDay (yearOfEra day + era * 400)
      (day - (365 * yearOfEra day + yearOfEra day / 4 - yearOfEra day / 100)) (count % 86400) :=
  rfl

/-- It is that of a day in a year that starts in March, with the rest of the seconds. -/
theorem exists_ofSeconds_eq (count : Nat) : ∃ year day,
    marchStart year + day = count / 86400 + epochDay ∧ day < 365 + leapDay (year + 1) ∧
      ofSeconds count = dateOfMarchDay year day (count % 86400) := by
  let era := (count / 86400 + epochDay) / eraDays
  let dayOfEra := (count / 86400 + epochDay) % eraDays
  have hdays : era * eraDays + dayOfEra = count / 86400 + epochDay := Nat.div_add_mod' _ _
  have hera : dayOfEra < eraDays := Nat.mod_lt _ (by decide)
  obtain ⟨hyear, hstart, hend⟩ := yearOfEra_spec hera
  have hplain : marchStart (yearOfEra dayOfEra) = 365 * yearOfEra dayOfEra +
      yearOfEra dayOfEra / 4 - yearOfEra dayOfEra / 100 := by
    rw [marchStart, Nat.div_eq_of_lt hyear, Nat.add_zero]
  have hfirst := marchStart_add_era (yearOfEra dayOfEra) era
  have hlength : marchStart (yearOfEra dayOfEra + 1) + era * eraDays =
      marchStart (yearOfEra dayOfEra) + era * eraDays + 365 +
        leapDay (yearOfEra dayOfEra + era * 400 + 1) := by
    rw [← hfirst, ← marchStart_succ, ← marchStart_add_era, Nat.add_right_comm]
  refine ⟨yearOfEra dayOfEra + era * 400, dayOfEra - marchStart (yearOfEra dayOfEra), ?_, ?_, ?_⟩
  · omega
  · omega
  · rw [hplain]
    exact ofSeconds_eq count

/-- The date and time for a number of seconds is one that there is, and counting the
lengths of the years, of the months and of the day up to it gives these seconds. -/
theorem valid_ofSeconds (count : Nat) :
    (ofSeconds count).Valid ∧ (ofSeconds count).seconds = count := by
  obtain ⟨year, day, hdays, hday, heq⟩ := exists_ofSeconds_eq count
  have hleap := leapDay_le (year + 1)
  have hepoch : epochDay ≤ marchStart year + day := hdays ▸ Nat.le_add_left _ _
  have hcount := days_dateOfMarchDay (count % 86400) (by omega) hepoch
  rw [heq]
  refine ⟨valid_dateOfMarchDay hday (Nat.mod_lt count (by decide)), ?_⟩
  have htime : (dateOfMarchDay year day (count % 86400)).hour * 3600 +
      (dateOfMarchDay year day (count % 86400)).minute * 60 +
      (dateOfMarchDay year day (count % 86400)).second = count % 86400 := by
    unfold dateOfMarchDay
    dsimp only
    omega
  have hcounted : daysOfYears (dateOfMarchDay year day (count % 86400)).year +
      daysOfMonths (dateOfMarchDay year day (count % 86400)).year
        (dateOfMarchDay year day (count % 86400)).month +
      ((dateOfMarchDay year day (count % 86400)).day - 1) = count / 86400 :=
    Nat.add_right_cancel (hcount.trans hdays)
  rw [seconds, hcounted, Nat.add_assoc, Nat.add_assoc, ← Nat.add_assoc (_ * 3600), htime]
  exact Nat.div_add_mod' count 86400

/-- The leap day of the year 2000, which is a full century. -/
example : ofSeconds 951827696 = ⟨2000, 2, 29, 12, 34, 56⟩ := by decide

end DateTime

end FormatScan
