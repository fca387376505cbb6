import FormatScan.Proofs.Calendar.Gregorian
import FormatScan.Proofs.Calendar.Written
import FormatScan.Proofs.Machine.Operations

/-!
# Dates on a machine

The date and time for a number of seconds is computed with signed words of 64 bits. Each
operation looks whether its result is such a word, and none finds one that is not: even
the largest unsigned word of seconds has fewer than 2 ^ 48 days, and nothing on the way to
its date is greater than they are by more than the days before 1970. Where the numbers are
not negative, the divisions are those of natural numbers.
-/

namespace FormatScan.Machine

/-! ## Signed words -/

/-- A number that has to be a signed word. -/
def quad (a : Int) : Checked Int :=
  require (Quad.least ≤ a ∧ a ≤ Quad.greatest) .overflow fun _ => .ok a

/-- Subtract two signed words. -/
def subQuad (a b : Int) : Checked Int := quad (a - b)

/-- Multiply two signed words. -/
def mulQuad (a b : Int) : Checked Int := quad (a * b)

/-- Divide two signed words. The quotient is rounded towards zero. -/
def divQuad (a b : Int) : Checked Int :=
  require (b ≠ 0) .divisionByZero fun _ => quad (Int.tdiv a b)

/-- Divide two signed words, so that a remainder is left that is not negative. -/
def divEuclid (a b : Int) : Checked Int :=
  require (b ≠ 0) .divisionByZero fun _ => quad (a / b)

/-- The remainder of a division that is not negative. -/
def remEuclid (a b : Int) : Checked Int :=
  require (b ≠ 0) .divisionByZero fun _ => quad (a % b)

/-- A part of a date, which is not negative. -/
def part (a : Int) : Checked Nat := require (0 ≤ a) .boundBroken fun _ => .ok a.toNat

/-- A natural number that is a signed word. -/
theorem quad_eq {a : Int} {n : Nat} (h : a = n) (hn : n ≤ 9223372036854775807) :
    quad a = .ok (n : Int) := by
  have hrange : Quad.least ≤ a ∧ a ≤ Quad.greatest := by
    unfold Quad.least Quad.greatest
    omega
  rw [quad, require_of hrange, h]

theorem addQuad_eq {a b : Int} {n : Nat} (h : a + b = n) (hn : n ≤ 9223372036854775807) :
    addQuad a b = .ok (n : Int) := quad_eq h hn

theorem subQuad_eq {a b : Int} {n : Nat} (h : a - b = n) (hn : n ≤ 9223372036854775807) :
    subQuad a b = .ok (n : Int) := quad_eq h hn

theorem mulQuad_eq {a b : Int} {n : Nat} (h : a * b = n) (hn : n ≤ 9223372036854775807) :
    mulQuad a b = .ok (n : Int) := quad_eq h hn

section Division

variable {a b : Nat} (hb : b ≠ 0) (ha : a ≤ 9223372036854775807)
include hb ha

theorem divQuad_eq : divQuad a b = .ok ((a / b : Nat) : Int) := by
  have hb' : (b : Int) ≠ 0 := Int.natCast_ne_zero.mpr hb
  rw [divQuad, require_of hb']
  exact quad_eq rfl (Nat.le_trans (Nat.div_le_self a b) ha)

theorem divEuclid_eq : divEuclid a b = .ok ((a / b : Nat) : Int) := by
  have hb' : (b : Int) ≠ 0 := Int.natCast_ne_zero.mpr hb
  rw [divEuclid, require_of hb']
  exact quad_eq rfl (Nat.le_trans (Nat.div_le_self a b) ha)

theorem remEuclid_eq : remEuclid a b = .ok ((a % b : Nat) : Int) := by
  have hb' : (b : Int) ≠ 0 := Int.natCast_ne_zero.mpr hb
  rw [remEuclid, require_of hb']
  exact quad_eq rfl (Nat.le_trans (Nat.mod_le a b) ha)

end Division

theorem part_eq (n : Nat) : part (n : Int) = .ok n := require_of (Int.natCast_nonneg n) _ _

/-! ## The date of a day -/

/-- The year, the month and the day of a date. -/
structure Date where
  /-- The year. -/
  year : Int
  /-- The month, from 1. -/
  month : Int
  /-- The day of the month, from 1. -/
  day : Int

/-- The year of an era that a day of it is in. -/
def yearOfEra (day : Int) : Checked Int := do
  let cycles ← divQuad day 1460
  let centuries ← divQuad day 36524
  let eras ← divQuad day 146096
  let less ← subQuad day cycles
  let more ← addQuad less centuries
  let even ← subQuad more eras
  divQuad even 365

/-- The day of a year, which starts in March, that a day of an era is in. -/
def dayOfYear (day year : Int) : Checked Int := do
  let plain ← mulQuad 365 year
  let fourths ← divQuad year 4
  let centuries ← divQuad year 100
  let more ← addQuad plain fourths
  let start ← subQuad more centuries
  subQuad day start

/-- The month, counted from January, that is some months behind a March. -/
def civilMonth (monthFromMarch : Int) : Checked Int :=
  if monthFromMarch < 10 then addQuad monthFromMarch 3 else subQuad monthFromMarch 9

/-- The date of a day of a year that starts in March, in an era. -/
def dateOfEra (era year day : Int) : Checked Date := do
  let scaled ← mulQuad 5 day
  let shifted ← addQuad scaled 2
  let monthFromMarch ← divQuad shifted 153
  let scaledMonth ← mulQuad 153 monthFromMarch
  let shiftedMonth ← addQuad scaledMonth 2
  let before ← divQuad shiftedMonth 5
  let behind ← subQuad day before
  let dayOfMonth ← addQuad behind 1
  let month ← civilMonth monthFromMarch
  let eraYear ← mulQuad era 400
  let marchYear ← addQuad year eraYear
  let fullYear ← addQuad marchYear (if month ≤ 2 then 1 else 0)
  return ⟨fullYear, month, dayOfMonth⟩

/-- The date and time some seconds after the start of 1970. -/
def dateTime (seconds : Nat) : Checked DateTime := do
  let count ← div seconds 86400
  let days ← quad count
  let rest ← rem seconds 86400
  let day ← addQuad days 719468
  let era ← divEuclid day 146097
  let dayOfEra ← remEuclid day 146097
  let year ← yearOfEra dayOfEra
  let marchDay ← dayOfYear dayOfEra year
  let date ← dateOfEra era year marchDay
  let hour ← div rest 3600
  let restOfHour ← rem rest 3600
  let minute ← div restOfHour 60
  let second ← rem rest 60
  return { year := ← part date.year, month := ← part date.month, day := ← part date.day,
           hour := hour, minute := minute, second := second }

section Date

open Calendar (leapDay marchStart)

theorem yearOfEra_eq {day : Nat} (h : day < 146097) :
    yearOfEra day = .ok ((Calendar.yearOfEra day : Nat) : Int) := by
  have hcycles : divQuad day 1460 = .ok ((day / 1460 : Nat) : Int) :=
    divQuad_eq (b := 1460) (by decide) (by omega)
  have hcenturies : divQuad day 36524 = .ok ((day / 36524 : Nat) : Int) :=
    divQuad_eq (b := 36524) (by decide) (by omega)
  have heras : divQuad day 146096 = .ok ((day / 146096 : Nat) : Int) :=
    divQuad_eq (b := 146096) (by decide) (by omega)
  have hless : subQuad day (day / 1460 : Nat) = .ok ((day - day / 1460 : Nat) : Int) :=
    subQuad_eq (by omega) (by omega)
  have hmore : addQuad (day - day / 1460 : Nat) (day / 36524 : Nat) =
      .ok ((day - day / 1460 + day / 36524 : Nat) : Int) := addQuad_eq (by omega) (by omega)
  have heven : subQuad (day - day / 1460 + day / 36524 : Nat) (day / 146096 : Nat) =
      .ok ((day - day / 1460 + day / 36524 - day / 146096 : Nat) : Int) :=
    subQuad_eq (by omega) (by omega)
  rw [yearOfEra, hcycles, ok_bind, hcenturies, ok_bind, heras, ok_bind, hless, ok_bind, hmore,
    ok_bind, heven, ok_bind]
  exact divQuad_eq (b := 365) (by decide) (by omega)

theorem dayOfYear_eq {year day : Nat} (hyear : year < 400) (hday : day < 146097)
    (hstart : marchStart year ≤ day) :
    dayOfYear day year = .ok ((day - (365 * year + year / 4 - year / 100) : Nat) : Int) := by
  have hplain : mulQuad 365 year = .ok ((365 * year : Nat) : Int) :=
    mulQuad_eq (by omega) (by omega)
  have hfourths : divQuad year 4 = .ok ((year / 4 : Nat) : Int) :=
    divQuad_eq (b := 4) (by decide) (by omega)
  have hcenturies : divQuad year 100 = .ok ((year / 100 : Nat) : Int) :=
    divQuad_eq (b := 100) (by decide) (by omega)
  have hmore : addQuad (365 * year : Nat) (year / 4 : Nat) =
      .ok ((365 * year + year / 4 : Nat) : Int) := addQuad_eq (by omega) (by omega)
  have hless : subQuad (365 * year + year / 4 : Nat) (year / 100 : Nat) =
      .ok ((365 * year + year / 4 - year / 100 : Nat) : Int) := subQuad_eq (by omega) (by omega)
  have hle : 365 * year + year / 4 - year / 100 ≤ day :=
    Nat.le_trans (Nat.le_add_right _ _) hstart
  rw [dayOfYear, hplain, ok_bind, hfourths, ok_bind, hcenturies, ok_bind, hmore, ok_bind, hless,
    ok_bind]
  exact subQuad_eq (by omega) (by omega)

theorem civilMonth_eq {month : Nat} (h : month < 12) :
    civilMonth month = .ok ((if month < 10 then month + 3 else month - 9 : Nat) : Int) := by
  unfold civilMonth
  by_cases hmonth : month < 10
  · rw [if_pos (by omega), if_pos hmonth]
    exact addQuad_eq (by omega) (by omega)
  · rw [if_neg (by omega), if_neg hmonth]
    exact subQuad_eq (by omega) (by omega)

/-- The date of a day in a year of an era is that of the day in the year which this is. -/
theorem dateOfEra_eq {era year day : Nat} (seconds : Nat) (hera : era ≤ 1000000000000000)
    (hyear : year < 400) (hday : day < 366) :
    let t := Calendar.dateOfMarchDay (year + era * 400) day seconds
    dateOfEra era year day = .ok ⟨t.year, t.month, t.day⟩ := by
  have hbefore : (153 * ((5 * day + 2) / 153) + 2) / 5 ≤ day := by omega
  have hscaled : mulQuad 5 day = .ok ((5 * day : Nat) : Int) := mulQuad_eq (by omega) (by omega)
  have hshifted : addQuad (5 * day : Nat) 2 = .ok ((5 * day + 2 : Nat) : Int) :=
    addQuad_eq (by omega) (by omega)
  have hmonth : divQuad (5 * day + 2 : Nat) 153 = .ok (((5 * day + 2) / 153 : Nat) : Int) :=
    divQuad_eq (b := 153) (by decide) (by omega)
  unfold Calendar.dateOfMarchDay
  have hmonths : (5 * day + 2) / 153 < 12 := by omega
  generalize (5 * day + 2) / 153 = month at hbefore hmonth hmonths
  have hscaledMonth : mulQuad 153 month = .ok ((153 * month : Nat) : Int) :=
    mulQuad_eq (by omega) (by omega)
  have hshiftedMonth : addQuad (153 * month : Nat) 2 = .ok ((153 * month + 2 : Nat) : Int) :=
    addQuad_eq (by omega) (by omega)
  have hdays : divQuad (153 * month + 2 : Nat) 5 = .ok (((153 * month + 2) / 5 : Nat) : Int) :=
    divQuad_eq (b := 5) (by decide) (by omega)
  have hbehind : subQuad day ((153 * month + 2) / 5 : Nat) =
      .ok ((day - (153 * month + 2) / 5 : Nat) : Int) := subQuad_eq (by omega) (by omega)
  have hdayOfMonth : addQuad (day - (153 * month + 2) / 5 : Nat) 1 =
      .ok ((day - (153 * month + 2) / 5 + 1 : Nat) : Int) := addQuad_eq (by omega) (by omega)
  have heraYear : mulQuad era 400 = .ok ((era * 400 : Nat) : Int) :=
    mulQuad_eq (by omega) (by omega)
  have hmarchYear : addQuad year (era * 400 : Nat) = .ok ((year + era * 400 : Nat) : Int) :=
    addQuad_eq (by omega) (by omega)
  have hcivil := civilMonth_eq hmonths
  rw [dateOfEra, hscaled, ok_bind, hshifted, ok_bind, hmonth, ok_bind, hscaledMonth, ok_bind,
    hshiftedMonth, ok_bind, hdays, ok_bind, hbehind, ok_bind, hdayOfMonth, ok_bind, hcivil, ok_bind,
    heraYear, ok_bind, hmarchYear, ok_bind]
  dsimp only
  generalize (if month < 10 then month + 3 else month - 9) = civil
  have hfullYear : addQuad (year + era * 400 : Nat) (if (civil : Int) ≤ 2 then 1 else 0) =
      .ok ((year + era * 400 + (if civil ≤ 2 then 1 else 0) : Nat) : Int) := by
    split
    case isTrue h => rw [if_pos (by omega)]; exact addQuad_eq (by omega) (by omega)
    case isFalse h => rw [if_neg (by omega)]; exact addQuad_eq (by omega) (by omega)
  rw [hfullYear, ok_bind]
  rfl

/-- The date and time for an unsigned word of seconds is computed without a fault. -/
theorem dateTime_eq (seconds : UInt64) :
    dateTime seconds.toNat = .ok (DateTime.ofSeconds seconds.toNat) := by
  have hlt : seconds.toNat < 18446744073709551616 := seconds.toNat_lt
  generalize seconds.toNat = count at hlt
  let day := count / 86400 + DateTime.epochDay
  have hday : day = count / 86400 + 719468 := rfl
  have hera : day % 146097 < DateTime.eraDays := Nat.mod_lt _ (by decide)
  obtain ⟨hyear, hstart, hend⟩ := Calendar.yearOfEra_spec hera
  have hquad : quad (count / 86400 : Nat) = .ok ((count / 86400 : Nat) : Int) :=
    quad_eq rfl (by omega)
  have hdays : addQuad (count / 86400 : Nat) 719468 = .ok ((day : Nat) : Int) :=
    addQuad_eq (by omega) (by omega)
  have hdivided : divEuclid day 146097 = .ok ((day / 146097 : Nat) : Int) :=
    divEuclid_eq (b := 146097) (by decide) (by omega)
  have hrest : remEuclid day 146097 = .ok ((day % 146097 : Nat) : Int) :=
    remEuclid_eq (b := 146097) (by decide) (by omega)
  rw [dateTime, div_eq (by decide), ok_bind, hquad, ok_bind, rem_eq (by decide), ok_bind, hdays,
    ok_bind, hdivided, ok_bind, hrest, ok_bind, yearOfEra_eq hera, ok_bind,
    dayOfYear_eq hyear hera hstart, ok_bind]
  have hcount : day / 146097 ≤ 1000000000000000 := by omega
  have hmarchDay : day % 146097 - (365 * Calendar.yearOfEra (day % 146097) +
      Calendar.yearOfEra (day % 146097) / 4 - Calendar.yearOfEra (day % 146097) / 100) < 366 := by
    have hleap := Calendar.leapDay_le (Calendar.yearOfEra (day % 146097) + 1)
    rw [Calendar.marchStart_succ] at hend
    unfold marchStart at hend
    omega
  have hdate := dateOfEra_eq (count % 86400) hcount hyear hmarchDay
  have hshown : DateTime.ofSeconds count = Calendar.dateOfMarchDay
      (Calendar.yearOfEra (day % 146097) + day / 146097 * 400)
      (day % 146097 - (365 * Calendar.yearOfEra (day % 146097) +
        Calendar.yearOfEra (day % 146097) / 4 - Calendar.yearOfEra (day % 146097) / 100))
      (count % 86400) := DateTime.ofSeconds_eq count
  dsimp only at hdate
  rw [hshown, hdate, ok_bind, div_eq (by decide), ok_bind, rem_eq (by decide), ok_bind,
    div_eq (by decide), ok_bind, rem_eq (by decide), ok_bind]
  dsimp only
  rw [part_eq, ok_bind, part_eq, ok_bind, part_eq, ok_bind]
  rfl

end Date

/-- What is written for an unsigned word of seconds, and for any milliseconds, is a date and
time. It is one that there is, and counting gives the seconds from it: the lengths of the
years from 1970 on, of the months in the year, the days of the month and the time of day.
Computing it with signed words meets no fault. -/
theorem dateTime_exact (seconds : UInt64) (millis : UInt32) :
    ∃ t : DateTime, dateTime seconds.toNat = .ok t ∧
      DateTime.ofText? ((DateTime.ofSeconds seconds.toNat).render millis.toNat) =
        some (t, millis.toNat) ∧
      t.Valid ∧ t.seconds = seconds.toNat := by
  refine ⟨DateTime.ofSeconds seconds.toNat, dateTime_eq seconds, ?_, ?_⟩
  · exact DateTime.ofText?_render _ _
  · exact DateTime.valid_ofSeconds _

end FormatScan.Machine
