/-
  Counting days and seconds from 1970-01-01 00:00:00. Going from one date to the next, by the
  lengths of the months and the rule for leap years, raises the day number by one
  (`Date.dayNumber_next`), and no two dates have the same number. So the date of a day number, which
  is found by division into cycles of 400 years, centuries and so on, is the only one that lies so
  many days after 1970-01-01, or before it (`Date.isDay_iff`), and likewise the moment of a number
  of seconds (`Moment.isAt_iff`).
-/
import Interpolation.Calendar.Moment
import Interpolation.Proofs.Text.Numeral
import Mathlib.Algebra.GroupWithZero.Nat
import Mathlib.Logic.Function.Iterate

namespace Interpolation.Calendar

/-! ## Months and years -/

/-- The days of a month, counted from 1. -/
def monthLength (leap : Bool) (month : Nat) : Nat := (monthLengths leap).getD (month - 1) 0

def yearLength (year : Int) : Nat := if isLeap year then 366 else 365

theorem daysBeforeMonth_succ (leap : Bool) {month : Nat} (h : 1 ≤ month) :
    daysBeforeMonth leap (month + 1) = daysBeforeMonth leap month + monthLength leap month := by
  obtain ⟨k, rfl⟩ := Nat.exists_eq_add_of_le' h
  unfold daysBeforeMonth monthLength
  rw [Nat.add_sub_cancel, Nat.add_sub_cancel, List.take_add_one, List.foldl_append,
    List.getD_eq_getElem?_getD]
  cases (monthLengths leap)[k]? <;> rfl

theorem daysBeforeMonth_mono (leap : Bool) {m m' : Nat} (h : 1 ≤ m) (hle : m ≤ m') :
    daysBeforeMonth leap m ≤ daysBeforeMonth leap m' := by
  induction hle with
  | refl => exact Nat.le_refl _
  | step hle ih =>
    rw [daysBeforeMonth_succ leap (Nat.le_trans h hle)]
    exact Nat.le_add_right_of_le ih

theorem daysBeforeMonth_last (year : Int) :
    daysBeforeMonth (isLeap year) 13 = yearLength year := by
  unfold yearLength
  cases isLeap year <;> rfl

theorem monthLength_bounds (leap : Bool) {month : Nat} (h : 1 ≤ month) (hle : month ≤ 12) :
    1 ≤ monthLength leap month ∧ monthLength leap month ≤ 31 := by
  have hall : ∀ leap : Bool, ∀ m < 13, 1 ≤ m →
      1 ≤ monthLength leap m ∧ monthLength leap m ≤ 31 := by decide
  exact hall leap month (Nat.lt_succ_of_le hle) h

theorem isLeap_iff (year : Int) :
    isLeap year ↔ year % 4 = 0 ∧ (year % 100 ≠ 0 ∨ year % 400 = 0) := by
  simp [isLeap]

theorem daysBeforeYear_succ (year : Int) :
    daysBeforeYear (year + 1) = daysBeforeYear year + yearLength year := by
  have hleap := isLeap_iff year
  unfold daysBeforeYear yearLength
  split
  · next h =>
    have := hleap.1 h
    omega
  · next h =>
    have := mt hleap.2 h
    omega

/-- A year ends before a later one begins. -/
theorem daysBeforeYear_add_le {year year' : Int} (h : year < year') :
    daysBeforeYear year + yearLength year ≤ daysBeforeYear year' := by
  rw [← daysBeforeYear_succ]
  unfold daysBeforeYear
  omega

namespace Date

variable {d d' : Date}

theorem valid_iff :
    d.Valid ↔ 1 ≤ d.month ∧ d.month ≤ 12 ∧ 1 ≤ d.day ∧
      d.day ≤ monthLength (isLeap d.year) d.month := by
  have hlength : (monthLengths (isLeap d.year)).length = 12 := rfl
  unfold Valid monthLength
  rw [List.getD_eq_getElem?_getD]
  constructor
  · rintro ⟨hmonth, hday, n, hn, hle⟩
    obtain ⟨hlt, -⟩ := List.getElem?_eq_some_iff.1 hn
    rw [hn, Option.getD_some]
    exact ⟨hmonth, by omega, hday, hle⟩
  · rintro ⟨hmonth, hle, hday, hdays⟩
    have hlt : d.month - 1 < (monthLengths (isLeap d.year)).length := by omega
    rw [List.getElem?_eq_getElem hlt, Option.getD_some] at hdays
    exact ⟨hmonth, hday, _, List.getElem?_eq_getElem hlt, hdays⟩

/-- The days of its year before the date. -/
def dayOfYear (d : Date) : Nat := daysBeforeMonth (isLeap d.year) d.month + (d.day - 1)

theorem dayNumber_eq (h : d.Valid) :
    d.dayNumber = firstDay + daysBeforeYear d.year + d.dayOfYear := by
  obtain ⟨-, -, hday, -⟩ := valid_iff.1 h
  unfold dayNumber dayOfYear
  omega

theorem dayOfYear_lt (h : d.Valid) : d.dayOfYear < yearLength d.year := by
  obtain ⟨hmonth, hle, hday, hdays⟩ := valid_iff.1 h
  have hsucc := daysBeforeMonth_succ (isLeap d.year) hmonth
  have hmono : daysBeforeMonth (isLeap d.year) (d.month + 1) ≤ daysBeforeMonth _ 13 :=
    daysBeforeMonth_mono _ (Nat.succ_pos _) (Nat.succ_le_succ hle)
  rw [daysBeforeMonth_last] at hmono
  unfold dayOfYear
  omega

/-! ## The next date -/

/-- The date of the next day, in the same month or on the first of the next one. -/
def next (d : Date) : Date :=
  if d.day < monthLength (isLeap d.year) d.month then { d with day := d.day + 1 }
  else if d.month < 12 then { d with month := d.month + 1, day := 1 }
  else { year := d.year + 1, month := 1, day := 1 }

theorem valid_next (h : d.Valid) : d.next.Valid := by
  obtain ⟨hmonth, hle, hday, hdays⟩ := valid_iff.1 h
  unfold next
  split
  · next hlt => exact valid_iff.2 ⟨hmonth, hle, Nat.succ_pos _, hlt⟩
  · split
    · next hlt =>
      exact valid_iff.2 ⟨Nat.succ_pos _, hlt, Nat.le_refl 1,
        (monthLength_bounds _ (Nat.succ_pos _) hlt).1⟩
    · exact valid_iff.2 ⟨Nat.le_refl 1, Nat.le_add_left 1 11, Nat.le_refl 1,
        (monthLength_bounds _ (Nat.le_refl 1) (Nat.le_add_left 1 11)).1⟩

theorem dayNumber_next (h : d.Valid) : d.next.dayNumber = d.dayNumber + 1 := by
  obtain ⟨hmonth, hle, hday, hdays⟩ := valid_iff.1 h
  unfold next
  split
  · unfold dayNumber
    dsimp only
    omega
  · next hlast =>
    have hsucc := daysBeforeMonth_succ (isLeap d.year) hmonth
    split
    · unfold dayNumber
      dsimp only
      omega
    · next htwelve =>
      have hmonth' : d.month = 12 := by omega
      have hyear := daysBeforeYear_succ d.year
      have hend : daysBeforeMonth (isLeap d.year) (12 + 1) = _ := daysBeforeMonth_last d.year
      have hfirst : daysBeforeMonth (isLeap (d.year + 1)) 1 = 0 := rfl
      rw [hmonth'] at hsucc hlast hdays
      rw [hend] at hsucc
      unfold dayNumber
      dsimp only
      rw [hfirst, hmonth']
      omega

example : next ⟨1900, 2, 28⟩ = ⟨1900, 3, 1⟩ ∧ next ⟨2000, 2, 28⟩ = ⟨2000, 2, 29⟩ := by decide

theorem iterate_next (h : d.Valid) (k : Nat) :
    (next^[k] d).Valid ∧ (next^[k] d).dayNumber = d.dayNumber + k := by
  induction k with
  | zero => exact ⟨h, (Int.add_zero _).symm⟩
  | succ k ih =>
    rw [Function.iterate_succ_apply']
    refine ⟨valid_next ih.1, ?_⟩
    rw [dayNumber_next ih.1, ih.2, Int.add_assoc]
    rfl

/-! ## One date for every day number -/

theorem year_le_of_dayNumber (h : d.Valid) (h' : d'.Valid) (hle : d.dayNumber ≤ d'.dayNumber) :
    d.year ≤ d'.year := by
  rw [dayNumber_eq h, dayNumber_eq h'] at hle
  have hlt := dayOfYear_lt h'
  by_contra hyear
  have := daysBeforeYear_add_le (Int.lt_of_not_ge hyear)
  omega

theorem month_le_of_dayOfYear (h : d.Valid) (h' : d'.Valid) (hyear : d.year = d'.year)
    (hle : d.dayOfYear ≤ d'.dayOfYear) : d.month ≤ d'.month := by
  obtain ⟨hmonth, -, hday, -⟩ := valid_iff.1 h
  obtain ⟨hmonth', -, hday', hdays'⟩ := valid_iff.1 h'
  by_contra hlt
  have hmono := daysBeforeMonth_mono (isLeap d'.year) (Nat.succ_pos _) (Nat.lt_of_not_le hlt)
  rw [Nat.succ_eq_add_one, daysBeforeMonth_succ _ hmonth'] at hmono
  unfold dayOfYear at hle
  rw [hyear] at hle
  omega

theorem eq_of_dayNumber (h : d.Valid) (h' : d'.Valid) (heq : d.dayNumber = d'.dayNumber) :
    d = d' := by
  have hyear : d.year = d'.year := Int.le_antisymm
    (year_le_of_dayNumber h h' (Int.le_of_eq heq))
    (year_le_of_dayNumber h' h (Int.le_of_eq heq.symm))
  rw [dayNumber_eq h, dayNumber_eq h', hyear] at heq
  have hof : d.dayOfYear = d'.dayOfYear := by omega
  have hmonth : d.month = d'.month := Nat.le_antisymm
    (month_le_of_dayOfYear h h' hyear (Nat.le_of_eq hof))
    (month_le_of_dayOfYear h' h hyear.symm (Nat.le_of_eq hof.symm))
  have hday : d.day = d'.day := by
    obtain ⟨-, -, hday, -⟩ := valid_iff.1 h
    obtain ⟨-, -, hday', -⟩ := valid_iff.1 h'
    unfold dayOfYear at hof
    rw [hyear, hmonth] at hof
    omega
  cases d
  cases d'
  dsimp only at hyear hmonth hday
  rw [hyear, hmonth, hday]

/-- A number of days that the months hold ends in one of them. -/
theorem exists_ofDays {lengths : List Nat} (month : Nat) {days : Nat} (h : days < lengths.sum) :
    ∃ k n, lengths[k]? = some n ∧ (ofDays month lengths days).1 = month + k ∧
      1 ≤ (ofDays month lengths days).2 ∧ (ofDays month lengths days).2 ≤ n ∧
      (lengths.take k).sum + ((ofDays month lengths days).2 - 1) = days := by
  induction lengths generalizing month days with
  | nil => exact absurd h (Nat.not_lt_zero _)
  | cons n lengths ih =>
    rw [ofDays]
    split
    · next hlt => exact ⟨0, n, rfl, rfl, Nat.succ_pos _, hlt, by simp⟩
    · next hge =>
      rw [List.sum_cons] at h
      have hrest : days - n < lengths.sum := by omega
      obtain ⟨k, m, hm, hmonth, hday, hle, hdays⟩ := ih (month + 1) hrest
      refine ⟨k + 1, m, hm, by omega, hday, hle, ?_⟩
      rw [List.take_succ_cons, List.sum_cons]
      omega

/-- The days before a year, by its place in a cycle of 400 years, a century and a span of four. -/
theorem daysBeforeYear_cycle (cycle : Int) {century quad single : Nat} (hcentury : century ≤ 3)
    (hquad : quad ≤ 24) (hsingle : single ≤ 3) :
    daysBeforeYear (400 * cycle + (100 * century + 4 * quad + single + 1 : Nat)) =
      146097 * cycle + (36524 * century + 1461 * quad + 365 * single : Nat) := by
  unfold daysBeforeYear
  omega

/-- The last of four years is a leap year, unless it ends a century other than the fourth. -/
theorem yearLength_cycle (cycle : Int) {century quad single : Nat} (hcentury : century ≤ 3)
    (hquad : quad ≤ 24) (hsingle : single ≤ 3) :
    yearLength (400 * cycle + (100 * century + 4 * quad + single + 1 : Nat)) =
      if single = 3 ∧ (quad < 24 ∨ century = 3) then 366 else 365 := by
  have hleap := isLeap_iff (400 * cycle + (100 * century + 4 * quad + single + 1 : Nat))
  unfold yearLength
  split
  · next h =>
    have := hleap.1 h
    rw [if_pos (by omega)]
  · next h =>
    have := mt hleap.2 h
    rw [if_neg (by omega)]

/-- The date of a day number lies in the year that has the day. -/
theorem ofDayNumber_eq (number : Int) :
    ∃ (year : Int) (days : Nat), firstDay + daysBeforeYear year + days = number ∧
      days < yearLength year ∧
      ofDayNumber number =
        ⟨year, (ofDays 1 (monthLengths (isLeap year)) days).1,
          (ofDays 1 (monthLengths (isLeap year)) days).2⟩ := by
  have hnonneg := Int.emod_nonneg (number - firstDay) (b := 146097) (by decide)
  have hlt := Int.emod_lt_of_pos (number - firstDay) (b := 146097) (by decide)
  have hdiv := Int.mul_ediv_add_emod (number - firstDay) 146097
  unfold ofDayNumber
  extract_lets days cycle inCycle century inCentury quad inQuad single year
  have hcentury : century ≤ 3 := Nat.min_le_right _ _
  have hsingle : single ≤ 3 := Nat.min_le_right _ _
  have hquad : quad ≤ 24 := by omega
  refine ⟨year, inQuad - 365 * single, ?_, ?_, rfl⟩
  · rw [daysBeforeYear_cycle cycle hcentury hquad hsingle]
    omega
  · rw [yearLength_cycle cycle hcentury hquad hsingle]
    split <;> omega

/-- The date of a day number is one, and has this number. -/
theorem valid_ofDayNumber (number : Int) :
    (ofDayNumber number).Valid ∧ (ofDayNumber number).dayNumber = number := by
  obtain ⟨year, days, hdays, hlt, heq⟩ := ofDayNumber_eq number
  have hsum : (monthLengths (isLeap year)).sum = yearLength year := by
    unfold yearLength
    cases isLeap year <;> rfl
  obtain ⟨k, n, hn, hmonth, hday, hle, hof⟩ := exists_ofDays 1 (hsum ▸ hlt)
  rw [heq]
  refine ⟨⟨?_, hday, n, ?_, hle⟩, ?_⟩
  · dsimp only
    omega
  · dsimp only
    rw [hmonth, Nat.add_sub_cancel_left]
    exact hn
  · unfold dayNumber daysBeforeMonth
    dsimp only
    rw [hmonth, Nat.add_sub_cancel_left, ← List.sum_eq_foldl]
    omega

/-! ## Counting from 1970-01-01 -/

/-- The date from which days are counted. -/
def epoch : Date := ⟨1970, 1, 1⟩

/-- The date is reached from 1970-01-01 in so many days, or if the number is negative, 1970-01-01
is reached from it. -/
def IsDay (d : Date) (number : Int) : Prop :=
  d.Valid ∧ next^[number.toNat] epoch = next^[(-number).toNat] d

theorem valid_epoch : epoch.Valid := valid_iff.2 (by decide)

theorem dayNumber_epoch : epoch.dayNumber = 0 := by decide

/-- A date lies as many days after 1970-01-01 as its day number says. -/
theorem isDay_iff_dayNumber {number : Int} : d.IsDay number ↔ d.Valid ∧ d.dayNumber = number := by
  refine and_congr_right fun h => ?_
  obtain ⟨hvalid, hepoch⟩ := iterate_next valid_epoch number.toNat
  obtain ⟨hvalid', hd⟩ := iterate_next h (-number).toNat
  rw [dayNumber_epoch] at hepoch
  constructor
  · intro heq
    rw [heq, hd] at hepoch
    omega
  · intro heq
    exact eq_of_dayNumber hvalid hvalid' (by omega)

/-- Exactly one date lies a number of days after 1970-01-01. -/
theorem isDay_iff {number : Int} : d.IsDay number ↔ d = ofDayNumber number := by
  obtain ⟨hvalid, hnumber⟩ := valid_ofDayNumber number
  rw [isDay_iff_dayNumber]
  constructor
  · rintro ⟨h, heq⟩
    exact eq_of_dayNumber h hvalid (heq.trans hnumber.symm)
  · rintro rfl
    exact ⟨hvalid, hnumber⟩

end Date

/-! ## Counting seconds -/

namespace Moment

variable {m : Moment} {seconds : Int}

/-- The moment is on a date of the calendar and at a time of day. Only a leap second has a billion
nanoseconds or more, and there is no second one. -/
structure Valid (m : Moment) : Prop where
  date : m.date.Valid
  hour_lt : m.hour < 24
  minute_lt : m.minute < 60
  second_lt : m.second < 60
  nanosecond_lt : m.nanosecond < 2000000000

/-- The moment is so many seconds after 1970-01-01 00:00:00, of which whole days make up the date
and the seconds left the time of day. -/
structure IsAt (m : Moment) (seconds : Int) : Prop where
  valid : m.Valid
  nanosecond : m.nanosecond = 0
  date : m.date.IsDay (seconds / 86400)
  time : (m.secondOfDay : Int) = seconds % 86400

/-- Exactly one moment is a number of seconds after 1970-01-01 00:00:00. -/
theorem isAt_iff : m.IsAt seconds ↔ m = ofSeconds seconds := by
  unfold ofSeconds ofSecondOfDay
  constructor
  · rintro ⟨⟨-, hhour, hminute, hsecond, -⟩, hnanosecond, hdate, htime⟩
    cases m
    unfold secondOfDay at htime
    dsimp only at hdate hhour hminute hsecond hnanosecond htime
    rw [Date.isDay_iff.1 hdate, hnanosecond, Moment.mk.injEq]
    refine ⟨rfl, ?_, ?_, ?_, rfl⟩ <;> omega
  · rintro rfl
    have hdate := Date.isDay_iff.2 (rfl : Date.ofDayNumber (seconds / 86400) = _)
    refine ⟨⟨hdate.1, ?_, Nat.mod_lt _ (by decide), Nat.mod_lt _ (by decide), ?_⟩, rfl, hdate, ?_⟩
    · show (seconds % 86400).toNat / 3600 < 24
      omega
    · show 0 < 2000000000
      decide
    · unfold secondOfDay
      dsimp only
      omega

/-- The moments with a year that moments may lie in are few enough for a signed word. -/
theorem IsAt.fitsSigned (h : m.IsAt seconds) (hfirst : firstYear ≤ m.date.year)
    (hlast : m.date.year ≤ lastYear) : Text.FitsSigned seconds := by
  obtain ⟨hvalid, hnumber⟩ := Date.isDay_iff_dayNumber.1 h.date
  have hlt := Date.dayOfYear_lt hvalid
  rw [Date.dayNumber_eq hvalid] at hnumber
  unfold firstYear at hfirst
  unfold lastYear at hlast
  unfold yearLength at hlt
  unfold firstDay daysBeforeYear at hnumber
  unfold Text.FitsSigned
  split at hlt <;> omega

end Moment

end Interpolation.Calendar
