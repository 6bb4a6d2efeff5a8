import Mathlib.Algebra.Group.Int.Defs
import Mathlib.Data.Int.ConditionallyCompleteOrder
import Mathlib.Order.SuccPred.Archimedean
import Mapae.Infra.Text

/-!
# Days and civil dates

Days are numbered from 1970-01-01, before and after it. A month is counted from the first month of
year 0, and its first day is found by counting years that start in March, so that the leap day is the
last day of its year. A day of the years 0 to 9999 is written `YYYY-MM-DD`; the text of an instant stops
after the month where the year has a sign. Texts of days are read back, and are in the order of their days.

* `firstDay` is strictly monotone (`firstDay_strictMono`), so a day lies in one month
* `civilDate` finds that month (`civilDate_mem`)
* `readDigits` reads a number of a width, and `readDay` a date, piece by piece
* `dayText_lt_iff` is the order
* `Instant.isoDay` writes such a text, or one with a sign (`Instant.isoDay_eq_dayText`)
-/

namespace Mapae.Infra.Calendar

/-! ## The text of an instant -/

/-- Year, month and day of the day `days` days after 1970-01-01. -/
def civil (days : Nat) : Nat × Nat × Nat :=
  let z := days + 719468
  let era := z / 146097
  let doe := z % 146097
  let yoe := (doe - doe / 1460 + doe / 36524 - doe / 146096) / 365
  let doy := doe - (365 * yoe + yoe / 4 - yoe / 100)
  let mp := (5 * doy + 2) / 153
  let day := doy - (153 * mp + 2) / 5 + 1
  let month := if mp < 10 then mp + 3 else mp - 9
  (yoe + era * 400 + (if month ≤ 2 then 1 else 0), month, day)

/-- Decimal digits, filled up with zeros on the left. -/
def padded (width n : Nat) : String :=
  let digits := (toString n).toList
  String.ofList (List.replicate (width - digits.length) '0' ++ digits)

/-- The longest time a `Date` holds. -/
def maxTime : Nat := 8640000000000000

/-- `toISOString().slice(0, 10)` of an instant in milliseconds; `none` where it throws. -/
def isoDay (ms : Nat) : Option String :=
  if maxTime < ms then none
  else
    let date := civil (ms / 86400000)
    if date.1 ≤ 9999 then
      some (padded 4 date.1 ++ "-" ++ padded 2 date.2.1 ++ "-" ++ padded 2 date.2.2)
    else some ("+" ++ padded 6 date.1 ++ "-" ++ padded 2 date.2.1)

/-- An instant that a `Date` can hold, before or after 1970. -/
structure Instant where
  ms : Int
  inRange : ms.natAbs ≤ maxTime

/-- Whole eras of 400 years, more than a `Date` goes back before 1970. -/
def erasBack : Nat := 700

/-- `toISOString().slice(0, 10)` of an instant. In its range `isoDay` never throws. -/
def Instant.isoDay (t : Instant) : String :=
  match t.ms with
  | .ofNat ms => (Calendar.isoDay ms).getD ""
  | .negSucc ms =>
    let date := civil (erasBack * 146097 - (ms / 86400000 + 1))
    let year : Int := date.1 - erasBack * 400
    if 0 ≤ year then
      padded 4 year.toNat ++ "-" ++ padded 2 date.2.1 ++ "-" ++ padded 2 date.2.2
    else "-" ++ padded 6 year.natAbs ++ "-" ++ padded 2 date.2.1

example : isoDay 0 = some "1970-01-01" := by decide
example : isoDay 1789343940000 = some "2026-09-13" := by decide
example : isoDay maxTime = some "+275760-09" := by decide

example : (⟨-1, by decide⟩ : Instant).isoDay = "1969-12-31" := by decide
example : (⟨-maxTime, by decide⟩ : Instant).isoDay = "-271821-04" := by decide

/-! ## Days -/

/-- A year, a month from 1 to 12 and a day of the month. -/
structure CivilDate where
  year : Int
  month : Int
  day : Int

/-- The number of a month, counted from the first one of year 0. -/
def CivilDate.monthNumber (date : CivilDate) : Int := 12 * date.year + (date.month - 1)

/-- The first day of a month. Years are counted from March. -/
def firstDay (month : Int) : Int :=
  let year := (month - 2) / 12
  365 * year + year / 4 - year / 100 + year / 400 + (153 * ((month - 2) % 12) + 2) / 5 - 719468

/-- The civil date of a day. -/
def civilDate (n : Int) : CivilDate :=
  let z := n + 719468
  let era := z / 146097
  let doe := z % 146097
  let yoe := (doe - doe / 1460 + doe / 36524 - doe / 146096) / 365
  let doy := doe - (365 * yoe + yoe / 4 - yoe / 100)
  let mp := (5 * doy + 2) / 153
  let day := doy - (153 * mp + 2) / 5 + 1
  let month := if mp < 10 then mp + 3 else mp - 9
  ⟨yoe + era * 400 + (if month ≤ 2 then 1 else 0), month, day⟩

/-- The day of a civil date. A day past the end of its month is one of a later month. -/
def CivilDate.number (date : CivilDate) : Int := firstDay date.monthNumber + date.day - 1

/-! ## Months -/

/-- After an era the days of a year come again. -/
theorem yearStart_era (year era : Int) : 365 * (year + era * 400) + (year + era * 400) / 4 -
    (year + era * 400) / 100 + (year + era * 400) / 400 =
      146097 * era + (365 * year + year / 4 - year / 100 + year / 400) := by
  have hfour : (year + era * 400) / 4 = year / 4 + era * 100 := by omega
  have hhundred : (year + era * 400) / 100 = year / 100 + era * 4 := by omega
  have hera : (year + era * 400) / 400 = year / 400 + era := by omega
  omega

theorem firstDay_march (year : Int) {m : Int} (h : 0 ≤ m ∧ m < 12) : firstDay (12 * year + m + 2) =
    365 * year + year / 4 - year / 100 + year / 400 + (153 * m + 2) / 5 - 719468 := by
  have hyear : (12 * year + m + 2 - 2) / 12 = year := by omega
  have hmonth : (12 * year + m + 2 - 2) % 12 = m := by omega
  unfold firstDay
  simp only [hyear, hmonth]

/-- The first day of the month after. -/
theorem firstDay_march_succ (year : Int) {m : Int} (h : 0 ≤ m ∧ m < 12) :
    firstDay (12 * year + m + 2 + 1) =
      if m = 11 then 365 * (year + 1) + (year + 1) / 4 - (year + 1) / 100 + (year + 1) / 400 - 719468
      else 365 * year + year / 4 - year / 100 + year / 400 + (153 * (m + 1) + 2) / 5 - 719468 := by
  split
  · next hlast =>
    have hnext : 12 * year + m + 2 + 1 = 12 * (year + 1) + 0 + 2 := by omega
    rw [hnext, firstDay_march (year + 1) (by decide)]
    omega
  · next hlast =>
    have hnext : 12 * year + m + 2 + 1 = 12 * year + (m + 1) + 2 := by omega
    rw [hnext, firstDay_march year ⟨by omega, by omega⟩]

/-- A month has at most 31 days. -/
theorem firstDay_succ_bounds (month : Int) :
    firstDay month < firstDay (month + 1) ∧ firstDay (month + 1) ≤ firstDay month + 31 := by
  obtain ⟨year, m, rfl, hm⟩ : ∃ year m : Int, month = 12 * year + m + 2 ∧ (0 ≤ m ∧ m < 12) :=
    ⟨(month - 2) / 12, (month - 2) % 12, by omega, by omega⟩
  rw [firstDay_march year hm, firstDay_march_succ year hm]
  split <;> omega

theorem firstDay_strictMono : StrictMono firstDay :=
  strictMono_int_of_lt_succ fun month => (firstDay_succ_bounds month).1

/-- A day is in one month only. -/
theorem month_le {month month' n : Int} (h : firstDay month ≤ n) (h' : n < firstDay (month' + 1)) :
    month ≤ month' := by
  by_contra hlt
  have hle : month' + 1 ≤ month := by omega
  have hfirst := firstDay_strictMono.monotone hle
  omega

/-! ## The month of a day -/

section YearOfEra

variable {doe year : Int}

/-- A day of an era is in a year of that era, and not before the year begins. -/
theorem yearOfEra_bounds (h : 0 ≤ doe) (h' : doe < 146097)
    (hyear : year = (doe - doe / 1460 + doe / 36524 - doe / 146096) / 365) :
    (0 ≤ year ∧ year < 400) ∧ 365 * year + year / 4 - year / 100 ≤ doe := by
  have hcentury : doe / 36524 = 0 ∨ doe / 36524 = 1 ∨ doe / 36524 = 2 ∨ doe / 36524 = 3 ∨
      doe / 36524 = 4 := by omega
  have hrange : 0 ≤ year ∧ year < 400 := by
    rcases hcentury with h | h | h | h | h <;> omega
  refine ⟨hrange, ?_⟩
  have hyears : year / 100 = 0 ∨ year / 100 = 1 ∨ year / 100 = 2 ∨ year / 100 = 3 := by omega
  rcases hcentury with h | h | h | h | h <;> rcases hyears with h | h | h | h <;> omega

/-- It is before the next year begins. -/
theorem lt_nextYear (h : 0 ≤ doe) (h' : doe < 146097)
    (hyear : year = (doe - doe / 1460 + doe / 36524 - doe / 146096) / 365) :
    doe < 365 * (year + 1) + (year + 1) / 4 - (year + 1) / 100 + (year + 1) / 400 := by
  obtain ⟨hrange, hstart⟩ := yearOfEra_bounds h h' hyear
  have hcentury : doe / 36524 = 0 ∨ doe / 36524 = 1 ∨ doe / 36524 = 2 ∨ doe / 36524 = 3 ∨
      doe / 36524 = 4 := by omega
  -- no more leap days are taken off than there are up to the end of the year
  have hleap : doe / 1460 ≤ (year + 1) / 4 := by
    have hfour : 1460 * (doe / 1460) ≤ doe ∧ doe / 1460 ≤ 100 := by omega
    by_contra hlt
    have hbehind : year + 2 ≤ 4 * (doe / 1460) := by omega
    omega
  by_cases hlast : (year + 1) % 100 = 0
  · obtain ⟨century, hcenturies⟩ : ∃ century, year = 100 * century - 1 := ⟨(year + 1) / 100, by omega⟩
    have hfew : century = 1 ∨ century = 2 ∨ century = 3 ∨ century = 4 := by omega
    rcases hfew with h | h | h | h <;> subst h <;> omega
  · have hlt : year + 1 < 400 := by
      rcases Int.lt_or_eq_of_le (show year + 1 ≤ 400 by omega) with hlt | heq
      · exact hlt
      · exact absurd (by rw [heq]; rfl) hlast
    have hsame : (year + 1) / 100 = year / 100 ∧ (year + 1) / 400 = 0 := by omega
    have hover : year / 100 ≤ doe / 36524 := by omega
    rcases hcentury with h | h | h | h | h <;> omega

end YearOfEra

/-- **main lemma: the month of a day.** -/
theorem civilDate_mem (n : Int) : (1 ≤ (civilDate n).month ∧ (civilDate n).month ≤ 12) ∧
    firstDay (civilDate n).monthNumber ≤ n ∧ n < firstDay ((civilDate n).monthNumber + 1) ∧
    (civilDate n).day = n - firstDay (civilDate n).monthNumber + 1 := by
  obtain ⟨era, doe, rfl, hdoe⟩ : ∃ era doe : Int, n = 146097 * era + doe - 719468 ∧ (0 ≤ doe ∧ doe < 146097) :=
    ⟨(n + 719468) / 146097, (n + 719468) % 146097, by omega, by omega⟩
  have hera : (146097 * era + doe - 719468 + 719468) / 146097 = era := by omega
  have hrest : (146097 * era + doe - 719468 + 719468) % 146097 = doe := by omega
  unfold civilDate CivilDate.monthNumber
  simp only [hera, hrest]
  generalize hyear : (doe - doe / 1460 + doe / 36524 - doe / 146096) / 365 = year
  obtain ⟨hrange, hstart⟩ := yearOfEra_bounds hdoe.1 hdoe.2 hyear.symm
  have hend := lt_nextYear hdoe.1 hdoe.2 hyear.symm
  clear hyear
  generalize hdoy : doe - (365 * year + year / 4 - year / 100) = doy
  generalize hmonth : (5 * doy + 2) / 153 = m
  have hm : 0 ≤ m ∧ m < 12 := by omega
  have hnumber : 12 * (year + era * 400 + if (if m < 10 then m + 3 else m - 9) ≤ 2 then 1 else 0) +
      ((if m < 10 then m + 3 else m - 9) - 1) = 12 * (year + era * 400) + m + 2 := by
    split_ifs <;> omega
  have hnext : year + era * 400 + 1 = year + 1 + era * 400 := by omega
  rw [hnumber, firstDay_march _ hm, firstDay_march_succ _ hm, hnext, yearStart_era, yearStart_era]
  have hold : year / 400 = 0 := by omega
  refine ⟨?_, ?_, ?_, ?_⟩
  · split_ifs <;> omega
  · omega
  · split_ifs <;> omega
  · omega

theorem civilDate_day_bounds (n : Int) : 1 ≤ (civilDate n).day ∧ (civilDate n).day ≤ 31 := by
  obtain ⟨-, hfirst, hlt, hday⟩ := civilDate_mem n
  have hmonth := (firstDay_succ_bounds (civilDate n).monthNumber).2
  omega

/-- **A civil date is of one day.** -/
@[simp] theorem number_civilDate (n : Int) : (civilDate n).number = n := by
  obtain ⟨-, -, -, hday⟩ := civilDate_mem n
  unfold CivilDate.number
  omega

/-- A year ends before the first day of the next one. -/
theorem year_lt_iff {n year : Int} : (civilDate n).year < year ↔ n < firstDay (12 * year) := by
  obtain ⟨hmonth, hfirst, hlt, -⟩ := civilDate_mem n
  unfold CivilDate.monthNumber at hfirst hlt
  constructor
  · intro h
    have hle := firstDay_strictMono.monotone
      (show 12 * (civilDate n).year + ((civilDate n).month - 1) + 1 ≤ 12 * year by omega)
    omega
  · intro h
    have hless := firstDay_strictMono.lt_iff_lt.mp (hfirst.trans_lt h)
    omega

/-- Eras pass by the years only. -/
theorem civilDate_add_eras (n era : Int) : civilDate (n + 146097 * era) =
    { civilDate n with year := (civilDate n).year + era * 400 } := by
  have hera : (n + 146097 * era + 719468) / 146097 = (n + 719468) / 146097 + era := by omega
  have hday : (n + 146097 * era + 719468) % 146097 = (n + 719468) % 146097 := by omega
  unfold civilDate
  simp only [hera, hday, CivilDate.mk.injEq, and_self, and_true]
  omega

theorem civilDate_natCast (days : Nat) :
    civilDate days = ⟨(civil days).1, (civil days).2.1, (civil days).2.2⟩ := by
  obtain ⟨era, doe, hdays, hdoe⟩ : ∃ era doe : Nat, days + 719468 = 146097 * era + doe ∧ doe < 146097 :=
    ⟨(days + 719468) / 146097, (days + 719468) % 146097, by omega, by omega⟩
  have hera : (days + 719468) / 146097 = era ∧ ((days : Int) + 719468) / 146097 = era := by omega
  have hrest : (days + 719468) % 146097 = doe ∧ ((days : Int) + 719468) % 146097 = doe := by omega
  have hyear : ((doe : Int) - doe / 1460 + doe / 36524 - doe / 146096) / 365 =
      ((doe - doe / 1460 + doe / 36524 - doe / 146096) / 365 : Nat) := by omega
  unfold civilDate civil
  simp only [hera, hrest, hyear]
  obtain ⟨hrange, hstart⟩ := yearOfEra_bounds (Int.natCast_nonneg doe) (by omega) hyear.symm
  generalize (doe - doe / 1460 + doe / 36524 - doe / 146096) / 365 = year at *
  have hdoy : (doe : Int) - (365 * year + year / 4 - year / 100) =
      (doe - (365 * year + year / 4 - year / 100) : Nat) := by omega
  simp only [hdoy]
  generalize doe - (365 * year + year / 4 - year / 100) = doy
  have hm : (5 * (doy : Int) + 2) / 153 = ((5 * doy + 2) / 153 : Nat) := by omega
  simp only [hm]
  clear hyear hrange hstart hdoy
  generalize (5 * doy + 2) / 153 = m at *
  have hmonth : (if (m : Int) < 10 then (m : Int) + 3 else m - 9) =
      ((if m < 10 then m + 3 else m - 9 : Nat) : Int) := by
    split_ifs <;> omega
  simp only [hmonth, CivilDate.mk.injEq, true_and]
  generalize (if m < 10 then m + 3 else m - 9) = month
  refine ⟨?_, by omega⟩
  split_ifs <;> omega

/-! ## The order of dates -/

/-- Earlier by year, month and day. -/
def CivilDate.Before (a b : CivilDate) : Prop :=
  a.year < b.year ∨ a.year = b.year ∧ (a.month < b.month ∨ a.month = b.month ∧ a.day < b.day)

theorem CivilDate.Before.irrefl (a : CivilDate) : ¬ a.Before a := by
  unfold Before
  omega

theorem CivilDate.Before.asymm {a b : CivilDate} (h : a.Before b) : ¬ b.Before a := by
  unfold Before at *
  omega

/-- **Dates are in the order of their days.** -/
theorem before_civilDate_iff {m n : Int} : (civilDate m).Before (civilDate n) ↔ m < n := by
  have hbefore : ∀ {m n : Int}, m < n → (civilDate m).Before (civilDate n) := by
    intro m n h
    obtain ⟨hmonth, hfirst, hlt, hday⟩ := civilDate_mem m
    obtain ⟨hmonth', hfirst', hlt', hday'⟩ := civilDate_mem n
    have hle : (civilDate m).monthNumber ≤ (civilDate n).monthNumber :=
      month_le hfirst (h.trans hlt')
    unfold CivilDate.Before
    rcases hle.lt_or_eq with hless | heq
    · unfold CivilDate.monthNumber at hless
      omega
    · rw [heq] at hday
      unfold CivilDate.monthNumber at heq
      omega
  constructor
  · intro h
    rcases lt_trichotomy m n with hlt | rfl | hlt
    · exact hlt
    · exact absurd h (CivilDate.Before.irrefl _)
    · exact absurd h (hbefore hlt).asymm
  · exact hbefore

/-! ## Numbers of a width -/

/-- Digits of a width, and their value. -/
structure FixedDigits (width : Nat) (digits : List Char) (n : Nat) : Prop where
  length : digits.length = width
  all : digits.all Char.isDigit = true
  value : decimalValue digits = n

theorem fixedDigits_padded {width n : Nat} (hwidth : 0 < width) (h : n < 10 ^ width) :
    FixedDigits width (padded width n).toList n := by
  have htext : (padded width n).toList =
      List.replicate (width - (decimalDigits n).length) '0' ++ decimalDigits n := by
    simp [padded, decimalDigits]
  have hlength : (decimalDigits n).length ≤ width :=
    (Nat.length_toDigits_le_iff (by decide) hwidth).mpr h
  rw [htext]
  refine ⟨?_, ?_, ?_⟩
  · rw [List.length_append, List.length_replicate]
    omega
  · rw [List.all_append, Bool.and_eq_true]
    constructor
    · simp
    · exact List.all_eq_true.mpr fun c hc => isDigit_of_mem_decimalDigits hc
  · rw [decimalValue, Nat.ofDigitChars_append, Nat.ofDigitChars_replicate_zero, Nat.mul_zero]
    exact decimalValue_decimalDigits n

/-- `\d{width}`, and what is behind it. -/
def readDigits (width : Nat) (text : List Char) : Option (Nat × List Char) :=
  let digits := text.take width
  if digits.length = width ∧ digits.all Char.isDigit then some (decimalValue digits, text.drop width)
  else none

theorem readDigits_append {width n : Nat} {digits : List Char} (h : FixedDigits width digits n)
    (rest : List Char) : readDigits width (digits ++ rest) = some (n, rest) := by
  have htake : (digits ++ rest).take width = digits := by rw [← h.length, List.take_left]
  have hdrop : (digits ++ rest).drop width = rest := by rw [← h.length, List.drop_left]
  unfold readDigits
  simp only [htake, hdrop, h.length, h.all, h.value, and_self, if_true]

/-- A `-`, and what is behind it. -/
def readDash : List Char → Option (List Char)
  | '-' :: rest => some rest
  | _ => none

/-- The date in a text `/^\d{4}-\d{2}-\d{2}$/`. -/
def readDay (value : String) : Option CivilDate := do
  let (year, rest) ← readDigits 4 value.toList
  let (month, rest) ← readDigits 2 (← readDash rest)
  let (day, rest) ← readDigits 2 (← readDash rest)
  if rest = [] then some ⟨year, month, day⟩ else none

/-- A date that is read begins with a digit. -/
theorem isDigit_of_readDay {value : String} {date : CivilDate} (h : readDay value = some date) :
    ∃ c rest, value.toList = c :: rest ∧ c.isDigit = true := by
  cases htext : value.toList with
  | nil =>
    rw [readDay, htext] at h
    cases h
  | cons c rest =>
    refine ⟨c, rest, rfl, ?_⟩
    by_contra hdigit
    have hnone : readDigits 4 (c :: rest) = none := by
      simp [readDigits, hdigit]
    rw [readDay, htext, hnone] at h
    cases h

/-! ## The order of digits -/

/-- **Digits of one width are in the order of their values**, and so is what is behind equal ones. -/
theorem append_lt_append_iff {width : Nat} : ∀ {xs ys : List Char} {m n : Nat} {s t : List Char},
    FixedDigits width xs m → FixedDigits width ys n →
      (xs ++ s < ys ++ t ↔ m < n ∨ m = n ∧ s < t) := by
  induction width with
  | zero =>
    intro xs ys m n s t hx hy
    obtain rfl := List.length_eq_zero_iff.mp hx.length
    obtain rfl := List.length_eq_zero_iff.mp hy.length
    obtain rfl := hx.value
    obtain rfl := hy.value
    simp
  | succ width ih =>
    intro xs ys m n s t hx hy
    obtain ⟨x, xs, rfl⟩ := List.exists_cons_of_length_eq_add_one hx.length
    obtain ⟨y, ys, rfl⟩ := List.exists_cons_of_length_eq_add_one hy.length
    have hlength : xs.length = width ∧ ys.length = width := by
      have hx' := hx.length
      have hy' := hy.length
      rw [List.length_cons] at hx' hy'
      omega
    have hdigits := hx.all
    have hdigits' := hy.all
    rw [List.all_cons, Bool.and_eq_true] at hdigits hdigits'
    have hrest := ih (s := s) (t := t) ⟨hlength.1, hdigits.2, rfl⟩ ⟨hlength.2, hdigits'.2, rfl⟩
    have hxs := decimalValue_lt hdigits.2
    have hys := decimalValue_lt hdigits'.2
    have hxbounds := toNat_of_isDigit hdigits.1
    have hybounds := toNat_of_isDigit hdigits'.1
    have hvalue := hx.value
    have hvalue' := hy.value
    rw [decimalValue_cons, hlength.1] at hvalue
    rw [decimalValue_cons, hlength.2] at hvalue'
    rw [hlength.1] at hxs
    rw [hlength.2] at hys
    rw [List.cons_append, List.cons_append, List.cons_lt_cons_iff, hrest]
    rcases Nat.lt_trichotomy x.toNat y.toNat with hlt | heq | hlt
    · have hmul : (x.toNat - 48 + 1) * 10 ^ width ≤ (y.toNat - 48) * 10 ^ width :=
        Nat.mul_le_mul_right _ (by omega)
      rw [Nat.add_mul] at hmul
      have hless : m < n := by omega
      simp [show x < y from hlt, hless]
    · obtain rfl := Char.toNat_inj.mp heq
      have hless : m < n ↔ decimalValue xs < decimalValue ys := by omega
      have hsame : m = n ↔ decimalValue xs = decimalValue ys := by omega
      simp only [Char.lt_irrefl, true_and, false_or, hless, hsame]
    · have hmul : (y.toNat - 48 + 1) * 10 ^ width ≤ (x.toNat - 48) * 10 ^ width :=
        Nat.mul_le_mul_right _ (by omega)
      rw [Nat.add_mul] at hmul
      have hnot : ¬ x < y := fun h => absurd h (Nat.lt_asymm hlt)
      have hne : x ≠ y := by
        rintro rfl
        exact absurd hlt (Nat.lt_irrefl _)
      have hless : ¬ m < n := by omega
      have hsame : m ≠ n := by omega
      simp only [hnot, hne, hless, hsame, false_and, or_false]

/-! ## The text of a date -/

/-- `YYYY-MM-DD`. -/
def CivilDate.text (date : CivilDate) : String :=
  padded 4 date.year.toNat ++ "-" ++ padded 2 date.month.toNat ++ "-" ++ padded 2 date.day.toNat

/-- The parts fit the digits there are for them. -/
structure CivilDate.Fits (date : CivilDate) : Prop where
  year : 0 ≤ date.year ∧ date.year ≤ 9999
  month : 0 ≤ date.month ∧ date.month ≤ 99
  day : 0 ≤ date.day ∧ date.day ≤ 99

namespace CivilDate.Fits

variable {a b date : CivilDate}

theorem digits (h : date.Fits) : FixedDigits 4 (padded 4 date.year.toNat).toList date.year.toNat ∧
    FixedDigits 2 (padded 2 date.month.toNat).toList date.month.toNat ∧
    FixedDigits 2 (padded 2 date.day.toNat).toList date.day.toNat := by
  obtain ⟨hyear, hmonth, hday⟩ := h
  exact ⟨fixedDigits_padded (by decide) (by omega), fixedDigits_padded (by decide) (by omega),
    fixedDigits_padded (by decide) (by omega)⟩

theorem toList_text (date : CivilDate) : date.text.toList = (padded 4 date.year.toNat).toList ++
    '-' :: ((padded 2 date.month.toNat).toList ++ '-' :: ((padded 2 date.day.toNat).toList ++ [])) := by
  simp [text]

/-- **What is written is read.** -/
theorem readDay_text (h : date.Fits) : readDay date.text = some date := by
  obtain ⟨hyear, hmonth, hday⟩ := h.digits
  have hdate : (⟨date.year.toNat, date.month.toNat, date.day.toNat⟩ : CivilDate) = date := by
    obtain ⟨⟨hyear, -⟩, ⟨hmonth, -⟩, ⟨hday, -⟩⟩ := h
    simp [hyear, hmonth, hday]
  unfold readDay
  rw [toList_text, readDigits_append hyear]
  simp only [Option.bind_eq_bind, Option.bind_some, readDash]
  rw [readDigits_append hmonth]
  simp only [Option.bind_some]
  rw [readDigits_append hday]
  simp only [Option.bind_some, if_true, hdate]

theorem text_lt_iff (ha : a.Fits) (hb : b.Fits) : a.text < b.text ↔ a.Before b := by
  obtain ⟨hyear, hmonth, hday⟩ := ha.digits
  obtain ⟨hyear', hmonth', hday'⟩ := hb.digits
  rw [String.lt_iff, toList_text, toList_text, append_lt_append_iff hyear hyear', List.cons_lt_cons_iff,
    append_lt_append_iff hmonth hmonth', List.cons_lt_cons_iff, append_lt_append_iff hday hday']
  obtain ⟨⟨hyear, -⟩, ⟨hmonth, -⟩, ⟨hday, -⟩⟩ := ha
  obtain ⟨⟨hyear', -⟩, ⟨hmonth', -⟩, ⟨hday', -⟩⟩ := hb
  simp only [Char.lt_irrefl, false_or, true_and, List.lt_irrefl, and_false, or_false, Before]
  omega

end CivilDate.Fits

/-! ## Days of four digits -/

/-- A day of the years 0 to 9999. -/
def FourDigits (n : Int) : Prop := -719528 ≤ n ∧ n ≤ 2932896

instance (n : Int) : Decidable (FourDigits n) := inferInstanceAs (Decidable (_ ∧ _))

theorem fourDigits_iff {n : Int} :
    FourDigits n ↔ 0 ≤ (civilDate n).year ∧ (civilDate n).year ≤ 9999 := by
  have hlow : (civilDate n).year < 0 ↔ n < firstDay (12 * 0) := year_lt_iff
  have hhigh : (civilDate n).year < 10000 ↔ n < firstDay (12 * 10000) := year_lt_iff
  have hzero : firstDay (12 * 0) = -719528 := by decide
  have hlast : firstDay (12 * 10000) = 2932897 := by decide
  unfold FourDigits
  omega

theorem FourDigits.fits {n : Int} (h : FourDigits n) : (civilDate n).Fits := by
  obtain ⟨hmonth, -, -, -⟩ := civilDate_mem n
  have hday := civilDate_day_bounds n
  exact ⟨fourDigits_iff.mp h, by omega, by omega⟩

/-- The text of a day. -/
def dayText (n : Int) : String := (civilDate n).text

theorem readDay_dayText {n : Int} (h : FourDigits n) : readDay (dayText n) = some (civilDate n) :=
  h.fits.readDay_text

/-- **Texts of days are in the order of the days.** -/
theorem dayText_lt_iff {m n : Int} (hm : FourDigits m) (hn : FourDigits n) :
    dayText m < dayText n ↔ m < n :=
  (hm.fits.text_lt_iff hn.fits).trans before_civilDate_iff

theorem dayText_inj {m n : Int} (hm : FourDigits m) (hn : FourDigits n) :
    dayText m = dayText n ↔ m = n := by
  constructor
  · intro h
    have hdate : some (civilDate m) = some (civilDate n) := by
      rw [← readDay_dayText hm, ← readDay_dayText hn, h]
    rw [← number_civilDate m, ← number_civilDate n, Option.some.inj hdate]
  · rintro rfl
    rfl

/-! ## `toISOString().slice(0, 10)` -/

namespace Instant

/-- A date as `toISOString().slice(0, 10)` writes it. -/
def sliced (date : CivilDate) : String :=
  if 0 ≤ date.year ∧ date.year ≤ 9999 then date.text
  else if date.year < 0 then "-" ++ padded 6 date.year.natAbs ++ "-" ++ padded 2 date.month.toNat
  else "+" ++ padded 6 date.year.toNat ++ "-" ++ padded 2 date.month.toNat

theorem sliced_natCast (year month day : Nat) : sliced ⟨year, month, day⟩ =
    if year ≤ 9999 then padded 4 year ++ "-" ++ padded 2 month ++ "-" ++ padded 2 day
    else "+" ++ padded 6 year ++ "-" ++ padded 2 month := by
  unfold sliced CivilDate.text
  by_cases hyear : year ≤ 9999
  · have hfits : (0 : Int) ≤ year ∧ (year : Int) ≤ 9999 := by omega
    simp only [hyear, hfits, and_self, if_true, Int.toNat_natCast]
  · have hlarge : ¬ ((0 : Int) ≤ year ∧ (year : Int) ≤ 9999) := by omega
    have hpos : ¬ (year : Int) < 0 := by omega
    simp only [hyear, hlarge, hpos, if_false, Int.toNat_natCast]

theorem sliced_of_le {year : Int} (h : year ≤ 9999) (month day : Nat) : sliced ⟨year, month, day⟩ =
    if 0 ≤ year then padded 4 year.toNat ++ "-" ++ padded 2 month ++ "-" ++ padded 2 day
    else "-" ++ padded 6 year.natAbs ++ "-" ++ padded 2 month := by
  unfold sliced CivilDate.text
  by_cases hyear : 0 ≤ year
  · simp only [hyear, h, and_self, if_true, Int.toNat_natCast]
  · have hneg : year < 0 := by omega
    simp only [hyear, hneg, false_and, if_false, if_true, Int.toNat_natCast]

theorem isoDay_ofNat (ms : Nat) (h : (Int.ofNat ms).natAbs ≤ maxTime) :
    (⟨.ofNat ms, h⟩ : Instant).isoDay = sliced (civilDate ((ms / 86400000 : Nat) : Int)) := by
  have hrange : ¬ maxTime < ms := Nat.not_lt.mpr h
  unfold Instant.isoDay Calendar.isoDay
  dsimp only
  rw [if_neg hrange, civilDate_natCast, sliced_natCast]
  split <;> rfl

/-- Before 1970 the days are counted from eras back. -/
theorem civilDate_back {ms : Nat} (h : ms + 1 ≤ maxTime) : civilDate (Int.negSucc ms / 86400000) =
    ⟨((civil (700 * 146097 - (ms / 86400000 + 1))).1 : Int) - (700 * 400 : Nat),
      (civil (700 * 146097 - (ms / 86400000 + 1))).2.1, (civil (700 * 146097 - (ms / 86400000 + 1))).2.2⟩ := by
  have hmax : maxTime = 8640000000000000 := rfl
  have hday : ((700 * 146097 - (ms / 86400000 + 1) : Nat) : Int) =
      Int.negSucc ms / 86400000 + 146097 * 700 := by omega
  have heras := civilDate_add_eras (Int.negSucc ms / 86400000) 700
  rw [← hday, civilDate_natCast, CivilDate.mk.injEq] at heras
  obtain ⟨hyear, hmonth, hdayOf⟩ := heras
  cases hdate : civilDate (Int.negSucc ms / 86400000) with
  | mk year month day =>
    rw [hdate] at hyear hmonth hdayOf
    simp only at hyear hmonth hdayOf
    rw [CivilDate.mk.injEq]
    exact ⟨by omega, hmonth.symm, hdayOf.symm⟩

theorem isoDay_negSucc (ms : Nat) (h : (Int.negSucc ms).natAbs ≤ maxTime) :
    (⟨.negSucc ms, h⟩ : Instant).isoDay = sliced (civilDate (Int.negSucc ms / 86400000)) := by
  rw [civilDate_back h]
  have hhigh : ((civil (700 * 146097 - (ms / 86400000 + 1))).1 : Int) - (700 * 400 : Nat) ≤ 9999 := by
    have hbefore : Int.negSucc ms / 86400000 < firstDay (12 * 10000) := by
      have hlast : firstDay (12 * 10000) = 2932897 := by decide
      omega
    have hyear := year_lt_iff.mpr hbefore
    rw [civilDate_back h] at hyear
    exact Int.le_of_lt_add_one hyear
  unfold Instant.isoDay erasBack
  dsimp only
  generalize civil (700 * 146097 - (ms / 86400000 + 1)) = date at *
  rw [sliced_of_le hhigh]
  rfl

variable {t : Instant}

theorem isoDay_eq_sliced (t : Instant) : t.isoDay = sliced (civilDate (t.ms / 86400000)) := by
  obtain ⟨ms, hrange⟩ := t
  cases ms with
  | ofNat ms => exact isoDay_ofNat ms hrange
  | negSucc ms => exact isoDay_negSucc ms hrange

/-- **A day of four digits is written as such.** -/
theorem isoDay_eq_dayText (h : FourDigits (t.ms / 86400000)) : t.isoDay = dayText (t.ms / 86400000) := by
  rw [isoDay_eq_sliced, sliced, if_pos (fourDigits_iff.mp h), dayText]

/-- Any other day is written with a sign. -/
theorem isoDay_signed (h : ¬ FourDigits (t.ms / 86400000)) :
    ∃ c rest, t.isoDay.toList = c :: rest ∧ c.isDigit = false := by
  rw [isoDay_eq_sliced, sliced, if_neg (fun hyear => h (fourDigits_iff.mpr hyear))]
  split
  · exact ⟨'-', _, by simp; rfl, rfl⟩
  · exact ⟨'+', _, by simp; rfl, rfl⟩

end Instant

end Mapae.Infra.Calendar
