import Mapae.Infra.CivilDate
import Mapae.Ranking.Days

/-!
# Ranking days as they are written

The days of the ranking are texts `YYYY-MM-DD`, and every one that comes in is checked to be a date.
`Mapae.Ranking.Days` counts them: here the functions on texts are those of the source, and each is the
one on numbers as long as the days have years of four digits.

* `isRankingDay_iff`: the ranking days are the texts of these days
* `kstDay_eq`, `addDays_dayText`, `kstWeek_dayText` and the others: what the functions answer
-/

namespace Mapae.Ranking.Dates

open Mapae.Infra Mapae.Infra.Calendar

/-- `throw new Error(message)`, or the `RangeError` of a date that is none. -/
inductive DateError where
  | error (message : String)
  | rangeError (message : String)
  deriving DecidableEq

/-! ## The functions -/

/-- `new Date(time).toISOString().slice(0, 10)`. -/
def isoDate (time : Int) : Except DateError String :=
  if h : time.natAbs ≤ maxTime then .ok (Instant.isoDay ⟨time, h⟩)
  else .error (.rangeError "Invalid time value")

/-- `Date.parse` of the start of a day that is written as `DAY` asks. A day past the end of its month
is one of the next month. -/
def parseDay (value : String) : Option Int :=
  (readDay value).bind fun date =>
    if (1 ≤ date.month ∧ date.month ≤ 12) ∧ 1 ≤ date.day ∧ date.day ≤ 31 then some (date.number * DAY_MS)
    else none

def isRankingDay (value : String) : Bool :=
  (parseDay value).any fun time => decide ((isoDate time).toOption = some value)

def dayStart (day : String) : Except DateError Int :=
  match parseDay day with
  | some time => if isRankingDay day then .ok time else .error (.error "Invalid ranking day")
  | none => .error (.error "Invalid ranking day")

/-- The Korean calendar day of an instant. -/
def kstDay (time : Int) : Except DateError String := isoDate (time + KST_OFFSET)

def addDays (day : String) (n : Int) : Except DateError String := do
  isoDate ((← dayStart day) + n * DAY_MS)

/-- The Monday that starts the KST week holding `day`. -/
def kstWeek (day : String) : Except DateError String := do
  addDays day (-((getUTCDay ((← dayStart day) / DAY_MS) + 6) % 7))

/-- The next 00:00 KST, or the next Monday 00:00 KST. -/
def nextReset (time : Int) (period : ResetPeriod) : Except DateError Int := do
  let today ← kstDay time
  let next ← match period with
    | .day => addDays today 1
    | .week => do addDays (← kstWeek today) 7
  return (← dayStart next) - KST_OFFSET

/-- Monday of ranking week 0. -/
def WEEK_ZERO : String := "1970-01-05"

/-- A week's index from week 0. Only a Monday names a week. -/
def rankingWeekIndex (week : String) : Except DateError Int := do
  if (← kstWeek week) ≠ week ∨ week < WEEK_ZERO then throw (.error "Invalid ranking week")
  else return ((← dayStart week) - (← dayStart WEEK_ZERO)) / DAY_MS / 7

def rankingWeekOf (index : Int) : Except DateError String :=
  if index < 0 ∨ 2 ^ 53 ≤ index then throw (.error "Invalid ranking week")
  else addDays WEEK_ZERO (index * 7)

/-- When a week seals: the next Tuesday 00:00 KST. -/
def weekCutoff (week : String) : Except DateError Int := do
  let _ ← rankingWeekIndex week
  return (← dayStart (← addDays week 7)) - KST_OFFSET + HONOR_GRACE_MS

/-- The latest week sealed at an instant, if it is past week 0. -/
def sealedWeek (time : Int) : Except DateError (Option String) := do
  let week ← addDays (← kstWeek (← kstDay (time - HONOR_GRACE_MS))) (-7)
  return if WEEK_ZERO < week then some week else none

/-- `(strftime('%s', week, '+8 days') - 32400) * 1000` of the query: nothing for a text that is no date,
and for a day that is not of the years 0 to 9999. -/
def seasonCutoff (week : String) : Option Int :=
  (parseDay week).bind fun time =>
    if FourDigits (time / DAY_MS + 8) then some (((time / DAY_MS + 8) * 86400 - 32400) * 1000) else none

/-! ## Texts and days -/

section Texts

variable {n : Int} {day : String}

theorem day_of_start (n : Int) : n * DAY_MS / DAY_MS = n := Int.mul_ediv_cancel n (by decide)

theorem isoDate_eq {time : Int} (h : FourDigits (time / DAY_MS)) :
    isoDate time = .ok (dayText (time / DAY_MS)) := by
  have hrange : time.natAbs ≤ maxTime := by
    have hmax : maxTime = 8640000000000000 := rfl
    unfold FourDigits DAY_MS at h
    omega
  rw [isoDate, dif_pos hrange, Instant.isoDay_eq_dayText h]
  rfl

/-- A day with a year of more digits is not written as a ranking day is. -/
theorem isDigit_isoDate {time : Int} (h : ¬ FourDigits (time / DAY_MS)) (htext : isoDate time = .ok day) :
    ∃ c rest, day.toList = c :: rest ∧ c.isDigit = false := by
  unfold isoDate at htext
  split at htext
  · next hrange =>
    cases htext
    exact Instant.isoDay_signed h
  · cases htext

theorem parseDay_dayText (h : FourDigits n) : parseDay (dayText n) = some (n * DAY_MS) := by
  have hdate := (civilDate_mem n).1
  have hday := civilDate_day_bounds n
  unfold parseDay
  rw [readDay_dayText h, Option.bind_some, if_pos ⟨hdate, hday⟩, number_civilDate]

theorem isoDate_day (h : FourDigits n) : isoDate (n * DAY_MS) = .ok (dayText n) := by
  have hday : FourDigits (n * DAY_MS / DAY_MS) := by rwa [day_of_start]
  rw [isoDate_eq hday, day_of_start]

theorem isRankingDay_dayText (h : FourDigits n) : isRankingDay (dayText n) = true := by
  rw [isRankingDay, parseDay_dayText h, Option.any_some, isoDate_day h]
  exact decide_eq_true rfl

/-- **The ranking days are the texts of the days of four digits.** -/
theorem isRankingDay_iff : isRankingDay day = true ↔ ∃ n, FourDigits n ∧ day = dayText n := by
  constructor
  · intro h
    obtain ⟨time, hparse, htext⟩ := (Option.any_eq_true _ _).mp h
    have htext := of_decide_eq_true htext
    cases hiso : isoDate time with
    | error e =>
      rw [hiso] at htext
      cases htext
    | ok text =>
      rw [hiso] at htext
      obtain rfl : text = day := Option.some.inj htext
      by_cases hfour : FourDigits (time / DAY_MS)
      · rw [isoDate_eq hfour] at hiso
        exact ⟨_, hfour, (Except.ok.inj hiso).symm⟩
      · obtain ⟨c, rest, hc, hdigit⟩ := isDigit_isoDate hfour hiso
        obtain ⟨date, hread, -⟩ := Option.bind_eq_some_iff.mp hparse
        obtain ⟨c', rest', hc', hdigit'⟩ := isDigit_of_readDay hread
        rw [hc] at hc'
        cases hc'
        rw [hdigit] at hdigit'
        cases hdigit'
  · rintro ⟨n, h, rfl⟩
    exact isRankingDay_dayText h

theorem dayStart_dayText (h : FourDigits n) : dayStart (dayText n) = .ok (n * DAY_MS) := by
  rw [dayStart, parseDay_dayText h]
  exact if_pos (isRankingDay_dayText h)

theorem dayStart_eq_ok {time : Int} :
    dayStart day = .ok time ↔ ∃ n, FourDigits n ∧ day = dayText n ∧ time = n * DAY_MS := by
  constructor
  · intro h
    have hday : isRankingDay day = true := by
      unfold dayStart at h
      split at h
      · split at h
        · assumption
        · cases h
      · cases h
    obtain ⟨n, hfour, rfl⟩ := isRankingDay_iff.mp hday
    rw [dayStart_dayText hfour] at h
    exact ⟨n, hfour, rfl, (Except.ok.inj h).symm⟩
  · rintro ⟨n, hfour, rfl, rfl⟩
    exact dayStart_dayText hfour

/-! ## What the functions answer -/

theorem kstDay_eq {time : Int} (h : FourDigits (Ranking.kstDay time)) :
    kstDay time = .ok (dayText (Ranking.kstDay time)) :=
  isoDate_eq h

theorem addDays_dayText {k : Int} (h : FourDigits n) (hsum : FourDigits (n + k)) :
    addDays (dayText n) k = .ok (dayText (n + k)) := by
  refine bind_eq_ok.mpr ⟨_, dayStart_dayText h, ?_⟩
  rw [← Int.add_mul]
  exact isoDate_day hsum

/-- A sum of days that is a ranking day is of four digits. -/
theorem addDays_eq_ok {k : Int} {sum : String} (h : addDays day k = .ok sum) (hday : isRankingDay sum = true) :
    ∃ n, FourDigits n ∧ FourDigits (n + k) ∧ day = dayText n ∧ sum = dayText (n + k) := by
  obtain ⟨time, hstart, hiso⟩ := bind_eq_ok.mp h
  obtain ⟨n, hn, rfl, rfl⟩ := dayStart_eq_ok.mp hstart
  obtain ⟨m, hm, rfl⟩ := isRankingDay_iff.mp hday
  rw [← Int.add_mul] at hiso
  by_cases hfour : FourDigits (n + k)
  · rw [isoDate_day hfour] at hiso
    exact ⟨n, hn, hfour, rfl, (Except.ok.inj hiso).symm⟩
  · obtain ⟨c, rest, hc, hdigit⟩ := isDigit_isoDate (by rwa [day_of_start]) hiso
    obtain ⟨c', rest', hc', hdigit'⟩ := isDigit_of_readDay (readDay_dayText hm)
    rw [hc] at hc'
    cases hc'
    rw [hdigit] at hdigit'
    cases hdigit'

theorem kstWeek_dayText (h : FourDigits n) (hweek : FourDigits (Ranking.kstWeek n)) :
    kstWeek (dayText n) = .ok (dayText (Ranking.kstWeek n)) := by
  refine bind_eq_ok.mpr ⟨_, dayStart_dayText h, ?_⟩
  rw [day_of_start]
  exact addDays_dayText h hweek

/-- The Monday of a day is not long before it. -/
theorem fourDigits_kstWeek (h : FourDigits n) (hzero : Ranking.WEEK_ZERO ≤ n + 7) :
    FourDigits (Ranking.kstWeek n) := by
  have hbounds := kstWeek_bounds n
  unfold FourDigits Ranking.WEEK_ZERO at *
  omega

theorem weekZero_eq : WEEK_ZERO = dayText Ranking.WEEK_ZERO := by decide

theorem fourDigits_weekZero : FourDigits Ranking.WEEK_ZERO := by decide

theorem weekZero_lt (h : FourDigits n) : WEEK_ZERO < dayText n ↔ Ranking.WEEK_ZERO < n := by
  rw [weekZero_eq]
  exact dayText_lt_iff fourDigits_weekZero h

theorem lt_weekZero (h : FourDigits n) : dayText n < WEEK_ZERO ↔ n < Ranking.WEEK_ZERO := by
  rw [weekZero_eq]
  exact dayText_lt_iff h fourDigits_weekZero

/-- **A week has an index where its day is a Monday from week 0 on.** -/
theorem rankingWeekIndex_eq_ok {week : String} {index : Int} : rankingWeekIndex week = .ok index ↔
    ∃ n, FourDigits n ∧ week = dayText n ∧ Ranking.rankingWeekIndex n = .ok index := by
  simp only [Ranking.rankingWeekIndex_eq_ok]
  constructor
  · intro h
    obtain ⟨monday, hmonday, h⟩ := bind_eq_ok.mp h
    split at h
    · cases h
    · next hok =>
      obtain ⟨hsame, hzero⟩ := not_or.mp hok
      obtain rfl := not_not.mp hsame
      obtain ⟨start, hstart, h⟩ := bind_eq_ok.mp h
      obtain ⟨zero, hzeroStart, h⟩ := bind_eq_ok.mp h
      cases pure_eq_ok.mp h
      obtain ⟨n, hn, rfl, rfl⟩ := dayStart_eq_ok.mp hstart
      rw [lt_weekZero hn, Int.not_lt] at hzero
      rw [kstWeek_dayText hn (fourDigits_kstWeek hn (by omega)), Except.ok.injEq,
        dayText_inj (fourDigits_kstWeek hn (by omega)) hn] at hmonday
      rw [weekZero_eq, dayStart_dayText fourDigits_weekZero] at hzeroStart
      cases hzeroStart
      refine ⟨n, hn, rfl, hmonday, hzero, ?_⟩
      unfold DAY_MS
      omega
  · rintro ⟨n, hn, rfl, hmonday, hzero, rfl⟩
    refine bind_eq_ok.mpr ⟨dayText n, ?_, ?_⟩
    · have hweek := kstWeek_dayText hn (hmonday.symm ▸ hn)
      rwa [hmonday] at hweek
    · rw [if_neg (by simp [lt_weekZero hn, hzero])]
      have hzeroStart : dayStart WEEK_ZERO = .ok (Ranking.WEEK_ZERO * DAY_MS) := by
        rw [weekZero_eq]
        exact dayStart_dayText fourDigits_weekZero
      refine bind_eq_ok.mpr ⟨_, dayStart_dayText hn, bind_eq_ok.mpr ⟨_, hzeroStart, ?_⟩⟩
      rw [pure_eq_ok]
      unfold DAY_MS
      omega

/-- **A week has a cutoff** as long as the week after it has four digits. -/
theorem weekCutoff_eq_ok {week : String} {cutoff : Int} : weekCutoff week = .ok cutoff ↔
    ∃ n, FourDigits (n + 7) ∧ week = dayText n ∧ Ranking.weekCutoff n = .ok cutoff := by
  simp only [Ranking.weekCutoff_eq_ok]
  constructor
  · intro h
    obtain ⟨index, hindex, h⟩ := bind_eq_ok.mp h
    obtain ⟨n, hn, rfl, hweek⟩ := rankingWeekIndex_eq_ok.mp hindex
    obtain ⟨hmonday, hzero, -⟩ := Ranking.rankingWeekIndex_eq_ok.mp hweek
    obtain ⟨next, hnext, h⟩ := bind_eq_ok.mp h
    obtain ⟨start, hstart, h⟩ := bind_eq_ok.mp h
    cases pure_eq_ok.mp h
    obtain ⟨m, hm, rfl, rfl⟩ := dayStart_eq_ok.mp hstart
    obtain ⟨n', hn', hsum, htext, hm'⟩ := addDays_eq_ok hnext (isRankingDay_dayText hm)
    obtain rfl := (dayText_inj hn hn').mp htext
    obtain rfl := (dayText_inj hm hsum).mp hm'
    exact ⟨n, hsum, rfl, hmonday, hzero, rfl⟩
  · rintro ⟨n, hsum, rfl, hmonday, hzero, rfl⟩
    have hn : FourDigits n := by
      unfold FourDigits Ranking.WEEK_ZERO at *
      omega
    exact bind_eq_ok.mpr ⟨_, rankingWeekIndex_eq_ok.mpr
        ⟨n, hn, rfl, Ranking.rankingWeekIndex_eq_ok.mpr ⟨hmonday, hzero, rfl⟩⟩,
      bind_eq_ok.mpr ⟨_, addDays_dayText hn hsum, bind_eq_ok.mpr ⟨_, dayStart_dayText hsum, rfl⟩⟩⟩

theorem weekCutoff_dayText {cutoff : Int} (h : FourDigits n) : weekCutoff (dayText n) = .ok cutoff ↔
    FourDigits (n + 7) ∧ Ranking.weekCutoff n = .ok cutoff := by
  rw [weekCutoff_eq_ok]
  constructor
  · rintro ⟨m, hm, htext, hcutoff⟩
    obtain ⟨-, hzero, -⟩ := Ranking.weekCutoff_eq_ok.mp hcutoff
    have hfour : FourDigits m := by
      unfold FourDigits Ranking.WEEK_ZERO at *
      omega
    obtain rfl := (dayText_inj h hfour).mp htext
    exact ⟨hm, hcutoff⟩
  · rintro ⟨hnext, hcutoff⟩
    exact ⟨n, hnext, rfl, hcutoff⟩

theorem rankingWeekOf_eq {index : Int} (hindex : 0 ≤ index) (h : FourDigits (Ranking.WEEK_ZERO + index * 7)) :
    rankingWeekOf index = .ok (dayText (Ranking.WEEK_ZERO + index * 7)) := by
  have hsafe : ¬ (index < 0 ∨ 2 ^ 53 ≤ index) := by
    unfold FourDigits Ranking.WEEK_ZERO at h
    omega
  rw [rankingWeekOf, if_neg hsafe, weekZero_eq]
  exact addDays_dayText fourDigits_weekZero h

/-- **The sealed week**, as long as the day before has four digits. -/
theorem sealedWeek_eq {time : Int} (h : FourDigits (Ranking.kstDay (time - HONOR_GRACE_MS)))
    (hzero : Ranking.WEEK_ZERO ≤ Ranking.kstDay (time - HONOR_GRACE_MS) + 7) :
    sealedWeek time = .ok ((Ranking.sealedWeek time).map dayText) := by
  have hweek := fourDigits_kstWeek h hzero
  have hlast : FourDigits (Ranking.kstWeek (Ranking.kstDay (time - HONOR_GRACE_MS)) + -7) := by
    have hbounds := kstWeek_bounds (Ranking.kstDay (time - HONOR_GRACE_MS))
    unfold FourDigits Ranking.WEEK_ZERO at *
    omega
  refine bind_eq_ok.mpr ⟨_, kstDay_eq h, bind_eq_ok.mpr ⟨_, kstWeek_dayText h hweek,
    bind_eq_ok.mpr ⟨_, addDays_dayText hweek hlast, ?_⟩⟩⟩
  simp only [pure_eq_ok, weekZero_lt hlast, Ranking.sealedWeek, Ranking.addDays, gt_iff_lt]
  split <;> rfl

/-- **The next reset**, as long as its day has four digits. -/
theorem nextReset_eq {time : Int} {period : ResetPeriod} (h : FourDigits (Ranking.kstDay time))
    (hzero : Ranking.WEEK_ZERO ≤ Ranking.kstDay time + 7)
    (hnext : FourDigits ((Ranking.nextReset time period + KST_OFFSET) / DAY_MS)) :
    nextReset time period = .ok (Ranking.nextReset time period) := by
  refine bind_eq_ok.mpr ⟨_, kstDay_eq h, ?_⟩
  unfold Ranking.nextReset Ranking.dayStart at *
  rw [Int.sub_add_cancel, day_of_start] at hnext
  cases period with
  | day =>
    simp only [Ranking.addDays] at hnext ⊢
    refine bind_eq_ok.mpr ⟨_, addDays_dayText h hnext, bind_eq_ok.mpr ⟨_, dayStart_dayText hnext, ?_⟩⟩
    exact pure_eq_ok.mpr rfl
  | week =>
    simp only [Ranking.addDays] at hnext ⊢
    have hweek := fourDigits_kstWeek h hzero
    refine bind_eq_ok.mpr ⟨_, kstWeek_dayText h hweek, bind_eq_ok.mpr ⟨_, addDays_dayText hweek hnext,
      bind_eq_ok.mpr ⟨_, dayStart_dayText hnext, ?_⟩⟩⟩
    exact pure_eq_ok.mpr rfl

end Texts

end Mapae.Ranking.Dates
