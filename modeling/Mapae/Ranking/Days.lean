import Mapae.Infra.Result

/-!
# Ranking days and weeks

Boards, challenges and streaks turn over at midnight in Korea. A day is the number of its date
since 1970-01-01. The source writes days as `YYYY-MM-DD`, which for years of four digits sort and
count as these numbers do. An instant is in milliseconds.

* `kstWeek` is the Monday that starts a week, `weekCutoff` when the week seals
* `sealedWeek` is the latest week that is sealed (`cutoff_of_sealedWeek`)
-/

namespace Mapae.Ranking

open Mapae.Infra

def KST_OFFSET : Int := 9 * 60 * 60 * 1000
def DAY_MS : Int := 24 * 60 * 60 * 1000

/-- Monday of ranking week 0: 1970-01-05. -/
def WEEK_ZERO : Int := 4

/-- Late settlements may still land in a closed week for this long. -/
def HONOR_GRACE_MS : Int := DAY_MS

/-- `throw new Error(message)`. -/
inductive RankingError where
  | error (message : String)
  deriving DecidableEq

def dayStart (day : Int) : Int := day * DAY_MS

/-- The Korean calendar day of an instant. -/
def kstDay (time : Int) : Int := (time + KST_OFFSET) / DAY_MS

def addDays (day : Int) (n : Int) : Int := day + n

/-- `getUTCDay()` of the day's start: Sunday is 0. -/
def getUTCDay (day : Int) : Int := (day + 4) % 7

/-- The Monday that starts the week holding `day`. -/
def kstWeek (day : Int) : Int := addDays day (-((getUTCDay day + 6) % 7))

inductive ResetPeriod where
  | day
  | week

/-- The next 00:00 KST, or the next Monday 00:00 KST. -/
def nextReset (time : Int) (period : ResetPeriod) : Int :=
  let today := kstDay time
  dayStart (match period with
    | .day => addDays today 1
    | .week => addDays (kstWeek today) 7) - KST_OFFSET

/-- A week's index from week 0. Only a Monday names a week. -/
def rankingWeekIndex (week : Int) : Except RankingError Int :=
  if kstWeek week ≠ week ∨ week < WEEK_ZERO then .error (.error "Invalid ranking week")
  else .ok ((dayStart week - dayStart WEEK_ZERO) / DAY_MS / 7)

/-- When a week seals: the next Tuesday 00:00 KST. -/
def weekCutoff (week : Int) : Except RankingError Int := do
  let _ ← rankingWeekIndex week
  return dayStart (addDays week 7) - KST_OFFSET + HONOR_GRACE_MS

/-- The latest week sealed at an instant, if it is past week 0. -/
def sealedWeek (time : Int) : Option Int :=
  let week := addDays (kstWeek (kstDay (time - HONOR_GRACE_MS))) (-7)
  if week > WEEK_ZERO then some week else none

/-! ## Weeks -/

section Weeks

variable {day day' week week' time time' cutoff cutoff' index : Int}

theorem kstWeek_eq (day : Int) : kstWeek day = day - (day + 3) % 7 := by
  unfold kstWeek addDays getUTCDay
  omega

theorem kstWeek_bounds (day : Int) : kstWeek day ≤ day ∧ day < kstWeek day + 7 := by
  rw [kstWeek_eq]
  omega

theorem kstWeek_mono (h : day ≤ day') : kstWeek day ≤ kstWeek day' := by
  simp only [kstWeek_eq]
  omega

theorem rankingWeekIndex_eq_ok : rankingWeekIndex week = .ok index ↔
    kstWeek week = week ∧ WEEK_ZERO ≤ week ∧ index = (week - WEEK_ZERO) / 7 := by
  have hindex : (dayStart week - dayStart WEEK_ZERO) / DAY_MS / 7 = (week - WEEK_ZERO) / 7 := by
    simp only [dayStart, DAY_MS, WEEK_ZERO]
    omega
  unfold rankingWeekIndex
  rw [hindex]
  split
  · next h =>
    constructor
    · intro he
      cases he
    · rintro ⟨hmonday, hzero, -⟩
      rcases h with h | h
      · exact absurd hmonday h
      · omega
  · next h =>
    rw [not_or, not_not, Int.not_lt] at h
    simp [h.1, h.2, eq_comm]

theorem weekCutoff_eq_ok : weekCutoff week = .ok cutoff ↔ kstWeek week = week ∧ WEEK_ZERO ≤ week ∧
    cutoff = dayStart (addDays week 7) - KST_OFFSET + HONOR_GRACE_MS := by
  simp only [weekCutoff, bind_eq_ok, rankingWeekIndex_eq_ok, pure_eq_ok]
  constructor
  · rintro ⟨_, ⟨hmonday, hzero, -⟩, rfl⟩
    exact ⟨hmonday, hzero, rfl⟩
  · rintro ⟨hmonday, hzero, rfl⟩
    exact ⟨_, ⟨hmonday, hzero, rfl⟩, rfl⟩

/-- Once a week is sealed it is not the week of the clock. -/
theorem lt_kstWeek_of_cutoff (h : weekCutoff week = .ok cutoff) (htime : cutoff ≤ time) :
    week < kstWeek (kstDay time) := by
  obtain ⟨-, -, rfl⟩ := weekCutoff_eq_ok.mp h
  have hbounds := kstWeek_bounds (kstDay time)
  simp only [kstDay, dayStart, addDays, DAY_MS, KST_OFFSET, HONOR_GRACE_MS] at *
  omega

theorem cutoff_mono (h : weekCutoff week = .ok cutoff) (h' : weekCutoff week' = .ok cutoff')
    (hle : week ≤ week') : cutoff ≤ cutoff' := by
  obtain ⟨-, -, rfl⟩ := weekCutoff_eq_ok.mp h
  obtain ⟨-, -, rfl⟩ := weekCutoff_eq_ok.mp h'
  simp only [dayStart, addDays, DAY_MS] at *
  omega

theorem sealedWeek_eq_some : sealedWeek time = some week ↔
    week = kstWeek (kstDay (time - HONOR_GRACE_MS)) - 7 ∧ WEEK_ZERO < week := by
  unfold sealedWeek addDays
  dsimp only
  split
  · next h =>
    rw [Option.some.injEq]
    constructor
    · rintro rfl
      exact ⟨by omega, h⟩
    · rintro ⟨rfl, -⟩
      omega
  · next h =>
    constructor
    · intro he
      cases he
    · rintro ⟨rfl, hlt⟩
      exact absurd hlt (by simpa [Int.sub_eq_add_neg] using h)

/-- **The sealed week is past its cutoff.** -/
theorem cutoff_of_sealedWeek (h : sealedWeek time = some week) :
    ∃ cutoff, weekCutoff week = .ok cutoff ∧ cutoff ≤ time := by
  obtain ⟨rfl, hzero⟩ := sealedWeek_eq_some.mp h
  refine ⟨_, weekCutoff_eq_ok.mpr ⟨?_, Int.le_of_lt hzero, rfl⟩, ?_⟩
  · simp only [kstWeek_eq]
    omega
  · have hbounds := kstWeek_bounds (kstDay (time - HONOR_GRACE_MS))
    simp only [kstDay, dayStart, addDays, DAY_MS, KST_OFFSET, HONOR_GRACE_MS] at *
    omega

theorem sealedWeek_mono (h : sealedWeek time = some week) (hle : time ≤ time') :
    ∃ week', sealedWeek time' = some week' ∧ week ≤ week' := by
  obtain ⟨rfl, hzero⟩ := sealedWeek_eq_some.mp h
  have hday : kstDay (time - HONOR_GRACE_MS) ≤ kstDay (time' - HONOR_GRACE_MS) := by
    simp only [kstDay, DAY_MS, KST_OFFSET, HONOR_GRACE_MS]
    omega
  have hweek := kstWeek_mono hday
  exact ⟨_, sealedWeek_eq_some.mpr ⟨rfl, by omega⟩, by omega⟩

/-- From its cutoff on, a week is sealed. -/
theorem le_sealedWeek (h : weekCutoff week = .ok cutoff) (hzero : WEEK_ZERO < week)
    (htime : cutoff ≤ time) : ∃ week', sealedWeek time = some week' ∧ week ≤ week' := by
  obtain ⟨hmonday, -, rfl⟩ := weekCutoff_eq_ok.mp h
  have hday : week + 7 ≤ kstDay (time - HONOR_GRACE_MS) := by
    simp only [kstDay, dayStart, addDays, DAY_MS, KST_OFFSET, HONOR_GRACE_MS] at *
    omega
  have hweek := kstWeek_mono hday
  simp only [kstWeek_eq] at *
  exact ⟨_, sealedWeek_eq_some.mpr ⟨rfl, by simp only [kstWeek_eq]; omega⟩, by
    simp only [kstWeek_eq]
    omega⟩

end Weeks

end Mapae.Ranking
