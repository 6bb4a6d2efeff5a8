import Mathlib.Data.String.Basic
import Mapae.Guardians.Effects
import Mapae.Ranking.Dates

/-!
# One calendar

The weeks of the ranking are counted on texts, on instants, in the seconds of the query and in the days
of the contract. All of them agree as long as the days are written with a year of four digits: the day
after 9999-12-31 is no ranking day (`after_9999`).

* `isSealed_iff` is when a week is sealed, counted in days
* `kstWeek_spec`, `sealedWeek_spec`, `nextReset_spec`, `rankingWeekOf_iff` and `checkHonor_iff` are the
  parts of `one_calendar`
-/

namespace Mapae.Ranking.Dates

open Mapae.Infra Mapae.Infra.Calendar

/-- The first instant of 10000-01-01 in Korea. -/
def END : Int := 2932897 * DAY_MS - KST_OFFSET

/-- The last reset there is: 9999-12-31, or 9999-12-27, the last Monday. -/
def lastReset : ResetPeriod → Int
  | .day => END - DAY_MS
  | .week => END - 5 * DAY_MS

/-- A 00:00 KST. -/
def IsMidnight (time : Int) : Prop := (time + KST_OFFSET) % DAY_MS = 0

/-- A 00:00 KST, or one of a Monday. -/
def IsReset (period : ResetPeriod) (time : Int) : Prop :=
  IsMidnight time ∧ (period = .week → getUTCDay ((time + KST_OFFSET) / DAY_MS) = 1)

/-- An instant of a ranking week, the first one or a later one. -/
def FromFirstWeek (time : Int) : Prop := Ranking.WEEK_ZERO ≤ Ranking.kstDay time

instance (time : Int) : Decidable (FromFirstWeek time) := inferInstanceAs (Decidable (_ ≤ _))

/-- A week of an index of at least 1 whose cutoff is over. -/
def IsSealed (time : Int) (week : String) : Prop :=
  ∃ index cutoff, rankingWeekIndex week = .ok index ∧ 1 ≤ index ∧ weekCutoff week = .ok cutoff ∧
    cutoff ≤ time

section Calendar

variable {time n : Int} {day week : String}

/-! ## Sealed weeks -/

/-- **A week is sealed** from the Tuesday after it on. -/
theorem isSealed_iff : IsSealed time week ↔ ∃ n, FourDigits (n + 7) ∧ week = dayText n ∧
    Ranking.kstWeek n = n ∧ Ranking.WEEK_ZERO < n ∧ n + 7 ≤ Ranking.kstDay (time - HONOR_GRACE_MS) := by
  unfold IsSealed
  constructor
  · rintro ⟨index, cutoff, hindex, hone, hcutoff, hle⟩
    obtain ⟨n, hn, rfl, hweek⟩ := rankingWeekIndex_eq_ok.mp hindex
    obtain ⟨-, -, rfl⟩ := Ranking.rankingWeekIndex_eq_ok.mp hweek
    obtain ⟨hnext, hcut⟩ := (weekCutoff_dayText hn).mp hcutoff
    obtain ⟨hmonday, hzero, rfl⟩ := Ranking.weekCutoff_eq_ok.mp hcut
    refine ⟨n, hnext, rfl, hmonday, by omega, ?_⟩
    simp only [Ranking.dayStart, Ranking.addDays, Ranking.kstDay, DAY_MS, KST_OFFSET, HONOR_GRACE_MS] at *
    omega
  · rintro ⟨n, hnext, rfl, hmonday, hzero, hle⟩
    have hn : FourDigits n := by
      unfold FourDigits Ranking.WEEK_ZERO at *
      omega
    have hsevens : 1 ≤ (n - Ranking.WEEK_ZERO) / 7 := by
      rw [kstWeek_eq] at hmonday
      unfold Ranking.WEEK_ZERO at *
      omega
    refine ⟨_, _, rankingWeekIndex_eq_ok.mpr ⟨n, hn, rfl,
        Ranking.rankingWeekIndex_eq_ok.mpr ⟨hmonday, hzero.le, rfl⟩⟩, hsevens,
      weekCutoff_eq_ok.mpr ⟨n, hnext, rfl, Ranking.weekCutoff_eq_ok.mpr ⟨hmonday, hzero.le, rfl⟩⟩, ?_⟩
    simp only [Ranking.dayStart, Ranking.addDays, Ranking.kstDay, DAY_MS, KST_OFFSET, HONOR_GRACE_MS] at *
    omega

/-- **The sealed week is the greatest week that is sealed.** -/
theorem sealedWeek_spec (htime : FromFirstWeek time) (hend : time < END + HONOR_GRACE_MS) :
    ∃ sealed, sealedWeek time = .ok sealed ∧ (sealed = none → ∀ week, ¬ IsSealed time week) ∧
      ∀ week ∈ sealed, IsGreatest {week | IsSealed time week} week := by
  have hrange : FourDigits (Ranking.kstDay (time - HONOR_GRACE_MS)) ∧
      Ranking.WEEK_ZERO ≤ Ranking.kstDay (time - HONOR_GRACE_MS) + 7 := by
    simp only [FromFirstWeek, END, FourDigits, Ranking.kstDay, Ranking.WEEK_ZERO, DAY_MS, KST_OFFSET,
      HONOR_GRACE_MS] at *
    omega
  -- the weeks sealed are the Mondays up to the one before the current week
  have hle : ∀ n, Ranking.kstWeek n = n → n + 7 ≤ Ranking.kstDay (time - HONOR_GRACE_MS) →
      n ≤ Ranking.kstWeek (Ranking.kstDay (time - HONOR_GRACE_MS)) - 7 := by
    intro n hmonday hn
    have hmono := kstWeek_mono hn
    rw [kstWeek_eq] at hmonday
    rw [kstWeek_eq (n + 7)] at hmono
    omega
  refine ⟨_, sealedWeek_eq hrange.1 hrange.2, fun hnone week hsealed => ?_, fun week hweek => ?_⟩
  · obtain ⟨n, -, -, hmonday, hzero, hn⟩ := isSealed_iff.mp hsealed
    have hlast := hle n hmonday hn
    have hsome : Ranking.sealedWeek time =
        some (Ranking.kstWeek (Ranking.kstDay (time - HONOR_GRACE_MS)) - 7) :=
      sealedWeek_eq_some.mpr ⟨rfl, by omega⟩
    rw [hsome] at hnone
    cases hnone
  · obtain ⟨n, hsome, rfl⟩ := Option.map_eq_some_iff.mp hweek
    obtain ⟨rfl, hzero⟩ := sealedWeek_eq_some.mp hsome
    have hbounds := kstWeek_bounds (Ranking.kstDay (time - HONOR_GRACE_MS))
    have hfour : FourDigits (Ranking.kstWeek (Ranking.kstDay (time - HONOR_GRACE_MS)) - 7) := by
      unfold FourDigits Ranking.WEEK_ZERO at *
      omega
    constructor
    · refine isSealed_iff.mpr ⟨_, ?_, rfl, ?_, hzero, by omega⟩
      · have := fourDigits_kstWeek hrange.1 hrange.2
        simpa using this
      · simp only [kstWeek_eq]
        omega
    · intro week hsealed
      obtain ⟨n, hn7, rfl, hmonday, hzero', hn⟩ := isSealed_iff.mp hsealed
      have hnfour : FourDigits n := by
        unfold FourDigits Ranking.WEEK_ZERO at *
        omega
      show ¬ dayText _ < dayText n
      rw [dayText_lt_iff hfour hnfour]
      have hlast := hle n hmonday hn
      omega

/-! ## Days, weeks and resets -/

/-- **The week of a day** is the Monday at most six days before it. -/
theorem kstWeek_spec (hday : isRankingDay day = true) (hfirst : WEEK_ZERO ≤ day) :
    ∃ monday start monday₀, kstWeek day = .ok monday ∧ dayStart day = .ok start ∧
      dayStart monday = .ok monday₀ ∧ getUTCDay (monday₀ / DAY_MS) = 1 ∧
      monday₀ ≤ start ∧ start - 7 * DAY_MS < monday₀ := by
  obtain ⟨n, hn, rfl⟩ := isRankingDay_iff.mp hday
  have hzero : Ranking.WEEK_ZERO ≤ n := by
    have hnot : ¬ dayText n < WEEK_ZERO := hfirst
    rw [lt_weekZero hn] at hnot
    omega
  have hweek := fourDigits_kstWeek hn (by omega)
  have hbounds := kstWeek_bounds n
  refine ⟨_, _, _, kstWeek_dayText hn hweek, dayStart_dayText hn, dayStart_dayText hweek, ?_, ?_, ?_⟩
  · rw [day_of_start, getUTCDay, kstWeek_eq]
    omega
  · unfold DAY_MS
    omega
  · unfold DAY_MS
    omega

/-- **The next reset is the first one after the instant.** -/
theorem nextReset_spec {period : ResetPeriod} (htime : FromFirstWeek time) (hend : time < lastReset period) :
    ∃ reset, nextReset time period = .ok reset ∧ IsLeast {r | IsReset period r ∧ time < r} reset := by
  have hbounds := kstWeek_bounds (Ranking.kstDay time)
  have hweek := kstWeek_eq (Ranking.kstDay time)
  have hnext : Ranking.nextReset time period = (match period with
      | .day => Ranking.kstDay time + 1
      | .week => Ranking.kstWeek (Ranking.kstDay time) + 7) * DAY_MS - KST_OFFSET := by
    cases period <;> rfl
  have hfour : FourDigits (Ranking.kstDay time) ∧
      FourDigits ((Ranking.nextReset time period + KST_OFFSET) / DAY_MS) := by
    rw [hnext, Int.sub_add_cancel, day_of_start]
    cases period with
    | day =>
      have hbefore : time < END - DAY_MS := hend
      simp only [FromFirstWeek, END, FourDigits, Ranking.kstDay, Ranking.WEEK_ZERO, DAY_MS, KST_OFFSET] at *
      omega
    | week =>
      have hbefore : time < END - 5 * DAY_MS := hend
      simp only [FromFirstWeek, END, FourDigits, Ranking.kstDay, Ranking.WEEK_ZERO, DAY_MS, KST_OFFSET] at *
      omega
  unfold FromFirstWeek at htime
  refine ⟨_, nextReset_eq hfour.1 (by omega) hfour.2, ?_⟩
  rw [hnext]
  refine ⟨⟨⟨?_, fun hperiod => ?_⟩, ?_⟩, fun reset hreset => ?_⟩
  · unfold IsMidnight
    rw [Int.sub_add_cancel]
    exact Int.mul_emod_left ..
  · subst hperiod
    rw [Int.sub_add_cancel, day_of_start]
    show (Ranking.kstWeek (Ranking.kstDay time) + 7 + 4) % 7 = 1
    omega
  · cases period
    all_goals
      simp only [Ranking.kstDay, DAY_MS, KST_OFFSET] at *
      omega
  · obtain ⟨⟨hmidnight, hmonday⟩, hlt⟩ := hreset
    cases period
    · simp only [IsMidnight, Ranking.kstDay, DAY_MS, KST_OFFSET] at *
      omega
    · have hday := hmonday rfl
      simp only [IsMidnight, getUTCDay, Ranking.kstDay, DAY_MS, KST_OFFSET] at *
      omega

/-! ## Indexes, the query and the contract -/

/-- **The index of a week and the week of an index are inverse.** -/
theorem rankingWeekOf_iff {index : Int} : rankingWeekIndex week = .ok index ↔
    rankingWeekOf index = .ok week ∧ isRankingDay week = true := by
  rw [rankingWeekIndex_eq_ok]
  constructor
  · rintro ⟨n, hn, rfl, hweek⟩
    obtain ⟨hmonday, hzero, rfl⟩ := Ranking.rankingWeekIndex_eq_ok.mp hweek
    have hsevens : Ranking.WEEK_ZERO + (n - Ranking.WEEK_ZERO) / 7 * 7 = n := by
      rw [kstWeek_eq] at hmonday
      unfold Ranking.WEEK_ZERO at *
      omega
    have hof : rankingWeekOf ((n - Ranking.WEEK_ZERO) / 7) = .ok (dayText n) := by
      rw [rankingWeekOf_eq (by omega) (by rwa [hsevens]), hsevens]
    exact ⟨hof, isRankingDay_dayText hn⟩
  · rintro ⟨hof, hday⟩
    unfold rankingWeekOf at hof
    split at hof
    · cases hof
    · next hindex =>
      obtain ⟨n, hn, hsum, hzero, rfl⟩ := addDays_eq_ok hof hday
      rw [weekZero_eq, dayText_inj fourDigits_weekZero hn] at hzero
      subst hzero
      refine ⟨_, hsum, rfl, Ranking.rankingWeekIndex_eq_ok.mpr ⟨?_, by omega, ?_⟩⟩
      · rw [kstWeek_eq]
        unfold Ranking.WEEK_ZERO
        omega
      · omega

/-- A Monday from the first week on has an index. -/
theorem exists_index (hmonday : kstWeek week = .ok week) (hfirst : WEEK_ZERO ≤ week) :
    ∃ index, rankingWeekIndex week = .ok index := by
  obtain ⟨start, hstart, -⟩ := bind_eq_ok.mp hmonday
  obtain ⟨n, hn, rfl, -⟩ := dayStart_eq_ok.mp hstart
  have hzero : ¬ dayText n < WEEK_ZERO := hfirst
  rw [lt_weekZero hn, not_lt] at hzero
  have hfour := fourDigits_kstWeek hn (by omega)
  rw [kstWeek_dayText hn hfour, Except.ok.injEq, dayText_inj hfour hn] at hmonday
  exact ⟨_, rankingWeekIndex_eq_ok.mpr ⟨n, hn, rfl,
    Ranking.rankingWeekIndex_eq_ok.mpr ⟨hmonday, hzero, rfl⟩⟩⟩

/-- **The query has the cutoff of the week.** It has none where the week has none. -/
theorem seasonCutoff_eq {index : Int} (h : rankingWeekIndex week = .ok index) :
    seasonCutoff week = (weekCutoff week).toOption := by
  obtain ⟨n, hn, rfl, hweek⟩ := rankingWeekIndex_eq_ok.mp h
  obtain ⟨hmonday, hzero, -⟩ := Ranking.rankingWeekIndex_eq_ok.mp hweek
  rw [seasonCutoff, parseDay_dayText hn, Option.bind_some, day_of_start]
  by_cases hnext : FourDigits (n + 7)
  · have hcutoff := weekCutoff_eq_ok.mpr
      ⟨n, hnext, rfl, Ranking.weekCutoff_eq_ok.mpr ⟨hmonday, hzero, rfl⟩⟩
    have height : FourDigits (n + 8) := by
      rw [kstWeek_eq] at hmonday
      unfold FourDigits Ranking.WEEK_ZERO at *
      omega
    rw [hcutoff, if_pos height]
    simp only [Except.toOption, Option.some.injEq, Ranking.dayStart, Ranking.addDays, DAY_MS, KST_OFFSET,
      HONOR_GRACE_MS]
    omega
  · have height : ¬ FourDigits (n + 8) := by
      unfold FourDigits Ranking.WEEK_ZERO at *
      omega
    rw [if_neg height]
    cases hcutoff : weekCutoff (dayText n) with
    | error e => rfl
    | ok cutoff => exact absurd ((weekCutoff_dayText hn).mp hcutoff).1 hnext

/-- The cutoff of a week that the contract counts is where the contract has it. -/
theorem cutoff_of_index {index : Nat} (h : index < 2 ^ 16) (cutoff : Int) :
    (∃ week, rankingWeekOf index = .ok week ∧ weekCutoff week = .ok cutoff) ↔
      cutoff = 1000 * (Guardians.GuardiansStorage.sealedAt index : Int) := by
  have hday : FourDigits (Ranking.WEEK_ZERO + (index : Int) * 7) ∧
      FourDigits (Ranking.WEEK_ZERO + (index : Int) * 7 + 7) := by
    unfold FourDigits Ranking.WEEK_ZERO
    omega
  have hof := rankingWeekOf_eq (Int.natCast_nonneg index) hday.1
  have hmonday : Ranking.kstWeek (Ranking.WEEK_ZERO + (index : Int) * 7) =
      Ranking.WEEK_ZERO + (index : Int) * 7 := by
    rw [kstWeek_eq]
    unfold Ranking.WEEK_ZERO
    omega
  have hat : Ranking.dayStart (Ranking.addDays (Ranking.WEEK_ZERO + (index : Int) * 7) 7) -
      KST_OFFSET + HONOR_GRACE_MS = 1000 * (Guardians.GuardiansStorage.sealedAt index : Int) := by
    simp only [Ranking.dayStart, Ranking.addDays, Ranking.WEEK_ZERO, DAY_MS, KST_OFFSET, HONOR_GRACE_MS,
      Guardians.GuardiansStorage.sealedAt, Guardians.HONOR_GRACE]
    omega
  constructor
  · rintro ⟨week, hweek, hcutoff⟩
    obtain rfl := Except.ok.inj (hof.symm.trans hweek)
    obtain ⟨-, hcut⟩ := (weekCutoff_dayText hday.1).mp hcutoff
    obtain ⟨-, -, rfl⟩ := Ranking.weekCutoff_eq_ok.mp hcut
    exact hat
  · rintro rfl
    exact ⟨_, hof, (weekCutoff_dayText hday.1).mpr
      ⟨hday.2, Ranking.weekCutoff_eq_ok.mpr ⟨hmonday, by omega, hat.symm⟩⟩⟩

/-- **The contract accepts an honor**, as far as its week goes, from the cutoff of the week on. -/
theorem checkHonor_iff {erc : Guardians.Erc721} {hashes : Guardians.Hashes}
    {s : Guardians.GuardiansStorage erc} {h : Guardians.Honor} {signature : hashes.Signature} :
    s.checkHonor hashes h signature = .ok ⟨⟩ ↔
      (s.requireOwned h.tokenId = .ok ⟨⟩ ∧ (s.tokens h.tokenId).revealed = true ∧
        s.checkSigner (hashes.recoverHonor h signature) = .ok ⟨⟩) ∧
      1 ≤ h.week.toNat ∧ ∃ week cutoff, rankingWeekOf h.week.toNat = .ok week ∧
        weekCutoff week = .ok cutoff ∧ cutoff ≤ 1000 * s.timestamp := by
  have hcutoff := cutoff_of_index h.week.isLt
  have hsealed : (∃ week cutoff, rankingWeekOf h.week.toNat = .ok week ∧ weekCutoff week = .ok cutoff ∧
      cutoff ≤ 1000 * (s.timestamp : Int)) ↔
        Guardians.GuardiansStorage.sealedAt h.week.toNat ≤ s.timestamp := by
    constructor
    · rintro ⟨week, cutoff, hweek, hcut, hle⟩
      have hat := (hcutoff cutoff).mp ⟨week, hweek, hcut⟩
      omega
    · intro hle
      obtain ⟨week, hweek, hcut⟩ := (hcutoff _).mpr rfl
      exact ⟨week, _, hweek, hcut, by omega⟩
  rw [hsealed]
  constructor
  · intro hc
    obtain ⟨hweek, hle⟩ := Guardians.GuardiansStorage.sealed_of_checkHonor hc
    obtain ⟨_, howned, hc⟩ := bind_eq_ok.mp hc
    obtain ⟨_, hrevealed, hc⟩ := bind_eq_ok.mp hc
    obtain ⟨_, -, hsigner⟩ := bind_eq_ok.mp hc
    exact ⟨⟨howned, by simpa using throwIf_eq_ok.mp hrevealed, hsigner⟩, by omega, hle⟩
  · rintro ⟨⟨howned, hrevealed, hsigner⟩, hweek, hle⟩
    have hopen : ¬ (h.week.toNat = 0 ∨ s.timestamp < Guardians.GuardiansStorage.sealedAt h.week.toNat) := by
      omega
    exact bind_eq_ok.mpr ⟨⟨⟩, howned, bind_eq_ok.mpr ⟨⟨⟩, throwIf_eq_ok.mpr (by simp [hrevealed]),
      bind_eq_ok.mpr ⟨⟨⟩, throwIf_eq_ok.mpr hopen, hsigner⟩⟩⟩

end Calendar

/--
**One calendar**, from the first week on, as long as the days have years of four digits.

In order: the sealed week; indexes and weeks; the contract; the query; the week of a day; the resets.
-/
theorem one_calendar :
    (∀ time, FromFirstWeek time → time < END + HONOR_GRACE_MS →
      ∃ sealed, sealedWeek time = .ok sealed ∧ (sealed = none → ∀ week, ¬ IsSealed time week) ∧
        ∀ week ∈ sealed, IsGreatest {week | IsSealed time week} week) ∧
    ((∀ week, kstWeek week = .ok week → WEEK_ZERO ≤ week → ∃ index, rankingWeekIndex week = .ok index) ∧
      ∀ week index, rankingWeekIndex week = .ok index ↔
        rankingWeekOf index = .ok week ∧ isRankingDay week = true) ∧
    (∀ (erc : Guardians.Erc721) (hashes : Guardians.Hashes) (s : Guardians.GuardiansStorage erc)
      (h : Guardians.Honor) (signature : hashes.Signature), s.checkHonor hashes h signature = .ok ⟨⟩ ↔
        (s.requireOwned h.tokenId = .ok ⟨⟩ ∧ (s.tokens h.tokenId).revealed = true ∧
          s.checkSigner (hashes.recoverHonor h signature) = .ok ⟨⟩) ∧
        1 ≤ h.week.toNat ∧ ∃ week cutoff, rankingWeekOf h.week.toNat = .ok week ∧
          weekCutoff week = .ok cutoff ∧ cutoff ≤ 1000 * s.timestamp) ∧
    (∀ week index, rankingWeekIndex week = .ok index →
      seasonCutoff week = (weekCutoff week).toOption) ∧
    (∀ day, isRankingDay day = true → WEEK_ZERO ≤ day →
      ∃ monday start monday₀, kstWeek day = .ok monday ∧ dayStart day = .ok start ∧
        dayStart monday = .ok monday₀ ∧ getUTCDay (monday₀ / DAY_MS) = 1 ∧
        monday₀ ≤ start ∧ start - 7 * DAY_MS < monday₀) ∧
    ∀ time period, FromFirstWeek time → time < lastReset period →
      ∃ reset, nextReset time period = .ok reset ∧ IsLeast {r | IsReset period r ∧ time < r} reset :=
  ⟨fun _ => sealedWeek_spec, ⟨fun _ => exists_index, fun _ _ => rankingWeekOf_iff⟩,
    fun _ _ _ _ _ => checkHonor_iff, fun _ _ => seasonCutoff_eq, fun _ => kstWeek_spec,
    fun _ _ => nextReset_spec⟩

/-- On Tuesday, 2026-10-13, at 00:00 in Korea. -/
theorem one_calendar_october : ∃ sealed, sealedWeek 1791817200000 = .ok sealed ∧
    (sealed = none → ∀ week, ¬ IsSealed 1791817200000 week) ∧
      ∀ week ∈ sealed, IsGreatest {week | IsSealed 1791817200000 week} week :=
  one_calendar.1 1791817200000 (by decide) (by decide)

/-- Past 9999-12-31 there is no sealed week, and no reset follows that day. -/
theorem after_9999 : FromFirstWeek (END - 1) ∧ FromFirstWeek (END + HONOR_GRACE_MS) ∧
    sealedWeek (END + HONOR_GRACE_MS) = .error (.error "Invalid ranking day") ∧
    nextReset (END - 1) .day = .error (.error "Invalid ranking day") := by
  refine ⟨by decide, by decide, by decide +kernel, by decide +kernel⟩

end Mapae.Ranking.Dates
