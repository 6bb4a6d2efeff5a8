import Mapae.Ranking.Attested

/-!
# Honors are cumulative

The contract keeps the lanes of the honors that were claimed and refuses lower ones. Title counts
and the week never go down. The longest streak may: it is recomputed from all days, and a round that
settles after its week for an earlier day shifts when rest days are earned
(`late_earlier_day_shortens`). Where the day of each row keeps pace, up to the week that is sealed when
it settles, honors are cumulative.
-/

namespace Mapae.Ranking

open Mapae.Infra Mapae.Store Mapae.Guardians

/-- `later` attests at least what `h` does, lane by lane. -/
structure GuardianHonors.Le (h later : GuardianHonors) : Prop where
  week : h.week ≤ later.week
  longestStreak : h.longestStreak ≤ later.longestStreak
  titles : List.Forall₂ CountsLe h.titles later.titles

/-- A row that settles is in pace. -/
def SettlesInPace (s s' : RankingState) : Prop :=
  ∀ row, s'.table.rows = s.table.rows ++ [row] → InPace s.table.rows row

/-- There is still something to attest. -/
theorem GuardianHonors.Le.nothing {h later : GuardianHonors} (hle : h.Le later)
    (hlanes : ∀ counts ∈ h.titles, isLane counts.champion ∧ isLane counts.podium ∧ isLane counts.top10)
    (hlater : later.Nothing) : h.Nothing := by
  refine ⟨Nat.le_zero.mp (hlater.1 ▸ hle.longestStreak), fun counts hcounts => ?_⟩
  obtain ⟨i, hi, rfl⟩ := List.mem_iff_getElem.mp hcounts
  obtain ⟨hlength, hall⟩ := List.forall₂_iff_get.mp hle.titles
  have hcounts' := hlater.2 _ (List.getElem_mem (hlength ▸ hi))
  have hle := hall i hi (hlength ▸ hi)
  have hlane := hlanes _ hcounts
  simp only [CountsLe, isLane, List.get_eq_getElem] at *
  omega

section Runs

variable {s s' s₁ : RankingState} {collection : String} {tokenId : Nat} {time : Int}
  {honors : Option GuardianHonors}

theorem allInPace_of_reachable (h : (rankingSystem.restrict SettlesInPace).Reachable s) :
    AllInPace s.table.rows := by
  refine @System.Reachable.invariant _ _ (fun s => AllInPace s.table.rows) ?_ ?_ s h
  · rintro _ ⟨version, clock, rfl⟩ pre row post he
    simp [RankingState.fresh, RankedTable.empty, RankedTable.rows, Table.empty] at he
  · intro s s' _ hpace hstep
    obtain ⟨hstep, hcond⟩ := hstep
    obtain ⟨row, table, -, hinsert, rfl⟩ | ⟨version, -, rfl⟩ | ⟨time, -, rfl⟩ |
      ⟨collection, time, last, book, -, -, rfl⟩ | rfl := step_cases hstep
    · have hrows := RankedTable.insert?_rows hinsert
      dsimp only at hcond ⊢
      rw [hrows]
      exact allInPace_append_singleton.mpr ⟨hpace, hcond row hrows⟩
    all_goals exact hpace

/-- A read leaves what its seal leaves. -/
theorem act_of_honor (h : s.honor collection tokenId time = .ok (honors, s₁)) (htime : time ≤ s.clock) :
    s.act (.seal collection time) = some s₁ ∧
      ∃ book, honor s.version s.table collection tokenId time s.book = .ok (honors, book) ∧
        s₁ = { s with book := book } := by
  rw [RankingState.honor, bind_eq_ok] at h
  obtain ⟨⟨read, book⟩, hread, h⟩ := h
  cases pure_eq_ok.mp h
  obtain ⟨last, hseal, -⟩ := honor_spec hread
  refine ⟨?_, book, hread, rfl⟩
  rw [RankingState.act, if_pos htime, hseal]

end Runs

/--
**Honors are cumulative** in every run whose rows settle in pace: what is read later attests at
least what was read before.
-/
theorem honors_cumulative (s s₁ s' s₂ : RankingState) (collection : String) (tokenId : Nat)
    (time time' : Int) (h : GuardianHonors) (later : Option GuardianHonors)
    (hr : (rankingSystem.restrict SettlesInPace).Reachable s) (htime : time ≤ s.clock)
    (hread : s.honor collection tokenId time = .ok (some h, s₁))
    (hs : (rankingSystem.restrict SettlesInPace).Steps s₁ s') (hle : time ≤ time')
    (htime' : time' ≤ s'.clock) (hread' : s'.honor collection tokenId time' = .ok (later, s₂)) :
    ∃ h', later = some h' ∧ h.Le h' := by
  obtain ⟨hact, book₁, hhonor, rfl⟩ := act_of_honor hread htime
  obtain ⟨-, book₂, hhonor', rfl⟩ := act_of_honor hread' htime'
  have hr₁ : (rankingSystem.restrict SettlesInPace).Reachable { s with book := book₁ } :=
    hr.step ⟨⟨_, hact⟩, fun row he => by simp at he⟩
  have hr' := hr₁.steps hs
  have hlater := later_of_steps hr₁.of_restrict (System.Steps.of_restrict hs)
  have hinv' := inv_of_reachable hr'.of_restrict
  obtain ⟨last, hseal, hnone, hsome⟩ := honor_spec hhonor
  obtain ⟨last', hseal', -, hsome'⟩ := honor_spec hhonor'
  obtain ⟨rfl, -, -⟩ := HonorBook.seal_spec hseal (inv_of_reachable hr.of_restrict).memoised htime
  obtain ⟨rfl, -, hgrows⟩ := HonorBook.seal_spec hseal' hinv'.memoised htime'
  obtain ⟨week, hweek⟩ : ∃ week, sealedWeek time = some week := by
    cases hsealed : sealedWeek time with
    | none => exact nomatch hnone hsealed
    | some week => exact ⟨week, rfl⟩
  obtain ⟨week', hweek', hweeks⟩ := sealedWeek_mono hweek hle
  obtain ⟨cutoff, index, hcutoff, hindex, hattested⟩ := hsome week hweek
  obtain ⟨cutoff', index', hcutoff', hindex', hattested'⟩ := hsome' week' hweek'
  have hcutoffs := cutoff_mono hcutoff hcutoff' hweeks
  obtain ⟨hsomething, hh⟩ := hattested.resolve_left fun hn => nomatch hn.2
  cases hh
  -- The week, the streak and the titles, each at least what it was.
  have hindexes : index ≤ index' := by
    obtain ⟨-, -, rfl⟩ := rankingWeekIndex_eq_ok.mp hindex
    obtain ⟨-, -, rfl⟩ := rankingWeekIndex_eq_ok.mp hindex'
    omega
  have htitles := guardianTitles_le (hlater.book.trans hgrows) hweeks (toLowerCase collection) tokenId
  have hstreak : (guardianStreak (honorDays s.table.rows (toLowerCase collection) tokenId
      (addDays week 6) cutoff) (addDays week 6)).best ≤ (guardianStreak (honorDays s'.table.rows
        (toLowerCase collection) tokenId (addDays week' 6) cutoff') (addDays week' 6)).best := by
    obtain ⟨rows, hrows, hsettled⟩ := hlater.rows
    obtain ⟨_, hcutoff₁, hpast⟩ := cutoff_of_sealedWeek hweek
    cases hcutoff.symm.trans hcutoff₁
    have hzero := (sealedWeek_eq_some.mp hweek).2
    have hlast : addDays week 6 ≤ addDays week' 6 := Int.add_le_add_right hweeks 6
    -- Rows that settled after the first seal, and then the days after its week.
    have hsealed : bestBefore s.table.rows (toLowerCase collection) tokenId week cutoff ≤
        bestBefore s'.table.rows (toLowerCase collection) tokenId week cutoff' := by
      have hle : bestBefore s'.table.rows (toLowerCase collection) tokenId week cutoff ≤ _ :=
        bestBefore_le (allInPace_of_reachable hr') hinv'.ordered hcutoff hzero hcutoffs
      rw [hrows] at hle ⊢
      rwa [bestBefore_append fun r hr => (hpast.trans htime).trans (hsettled r hr)] at hle
    refine hsealed.trans (best_le_of_later_days (fun d hd => ?_) hlast)
    simp only [mem_honorDays]
    exact and_congr_left fun _ => iff_of_true hd (hd.trans hlast)
  have hmore : (honorsAsOf s.table book₁ collection tokenId week cutoff index).Le
      (honorsAsOf s'.table book₂ collection tokenId week' cutoff' index') :=
    ⟨hindexes, min_le_min_left _ hstreak, htitles⟩
  have hlanes := isLane_guardianTitles book₁ (toLowerCase collection) tokenId week
  rcases hattested' with ⟨hnothing, -⟩ | ⟨-, hlater⟩
  · exact absurd (hmore.nothing hlanes hnothing) hsomething
  · exact ⟨_, hlater, hmore⟩

/-! ## Two reads -/

instance (s s' : RankingState) : Decidable (SettlesInPace s s') :=
  decidable_of_iff
    (∀ row ∈ s'.table.rows, s'.table.rows = s.table.rows ++ [row] → InPace s.table.rows row)
    ⟨fun h row he => h row (by simp [he]) he, fun h row _ => h row⟩

/-- What an event does, if a row that settles is in pace. -/
def actInPace (s : RankingState) (event : RankingEvent) : Option RankingState :=
  (s.act event).filter (SettlesInPace s ·)

theorem actInPace_seal (s : RankingState) (collection : String) (time : Int) :
    actInPace s (.seal collection time) = s.act (.seal collection time) := by
  rw [actInPace]
  cases h : s.act (.seal collection time) with
  | none => rfl
  | some s' =>
    refine Option.filter_some_pos (decide_eq_true fun row he => ?_)
    obtain ⟨-, hact⟩ := Option.ite_none_right_eq_some.mp h
    split at hact <;> cases hact <;> simp at he

/-- The clock after some events, and what a read attests then. -/
def readAfter (act : RankingState → RankingEvent → Option RankingState) (events : List RankingEvent) :
    Option (Int × Option GuardianHonors) :=
  (System.performAll act (.fresh 1 0) events).bind fun s =>
    (s.honor "0xA" 1 s.clock).toOption.map fun read => (s.clock, read.1)

theorem readAfter_eq_some {act : RankingState → RankingEvent → Option RankingState}
    {events : List RankingEvent} {clock : Int} {honors : Option GuardianHonors}
    (h : readAfter act events = some (clock, honors)) :
    ∃ s s₁, System.performAll act (.fresh 1 0) events = some s ∧ s.clock = clock ∧
      s.honor "0xA" 1 clock = .ok (honors, s₁) := by
  obtain ⟨s, hs, hread⟩ := Option.bind_eq_some_iff.mp h
  obtain ⟨⟨read, s₁⟩, hok, he⟩ := Option.map_eq_some_iff.mp hread
  cases he
  refine ⟨s, s₁, hs, rfl, ?_⟩
  cases hhonor : s.honor "0xA" 1 s.clock with
  | error e =>
    rw [hhonor] at hok
    cases hok
  | ok answer =>
    rw [hhonor] at hok
    exact congrArg Except.ok (Option.some.inj hok)

/-- A read, some events and another read. -/
theorem two_reads (act : RankingState → RankingEvent → Option RankingState)
    (hact : ∀ s time, act s (.seal "0xA" time) = s.act (.seal "0xA" time))
    (events events' : List RankingEvent) {clock clock' : Int} {h h' : Option GuardianHonors}
    (hfirst : readAfter act events = some (clock, h))
    (hsecond : readAfter act (events ++ .seal "0xA" clock :: events') = some (clock', h')) :
    ∃ s s₁ s' s₂, System.performAll act (.fresh 1 0) events = some s ∧ s.clock = clock ∧
      s.honor "0xA" 1 clock = .ok (h, s₁) ∧ System.performAll act s₁ events' = some s' ∧
      s'.clock = clock' ∧ s'.honor "0xA" 1 clock' = .ok (h', s₂) := by
  obtain ⟨s, s₁, hs, rfl, hread⟩ := readAfter_eq_some hfirst
  obtain ⟨s', s₂, hs', hclock', hread'⟩ := readAfter_eq_some hsecond
  rw [System.performAll_append, hs, Option.bind_some, System.performAll, hact,
    (act_of_honor hread le_rfl).1, Option.bind_some] at hs'
  exact ⟨s, s₁, s', s₂, hs, rfl, hread, hs', hclock', hread'⟩

/-- A round of the guardian. -/
def dayRow (day createdAt : Int) : RankedRow :=
  ⟨toString day, "0xa", 1, 7, 1, .stamp, day, 1, 100, createdAt⟩

/-- The day before the first settles after the seal, and the streak grows. -/
theorem honors_cumulative_lateDay : ∃ (s s₁ s' s₂ : RankingState) (h h' : GuardianHonors),
    s.honor "0xA" 1 s.clock = .ok (some h, s₁) ∧ h.longestStreak = 1 ∧
      s'.honor "0xA" 1 s'.clock = .ok (some h', s₂) ∧ h'.longestStreak = 2 ∧ h.Le h' := by
  obtain ⟨s, s₁, s', s₂, hs, hclock, hread, hs', hclock', hread'⟩ := two_reads
    actInPace (fun s => actInPace_seal s _)
    [.settle (dayRow 20719 (dayStart 20719)), .tick 1790607600000]
    [.settle (dayRow 20718 1790607600000), .tick 1791212400000]
    (show _ = some (1790607600000, some ⟨2959, 1, [⟨1, 0, 0⟩, ⟨0, 0, 0⟩, ⟨0, 0, 0⟩]⟩) by decide +kernel)
    (show _ = some (1791212400000, some ⟨2960, 2, [⟨1, 0, 0⟩, ⟨0, 0, 0⟩, ⟨0, 0, 0⟩]⟩) by decide +kernel)
  have hr : (rankingSystem.restrict SettlesInPace).Reachable s :=
    System.Reachable.steps (.init ⟨1, 0, rfl⟩) (System.restrict_of_performAll hs)
  obtain ⟨_, he, hle⟩ := honors_cumulative s s₁ s' s₂ "0xA" 1 _ _ _ _ hr hclock.ge hread
    (System.restrict_of_performAll hs') (by decide) hclock'.ge hread'
  cases he
  rw [← hclock] at hread
  rw [← hclock'] at hread'
  exact ⟨s, s₁, s', s₂, _, _, hread, rfl, hread', rfl, hle⟩

/-- Twenty days in a row, two missed, one played, one missed, two played. -/
def streakEvents : List RankingEvent :=
  (daysFrom 20718 20 ++ [20740, 20742, 20743]).map (fun day => .settle (dayRow day (dayStart day))) ++
    [.tick 1792422000000]

/-- **The day before the first settles after the seal, and the longest streak goes down.** -/
theorem late_earlier_day_shortens : ∃ (s s₁ s' s₂ : RankingState) (h h' : GuardianHonors),
    rankingSystem.Reachable s ∧ s.honor "0xA" 1 s.clock = .ok (some h, s₁) ∧
      rankingSystem.Steps s₁ s' ∧ s.clock ≤ s'.clock ∧
      s'.honor "0xA" 1 s'.clock = .ok (some h', s₂) ∧
      h.longestStreak = 23 ∧ h'.longestStreak = 22 := by
  obtain ⟨s, s₁, s', s₂, hs, hclock, hread, hs', hclock', hread'⟩ := two_reads
    RankingState.act (fun _ _ => rfl) streakEvents
    [.settle (dayRow 20717 1792422000000), .tick 1793026800000]
    (show _ = some (1792422000000, some ⟨2962, 23, [⟨4, 0, 0⟩, ⟨0, 0, 0⟩, ⟨0, 0, 0⟩]⟩) by decide +kernel)
    (show _ = some (1793026800000, some ⟨2963, 22, [⟨4, 0, 0⟩, ⟨0, 0, 0⟩, ⟨0, 0, 0⟩]⟩) by decide +kernel)
  have hr : rankingSystem.Reachable s := System.reachable_of_performAll (.init ⟨1, 0, rfl⟩) hs
  rw [← hclock] at hread
  rw [← hclock'] at hread'
  exact ⟨s, s₁, s', s₂, _, _, hr, hread, System.steps_of_performAll hs', by omega, hread', rfl, rfl⟩

end Mapae.Ranking
