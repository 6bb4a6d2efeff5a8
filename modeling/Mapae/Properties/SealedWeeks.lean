import Mapae.Ranking.History

/-!
# A sealed week never changes

Rounds may settle long after the day they were drawn for, and the ruleset may be raised at any time.
Once the clock has reached the cutoff of a week:

* its boards have the same rows and the same ruleset at every later read. A week with no row by its
  cutoff has no ruleset of its own: its boards are empty under the ruleset of the arcade
* its title holders are the top rows of these boards, whenever they were memoised
* its days contribute the same points to the season
-/

namespace Mapae.Ranking

open Mapae.Infra Mapae.Store

/-! ## The points of a week -/

/-- The season points that the days of a week contribute to a guardian. -/
def weekPoints (rows : List RankedRow) (week : Int) (tokenId : Nat) : Nat :=
  ((partition SeasonDay.tokenId (weekDaily rows week) tokenId).map SeasonDay.points).sum

/-- A row of the week settled before its cutoff. -/
def PlayedBefore (t : RankedTable) (collection : String) (week cutoff : Int) : Prop :=
  ∃ r ∈ t.rows, r.collection = collection ∧ r.week = week ∧ r.createdAt < cutoff

theorem weekRuleset_eq_none {t : RankedTable} {collection : String} {week cutoff : Int} :
    weekRuleset t.rows collection week cutoff = none ↔ ¬ PlayedBefore t collection week cutoff := by
  rw [weekRuleset, List.max?_eq_none_iff, List.map_eq_nil_iff, List.filter_eq_nil_iff]
  constructor
  · rintro h ⟨r, hr, hcond⟩
    exact h r hr (decide_eq_true hcond)
  · exact fun h r hr hcond => h ⟨r, hr, of_decide_eq_true hcond⟩

/--
**A sealed week never changes.** From a state in which the clock has reached the cutoff to any later
one: the boards, the memoised titles and the points of its days.
-/
theorem sealed_week_held (s s' : RankingState) (hr : rankingSystem.Reachable s)
    (hs : rankingSystem.Steps s s') (collection : String) (week cutoff : Int)
    (hcutoff : weekCutoff week = .ok cutoff) (hsealed : cutoff ≤ s.clock) :
    let c := toLowerCase collection
    (∀ game time time', cutoff ≤ time → cutoff ≤ time' → ∃ board board',
      weekBoard s.version s.table collection game week time = .ok board ∧
      weekBoard s'.version s'.table collection game week time' = .ok board' ∧
      board'.rows = board.rows ∧
      (PlayedBefore s.table c week cutoff → board'.ruleset = board.ruleset) ∧
      (¬ PlayedBefore s.table c week cutoff →
        board.rows = [] ∧ board.ruleset = s.version ∧ board'.ruleset = s'.version) ∧
      ((c, week) ∈ s'.book.weeks.rows → s'.book.holders c week game = topRows board.rows)) ∧
    ∀ fromDay toDay,
      (weekDaily (seasonRows s'.table.rows c fromDay toDay) week).Perm
          (weekDaily (seasonRows s.table.rows c fromDay toDay) week) ∧
        ∀ tokenId, weekPoints (seasonRows s'.table.rows c fromDay toDay) week tokenId =
          weekPoints (seasonRows s.table.rows c fromDay toDay) week tokenId := by
  dsimp only
  obtain ⟨later, hrows, hlater⟩ := (later_of_steps hr hs).rows
  have hlater : ∀ r ∈ later, cutoff ≤ r.createdAt := fun r h => hsealed.trans (hlater r h)
  have hmemo := (inv_of_reachable (hr.steps hs)).memoised
  constructor
  · intro game time time' htime htime'
    obtain ⟨board, hboard, hruleset, hbrows⟩ :=
      exists_weekBoard s.version s.table collection game hcutoff htime
    obtain ⟨board', hboard', hruleset', hbrows'⟩ :=
      exists_weekBoard s'.version s'.table collection game hcutoff htime'
    rw [hrows, weekRuleset_append hlater] at hruleset'
    rw [hrows, sealedBoard_append hlater, ← hbrows] at hbrows'
    refine ⟨board, board', hboard, hboard', hbrows', fun hplayed => ?_, fun hplayed => ?_, fun hw => ?_⟩
    · cases hmax : weekRuleset s.table.rows (toLowerCase collection) week cutoff with
      | none => exact absurd hplayed (weekRuleset_eq_none.mp hmax)
      | some ruleset => rw [hruleset, hruleset', hmax, Option.getD_some, Option.getD_some]
    · have hmax := weekRuleset_eq_none.mpr hplayed
      rw [hmax] at hruleset hruleset'
      refine ⟨?_, hruleset, hruleset'⟩
      rw [hbrows, sealedBoard, weekBoardRows_eq_nil hmax]
    · obtain ⟨cutoff', hcutoff', -, hholders⟩ := hmemo.holders _ _ hw
      cases hcutoff.symm.trans hcutoff'
      rw [hholders, hrows, sealedBoard_append hlater, hbrows]
  · intro fromDay toDay
    have hperm : (weekDaily (seasonRows s'.table.rows (toLowerCase collection) fromDay toDay) week).Perm
        (weekDaily (seasonRows s.table.rows (toLowerCase collection) fromDay toDay) week) := by
      have hslot := s'.table.slotUnique
      rw [hrows] at hslot ⊢
      exact perm_weekDaily_append hslot hcutoff hlater
    exact ⟨hperm, fun tokenId => ((hperm.filter _).map _).sum_eq⟩

/-- A round of the week of 2026-09-21 that settled on its day, and one that settled ten days after
the week, under a higher ruleset. -/
def playedRow : RankedRow := ⟨"0x01", "0xa", 1, 7, 1, .race, 20719, 1, 500, 1790132400000⟩
def lateRow : RankedRow := ⟨"0x02", "0xa", 1, 7, 2, .race, 20723, 1, 900, 1791342000000⟩

theorem sealed_week_held_lateRow : ∃ s s' : RankingState,
    s.table.rows = [playedRow] ∧ s'.table.rows = [playedRow, lateRow] ∧
    ∃ board board', weekBoard s.version s.table "0xA" .race 20717 s.clock = .ok board ∧
      weekBoard s'.version s'.table "0xA" .race 20717 s'.clock = .ok board' ∧
      board'.rows = board.rows ∧ board'.ruleset = board.ruleset ∧
      s'.book.holders "0xa" 20717 .race = topRows board.rows := by
  have hrun : ((System.performAll RankingState.act (.fresh 1 0)
      [.settle playedRow, .tick 1790607600000, .seal "0xA" 1790607600000]).map fun s =>
        (s.table.rows, s.clock)) = some ([playedRow], 1790607600000) := by decide +kernel
  obtain ⟨s, hs, hfields⟩ := Option.map_eq_some_iff.mp hrun
  obtain ⟨hrows, hclock⟩ := Prod.mk.inj hfields
  have hlate : ((System.performAll RankingState.act (.fresh 1 0)
      ([.settle playedRow, .tick 1790607600000, .seal "0xA" 1790607600000] ++
        [.raise 2, .settle lateRow])).map fun s => (s.table.rows, s.clock, s.book.weeks.rows)) =
          some ([playedRow, lateRow], 1791342000000, [("0xa", 20717)]) := by decide +kernel
  obtain ⟨s', hs', hfields'⟩ := Option.map_eq_some_iff.mp hlate
  simp only [Prod.mk.injEq] at hfields'
  obtain ⟨hrows', hclock', hweeks'⟩ := hfields'
  rw [System.performAll_append, hs] at hs'
  have hreach : rankingSystem.Reachable s := System.reachable_of_performAll (.init ⟨1, 0, rfl⟩) hs
  obtain ⟨board, board', hboard, hboard', hsame, hruleset, -, hholders⟩ :=
    (sealed_week_held s s' hreach (System.steps_of_performAll hs') "0xA" 20717 1790607600000 (by rfl)
      hclock.ge).1 .race s.clock s'.clock hclock.ge (by rw [hclock']; decide)
  refine ⟨s, s', hrows, hrows', board, board', hboard, hboard', hsame, hruleset ?_, hholders ?_⟩
  · exact ⟨playedRow, by rw [hrows]; exact List.mem_singleton_self _, by decide, by decide, by decide⟩
  · rw [hweeks']
    decide

/-- A week without a round has no ruleset of its own: it reads as that of the arcade. -/
theorem sealed_empty_week_ruleset : ∃ s s' : RankingState,
    s = .fresh 1 1790607600000 ∧ s.act (.raise 2) = some s' ∧ weekCutoff 20717 = .ok s.clock ∧
      weekBoard s.version s.table "0xA" .race 20717 s.clock = .ok ⟨1, []⟩ ∧
      weekBoard s'.version s'.table "0xA" .race 20717 s'.clock = .ok ⟨2, []⟩ :=
  ⟨_, _, rfl, rfl, rfl, rfl, rfl⟩

end Mapae.Ranking
