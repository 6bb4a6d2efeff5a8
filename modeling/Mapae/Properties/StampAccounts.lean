import Mapae.Arcade.StampEvents
import Mapae.Arcade.StampKept
import Mapae.Properties.FrameRate
import Mathlib.Algebra.BigOperators.Fin

/-!
# The books of the stamp game

A play is any sequence of short steps, stamps and moves about the fever.

* `Counted` events add up to the engine's counters
* `playEndings` says how each actor ends, and `playOpenings` which openings of the chief are hit
* `stamp_accounts` is about all of them
-/

namespace Mapae.Arcade

open Mapae.Infra

/-! ## What a step leaves -/

/-- What the engine counts. -/
def Game.counter (game : Game) : Counted → Nat
  | .hit => game.hits
  | .miss => game.missed
  | .wrong => game.mistakes
  | .guard => game.guardedHits
  | .perfect => game.perfectHits
  | .bossKill => game.bossDefeated
  | .bossSpawn => game.bossSpawned.toNat
  | .feverStart => game.feverActivations

/-- The points of the impact that a step leaves. -/
def pointsLeft (prev next : Game) : Int :=
  ((List.finRange CELL_COUNT).map fun i =>
    (((prev.cells i).newImpact (next.cells i)).map Impact.points).getD 0).sum

inductive Ending where
  | hit
  | missed
  | mistake
  | passed
  | cleared
  deriving DecidableEq

/-- How the actor of a cell ends in a step. -/
def Cell.ending (before after : Cell) (now : Int) (left : Actor) : Ending :=
  if (before.newImpact after).any fun impact => impact.kind = .stamp then .hit
  else if (before.newImpact after).any fun impact => impact.kind = .wrong then .mistake
  else if left.expiresAt ≤ now then
    match left.kind with
    | .goblin => .missed
    | .courier => .passed
  else .cleared

/-- The actors that end in a step: their cell, when they came, and how they end. -/
def endings (prev next : Game) : List ((Fin CELL_COUNT × Int) × Ending) :=
  (List.finRange CELL_COUNT).filterMap fun i =>
    ((prev.cells i).left (next.cells i)).map fun left =>
      ((i, left.bornAt), (prev.cells i).ending (next.cells i) next.elapsed left)

/-- The opening of the chief that is hit in a step, and whether precisely. -/
def openingHit (prev next : Game) : Option (Int × Bool) :=
  if prev.bossHits < next.bossHits then
    prev.chief.map fun chief =>
      ((bossWindow chief prev.elapsed).opening, decide (prev.perfectHits < next.perfectHits))
  else none

section Steps

variable {prev next : Game} {i : Fin CELL_COUNT}

theorem mem_left {before after : Cell} {actor : Actor} : before.left after = some actor ↔
    before.actor = some actor ∧ ∀ other, after.actor = some other → other.bornAt ≠ actor.bornAt := by
  unfold Cell.left
  rw [Option.filter_eq_some_iff, decide_eq_true_eq]
  cases after.actor <;> simp

theorem mem_arrived {before after : Cell} {actor : Actor} : before.arrived after = some actor ↔
    after.actor = some actor ∧ ∀ other, before.actor = some other → other.bornAt ≠ actor.bornAt :=
  mem_left

theorem mem_newImpact {before after : Cell} {impact : Impact} : before.newImpact after = some impact ↔
    after.impact = some impact ∧ before.impact ≠ some impact := by
  unfold Cell.newImpact
  split
  · next hsame =>
    rw [hsame]
    exact ⟨fun h => (nomatch h), fun ⟨h, hne⟩ => absurd h hne⟩
  · next hne =>
    refine ⟨fun h => ⟨h, fun hold => hne (h.trans hold.symm)⟩, And.left⟩

/-- A short step leaves marks of misses only. -/
theorem Short.newImpact {arrival : Option (Fin CELL_COUNT × Actor)} (h : Short prev next arrival)
    {impact : Impact} (hnew : (prev.cells i).newImpact (next.cells i) = some impact) :
    impact.kind = .miss ∧ impact.points = 0 ∧ impact.perfect = false := by
  obtain ⟨hnow, hfresh⟩ := mem_newImpact.mp hnew
  rcases h.impact_cases hnow with ⟨hold, -⟩ | ⟨actor, -, -, -, rfl, -⟩
  · exact absurd hold hfresh
  · exact ⟨rfl, rfl, rfl⟩

/-- In a short step the actors that are gone have run out of time, but for the bell. -/
theorem Short.left {arrival : Option (Fin CELL_COUNT × Actor)} (h : Short prev next arrival) (hkept : Kept prev)
    {actor : Actor} : (prev.cells i).left (next.cells i) = some actor ↔
      (prev.cells i).actor = some actor ∧ (actor.expiresAt ≤ next.elapsed ∨ next.finished = true) := by
  rw [mem_left]
  refine and_congr_right fun hactor => ⟨fun hgone => ?_, fun hover other hother => ?_⟩
  · by_contra hstays
    obtain ⟨halive, hgoing⟩ := not_or.mp hstays
    have hthere : (next.cells i).actor = some actor := by
      rw [h.kept i ?_, Bool.eq_false_iff.mpr hgoing]
      · exact actor_expire.mpr ⟨hactor, by omega⟩
      · intro new hentry
        have hnone := congrArg Cell.actor (h.arrived i new hentry).2.1
        rw [actor_expire.mpr ⟨hactor, by omega⟩] at hnone
        cases hnone
    exact hgone actor hthere rfl
  · obtain ⟨hgoing, halive, ⟨hentry, -⟩ | ⟨hold, -⟩⟩ := h.actor_cases hother
    · have := hkept.steady.paced.born i actor hactor
      have := (h.arrived i other hentry).2.2.1
      omega
    · rw [hactor] at hold
      cases hold
      rcases hover with hexpired | hbell
      · omega
      · rw [hgoing] at hbell
        cases hbell

/-- Who has just come. -/
theorem Short.arrivedAt {arrival : Option (Fin CELL_COUNT × Actor)} (h : Short prev next arrival)
    (hkept : Kept prev) {actor : Actor} : (prev.cells i).arrived (next.cells i) = some actor ↔
      arrival = some (i, actor) ∧ next.finished = false := by
  rw [mem_arrived]
  constructor
  · rintro ⟨hnow, hnew⟩
    obtain ⟨hgoing, -, ⟨hentry, -⟩ | ⟨hold, -⟩⟩ := h.actor_cases hnow
    · exact ⟨hentry, hgoing⟩
    · exact absurd rfl (hnew actor hold)
  · rintro ⟨hentry, hgoing⟩
    obtain ⟨hcell, -, hborn, -⟩ := h.arrived i actor hentry
    refine ⟨by rw [hcell, hgoing]; rfl, fun other hother => ?_⟩
    have := hkept.steady.paced.born i other hother
    omega

theorem spares_eq_false {impact : Impact} :
    impact.spares = false ↔ impact.kind = .stamp ∨ impact.kind = .wrong := by
  unfold Impact.spares
  rw [decide_eq_false_iff_not, not_and_or, not_not, not_not]

section Struck

variable {actor : Actor} {impact : Impact}

theorem Struck.newImpact (h : Struck prev next i actor impact) :
    (prev.cells i).newImpact (next.cells i) = some impact :=
  mem_newImpact.mpr ⟨h.shows, h.fresh⟩

/-- The actor is gone if the stamp took it. -/
theorem Struck.left (h : Struck prev next i actor impact) {left : Actor} :
    (prev.cells i).left (next.cells i) = some left ↔
      left = actor ∧ (impact.kind = .stamp ∨ impact.kind = .wrong) := by
  rw [mem_left, h.there]
  constructor
  · rintro ⟨hsame, hgone⟩
    cases hsame
    refine ⟨rfl, by_contra fun hkind => ?_⟩
    obtain ⟨after, hafter, hborn, -⟩ := h.stays hkind
    exact hgone after hafter hborn
  · rintro ⟨rfl, hkind⟩
    refine ⟨rfl, fun other hother => ?_⟩
    rw [h.gone hkind] at hother
    cases hother

theorem Struck.arrived (h : Struck prev next i actor impact) : (prev.cells i).arrived (next.cells i) = none := by
  refine Option.eq_none_iff_forall_ne_some.mpr fun after harrived => ?_
  obtain ⟨hafter, hnew⟩ := mem_arrived.mp harrived
  rcases h.actor_cases hafter with ⟨hi, -⟩ | ⟨-, hborn, -⟩
  · exact hi rfl
  · exact hnew actor h.there hborn.symm

/-- What a stamp reports, at its cell. -/
theorem Struck.reports (h : Struck prev next i actor impact) (now : Int) (c : Counted) :
    (prev.cells i).reports (next.cells i) now c = impact.reports c := by
  have hmiss : (((prev.cells i).left (next.cells i)).any fun left => left.expiresAt ≤ now ∧
      left.kind = .goblin ∧ ((prev.cells i).newImpact (next.cells i)).all Impact.spares) = false := by
    rw [h.newImpact, Option.all_some]
    cases hleft : (prev.cells i).left (next.cells i) with
    | none => rfl
    | some left =>
      rw [spares_eq_false.mpr (h.left.mp hleft).2]
      simp
  unfold Cell.reports
  rw [hmiss, h.arrived, h.newImpact]
  cases c <;> rfl

end Struck

/-! ## Counting -/

theorem countP_same {p : Fin CELL_COUNT → Bool} (h : ∀ i, p i = false) :
    (List.finRange CELL_COUNT).countP p = 0 :=
  List.countP_eq_zero.mpr fun i _ => by rw [h i]; exact Bool.false_ne_true

/-- Only one cell may count. -/
theorem countP_cell {p : Fin CELL_COUNT → Bool} (i : Fin CELL_COUNT) (h : ∀ j, j ≠ i → p j = false) :
    (List.finRange CELL_COUNT).countP p = (p i).toNat :=
  countP_single (List.nodup_finRange CELL_COUNT) (List.mem_finRange i) fun j _ => h j

theorem toNat_lt_of_le {n m : Nat} (h : m = n ∨ m = n + 1) : m = n + (decide (n < m)).toNat := by
  rcases h with rfl | rfl
  · simp
  · simp

theorem counter_struck {actor : Actor} {impact : Impact} (h : Struck prev next i actor impact) (c : Counted) :
    next.counter c = prev.counter c +
      ((List.finRange CELL_COUNT).countP fun i => (prev.cells i).reports (next.cells i) next.elapsed c) +
      (decide (c = .feverStart) && decide (prev.feverActivations < next.feverActivations)).toNat := by
  have hcell := countP_cell (p := fun j => (prev.cells j).reports (next.cells j) next.elapsed c) i fun j hj => by
    rw [h.others j hj, reports_self]
  obtain ⟨-, -, -, -, -, -, -, hspawned, hmissed, -⟩ := Clock.mk.inj h.clock
  rw [hcell, h.reports]
  cases c with
  | hit => exact h.hits
  | miss => exact hmissed
  | wrong => exact h.mistakes
  | guard => exact h.guardedHits
  | perfect => exact h.perfectHits
  | bossKill =>
    have hface : impact.actor.special = actor.special := congrArg ImpactActor.special h.face
    change next.bossDefeated = prev.bossDefeated +
      (decide (impact.kind = .stamp ∧ impact.actor.special = some .boss)).toNat
    rw [hface]
    exact h.bossDefeated
  | bossSpawn => exact congrArg Bool.toNat hspawned
  | feverStart => exact toNat_lt_of_le h.fever

theorem counter_feverish (h : Feverish prev next) (c : Counted) :
    next.counter c = prev.counter c +
      ((List.finRange CELL_COUNT).countP fun i => (prev.cells i).reports (next.cells i) next.elapsed c) +
      (decide (c = .feverStart) && decide (prev.feverActivations < next.feverActivations)).toNat := by
  have hnone := countP_same (p := fun i => (prev.cells i).reports (next.cells i) next.elapsed c) fun i => by
    rw [h.cells, reports_self]
  obtain ⟨_, hclock⟩ := h.clock
  obtain ⟨-, -, -, -, -, -, -, hspawned, hmissed, -⟩ := Clock.mk.inj hclock
  obtain ⟨hhits, hmistakes, hguarded, hperfect, hdefeated, hfever⟩ : next.hits = prev.hits ∧
      next.mistakes = prev.mistakes ∧ next.guardedHits = prev.guardedHits ∧
      next.perfectHits = prev.perfectHits ∧ next.bossDefeated = prev.bossDefeated ∧
      (next.feverActivations = prev.feverActivations ∨ next.feverActivations = prev.feverActivations + 1) := by
    rcases h.books with hbooks | hbooks
    · obtain ⟨-, -, -, hhits, hmistakes, hguarded, hperfect, -, hdefeated, hfever⟩ := Books.mk.inj hbooks
      exact ⟨hhits, hmistakes, hguarded, hperfect, hdefeated, Or.inl hfever⟩
    · obtain ⟨-, -, -, hhits, hmistakes, hguarded, hperfect, -, hdefeated, hfever⟩ := Books.mk.inj hbooks
      exact ⟨hhits, hmistakes, hguarded, hperfect, hdefeated, Or.inr hfever⟩
  rw [hnone]
  cases c with
  | hit => exact hhits
  | miss => exact hmissed
  | wrong => exact hmistakes
  | guard => exact hguarded
  | perfect => exact hperfect
  | bossKill => exact hdefeated
  | bossSpawn => exact congrArg Bool.toNat hspawned
  | feverStart => exact toNat_lt_of_le hfever

/-- What a short step reports at a cell. -/
theorem Short.reports {arrival : Option (Fin CELL_COUNT × Actor)} (h : Short prev next arrival)
    (hkept : Kept prev) (c : Counted) : (prev.cells i).reports (next.cells i) next.elapsed c =
      match c with
      | .miss => (prev.cells i).misses next.elapsed
      | .bossSpawn => arrival.any fun entry => entry.1 = i ∧ entry.2.special = some .boss
      | _ => false := by
  have himpact : ∀ c, ((prev.cells i).newImpact (next.cells i)).any (fun impact => impact.reports c) = false := by
    intro c
    cases hnew : (prev.cells i).newImpact (next.cells i) with
    | none => rfl
    | some impact =>
      obtain ⟨hkind, -, hperfect⟩ := h.newImpact hnew
      cases c <;> simp [Impact.reports, hkind, hperfect]
  have hmarks : ((prev.cells i).newImpact (next.cells i)).all Impact.spares = true := by
    cases hnew : (prev.cells i).newImpact (next.cells i) with
    | none => rfl
    | some impact => simp [Impact.spares, (h.newImpact hnew).1]
  cases c with
  | miss =>
    rw [Bool.eq_iff_iff, Cell.misses_eq]
    unfold Cell.reports
    rw [Option.any_eq_true, hmarks]
    simp only [decide_eq_true_eq, h.left hkept]
    constructor
    · rintro ⟨actor, ⟨hactor, -⟩, hexpired, hkind, -⟩
      exact ⟨actor, hactor, hexpired, hkind⟩
    · rintro ⟨actor, hactor, hexpired, hkind⟩
      exact ⟨actor, ⟨hactor, Or.inl hexpired⟩, hexpired, hkind, trivial⟩
  | bossSpawn =>
    rw [Bool.eq_iff_iff]
    unfold Cell.reports
    rw [Option.any_eq_true, Option.any_eq_true]
    simp only [decide_eq_true_eq, h.arrivedAt hkept]
    constructor
    · rintro ⟨actor, ⟨hentry, -⟩, hboss⟩
      exact ⟨(i, actor), hentry, rfl, hboss⟩
    · rintro ⟨⟨j, actor⟩, hentry, rfl, hboss⟩
      exact ⟨actor, ⟨hentry, (h.chief j actor hentry hboss).2.2⟩, hboss⟩
  | _ => exact himpact _

theorem counter_short {arrival : Option (Fin CELL_COUNT × Actor)} (h : Short prev next arrival)
    (hkept : Kept prev) (c : Counted) : next.counter c = prev.counter c +
      ((List.finRange CELL_COUNT).countP fun i => (prev.cells i).reports (next.cells i) next.elapsed c) +
      (decide (c = .feverStart) && decide (prev.feverActivations < next.feverActivations)).toNat := by
  obtain ⟨-, -, -, hhits, hmistakes, hguarded, hperfect, -, hdefeated, hfever⟩ := Books.mk.inj h.books
  have hcells : (fun i => (prev.cells i).reports (next.cells i) next.elapsed c) = fun i =>
      match c with
      | .miss => (prev.cells i).misses next.elapsed
      | .bossSpawn => arrival.any fun entry => entry.1 = i ∧ entry.2.special = some .boss
      | _ => false := funext fun i => h.reports hkept c
  rw [hcells]
  have hnone : (List.finRange CELL_COUNT).countP (fun _ => false) = 0 := countP_same fun _ => rfl
  cases c with
  | hit => exact hhits
  | miss => exact h.missed
  | wrong => exact hmistakes
  | guard => exact hguarded
  | perfect => exact hperfect
  | bossKill => exact hdefeated
  | bossSpawn =>
    change next.bossSpawned.toNat = prev.bossSpawned.toNat + (List.finRange CELL_COUNT).countP _ + 0
    rw [h.bossSpawned]
    cases arrival with
    | none => simp
    | some entry =>
      obtain ⟨j, actor⟩ := entry
      rw [countP_cell j fun k hk => by simp [hk.symm]]
      by_cases hboss : actor.special = some .boss
      · rw [(h.chief j actor rfl hboss).1]
        simp [hboss]
      · simp [hboss]
  | feverStart => exact toNat_lt_of_le (Or.inl hfever)

/-! ## Moves -/

/-- Steps of a hundred milliseconds at most, and any other moves. -/
def StampMove.isShort : StampMove → Prop
  | .advance deltaMs => 1 ≤ deltaMs ∧ deltaMs ≤ 100
  | _ => True

/-- What a move of a play does. -/
def Stepped (prev next : Game) : Prop :=
  (∃ arrival, Short prev next arrival) ∨ (∃ i actor impact, Struck prev next i actor impact) ∨ Feverish prev next

theorem feverish_self (game : Game) : Feverish game game :=
  ⟨⟨_, rfl⟩, rfl, Or.inl rfl, Nat.le_refl _⟩

theorem stepped_play {game : Game} (h : Kept game) {move : StampMove} (hshort : move.isShort) :
    Stepped game (move.play game) := by
  cases move with
  | advance deltaMs =>
    obtain ⟨hpos, hle⟩ := hshort
    by_cases hfinished : game.finished = true
    · change Stepped game (advance game deltaMs)
      rw [advance_of_finished hfinished deltaMs]
      exact Or.inr (Or.inr (feverish_self game))
    · exact Or.inl (short_advance h (Bool.eq_false_iff.mpr hfinished) (by omega) hle)
  | stamp index =>
    rcases stamp_cases h index with hsame | hstruck
    · change Stepped game (stamp game index)
      rw [hsame]
      exact Or.inr (Or.inr (feverish_self game))
    · exact Or.inr (Or.inl hstruck)
  | activateFever => exact Or.inr (Or.inr (feverish_activateFever game))
  | setFeverMode mode => exact Or.inr (Or.inr (feverish_setFeverMode game mode))

/-- **A move of a play keeps what a play keeps.** -/
theorem Kept.play {game : Game} (h : Kept game) {move : StampMove} (hshort : move.isShort) :
    Kept (move.play game) := by
  have hsteady : Steady (move.play game) := by
    cases move with
    | advance deltaMs => exact h.steady.advance deltaMs
    | stamp index => exact h.steady.stamp index
    | activateFever => exact h.steady.activateFever
    | setFeverMode mode => exact h.steady.setFeverMode mode
  rcases stepped_play h hshort with ⟨arrival, hstep⟩ | ⟨i, actor, impact, hstep⟩ | hstep
  · exact h.short hstep hsteady
  · exact h.struck hstep hsteady
  · exact h.feverish hstep hsteady

/-- **The counters move as the events do.** -/
theorem counter_step (hkept : Kept prev) (h : Stepped prev next) (tapped : Option Int) (c : Counted) :
    next.counter c = prev.counter c + (stampEvents prev next tapped).countP c.counts := by
  rw [countP_stampEvents, ← Nat.add_assoc]
  rcases h with ⟨arrival, hstep⟩ | ⟨i, actor, impact, hstep⟩ | hstep
  · exact counter_short hstep hkept c
  · exact counter_struck hstep c
  · exact counter_feverish hstep c

/-! ## Points -/

theorem newImpact_self (cell : Cell) : cell.newImpact cell = none := if_pos rfl

theorem sum_cell {f : Fin CELL_COUNT → Int} (i : Fin CELL_COUNT) (h : ∀ j, j ≠ i → f j = 0) :
    ((List.finRange CELL_COUNT).map f).sum = f i := by
  rw [← Fin.sum_univ_def]
  exact Finset.sum_eq_single i (fun j _ => h j) fun hi => absurd (Finset.mem_univ i) hi

/-- **A step changes the score by the points it leaves.** -/
theorem score_step (h : Stepped prev next) : next.score = prev.score + pointsLeft prev next := by
  unfold pointsLeft
  rcases h with ⟨arrival, hstep⟩ | ⟨i, actor, impact, hstep⟩ | hstep
  · have hnone : ∀ i, (((prev.cells i).newImpact (next.cells i)).map Impact.points).getD 0 = 0 := by
      intro i
      cases hnew : (prev.cells i).newImpact (next.cells i) with
      | none => rfl
      | some impact => exact (hstep.newImpact hnew).2.1
    rw [sum_cell 0 fun i _ => hnone i, hnone 0]
    exact (congrArg Books.score hstep.books).trans (Int.add_zero _).symm
  · rw [sum_cell i fun j hj => by rw [hstep.others j hj, newImpact_self]; rfl, hstep.newImpact]
    exact hstep.score.1
  · have hnone : ∀ i, (((prev.cells i).newImpact (next.cells i)).map Impact.points).getD 0 = 0 := by
      intro i
      rw [hstep.cells, newImpact_self]
      rfl
    rw [sum_cell 0 fun i _ => hnone i, hnone 0, Int.add_zero]
    rcases hstep.books with hbooks | hbooks
    · exact congrArg Books.score hbooks
    · exact congrArg Books.score hbooks

/-! ## Endings -/

theorem mem_endings {entry : (Fin CELL_COUNT × Int) × Ending} : entry ∈ endings prev next ↔
    ∃ i left, (prev.cells i).left (next.cells i) = some left ∧
      entry = ((i, left.bornAt), (prev.cells i).ending (next.cells i) next.elapsed left) := by
  unfold endings
  rw [List.mem_filterMap]
  constructor
  · rintro ⟨i, -, hi⟩
    obtain ⟨left, hleft, rfl⟩ := Option.map_eq_some_iff.mp hi
    exact ⟨i, left, hleft, rfl⟩
  · rintro ⟨i, left, hleft, rfl⟩
    exact ⟨i, List.mem_finRange i, by rw [hleft]; rfl⟩

/-- An actor ends once in a step. -/
theorem nodup_endings : ((endings prev next).map Prod.fst).Nodup := by
  unfold endings
  rw [List.map_filterMap]
  refine List.Nodup.filterMap ?_ (List.nodup_finRange CELL_COUNT)
  intro i j id hi hj
  obtain ⟨entry, hentry, rfl⟩ := Option.map_eq_some_iff.mp hi
  obtain ⟨left, -, rfl⟩ := Option.map_eq_some_iff.mp hentry
  obtain ⟨entry', hentry', hid⟩ := Option.map_eq_some_iff.mp hj
  obtain ⟨left', -, rfl⟩ := Option.map_eq_some_iff.mp hentry'
  exact (congrArg Prod.fst hid).symm

theorem countP_endings (ending : Ending) : (endings prev next).countP (fun entry => entry.2 = ending) =
    (List.finRange CELL_COUNT).countP fun i => ((prev.cells i).left (next.cells i)).any fun left =>
      (prev.cells i).ending (next.cells i) next.elapsed left = ending := by
  unfold endings
  rw [List.countP_filterMap]
  congr 1
  funext i
  cases (prev.cells i).left (next.cells i) <;> rfl

/-- Who is gone and who is there, against who was there and who has come. -/
theorem length_endings : (endings prev next).length + next.activeCells =
    prev.activeCells + (List.finRange CELL_COUNT).countP fun i =>
      ((prev.cells i).arrived (next.cells i)).isSome := by
  have hlength : (endings prev next).length = (List.finRange CELL_COUNT).countP fun i =>
      ((prev.cells i).left (next.cells i)).isSome := by
    unfold endings
    rw [List.length_filterMap_eq_countP]
    congr 1
    funext i
    rw [Option.isSome_map]
  rw [hlength]
  refine countP_balance fun i _ => ?_
  unfold Cell.left Cell.arrived
  cases hold : (prev.cells i).actor with
  | none => cases hnew : (next.cells i).actor <;> simp
  | some old =>
    cases hnew : (next.cells i).actor with
    | none => simp
    | some new =>
      by_cases hborn : new.bornAt = old.bornAt
      · simp [hborn]
      · simp [Ne.symm hborn, hborn, Option.filter]

/-- How an actor ends, as the events have it. -/
theorem ending_hit (left : Actor) (before after : Cell) (now : Int) :
    (before.ending after now left = .hit ↔ before.reports after now .hit = true) ∧
    (before.ending after now left = .mistake ↔ before.reports after now .wrong = true) ∧
    (before.ending after now left = .missed ↔
      left.expiresAt ≤ now ∧ left.kind = .goblin ∧ (before.newImpact after).all Impact.spares = true) := by
  unfold Cell.ending Cell.reports Impact.spares Impact.reports
  cases before.newImpact after with
  | none => by_cases hexpired : left.expiresAt ≤ now <;> cases left.kind <;> simp [hexpired]
  | some impact =>
    by_cases hexpired : left.expiresAt ≤ now <;> cases left.kind <;> cases hkind : impact.kind <;>
      simp [hexpired, hkind]

/-- A stamp that takes an actor leaves it gone. -/
theorem left_of_taken (hkept : Kept prev) (h : Stepped prev next)
    (htaken : (prev.cells i).reports (next.cells i) next.elapsed .hit = true ∨
      (prev.cells i).reports (next.cells i) next.elapsed .wrong = true) :
    ∃ left, (prev.cells i).left (next.cells i) = some left := by
  rcases h with ⟨arrival, hstep⟩ | ⟨j, actor, impact, hstep⟩ | hstep
  · rw [hstep.reports hkept, hstep.reports hkept] at htaken
    rcases htaken with hnone | hnone <;> cases hnone
  · by_cases hi : i = j
    · subst hi
      rw [hstep.reports, hstep.reports] at htaken
      exact ⟨actor, hstep.left.mpr ⟨rfl, htaken.imp of_decide_eq_true of_decide_eq_true⟩⟩
    · rw [hstep.others i hi, reports_self, reports_self] at htaken
      rcases htaken with hnone | hnone <;> cases hnone
  · rw [hstep.cells, reports_self, reports_self] at htaken
    rcases htaken with hnone | hnone <;> cases hnone

/-- **Hits, mistakes and misses are endings.** -/
theorem countP_endings_step (hkept : Kept prev) (h : Stepped prev next) :
    next.hits = prev.hits + (endings prev next).countP (fun entry => entry.2 = .hit) ∧
    next.mistakes = prev.mistakes + (endings prev next).countP (fun entry => entry.2 = .mistake) ∧
    next.missed = prev.missed + (endings prev next).countP (fun entry => entry.2 = .missed) := by
  have htaken : ∀ c ending, (c = Counted.hit ∨ c = .wrong) →
      (∀ i left, (prev.cells i).ending (next.cells i) next.elapsed left = ending ↔
        (prev.cells i).reports (next.cells i) next.elapsed c = true) →
      ((endings prev next).countP fun entry => entry.2 = ending) =
        (List.finRange CELL_COUNT).countP fun i => (prev.cells i).reports (next.cells i) next.elapsed c := by
    intro c ending hc hending
    rw [countP_endings]
    refine List.countP_congr fun i _ => ?_
    rw [Option.any_eq_true]
    simp only [decide_eq_true_eq, hending]
    refine ⟨fun ⟨_, _, h⟩ => h, fun hreport => ?_⟩
    obtain ⟨left, hleft⟩ := left_of_taken hkept h (hc.imp (fun hc => hc ▸ hreport) fun hc => hc ▸ hreport)
    exact ⟨left, hleft, hreport⟩
  have hcounter : ∀ c, next.counter c = prev.counter c + ((List.finRange CELL_COUNT).countP fun i =>
      (prev.cells i).reports (next.cells i) next.elapsed c) +
      (decide (c = .feverStart) && decide (prev.feverActivations < next.feverActivations)).toNat := by
    intro c
    rw [counter_step hkept h none c, countP_stampEvents, Nat.add_assoc]
  refine ⟨?_, ?_, ?_⟩
  · rw [htaken .hit .hit (Or.inl rfl) fun i left => (ending_hit left _ _ _).1]
    exact hcounter .hit
  · rw [htaken .wrong .mistake (Or.inr rfl) fun i left => (ending_hit left _ _ _).2.1]
    exact hcounter .wrong
  · have hmissed : ((endings prev next).countP fun entry => entry.2 = .missed) =
        (List.finRange CELL_COUNT).countP fun i => (prev.cells i).reports (next.cells i) next.elapsed .miss := by
      rw [countP_endings]
      refine List.countP_congr fun i _ => ?_
      unfold Cell.reports
      rw [Option.any_eq_true, Option.any_eq_true]
      simp only [decide_eq_true_eq, (ending_hit _ _ _ _).2.2]
    rw [hmissed]
    exact hcounter .miss

/-- Only the bell clears an actor. -/
theorem cleared_step (hkept : Kept prev) (h : Stepped prev next) {entry : (Fin CELL_COUNT × Int) × Ending}
    (hentry : entry ∈ endings prev next) (hcleared : entry.2 = .cleared) : next.finished = true := by
  obtain ⟨i, left, hleft, rfl⟩ := mem_endings.mp hentry
  rcases h with ⟨arrival, hstep⟩ | ⟨j, actor, impact, hstep⟩ | hstep
  · obtain ⟨hactor, hover⟩ := (hstep.left hkept).mp hleft
    refine hover.resolve_left fun hexpired => ?_
    dsimp only at hcleared
    unfold Cell.ending at hcleared
    rw [if_pos hexpired] at hcleared
    split at hcleared
    · cases hcleared
    · split at hcleared
      · cases hcleared
      · cases hkind : left.kind <;> rw [hkind] at hcleared <;> cases hcleared
  · by_cases hi : i = j
    · subst hi
      obtain ⟨-, hkind⟩ := hstep.left.mp hleft
      dsimp only at hcleared
      unfold Cell.ending at hcleared
      rw [hstep.newImpact, Option.any_some, Option.any_some] at hcleared
      rcases hkind with hkind | hkind <;> simp [hkind] at hcleared
    · rw [hstep.others i hi] at hleft
      exact absurd rfl ((mem_left.mp hleft).2 left (mem_left.mp hleft).1)
  · rw [hstep.cells] at hleft
    exact absurd rfl ((mem_left.mp hleft).2 left (mem_left.mp hleft).1)

/-- Who is there was there, or has come since. -/
theorem bornAt_step (h : Stepped prev next) {actor : Actor} (hactor : (next.cells i).actor = some actor) :
    (∃ old, (prev.cells i).actor = some old ∧ old.bornAt = actor.bornAt) ∨ prev.elapsed < actor.bornAt := by
  rcases h with ⟨arrival, hstep⟩ | ⟨j, struck, impact, hstep⟩ | hstep
  · rcases (hstep.actor_cases hactor).2.2 with ⟨hentry, -⟩ | ⟨hold, -⟩
    · exact Or.inr (hstep.arrived i actor hentry).2.2.1
    · exact Or.inl ⟨actor, hold, rfl⟩
  · rcases hstep.actor_cases hactor with ⟨-, -, hold⟩ | ⟨hi, hborn, -⟩
    · exact Or.inl ⟨actor, hold, rfl⟩
    · exact Or.inl ⟨struck, hi ▸ hstep.there, hborn.symm⟩
  · rw [hstep.cells] at hactor
    exact Or.inl ⟨actor, hactor, rfl⟩

theorem arrived_self (cell : Cell) : cell.arrived cell = none :=
  Option.eq_none_iff_forall_ne_some.mpr fun actor harrived =>
    absurd rfl ((mem_arrived.mp harrived).2 actor (mem_arrived.mp harrived).1)

theorem Short.countP_arrived {arrival : Option (Fin CELL_COUNT × Actor)} (h : Short prev next arrival)
    (hkept : Kept prev) : ((List.finRange CELL_COUNT).countP fun i =>
      ((prev.cells i).arrived (next.cells i)).isSome) = (arrival.isSome && !next.finished).toNat := by
  have hsome : ∀ i, ((prev.cells i).arrived (next.cells i)).isSome =
      (arrival.any (fun entry => entry.1 = i) && !next.finished) := by
    intro i
    rw [Bool.eq_iff_iff, Option.isSome_iff_exists, Bool.and_eq_true, Option.any_eq_true]
    simp only [h.arrivedAt hkept, decide_eq_true_eq, Bool.not_eq_true']
    constructor
    · rintro ⟨actor, hentry, hgoing⟩
      exact ⟨⟨(i, actor), hentry, rfl⟩, hgoing⟩
    · rintro ⟨⟨⟨j, actor⟩, hentry, rfl⟩, hgoing⟩
      exact ⟨actor, hentry, hgoing⟩
  simp only [hsome]
  cases arrival with
  | none => exact countP_same fun i => rfl
  | some entry =>
    rw [countP_cell entry.1 fun i hi => by simp [hi.symm]]
    simp

/-- **Each spawned actor is there or has ended**, unless the bell cleared it as it came. -/
theorem spawnCount_step (hkept : Kept prev) (h : Stepped prev next) :
    ∃ unseen, (endings prev next).length + next.activeCells + unseen + prev.spawnCount =
      prev.activeCells + next.spawnCount ∧ unseen + prev.finished.toNat ≤ next.finished.toNat := by
  rw [length_endings]
  rcases h with ⟨arrival, hstep⟩ | ⟨j, struck, impact, hstep⟩ | hstep
  · rw [hstep.countP_arrived hkept, hstep.spawnCount, hstep.going]
    cases arrival with
    | none => exact ⟨0, by simp, Nat.zero_le _⟩
    | some entry =>
      cases next.finished with
      | true => exact ⟨1, by simp; omega, Nat.le_refl 1⟩
      | false => exact ⟨0, by simp; omega, Nat.le_refl 0⟩
  · have hnone := countP_same (p := fun i => ((prev.cells i).arrived (next.cells i)).isSome) fun i => by
      by_cases hi : i = j
      · rw [hi, hstep.arrived]
        rfl
      · rw [hstep.others i hi, arrived_self]
        rfl
    rw [hnone, show next.spawnCount = prev.spawnCount from congrArg Clock.spawnCount hstep.clock,
      show next.finished = prev.finished from congrArg Clock.finished hstep.clock]
    exact ⟨0, by omega, (Nat.zero_add _).le⟩
  · have hnone := countP_same (p := fun i => ((prev.cells i).arrived (next.cells i)).isSome) fun i => by
      rw [hstep.cells, arrived_self]
      rfl
    obtain ⟨_, hclock⟩ := hstep.clock
    rw [hnone, show next.spawnCount = prev.spawnCount from congrArg Clock.spawnCount hclock,
      show next.finished = prev.finished from congrArg Clock.finished hclock]
    exact ⟨0, by omega, (Nat.zero_add _).le⟩

/-! ## Openings of the chief -/

/-- A step hits no opening. -/
def NoOpening (prev next : Game) : Prop :=
  openingHit prev next = none ∧ next.bossHits = prev.bossHits ∧ next.perfectHits = prev.perfectHits ∧
  ∀ i actor, (next.cells i).actor = some actor → actor.special = some .boss →
    prev.bossHits = 0 ∨ ∃ old, (prev.cells i).actor = some old ∧ old.special = some .boss ∧
      old.lastOpeningHit = actor.lastOpeningHit

/-- A step hits an opening, which is later than the ones before. -/
def AnOpening (prev next : Game) (opening : Int) (perfect : Bool) : Prop :=
  openingHit prev next = some (opening, perfect) ∧ next.bossHits = prev.bossHits + 1 ∧
  next.perfectHits = prev.perfectHits + perfect.toNat ∧ 0 ≤ opening ∧ opening < BOSS_OPENINGS ∧
  (∃ i actor, (prev.cells i).actor = some actor ∧ actor.special = some .boss ∧
    ∀ last, actor.lastOpeningHit = some last → last < opening) ∧
  ∀ i actor, (next.cells i).actor = some actor → actor.special = some .boss →
    actor.lastOpeningHit = some opening

theorem opening_step (hkept : Kept prev) (h : Stepped prev next) :
    NoOpening prev next ∨ ∃ opening perfect, AnOpening prev next opening perfect := by
  have hidle : next.bossHits = prev.bossHits → openingHit prev next = none := by
    intro hsame
    unfold openingHit
    rw [hsame, if_neg (Nat.lt_irrefl _)]
  rcases h with ⟨arrival, hstep⟩ | ⟨j, struck, impact, hstep⟩ | hstep
  · have hhits : next.bossHits = prev.bossHits := congrArg Books.bossHits hstep.books
    refine Or.inl ⟨hidle hhits, hhits, congrArg Books.perfectHits hstep.books, fun i actor hactor hboss => ?_⟩
    rcases (hstep.actor_cases hactor).2.2 with ⟨hentry, -⟩ | ⟨hold, -⟩
    · exact Or.inl (hkept.unseen (hstep.chief i actor hentry hboss).1).1
    · exact Or.inr ⟨actor, hold, hboss, rfl⟩
  · by_cases hopen : struck.special = some .boss ∧ impact.kind ≠ .guard
    · obtain ⟨hhits, hphase, hlast, -⟩ := hstep.opened hopen.1 hopen.2
      have hpaced := hkept.steady.paced
      obtain ⟨h0, hlow, hhigh⟩ := opening_bounds (hpaced.born j struck hstep.there)
      obtain ⟨-, hlt, hfresh, -⟩ := (phase_open_iff h0 hlow hhigh).mp hphase
      refine Or.inr ⟨(bossWindow struck prev.elapsed).opening, impact.perfect, ?_, hhits, hstep.perfectHits, h0, hlt,
        ⟨j, struck, hstep.there, hopen.1, fun last hhit => ?_⟩, fun i actor hactor hboss => ?_⟩
      · have hperfect : decide (prev.perfectHits < next.perfectHits) = impact.perfect := by
          rw [hstep.perfectHits]
          cases impact.perfect <;> simp
        unfold openingHit
        rw [if_pos (by omega), chief_of_mem hpaced hstep.there hopen.1, hperfect]
        rfl
      · have := (hpaced.opened j struck last hstep.there hopen.1 hhit).2
        have hne : last ≠ (bossWindow struck prev.elapsed).opening := fun heq => hfresh (heq ▸ hhit)
        omega
      · rcases hstep.actor_cases hactor with ⟨hi, -, hold⟩ | ⟨rfl, -⟩
        · exact absurd (hpaced.alone i j actor struck hold hboss hstep.there hopen.1) hi
        · exact hlast actor hactor
    · have hclosed : struck.special ≠ some .boss ∨ impact.kind = .guard := by
        rcases not_and_or.mp hopen with hplain | hguard
        · exact Or.inl hplain
        · exact Or.inr (not_not.mp hguard)
      obtain ⟨hhits, hperfect, hlast⟩ := hstep.closed hclosed
      refine Or.inl ⟨hidle hhits, hhits, ?_, fun i actor hactor hboss => ?_⟩
      · rw [hstep.perfectHits, hperfect]
        rfl
      · rcases hstep.actor_cases hactor with ⟨-, -, hold⟩ | ⟨rfl, -, -, hspecial, -⟩
        · exact Or.inr ⟨actor, hold, hboss, rfl⟩
        · exact Or.inr ⟨struck, hstep.there, hspecial.symm.trans hboss, (hlast actor hactor).symm⟩
  · have hbooks : next.bossHits = prev.bossHits ∧ next.perfectHits = prev.perfectHits := by
      rcases hstep.books with hbooks | hbooks
      · exact ⟨congrArg Books.bossHits hbooks, congrArg Books.perfectHits hbooks⟩
      · exact ⟨congrArg Books.bossHits hbooks, congrArg Books.perfectHits hbooks⟩
    refine Or.inl ⟨hidle hbooks.1, hbooks.1, hbooks.2, fun i actor hactor hboss => ?_⟩
    rw [hstep.cells] at hactor
    exact Or.inr ⟨actor, hactor, hboss, rfl⟩

end Steps

/-! ## The books of a play -/

/-- How actors have ended, against what the game shows. -/
structure Ended (game : Game) (ended : List ((Fin CELL_COUNT × Int) × Ending)) : Prop where
  /-- An actor ends once at most, -/
  once : (ended.map Prod.fst).Nodup
  /-- and is then gone. -/
  gone : ∀ i actor, (game.cells i).actor = some actor → (i, actor.bornAt) ∉ ended.map Prod.fst
  past : ∀ entry ∈ ended, entry.1.2 ≤ game.elapsed
  /-- Each spawned actor is there or has ended, but for one that the bell clears as it comes. -/
  spawned : ∃ unseen, ended.length + game.activeCells + unseen = game.spawnCount ∧ unseen ≤ game.finished.toNat
  hits : ended.countP (fun entry => entry.2 = .hit) = game.hits
  mistakes : ended.countP (fun entry => entry.2 = .mistake) = game.mistakes
  missed : ended.countP (fun entry => entry.2 = .missed) = game.missed
  cleared : ∀ entry ∈ ended, entry.2 = .cleared → game.finished = true

/-- The openings of the chief that were hit, against what the game shows. -/
structure OpeningsHit (game : Game) (openings : List (Int × Bool)) : Prop where
  /-- An opening is hit once at most, -/
  once : (openings.map Prod.fst).Nodup
  range : ∀ hit ∈ openings, 0 ≤ hit.1 ∧ hit.1 < BOSS_OPENINGS
  bossHits : openings.length = game.bossHits
  /-- and once at most precisely. -/
  perfectHits : openings.countP (fun hit => hit.2) = game.perfectHits
  /-- The chief knows the last one. -/
  last : ∀ i actor, (game.cells i).actor = some actor → actor.special = some .boss →
    ∀ hit ∈ openings, ∃ last, actor.lastOpeningHit = some last ∧ hit.1 ≤ last

section Books

variable {prev next : Game} {ended : List ((Fin CELL_COUNT × Int) × Ending)} {openings : List (Int × Bool)}

theorem elapsed_le (h : Stepped prev next) : prev.elapsed ≤ next.elapsed := by
  rcases h with ⟨arrival, hstep⟩ | ⟨j, struck, impact, hstep⟩ | hstep
  · exact hstep.later.le
  · exact (congrArg Clock.elapsed hstep.clock).ge
  · obtain ⟨_, hclock⟩ := hstep.clock
    exact (congrArg Clock.elapsed hclock).ge

theorem finished_step (h : Stepped prev next) (hfinished : prev.finished = true) : next.finished = true := by
  rcases h with ⟨arrival, hstep⟩ | ⟨j, struck, impact, hstep⟩ | hstep
  · rw [hstep.going] at hfinished
    cases hfinished
  · exact (congrArg Clock.finished hstep.clock).trans hfinished
  · obtain ⟨_, hclock⟩ := hstep.clock
    exact (congrArg Clock.finished hclock).trans hfinished

/-- **A step keeps the endings.** -/
theorem Ended.step (hkept : Kept prev) (hstep : Stepped prev next) (h : Ended prev ended) :
    Ended next (ended ++ endings prev next) := by
  obtain ⟨hhits, hmistakes, hmissed⟩ := countP_endings_step hkept hstep
  have hleft : ∀ id ∈ (endings prev next).map Prod.fst, ∃ actor, (prev.cells id.1).actor = some actor ∧
      id.2 = actor.bornAt ∧ ∀ other, (next.cells id.1).actor = some other → other.bornAt ≠ id.2 := by
    intro id hid
    obtain ⟨entry, hentry, rfl⟩ := List.mem_map.mp hid
    obtain ⟨i, left, hleft, rfl⟩ := mem_endings.mp hentry
    exact ⟨left, (mem_left.mp hleft).1, rfl, (mem_left.mp hleft).2⟩
  have hborn := hkept.steady.paced.born
  have htime := elapsed_le hstep
  refine
    { once := ?_
      gone := fun i actor hactor => ?_
      past := fun entry hentry => ?_
      spawned := ?_
      hits := by rw [List.countP_append, h.hits, hhits]
      mistakes := by rw [List.countP_append, h.mistakes, hmistakes]
      missed := by rw [List.countP_append, h.missed, hmissed]
      cleared := fun entry hentry hcleared => ?_ }
  · rw [List.map_append, List.nodup_append']
    refine ⟨h.once, nodup_endings, fun id hold hnew => ?_⟩
    obtain ⟨actor, hactor, hid, -⟩ := hleft id hnew
    exact h.gone id.1 actor hactor (hid ▸ hold)
  · rw [List.map_append, List.mem_append]
    rintro (hold | hnew)
    · rcases bornAt_step hstep hactor with ⟨old, hthere, hsame⟩ | hlate
      · exact h.gone i old hthere (hsame.symm ▸ hold)
      · obtain ⟨entry, hentry, hid⟩ := List.mem_map.mp hold
        have hpast := h.past entry hentry
        rw [hid] at hpast
        dsimp only at hpast
        omega
    · obtain ⟨-, -, -, hgone⟩ := hleft _ hnew
      exact hgone actor hactor rfl
  · rcases List.mem_append.mp hentry with hold | hnew
    · exact (h.past entry hold).trans htime
    · obtain ⟨actor, hactor, hid, -⟩ := hleft entry.1 (List.mem_map_of_mem hnew)
      rw [hid]
      exact (hborn _ actor hactor).trans htime
  · obtain ⟨unseen, hsum, hle⟩ := h.spawned
    obtain ⟨unseen', hsum', hle'⟩ := spawnCount_step hkept hstep
    refine ⟨unseen + unseen', ?_, by omega⟩
    rw [List.length_append]
    omega
  · rcases List.mem_append.mp hentry with hold | hnew
    · exact finished_step hstep (h.cleared entry hold hcleared)
    · exact cleared_step hkept hstep hnew hcleared

/-- **A step keeps the openings.** -/
theorem OpeningsHit.step (hkept : Kept prev) (hstep : Stepped prev next) (h : OpeningsHit prev openings) :
    OpeningsHit next (openings ++ (openingHit prev next).toList) := by
  rcases opening_step hkept hstep with ⟨hnone, hhits, hperfect, hchief⟩ |
    ⟨opening, perfect, hsome, hhits, hperfect, h0, hlt, ⟨i, chief, hthere, hboss, hlater⟩, hchief⟩
  · rw [hnone, Option.toList_none, List.append_nil]
    refine ⟨h.once, h.range, h.bossHits.trans hhits.symm, h.perfectHits.trans hperfect.symm,
      fun i actor hactor hboss hit hhit => ?_⟩
    rcases hchief i actor hactor hboss with hzero | ⟨old, hold, hb, hsame⟩
    · have hempty : openings = [] := List.length_eq_zero_iff.mp (h.bossHits.trans hzero)
      rw [hempty] at hhit
      cases hhit
    · rw [← hsame]
      exact h.last i old hold hb hit hhit
  · -- the new opening is later than all the others
    have hbefore : ∀ hit ∈ openings, hit.1 < opening := by
      intro hit hhit
      obtain ⟨last, hlast, hle⟩ := h.last i chief hthere hboss hit hhit
      exact hle.trans_lt (hlater last hlast)
    rw [hsome, Option.toList_some]
    refine ⟨?_, fun hit hhit => ?_, ?_, ?_, fun j actor hactor hb hit hhit => ⟨opening, hchief j actor hactor hb, ?_⟩⟩
    · rw [List.map_append, List.nodup_append']
      refine ⟨h.once, List.nodup_singleton _, fun first hold hnew => ?_⟩
      obtain ⟨hit, hhit, rfl⟩ := List.mem_map.mp hold
      exact (hbefore hit hhit).ne (List.mem_singleton.mp hnew)
    · rcases List.mem_append.mp hhit with hold | hnew
      · exact h.range hit hold
      · obtain rfl := List.mem_singleton.mp hnew
        exact ⟨h0, hlt⟩
    · rw [List.length_append, h.bossHits, hhits, List.length_singleton]
    · rw [List.countP_append, h.perfectHits, hperfect, List.countP_singleton]
      cases perfect <;> rfl
    · rcases List.mem_append.mp hhit with hold | hnew
      · exact (hbefore hit hold).le
      · obtain rfl := List.mem_singleton.mp hnew
        exact Int.le_refl _

end Books

/-! ## Plays -/

/-- The state after a play. -/
def playRound (start : Game) (moves : List StampMove) : Game := run StampMove.play start moves

/-- The events of a play. A player may tap where nothing happens. -/
def playEvents (start : Game) (moves : List StampMove) (tapped : StampMove → Option Int) : List StampEvent :=
  trace StampMove.play (fun game move => stampEvents game (move.play game) (tapped move)) start moves

/-- How the actors of a play end. -/
def playEndings (start : Game) (moves : List StampMove) : List ((Fin CELL_COUNT × Int) × Ending) :=
  trace StampMove.play (fun game move => endings game (move.play game)) start moves

/-- The openings of the chief that are hit in a play. -/
def playOpenings (start : Game) (moves : List StampMove) : List (Int × Bool) :=
  trace StampMove.play (fun game move => (openingHit game (move.play game)).toList) start moves

/-- A game in which nothing has happened, with its books. -/
theorem kept_of_empty {game : Game} (hsteady : Steady game) (hcells : ∀ i, game.cells i = ⟨none, none⟩)
    (hbooks : game.score = 0 ∧ game.feverCharge = 0 ∧ game.bossHits = 0 ∧ game.spawnCount = 0)
    (hcounters : ∀ c, game.counter c = 0) (hnext : game.nextSpawn = 300)
    (hround : game.durationMs = if game.practice = .boss then 10000 else 60000) :
    Kept game ∧ Ended game [] ∧ OpeningsHit game [] ∧ ∀ c, game.counter c = 0 := by
  obtain ⟨hscore, hcharge, hhits, hspawned⟩ := hbooks
  have hdefeated : game.bossDefeated = 0 := hcounters .bossKill
  have hnone : ∀ {P : Prop} {i : Fin CELL_COUNT} {actor : Actor}, (game.cells i).actor = some actor → P := by
    intro P i actor hactor
    rw [hcells i] at hactor
    cases hactor
  have hunmarked : ∀ {P : Prop} {i : Fin CELL_COUNT} {impact : Impact}, (game.cells i).impact = some impact → P := by
    intro P i impact himpact
    rw [hcells i] at himpact
    cases himpact
  have hkept : Kept game := by
    refine ⟨hsteady, fun _ _ h => hnone h, fun _ _ h => hunmarked h, fun _ _ _ h => hnone h, hscore.ge,
      by rw [hcharge]; exact Nat.zero_le _, fun _ _ h => hnone h, fun _ => ⟨hhits, hdefeated⟩, ?_, fun hfull => ?_,
      fun hdrill => ?_, fun _ _ => ⟨by omega, fun _ _ h => hnone h, fun _ _ h => hunmarked h⟩⟩
    · rw [hdefeated]
      exact ⟨Nat.zero_le 1, fun h => nomatch h⟩
    · rw [hround, if_neg (by rw [hfull]; decide)]
    · rw [hround, if_pos hdrill]
      exact ⟨rfl, Or.inl hnext⟩
  have hactive : game.activeCells = 0 := countP_same fun i => by rw [hcells i]; rfl
  refine ⟨hkept, ⟨List.nodup_nil, fun _ _ h => hnone h, fun _ h => (nomatch h), ⟨0, ?_, Nat.zero_le _⟩,
    (hcounters .hit).symm, (hcounters .wrong).symm, (hcounters .miss).symm, fun _ h => (nomatch h)⟩,
    ⟨List.nodup_nil, fun _ h => (nomatch h), hhits.symm, (hcounters .perfect).symm, fun _ _ h => hnone h⟩, hcounters⟩
  rw [hactive, hspawned]
  rfl

theorem Opened.kept {game : Game} (h : Opened game) :
    Kept game ∧ Ended game [] ∧ OpeningsHit game [] ∧ ∀ c, game.counter c = 0 := by
  have hsteady := h.steady.1
  rcases h with ⟨seed, feverMode, aptitudes, hnew⟩ | ⟨seed, hdrill⟩
  · obtain ⟨rfl, -⟩ := newGame_eq_ok hnew
    exact kept_of_empty hsteady (fun _ => rfl) ⟨rfl, rfl, rfl, rfl⟩ (fun c => by cases c <;> rfl) rfl rfl
  · obtain ⟨start, hnew, rfl⟩ := newBossPractice_eq_ok hdrill
    obtain ⟨rfl, -⟩ := newGame_eq_ok hnew
    exact kept_of_empty hsteady (fun _ => rfl) ⟨rfl, rfl, rfl, rfl⟩ (fun c => by cases c <;> rfl) rfl rfl

/--
**The accounts of the stamp game and its events agree.**

For any play of short steps, stamps and moves about the fever, on a round or a drill as it is opened.
-/
theorem stamp_accounts (start : Game) (hopened : Opened start) (moves : List StampMove)
    (hshort : ∀ move ∈ moves, move.isShort) :
    0 ≤ (playRound start moves).score ∧
    (∀ move : StampMove, move.isShort → (move.play (playRound start moves)).score =
      (playRound start moves).score + pointsLeft (playRound start moves) (move.play (playRound start moves))) ∧
    (playRound start moves).feverCharge ≤ FEVER_TARGET ∧
    Ended (playRound start moves) (playEndings start moves) ∧
    ((playRound start moves).bossDefeated ≤ 1 ∧ ((playRound start moves).bossDefeated = 1 →
      (playRound start moves).bossHits = BOSS_OPENINGS)) ∧
    OpeningsHit (playRound start moves) (playOpenings start moves) ∧
    ∀ tapped c, (playEvents start moves tapped).countP c.counts = (playRound start moves).counter c := by
  obtain ⟨hkept, hended, hopenings, hzero⟩ := hopened.kept
  have hlast : Kept (playRound start moves) :=
    run_invariant_of_forall (fun game move hmove h => h.play hmove) moves start hshort hkept
  have hstepped : ∀ move : StampMove, move.isShort →
      Stepped (playRound start moves) (move.play (playRound start moves)) :=
    fun move hmove => stepped_play hlast hmove
  refine ⟨hlast.score, fun move hmove => score_step (hstepped move hmove), hlast.charge, ?_, hlast.defeated, ?_,
    fun tapped c => ?_⟩
  · refine (trace_invariant (P := fun game ended => Kept game ∧ Ended game ended) ?_ moves start [] hshort
      ⟨hkept, hended⟩).2
    rintro game ended move hmove ⟨hgame, h⟩
    exact ⟨hgame.play hmove, h.step hgame (stepped_play hgame hmove)⟩
  · refine (trace_invariant (P := fun game openings => Kept game ∧ OpeningsHit game openings) ?_ moves start []
      hshort ⟨hkept, hopenings⟩).2
    rintro game openings move hmove ⟨hgame, h⟩
    exact ⟨hgame.play hmove, h.step hgame (stepped_play hgame hmove)⟩
  · refine (trace_invariant (P := fun game events => Kept game ∧ events.countP c.counts = game.counter c) ?_ moves
      start [] hshort ⟨hkept, (hzero c).symm⟩).2
    rintro game events move hmove ⟨hgame, h⟩
    refine ⟨hgame.play hmove, ?_⟩
    rw [List.countP_append, h, counter_step hgame (stepped_play hgame hmove) (tapped move) c]

/-- A goblin is stamped, some get away, and a courier is stamped. -/
def samplePlay : List StampMove :=
  List.replicate 3 (.advance 100) ++ .stamp 7 :: List.replicate 63 (.advance 100) ++ [.stamp 7]

theorem stamp_accounts_sample :
    (∀ c, (playEvents (startGame 11 .auto none) samplePlay fun _ => none).countP c.counts =
      (playRound (startGame 11 .auto none) samplePlay).counter c) ∧
    (playRound (startGame 11 .auto none) samplePlay).hits = 1 ∧
    (playRound (startGame 11 .auto none) samplePlay).missed = 3 ∧
    (playRound (startGame 11 .auto none) samplePlay).mistakes = 1 := by
  refine ⟨fun c => ?_, by decide +kernel, by decide +kernel, by decide +kernel⟩
  have hshort : ∀ move ∈ samplePlay, move.isShort := by
    simp [samplePlay, StampMove.isShort]
  exact (stamp_accounts (startGame 11 .auto none) (Or.inl ⟨11, .auto, none, rfl⟩) samplePlay
    hshort).2.2.2.2.2.2 (fun _ => none) c

end Mapae.Arcade
