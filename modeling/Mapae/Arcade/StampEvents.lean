import Mapae.Arcade.StampMoves
import Mapae.Infra.Keyed
import Mathlib.Data.Fintype.Pi

/-!
# What a step changed

* `stampChallenges`: the goals of a round
* `stampEvents` reads sounds and effects off two states

The source asks whether an impact is the same object. A step never replaces an impact by an equal one
(`Struck.fresh`), nor does it make a new state that equals the old one, so that values are compared here.
-/

namespace Mapae.Arcade

open Mapae.Infra

deriving instance DecidableEq for Game

/-! ## Goals -/

/-- The `id` of each goal, and whether it is done. -/
def stampChallenges (game : Game) : List (String × Bool) :=
  match game.practice with
  | .boss => [("boss", game.bossHits = BOSS_OPENINGS), ("precision", game.perfectHits = BOSS_OPENINGS)]
  | .full => [("hunter", 20 ≤ game.hits), ("boss", 0 < game.bossDefeated),
      ("courier", game.finished ∧ game.mistakes = 0)]

/-- The goals that are done. -/
def reachedGoals (game : Game) : List String :=
  ((stampChallenges game).filter fun goal => goal.2).map Prod.fst

/-! ## Events -/

inductive StampEvent where
  | hit (index : Fin CELL_COUNT) (actor : ImpactActor) (points : Int)
  | perfect (index : Fin CELL_COUNT)
  | crack (index : Fin CELL_COUNT) (actor : ImpactActor)
  | wrong (index : Fin CELL_COUNT) (points : Int)
  | guard (index : Fin CELL_COUNT)
  | miss (index : Fin CELL_COUNT) (actor : ImpactActor)
  | pass (index : Fin CELL_COUNT)
  | dud (index : Int)
  | kill (index : Fin CELL_COUNT) (variant : Special)
  | comboTier (multiplier : Int)
  | comboBreak (from_ : Nat)
  | feverStart
  | feverEnd
  | feverCharge (charge : Nat)
  | wave (index : Nat)
  | parade (phase : ParadePhase)
  | bossSpawn (index : Fin CELL_COUNT)
  | bossPhase (index : Fin CELL_COUNT) (phase : BossPhase) (opening : Int)
  | challenge (id : String)
  | urgentSecond (seconds : Int)
  | finished

def URGENT_SECONDS : Int := 10

/-- `Math.ceil((game.durationMs - game.elapsed) / 1_000)`. -/
def secondsLeft (game : Game) : Int := -((game.elapsed - game.durationMs) / 1000)

namespace Cell

variable (before after : Cell)

/-- The impact that is new. -/
def newImpact : Option Impact := if after.impact = before.impact then none else after.impact

/-- The actor that is new. -/
def arrived : Option Actor :=
  after.actor.filter fun actor => before.actor.map Actor.bornAt ≠ some actor.bornAt

/-- The actor that is gone. -/
def left : Option Actor :=
  before.actor.filter fun actor => after.actor.map Actor.bornAt ≠ some actor.bornAt

end Cell

/-- What a new impact reports. -/
def impactEvents (index : Fin CELL_COUNT) (impact : Impact) : List StampEvent :=
  (match impact.kind with
    | .stamp => .hit index impact.actor impact.points :: (impact.actor.special.map (.kill index)).toList
    | .crack => [.crack index impact.actor]
    | .wrong => [.wrong index impact.points]
    | .guard => [.guard index]
    | .miss => []) ++ if impact.perfect then [.perfect index] else []

/-- Not the mark of an actor that a stamp took. -/
def Impact.spares (impact : Impact) : Bool := impact.kind ≠ .stamp ∧ impact.kind ≠ .wrong

/-- What an actor that is gone reports, unless a stamp did or the bell cleared it. -/
def leftEvents (index : Fin CELL_COUNT) (impact : Option Impact) (now : Int) (left : Actor) : List StampEvent :=
  if impact.all Impact.spares ∧ left.expiresAt ≤ now then
    [if left.kind = .goblin then .miss index left.face else .pass index]
  else []

/-- What a chief that was there reports. -/
def chiefEvents (index : Fin CELL_COUNT) (before : Actor) (was : Int) (after : Actor) (now : Int) :
    List StampEvent :=
  let old := bossWindow before was
  let new := bossWindow after now
  if new.phase ≠ old.phase ∨ new.opening ≠ old.opening then [.bossPhase index new.phase new.opening] else []

/-- What a cell reports. -/
def cellEvents (index : Fin CELL_COUNT) (before : Cell) (was : Int) (after : Cell) (now : Int) : List StampEvent :=
  ((before.newImpact after).elim [] (impactEvents index)) ++
  ((before.left after).elim [] (leftEvents index (before.newImpact after) now)) ++
    if (before.arrived after).any fun actor => actor.special = some .boss then [.bossSpawn index]
    else
      match after.actor, before.actor with
      | some actor, some old =>
        if actor.special = some .boss then chiefEvents index old was actor now else []
      | _, _ => []

/-- What the counters and the clock report. -/
def gameEvents (prev next : Game) : List StampEvent :=
  (if multiplier prev.combo < multiplier next.combo then [.comboTier (multiplier next.combo)] else []) ++
  (if 0 < prev.combo ∧ (next.combo < prev.combo ∨ prev.missed < next.missed ∨ prev.mistakes < next.mistakes) then
    [.comboBreak prev.combo] else []) ++
  (if prev.elapsed < prev.feverUntil ∧ next.feverUntil ≤ next.elapsed then [.feverEnd] else []) ++
  (if prev.feverActivations < next.feverActivations then [.feverStart] else []) ++
  (if prev.feverCharge < next.feverCharge then [.feverCharge next.feverCharge] else []) ++
  (if waveIndex prev.elapsed < waveIndex next.elapsed then [.wave (waveIndex next.elapsed)] else []) ++
  (match goldParade next.elapsed with
    | some phase => if some phase ≠ goldParade prev.elapsed then [.parade phase] else []
    | none => []) ++
  ((reachedGoals next).filter fun id => id ∉ reachedGoals prev).map .challenge ++
  (if 0 < secondsLeft next ∧ secondsLeft next ≤ URGENT_SECONDS ∧ secondsLeft next < secondsLeft prev then
    [.urgentSecond (secondsLeft next)] else []) ++
  (if next.finished ∧ ¬ prev.finished then [.finished] else [])

def stampEvents (prev next : Game) (tapped : Option Int) : List StampEvent :=
  if next = prev then (tapped.map .dud).toList
  else
    ((List.finRange CELL_COUNT).flatMap fun index =>
      cellEvents index (prev.cells index) prev.elapsed (next.cells index) next.elapsed) ++ gameEvents prev next

/-! ## Counting events -/

/-- The events that the engine counts too. -/
inductive Counted where
  | hit
  | miss
  | wrong
  | guard
  | perfect
  | bossKill
  | bossSpawn
  | feverStart
  deriving DecidableEq

def Counted.counts : Counted → StampEvent → Bool
  | .hit, .hit _ _ _ => true
  | .miss, .miss _ _ => true
  | .wrong, .wrong _ _ => true
  | .guard, .guard _ => true
  | .perfect, .perfect _ => true
  | .bossKill, .kill _ .boss => true
  | .bossSpawn, .bossSpawn _ => true
  | .feverStart, .feverStart => true
  | _, _ => false

/-- Whether a new impact reports an event. -/
def Impact.reports (impact : Impact) : Counted → Bool
  | .hit => impact.kind = .stamp
  | .wrong => impact.kind = .wrong
  | .guard => impact.kind = .guard
  | .perfect => impact.perfect
  | .bossKill => impact.kind = .stamp ∧ impact.actor.special = some .boss
  | _ => false

/-- Whether a cell reports an event. -/
def Cell.reports (before after : Cell) (now : Int) (c : Counted) : Bool :=
  match c with
  | .miss => (before.left after).any fun left => left.expiresAt ≤ now ∧ left.kind = .goblin ∧
      (before.newImpact after).all Impact.spares
  | .bossSpawn => (before.arrived after).any fun actor => actor.special = some .boss
  | c => (before.newImpact after).any fun impact => impact.reports c

section Counting

variable (index : Fin CELL_COUNT) (c : Counted)

theorem countP_impactEvents (impact : Impact) :
    (impactEvents index impact).countP c.counts = (impact.reports c).toNat := by
  obtain ⟨kind, until_, points, ⟨face, special, golden⟩, perfect⟩ := impact
  unfold impactEvents
  cases kind <;> cases perfect <;> cases c <;> first | rfl | (cases special with
    | none => rfl
    | some special => cases special <;> rfl)

theorem countP_leftEvents (impact : Option Impact) (now : Int) (left : Actor) :
    (leftEvents index impact now left).countP c.counts = (decide (c = .miss) &&
      decide (left.expiresAt ≤ now ∧ left.kind = .goblin ∧ impact.all Impact.spares)).toNat := by
  unfold leftEvents
  by_cases hgone : impact.all Impact.spares ∧ left.expiresAt ≤ now
  · rw [if_pos hgone]
    cases hkind : left.kind with
    | goblin => cases c <;> simp [Counted.counts, hgone]
    | courier => cases c <;> simp [Counted.counts]
  · have hnot : decide (left.expiresAt ≤ now ∧ left.kind = .goblin ∧ impact.all Impact.spares) = false :=
      decide_eq_false fun h => hgone ⟨h.2.2, h.1⟩
    rw [if_neg hgone, hnot, Bool.and_false]
    rfl

/-- A chief that was there changes phases, which is not counted. -/
theorem countP_chiefEvents (before after : Actor) (was now : Int) :
    (chiefEvents index before was after now).countP c.counts = 0 := by
  unfold chiefEvents
  dsimp only
  split
  · cases c <;> rfl
  · rfl

theorem countP_cellEvents (before after : Cell) (was now : Int) :
    (cellEvents index before was after now).countP c.counts = (before.reports after now c).toNat := by
  have himpact : ((before.newImpact after).elim [] (impactEvents index)).countP c.counts =
      ((before.newImpact after).any fun impact => impact.reports c).toNat := by
    cases before.newImpact after with
    | none => rfl
    | some impact => exact countP_impactEvents index c impact
  have hleft : ((before.left after).elim [] (leftEvents index (before.newImpact after) now)).countP c.counts =
      (decide (c = .miss) && (before.left after).any fun left => left.expiresAt ≤ now ∧ left.kind = .goblin ∧
        (before.newImpact after).all Impact.spares).toNat := by
    cases before.left after with
    | none => rw [Option.any_none, Bool.and_false]; rfl
    | some left => exact countP_leftEvents index c _ now left
  have hchief : (if (before.arrived after).any fun actor => actor.special = some .boss then [.bossSpawn index]
      else match after.actor, before.actor with
        | some actor, some old =>
          if actor.special = some .boss then chiefEvents index old was actor now else []
        | _, _ => []).countP c.counts = (decide (c = .bossSpawn) &&
          (before.arrived after).any fun actor => actor.special = some .boss).toNat := by
    cases (before.arrived after).any fun actor => actor.special = some .boss with
    | true => rw [if_pos rfl]; cases c <;> rfl
    | false =>
      rw [if_neg Bool.false_ne_true, Bool.and_false]
      split
      · split
        · exact countP_chiefEvents index c _ _ was now
        · rfl
      · rfl
  unfold cellEvents
  rw [List.countP_append, List.countP_append, himpact, hleft, hchief]
  unfold Cell.reports
  cases c <;> simp [Impact.reports]

theorem countP_when {q : StampEvent → Bool} {e : StampEvent} {p : Prop} [Decidable p] :
    (if p then [e] else []).countP q = (decide p && q e).toNat := by
  by_cases hp : p
  · rw [if_pos hp, decide_eq_true hp, Bool.true_and, List.countP_singleton]
    cases q e <;> rfl
  · rw [if_neg hp, decide_eq_false hp]
    rfl

/-- Of what the counters and the clock report, the start of a fever is counted. -/
theorem countP_gameEvents (prev next : Game) : (gameEvents prev next).countP c.counts =
    (decide (c = .feverStart) && decide (prev.feverActivations < next.feverActivations)).toNat := by
  have hparade : (match goldParade next.elapsed with
      | some phase => if some phase ≠ goldParade prev.elapsed then [StampEvent.parade phase] else []
      | none => []).countP c.counts = 0 := by
    split
    · rw [countP_when]
      cases c <;> simp [Counted.counts]
    · rfl
  have hgoals : (((reachedGoals next).filter fun id => id ∉ reachedGoals prev).map
      StampEvent.challenge).countP c.counts = 0 := by
    refine List.countP_eq_zero.mpr fun e he => ?_
    obtain ⟨id, -, rfl⟩ := List.mem_map.mp he
    cases c <;> simp [Counted.counts]
  unfold gameEvents
  simp only [List.countP_append, countP_when, hparade, hgoals]
  cases c <;> simp [Counted.counts]

theorem reports_self (cell : Cell) (now : Int) : cell.reports cell now c = false := by
  have himpact : cell.newImpact cell = none := if_pos rfl
  have harrived : cell.arrived cell = none := by
    unfold Cell.arrived
    cases cell.actor <;> simp
  have hleft : cell.left cell = none := harrived
  unfold Cell.reports
  rw [himpact, harrived, hleft]
  cases c <;> rfl

/-- **What is reported of a step**, whether it made a new state or not. -/
theorem countP_stampEvents (prev next : Game) (tapped : Option Int) :
    (stampEvents prev next tapped).countP c.counts =
      ((List.finRange CELL_COUNT).countP fun i => (prev.cells i).reports (next.cells i) next.elapsed c) +
        (decide (c = .feverStart) && decide (prev.feverActivations < next.feverActivations)).toNat := by
  unfold stampEvents
  split
  · next hsame =>
    have hcells : ((List.finRange CELL_COUNT).countP fun i =>
        (prev.cells i).reports (next.cells i) next.elapsed c) = 0 := by
      refine List.countP_eq_zero.mpr fun i _ => ?_
      rw [hsame, reports_self]
      exact Bool.false_ne_true
    rw [hcells, hsame, decide_eq_false (Nat.lt_irrefl _), Bool.and_false]
    cases tapped <;> cases c <;> rfl
  · rw [List.countP_append, countP_gameEvents]
    congr 1
    exact countP_flatMap_toNat fun i _ => countP_cellEvents i c _ _ _ _

end Counting

end Mapae.Arcade
