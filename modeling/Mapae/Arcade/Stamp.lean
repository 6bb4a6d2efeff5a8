import Mapae.Arcade.ShopGoods

/-!
# The stamp game

Goblins and couriers appear in nine cells, and a player stamps the goblins. Times are milliseconds.

* `advance` lets time pass: arrivals and expiries happen at their own instants
* `stamp`, `activateFever` and `setFeverMode` are the player's moves
* `bossWindow` is when the chief can be hit
* `advanceAgent` plays by itself

A field that the source may leave undefined is `none`, or `false` for a flag.
-/

namespace Mapae.Arcade

open Mapae.Infra

def ROUND_MS : Int := 60000
abbrev CELL_COUNT : Nat := 9
def FEVER_TARGET : Nat := 8
def FEVER_MS : Int := 8000
def GOLD_PARADES : List Int := [18000, 32000, 55000]
def GOLD_PARADE_MS : Int := 3000
def GOLD_WARNING_MS : Int := 2000
def BOSS_GUARD_MS : Int := 1000
def BOSS_OPEN_MS : Int := 1400
def BOSS_CYCLE_MS : Int := BOSS_GUARD_MS + BOSS_OPEN_MS
def BOSS_OPENINGS : Nat := 3
def BOSS_PERFECT_START_MS : Int := BOSS_GUARD_MS + 450
def BOSS_PERFECT_MS : Int := 300
def BOSS_PERFECT_POINTS : Int := 200
def BOSS_PRACTICE_MS : Int := 10000

/-! ## The calendar of a round -/

inductive ParadePhase where
  | soon
  | active
  deriving DecidableEq

/-- `goldParade(elapsed)?.phase`. -/
def goldParade (elapsed : Int) : Option ParadePhase :=
  GOLD_PARADES.findSome? fun start =>
    if start - GOLD_WARNING_MS ≤ elapsed ∧ elapsed < start then some .soon
    else if start ≤ elapsed ∧ elapsed < start + GOLD_PARADE_MS then some .active
    else none

structure StampWave where
  start : Int
  interval : Int
  life : Int
  limit : Nat

def STAMP_WAVES : List StampWave :=
  [⟨0, 900, 1850, 2⟩, ⟨12000, 750, 1700, 3⟩, ⟨28000, 640, 1500, 3⟩, ⟨45000, 950, 1900, 2⟩,
    ⟨53000, 430, 1300, 3⟩]

/-- `stampWave(elapsed).index`: the last wave that has begun, or the first. -/
def waveIndex (elapsed : Int) : Nat := (STAMP_WAVES.filter fun wave => wave.start ≤ elapsed).length - 1

def stampWave (elapsed : Int) : StampWave := STAMP_WAVES.getD (waveIndex elapsed) ⟨0, 900, 1850, 2⟩

/-! ## The state -/

inductive ActorKind where
  | goblin
  | courier
  deriving DecidableEq

inductive Special where
  | armored
  | boss
  deriving DecidableEq

structure Actor where
  kind : ActorKind
  expiresAt : Int
  bornAt : Int
  golden : Bool
  special : Option Special
  hp : Option Nat
  lastHitAt : Option Int
  lastOpeningHit : Option Int
  lastGuardedOpening : Option Int
  deriving DecidableEq

structure ImpactActor where
  kind : ActorKind
  special : Option Special
  golden : Bool
  deriving DecidableEq

/-- `face`. -/
def Actor.face (actor : Actor) : ImpactActor := ⟨actor.kind, actor.special, actor.golden⟩

inductive ImpactKind where
  | stamp
  | wrong
  | miss
  | crack
  | guard
  deriving DecidableEq

structure Impact where
  kind : ImpactKind
  until_ : Int
  points : Int
  actor : ImpactActor
  perfect : Bool
  deriving DecidableEq

structure Cell where
  actor : Option Actor
  impact : Option Impact
  deriving DecidableEq

inductive Practice where
  | full
  | boss
  deriving DecidableEq

inductive FeverMode where
  | auto
  | manual
  deriving DecidableEq

structure Game where
  seed : Int
  aptitudes : Option GuardianAptitudes
  practice : Practice
  durationMs : Int
  perfectHits : Nat
  feverMode : FeverMode
  feverActivations : Nat
  feverBonus : Int
  feverGoldHits : Nat
  guardedHits : Nat
  elapsed : Int
  nextSpawn : Int
  cells : Fin CELL_COUNT → Cell
  score : Int
  combo : Nat
  bestCombo : Nat
  hits : Nat
  mistakes : Nat
  missed : Nat
  feverCharge : Nat
  feverUntil : Int
  goldHits : Nat
  spawnCount : Nat
  bossSpawned : Bool
  bossHits : Nat
  bossDefeated : Nat
  armorHits : Nat
  finished : Bool

/-- The start of a round. -/
def startGame (seed : Int) (feverMode : FeverMode) (aptitudes : Option GuardianAptitudes) : Game where
  seed := seed
  aptitudes := aptitudes
  practice := .full
  durationMs := ROUND_MS
  perfectHits := 0
  feverMode := feverMode
  feverActivations := 0
  feverBonus := 0
  feverGoldHits := 0
  guardedHits := 0
  elapsed := 0
  nextSpawn := 300
  cells := fun _ => ⟨none, none⟩
  score := 0
  combo := 0
  bestCombo := 0
  hits := 0
  mistakes := 0
  missed := 0
  feverCharge := 0
  feverUntil := 0
  goldHits := 0
  spawnCount := 0
  bossSpawned := false
  bossHits := 0
  bossDefeated := 0
  armorHits := 0
  finished := false

inductive StampError where
  | invalidSeed
  | invalidAptitudes

def newGame (seed : Int) (feverMode : FeverMode) (aptitudes : Option GuardianAptitudes) :
    Except StampError Game := do
  throwIf (¬ Store.isSafeInteger seed) .invalidSeed
  throwIf (aptitudes.any fun aptitudes => ¬ validGuardianAptitudes aptitudes) .invalidAptitudes
  return startGame seed feverMode aptitudes

/-- A drill of the chief's rules, with no ordinary arrivals and no fever. -/
def newBossPractice (seed : Int) : Except StampError Game :=
  (newGame seed .auto none).map fun game =>
    { game with practice := .boss, durationMs := BOSS_PRACTICE_MS }

/-! ## The chief -/

inductive BossPhase where
  | recover
  | guard
  | open_
  deriving DecidableEq

structure BossWindow where
  phase : BossPhase
  opening : Int
  perfect : Bool

/-- The chief exposes one opening per cycle, which a hit closes. -/
def bossWindow (actor : Actor) (elapsed : Int) : BossWindow :=
  let age := max 0 (elapsed - actor.bornAt)
  let opening := age / BOSS_CYCLE_MS
  let phaseTime := age % BOSS_CYCLE_MS
  let phase :=
    if actor.expiresAt ≤ elapsed ∨ BOSS_OPENINGS ≤ opening ∨ actor.lastOpeningHit = some opening then
      BossPhase.recover
    else if phaseTime < BOSS_GUARD_MS then .guard else .open_
  { phase := phase
    opening := opening
    perfect := phase = .open_ ∧ actor.lastGuardedOpening ≠ some opening ∧
      BOSS_PERFECT_START_MS ≤ phaseTime ∧ phaseTime < BOSS_PERFECT_START_MS + BOSS_PERFECT_MS }

/-! ## Expiry -/

namespace Cell

variable (cell : Cell) (time : Int)

/-- A goblin gets away. -/
def misses : Bool := cell.actor.any fun actor => actor.expiresAt ≤ time ∧ actor.kind = .goblin

/-- What is left of the impact. A guard fades when the chief opens. -/
def fade : Option Impact :=
  cell.impact.filter fun impact => ¬ (impact.until_ ≤ time ∨ (impact.kind = .guard ∧
    cell.actor.any fun actor => actor.special = some .boss ∧ (bossWindow actor time).phase = .open_))

/-- The mark of a goblin that got away, if it still shows. -/
def miss (actor : Actor) : Option Impact :=
  if time < actor.expiresAt + 300 then some ⟨.miss, actor.expiresAt + 300, 0, actor.face, false⟩ else none

def expire : Cell where
  actor := cell.actor.filter fun actor => ¬ actor.expiresAt ≤ time
  impact :=
    match cell.actor.filter fun actor => actor.expiresAt ≤ time ∧ actor.kind = .goblin with
    | some actor => miss time actor
    | none => cell.fade time

end Cell

namespace Game

/-- How many goblins get away. -/
def misses (game : Game) (time : Int) : Nat :=
  (List.finRange CELL_COUNT).countP fun i => (game.cells i).misses time

/-- The game with other cells, after `n` goblins got away. -/
def losing (game : Game) (n : Nat) (cells : Fin CELL_COUNT → Cell) : Game :=
  { game with
    cells := cells
    combo := if n = 0 then game.combo else 0
    feverCharge := if n = 0 then game.feverCharge else 0
    missed := game.missed + n }

/-- `expire`, for all cells at once. -/
def expire (game : Game) (time : Int) : Game :=
  game.losing (game.misses time) fun i => (game.cells i).expire time

/-- The game with another cell. -/
def setCell (game : Game) (i : Fin CELL_COUNT) (cell : Cell) : Game :=
  { game with cells := fun j => if j = i then cell else game.cells j }

end Game

/-! ## Arrivals -/

/-- `spawnRandom(seed, at, sample) * 2 ** 32`. -/
def spawnRandom (seed time : Int) (sample : Nat) : Nat :=
  let value := BitVec.ofInt 32 seed ^^^ (BitVec.ofInt 32 time * 2654435761#32) ^^^
    (BitVec.ofNat 32 sample * 2246822519#32)
  let value := (value ^^^ (value >>> 16)) * 0x21f0aaad#32
  let value := (value ^^^ (value >>> 15)) * 0x735a2d97#32
  (value ^^^ (value >>> 15)).toNat

namespace Game

variable (game : Game) (time : Int)

def emptyCells : List (Fin CELL_COUNT) :=
  (List.finRange CELL_COUNT).filter fun i =>
    (game.cells i).actor.isNone ∧ (game.cells i).impact.isNone

def activeCells : Nat := (List.finRange CELL_COUNT).countP fun i => (game.cells i).actor.isSome

/-- It is time for the chief. -/
def bossDue : Bool := 45000 ≤ time ∧ game.bossSpawned = false

/-- The cell that a readable path leads to. -/
def preferred : Option Nat :=
  if game.bossDue time then some 4
  else
    let path :=
      if waveIndex time = 1 then [0, 1, 2, 5, 8, 7, 6, 3]
      else if waveIndex time = 2 then [0, 1, 2, 5, 4, 3, 6, 7, 8] else []
    path[game.spawnCount % path.length]?

/-- Where the next actor appears, if there is an empty cell. -/
def place : Option (Fin CELL_COUNT) :=
  let empty := game.emptyCells
  (empty.find? fun i => some i.val = game.preferred time).or
    empty[min (empty.length - 1) (spawnRandom game.seed time 0 * empty.length / 2 ^ 32)]?

def boss (expiresAt : Int) : Actor where
  kind := .goblin
  expiresAt := expiresAt
  bornAt := time
  golden := false
  special := some .boss
  hp := some BOSS_OPENINGS
  lastHitAt := none
  lastOpeningHit := none
  lastGuardedOpening := none

/-- The actor that appears. `0.22 * 2 ** 32` is no integer, so the comparison is exact. -/
def arrival : Actor :=
  if game.bossDue time then boss time (min ROUND_MS (time + BOSS_CYCLE_MS * BOSS_OPENINGS))
  else
    let parade := goldParade time = some .active
    let courier := ¬ parade ∧ 5000 < time ∧ spawnRandom game.seed time 1 * 100 < 22 * 2 ^ 32
    let armored := ¬ courier ∧ ¬ parade ∧ 12000 ≤ time ∧ (game.spawnCount + 1) % 5 = 0
    { kind := if courier then .courier else .goblin
      expiresAt := if armored then time + 2200 else time + (stampWave time).life
      bornAt := time
      golden := ¬ armored ∧ ¬ courier ∧
        (parade ∨ (20000 ≤ time ∧ (game.spawnCount + 1) % 7 = 0))
      special := if armored then some .armored else none
      hp := if armored then some 2 else none
      lastHitAt := none
      lastOpeningHit := none
      lastGuardedOpening := none }

/-- The chief of a drill appears in the middle. -/
def spawnDrill : Game :=
  { game.setCell 4 { game.cells 4 with actor := some (boss time (time + BOSS_CYCLE_MS * BOSS_OPENINGS)) } with
    bossSpawned := true
    spawnCount := game.spawnCount + 1
    nextSpawn := game.durationMs }

/-- An actor appears in a cell, or the cells are full. -/
def spawnRound : Game :=
  let next :=
    match game.place time with
    | some i =>
      if game.activeCells < (stampWave time).limit then
        { game.setCell i { game.cells i with actor := some (game.arrival time) } with
          spawnCount := game.spawnCount + 1
          bossSpawned := game.bossSpawned || game.bossDue time }
      else game
    | none => game
  { next with nextSpawn := game.nextSpawn + (stampWave time).interval }

/-- A scheduled arrival. -/
def spawn : Game :=
  match game.practice with
  | .boss => game.spawnDrill time
  | .full => game.spawnRound time

end Game

theorem interval_pos (time : Int) : 430 ≤ (stampWave time).interval := by
  have hall : ∀ k, 430 ≤ (STAMP_WAVES.getD k ⟨0, 900, 1850, 2⟩).interval := by
    intro k
    match k with
    | 0 | 1 | 2 | 3 | 4 => decide
    | k + 5 => exact (by decide : (430 : Int) ≤ 900)
  exact hall _

@[simp] theorem durationMs_spawn (game : Game) (time : Int) :
    (game.spawn time).durationMs = game.durationMs := by
  unfold Game.spawn
  split
  · rfl
  · unfold Game.spawnRound
    dsimp only
    split
    · split <;> rfl
    · rfl

/-- The next arrival is later. -/
theorem lt_nextSpawn_spawn {game : Game} (time : Int) (h : game.nextSpawn < game.durationMs) :
    game.nextSpawn < (game.spawn time).nextSpawn := by
  unfold Game.spawn
  split
  · exact h
  · have := interval_pos time
    change game.nextSpawn < game.nextSpawn + (stampWave time).interval
    omega

/-- The scheduled arrivals up to `end_`, each after the expiries before it. -/
def Game.arrivals (game : Game) (end_ : Int) : Game :=
  if _h : game.nextSpawn ≤ end_ ∧ game.nextSpawn < game.durationMs then
    ((game.expire game.nextSpawn).spawn game.nextSpawn).arrivals end_
  else game
termination_by (game.durationMs - game.nextSpawn).toNat
decreasing_by
  have hlater : game.nextSpawn < ((game.expire game.nextSpawn).spawn game.nextSpawn).nextSpawn :=
    lt_nextSpawn_spawn game.nextSpawn (show (game.expire game.nextSpawn).nextSpawn < _ from _h.2)
  have hduration : ((game.expire game.nextSpawn).spawn game.nextSpawn).durationMs = game.durationMs :=
    durationMs_spawn _ _
  omega

/-- The end of a step; the bell clears the cells. -/
def Game.settle (game : Game) (end_ : Int) : Game :=
  { game with
    elapsed := end_
    finished := end_ = game.durationMs
    cells := fun i => if end_ = game.durationMs then { game.cells i with actor := none } else game.cells i }

def advance (game : Game) (deltaMs : Int) : Game :=
  if game.finished ∨ deltaMs ≤ 0 then game
  else
    let end_ := min game.durationMs (game.elapsed + deltaMs)
    ((game.arrivals end_).expire end_).settle end_

end Mapae.Arcade
