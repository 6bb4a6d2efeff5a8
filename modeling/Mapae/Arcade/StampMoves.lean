import Mapae.Arcade.Stamp
import Mapae.Infra.Transition

/-!
# Playing the stamp game

* `stamp` hits a cell, `activateFever` and `setFeverMode` are about the fever
* `advanceAgent` lets time pass and plays with the same moves as a person

The agent acts at its own beat and, when it is careful, at the moment the chief is hit best.
-/

namespace Mapae.Arcade

open Mapae.Infra

def multiplier (combo : Nat) : Int := min 4 (1 + combo / 5 : Nat)

/-! ## Fever -/

def activateFever (game : Game) : Game :=
  if game.practice = .boss ∨ game.finished ∨ game.durationMs ≤ game.elapsed ∨
      game.elapsed < game.feverUntil ∨ game.feverCharge < FEVER_TARGET then game
  else { game with
    feverCharge := 0
    feverUntil := min game.durationMs (game.elapsed + FEVER_MS)
    feverActivations := game.feverActivations + 1 }

def setFeverMode (game : Game) (mode : FeverMode) : Game :=
  if game.practice = .boss ∨ game.finished ∨ mode = game.feverMode then game
  else
    match mode with
    | .auto => activateFever { game with feverMode := .auto }
    | .manual => { game with feverMode := .manual }

/-! ## Hits -/

def BossWindow.precisionPoints (window : BossWindow) : Int :=
  if window.perfect then BOSS_PERFECT_POINTS else 0

/-- What a goblin is worth. -/
def Actor.basePoints (actor : Actor) (combo : Nat) : Int :=
  (if actor.special = some .boss then 1000 else if actor.special = some .armored then 180
    else if actor.golden then 250 else 100) * multiplier combo

namespace Game

variable (game : Game) (i : Fin CELL_COUNT) (actor : Actor)

/-- A courier is hit. -/
def wrong : Game :=
  let lost := min 100 game.score
  { game.setCell i ⟨none, some ⟨.wrong, game.elapsed + 420, -lost, actor.face, false⟩⟩ with
    score := game.score - lost
    combo := 0
    feverCharge := 0
    mistakes := game.mistakes + 1 }

/-- A goblin that can take more is hit. `struck` is the goblin as the hit leaves it. -/
def crack (struck : Actor) (precisionPoints : Int) : Game :=
  game.setCell i
    { actor := some { struck with hp := some (actor.hp.getD 1 - 1), lastHitAt := some game.elapsed }
      impact := some
        { kind := .crack
          until_ := game.elapsed + if precisionPoints = 0 then 100 else 650
          points := precisionPoints
          actor := actor.face
          perfect := 0 < precisionPoints } }

/-- The charge after a hit, and the fever that it may start. -/
def charge : Game :=
  if game.elapsed < game.feverUntil ∨ game.practice = .boss then game
  else
    let charge := min FEVER_TARGET (game.feverCharge + 1)
    if game.feverMode = .auto ∧ charge = FEVER_TARGET then
      { game with
        feverUntil := min game.durationMs (game.elapsed + FEVER_MS)
        feverCharge := 0
        feverActivations := game.feverActivations + 1 }
    else { game with feverCharge := charge }

/-- What a goblin earns, twice as much in the fever. -/
def earned : Int :=
  actor.basePoints (game.combo + 1) * if game.elapsed < game.feverUntil then 2 else 1

/-- The mark of a goblin that is defeated. -/
def defeatImpact (precisionPoints : Int) : Impact where
  kind := .stamp
  until_ := game.elapsed + if precisionPoints = 0 then 380 else 650
  points := game.earned actor + precisionPoints
  actor := actor.face
  perfect := 0 < precisionPoints

/-- A goblin is defeated. -/
def defeat (precisionPoints : Int) : Game :=
  let combo := game.combo + 1
  let fever : Bool := game.elapsed < game.feverUntil
  { (game.setCell i ⟨none, some (game.defeatImpact actor precisionPoints)⟩).charge with
    combo := combo
    bestCombo := max game.bestCombo combo
    hits := game.hits + 1
    feverBonus := game.feverBonus + if fever then actor.basePoints combo else 0
    feverGoldHits := game.feverGoldHits + if fever ∧ actor.golden then 1 else 0
    goldHits := game.goldHits + if actor.golden then 1 else 0
    bossDefeated := game.bossDefeated + if actor.special = some .boss then 1 else 0
    armorHits := game.armorHits + if actor.special = some .armored then 1 else 0
    score := game.score + game.earned actor }

/-- A hit that lands. -/
def hit (struck : Actor) (precisionPoints : Int) : Game :=
  if actor.kind = .goblin ∧ 1 < actor.hp.getD 1 then game.crack i actor struck precisionPoints
  else if actor.kind = .courier then game.wrong i actor
  else game.defeat i actor precisionPoints

/-- The chief's guard is hit. An early tap spends the precision of the opening. -/
def guarded (opening : Int) : Game :=
  if (game.cells i).impact.any fun impact => impact.kind = .guard ∧ game.elapsed < impact.until_ then game
  else
    { game.setCell i
        ⟨some { actor with lastGuardedOpening := some opening },
          some ⟨.guard, game.elapsed + 240, 0, actor.face, false⟩⟩ with
      guardedHits := game.guardedHits + 1 }

/-- The hit of an opening is counted. -/
def tally (window : BossWindow) : Game :=
  { game with
    bossHits := game.bossHits + 1
    perfectHits := game.perfectHits + if window.perfect then 1 else 0
    score := game.score + window.precisionPoints }

/-- The chief is hit in an opening. -/
def open_ (window : BossWindow) : Game :=
  (game.tally window).hit i actor
    { actor with lastOpeningHit := some window.opening, lastHitAt := some game.elapsed }
    window.precisionPoints

def strike : Game :=
  if actor.special = some .boss then
    let window := bossWindow actor game.elapsed
    match window.phase with
    | .recover => game
    | .guard => game.guarded i actor window.opening
    | .open_ => game.open_ i actor window
  else game.hit i actor actor 0

end Game

/-- A cell that is hit twice within this time is hit once. -/
def Actor.stunned (actor : Actor) (elapsed : Int) : Bool :=
  actor.lastHitAt.any fun lastHitAt => elapsed - lastHitAt < 110

def stamp (game : Game) (index : Int) : Game :=
  if game.finished then game
  else if h : 0 ≤ index ∧ index < CELL_COUNT then
    let i : Fin CELL_COUNT := ⟨index.toNat, by omega⟩
    match (game.cells i).actor with
    | none => game
    | some actor =>
      if actor.expiresAt ≤ game.elapsed ∨ game.durationMs ≤ game.elapsed ∨ actor.stunned game.elapsed then
        game
      else game.strike i actor
  else game

/-! ## Plays -/

/-- A round or a drill as it is opened. -/
def Opened (game : Game) : Prop :=
  (∃ seed feverMode aptitudes, newGame seed feverMode aptitudes = .ok game) ∨
    ∃ seed, newBossPractice seed = .ok game

inductive StampMove where
  | advance (deltaMs : Int)
  | stamp (index : Int)
  | activateFever
  | setFeverMode (mode : FeverMode)

def StampMove.play (game : Game) : StampMove → Game
  | .advance deltaMs => Arcade.advance game deltaMs
  | .stamp index => Arcade.stamp game index
  | .activateFever => Arcade.activateFever game
  | .setFeverMode mode => Arcade.setFeverMode game mode

/-- Any moves in any order. -/
def stampPlay : System Game where
  init := Opened
  step game game' := ∃ move : StampMove, game' = move.play game

/-! ## The agent -/

inductive Tempo where
  | careful
  | quick
  deriving DecidableEq

/-- The middle of the next precise window, if the chief lives to see it. -/
def Actor.moment (chief : Actor) (elapsed : Int) : Option Int :=
  let cycle := max 0 ((elapsed - chief.bornAt) / BOSS_CYCLE_MS)
  let first := chief.bornAt + cycle * BOSS_CYCLE_MS + BOSS_PERFECT_START_MS + BOSS_PERFECT_MS / 2
  let time :=
    if first ≤ elapsed ∨ chief.lastOpeningHit = some cycle then first + BOSS_CYCLE_MS else first
  if chief.expiresAt ≤ time then none else some time

namespace Game

variable (game : Game)

def focus : Int := (game.aptitudes.map fun aptitudes => (aptitudes.stamp : Int)).getD 5 - 5

def agentInterval (tempo : Tempo) : Int := (if tempo = .quick then 260 else 510) - game.focus * 40

/-- The first chief of the cells. -/
def chief : Option Actor :=
  (List.finRange CELL_COUNT).findSome? fun i =>
    (game.cells i).actor.filter fun actor => actor.special = some .boss

/-- When the careful agent acts for the chief. -/
def preciseAt (tempo : Tempo) : Option Int :=
  if tempo = .quick then none else game.chief.bind fun chief => chief.moment game.elapsed

/-- A goblin that the agent may hit. -/
def target (tempo : Tempo) (focus time : Int) (precise : Bool) (i : Fin CELL_COUNT) : Option Actor :=
  (game.cells i).actor.filter fun actor =>
    actor.kind = .goblin ∧ (if tempo = .quick then 180 else 390) - focus * 30 ≤ time - actor.bornAt ∧
      (actor.special = some .boss → if tempo = .careful then precise = true
        else (bossWindow actor time).phase = .open_)

/-- The chief first, then gold, then what expires first. -/
def urgency (actor : Actor) : Nat × Int :=
  ((if actor.special = some .boss then 0 else 2) + if actor.golden then 0 else 1, actor.expiresAt)

def targets (tempo : Tempo) (focus time : Int) (precise : Bool) : List (Fin CELL_COUNT × Actor) :=
  ((List.finRange CELL_COUNT).filterMap fun i =>
    (game.target tempo focus time precise i).map fun actor => (i, actor)).mergeSort fun a b =>
      (urgency a.2).1 < (urgency b.2).1 ∨
        ((urgency a.2).1 = (urgency b.2).1 ∧ (urgency a.2).2 ≤ (urgency b.2).2)

/-- What the agent does at a moment. -/
def agentTurn (tempo : Tempo) (focus time : Int) (precise : Bool) : Game :=
  let next :=
    if tempo = .careful ∧ (goldParade time = some .active ∨ game.durationMs - FEVER_MS ≤ time ∨ precise)
    then activateFever game else game
  match (next.targets tempo focus time precise).head? with
  | some target => stamp next target.1.val
  | none => next

end Game

/-- When the agent acts next: at its beat, or at the precise moment if that is earlier. -/
def Game.nextEvent (game : Game) (tempo : Tempo) (beat : Int) : Int :=
  (game.preciseAt tempo).elim beat (min beat)

/-! ## The clock -/

/-- What the moves of a player leave alone, but for the fever mode. -/
structure Clock where
  aptitudes : Option GuardianAptitudes
  practice : Practice
  durationMs : Int
  feverMode : FeverMode
  elapsed : Int
  nextSpawn : Int
  spawnCount : Nat
  bossSpawned : Bool
  missed : Nat
  finished : Bool

def Game.clock (game : Game) : Clock where
  aptitudes := game.aptitudes
  practice := game.practice
  durationMs := game.durationMs
  feverMode := game.feverMode
  elapsed := game.elapsed
  nextSpawn := game.nextSpawn
  spawnCount := game.spawnCount
  bossSpawned := game.bossSpawned
  missed := game.missed
  finished := game.finished

section Clock

variable (game : Game)

@[simp] theorem clock_activateFever : (activateFever game).clock = game.clock := by
  unfold activateFever
  split <;> rfl

theorem clock_setFeverMode (mode : FeverMode) : ∃ feverMode,
    (setFeverMode game mode).clock = { game.clock with feverMode := feverMode } := by
  unfold setFeverMode
  split
  · exact ⟨_, rfl⟩
  · cases mode
    · exact ⟨_, clock_activateFever _⟩
    · exact ⟨_, rfl⟩

/-- A charge is about the fever, which it starts once at most. -/
theorem charge_eq : ∃ feverUntil feverCharge feverActivations, game.charge =
    { game with
      feverUntil := feverUntil
      feverCharge := feverCharge
      feverActivations := feverActivations } ∧
    (game.feverCharge ≤ FEVER_TARGET → feverCharge ≤ FEVER_TARGET) ∧
    (feverActivations = game.feverActivations ∨ feverActivations = game.feverActivations + 1) := by
  unfold Game.charge
  split
  · exact ⟨_, _, _, rfl, id, Or.inl rfl⟩
  · dsimp only
    split
    · exact ⟨_, _, _, rfl, fun _ => Nat.zero_le _, Or.inr rfl⟩
    · exact ⟨_, _, _, rfl, fun _ => Nat.min_le_left _ _, Or.inl rfl⟩

@[simp] theorem clock_charge : game.charge.clock = game.clock := by
  obtain ⟨_, _, _, hcharge, -⟩ := charge_eq game
  rw [hcharge]
  rfl

variable (i : Fin CELL_COUNT) (actor struck : Actor)

theorem clock_hit (precisionPoints : Int) : (game.hit i actor struck precisionPoints).clock = game.clock := by
  unfold Game.hit
  split
  · rfl
  · split
    · rfl
    · exact clock_charge _

theorem clock_strike : (game.strike i actor).clock = game.clock := by
  unfold Game.strike
  split
  · dsimp only
    split
    · rfl
    · unfold Game.guarded
      split <;> rfl
    · exact clock_hit _ i actor _ _
  · exact clock_hit game i actor actor 0

@[simp] theorem clock_stamp (index : Int) : (stamp game index).clock = game.clock := by
  unfold stamp
  split
  · rfl
  · split
    · dsimp only
      split
      · rfl
      · split
        · rfl
        · exact clock_strike _ _ _
    · rfl

@[simp] theorem clock_agentTurn (tempo : Tempo) (focus time : Int) (precise : Bool) :
    (game.agentTurn tempo focus time precise).clock = game.clock := by
  unfold Game.agentTurn
  dsimp only
  split
  · rw [clock_stamp]
    split
    · exact clock_activateFever game
    · rfl
  · split
    · exact clock_activateFever game
    · rfl

theorem elapsed_agentTurn (tempo : Tempo) (focus time : Int) (precise : Bool) :
    (game.agentTurn tempo focus time precise).elapsed = game.elapsed :=
  congrArg Clock.elapsed (clock_agentTurn game tempo focus time precise)

end Clock

@[simp] theorem durationMs_expire (game : Game) (time : Int) :
    (game.expire time).durationMs = game.durationMs := rfl

@[simp] theorem durationMs_arrivals (game : Game) (end_ : Int) :
    (game.arrivals end_).durationMs = game.durationMs := by
  fun_induction Game.arrivals game end_ with
  | case1 game h ih => rw [ih, durationMs_spawn, durationMs_expire]
  | case2 game h => rfl

/-- A step that does not end the round takes its time. -/
theorem elapsed_advance {game : Game} {deltaMs : Int} (hpos : 0 < deltaMs)
    (h : (advance game deltaMs).finished = false) :
    (advance game deltaMs).elapsed = game.elapsed + deltaMs := by
  unfold advance at h ⊢
  split at h
  · next hstop =>
    rcases hstop with hfinished | hdelta
    · rw [hfinished] at h
      cases h
    · omega
  · next hstop =>
    rw [if_neg hstop]
    have hne := of_decide_eq_false h
    rw [durationMs_expire, durationMs_arrivals] at hne
    change min game.durationMs (game.elapsed + deltaMs) = game.elapsed + deltaMs
    omega

/-- The agent's loop. The next event is always ahead (`lt_nextEvent`): that this is checked only shows
that the loop ends. -/
def agentLoop (tempo : Tempo) (focus interval end_ : Int) (next : Game) (beat : Int) : Game :=
  if next.elapsed < end_ then
    if _hstop : end_ < next.nextEvent tempo beat ∨ next.nextEvent tempo beat ≤ next.elapsed then next
    else
      let time := next.nextEvent tempo beat
      let reached := advance next (next.nextEvent tempo beat - next.elapsed)
      if _hbell : reached.finished = true then reached
      else agentLoop tempo focus interval end_
        (reached.agentTurn tempo focus time (next.preciseAt tempo = some time))
        (if time = beat then beat + interval else beat)
  else next
termination_by (end_ - next.elapsed).toNat
decreasing_by
  have hpos : 0 < next.nextEvent tempo beat - next.elapsed := by omega
  have hreached := elapsed_advance hpos (Bool.eq_false_iff.mpr _hbell)
  rw [elapsed_agentTurn, hreached]
  omega

def advanceAgent (game : Game) (deltaMs : Int) (tempo : Tempo) : Game :=
  if game.finished ∨ deltaMs ≤ 0 then game
  else
    let interval := game.agentInterval tempo
    let end_ := min game.durationMs (game.elapsed + deltaMs)
    let next := setFeverMode game (if tempo = .quick then .auto else .manual)
    let beat := (game.elapsed / interval + 1) * interval
    let last := agentLoop tempo game.focus interval end_ next beat
    advance last (end_ - last.elapsed)

end Mapae.Arcade
