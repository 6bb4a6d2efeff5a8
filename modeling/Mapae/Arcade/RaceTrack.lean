import Mapae.Arcade.Race
import Mapae.Infra.Keyed

/-!
# How the horses run

The simulation of a race, with exact rational numbers. In a tick every horse plans on the positions
before it, all of them move, and then they are gone through from the front: a horse does not pass the
one that it follows.

Two things are parameters. `weather` is the speed in the weather where a horse stands. `collate` gives
the collation keys of ids: `a.localeCompare(b)` compares them.

* `raceTick` is one tick: `callAll`, `moveOf` and `resolveAll`
* `simulateRace` checks what it is given and runs until all are in, for 2000 ticks at most
-/

namespace Mapae.Arcade.Track

open Mapae.Infra

/-! ## Words -/

def RACE_ROUTE_SECONDS : ℚ := 8
def RACE_BURST_COST : ℚ := 20
def RACE_BURST_SECONDS : ℚ := 4
def RACE_BURST_SPEED : ℚ := 17 / 10
def RACE_DRAFT_DISTANCE : ℚ := 22
def RACE_DRAFT_DRAIN : ℚ := 6 / 10
def RACE_FOLLOW_GAP : ℚ := 3
def RACE_OUTSIDE_SPEED : ℚ := 94 / 100
def RACE_BASE_SPEED : ℚ := 19
def RACE_CHECKPOINTS : List ℚ := [12, 24]

/-- `1e-7`: what is nearer is level. -/
def TIE : ℚ := 1 / 10 ^ 7

inductive RacePace where
  | save
  | steady
  | push
  deriving DecidableEq

inductive RaceRoute where
  | shortcut
  | wide
  deriving DecidableEq

inductive RaceTerrain where
  | mud
  | hill
  | meadow
  deriving DecidableEq

/-- A call at a fork, at `time`. -/
structure RaceCommand where
  time : ℚ
  pace : RacePace
  route : RaceRoute

structure RaceCall extends RaceCommand where
  id : String

structure RaceBurst where
  id : String
  time : ℚ
  staminaBefore : ℚ

structure RaceCourse where
  round : ℚ
  weather : Weather
  course : CourseLength
  distance : ℚ
  gust : ℚ

structure RacePosition where
  id : String
  distance : ℚ
  stamina : ℚ
  path : RaceRoute
  draftingId : Option String
  blockedBy : Option String
  overtakingId : Option String
  deriving DecidableEq

/-- There is no gap where nobody is ahead: it is `Infinity`. -/
structure RaceTraffic where
  aheadId : Option String
  gap : Option ℚ
  outerThreatId : Option String
  tiredAhead : Bool

structure RaceFrame where
  time : ℚ
  positions : List RacePosition

/-- There are no points beyond the fourth place. -/
structure RaceFinish where
  id : String
  rank : Nat
  seconds : ℚ
  stamina : ℚ
  points : Option Nat

structure RaceSimulation where
  frames : List RaceFrame
  finish : List RaceFinish
  seconds : ℚ
  calls : List RaceCall
  bursts : List RaceBurst

/-- `throw new Error(message)`. -/
inductive TrackError where
  | error (message : String)

/-- An id that counts as true: there is one, and it is not empty. -/
def truthy (id : Option String) : Bool := id.any fun id => id ≠ ""

/-! ## Terrain and motor -/

def raceTerrain (course : RaceCourse) (checkpoint : Nat) : RaceTerrain :=
  if course.weather = .rain ∧ checkpoint = 0 then .mud
  -- an even number
  else if ((course.round + checkpoint) / 2).den = 1 then .hill else .meadow

structure RouteEffect where
  speed : ℚ
  drain : ℚ

def raceRouteEffect (terrain : RaceTerrain) (route : RaceRoute) (pace : RacePace) (stamina : ℚ) :
    RouteEffect :=
  if route = .wide then ⟨RACE_OUTSIDE_SPEED, 1⟩
  else match terrain with
    | .mud => ⟨if pace = .push then 72 / 100 else 112 / 100, 13 / 10⟩
    | .hill => ⟨if stamina < 25 then 85 / 100 else 115 / 100, 19 / 10⟩
    | .meadow => ⟨115 / 100, 115 / 100⟩

def effort (strategy : RaceStrategy) (progress : ℚ) : ℚ :=
  match strategy with
  | .burst => if progress < 32 / 100 then 142 / 100 else if progress < 68 / 100 then 104 / 100 else 98 / 100
  | .conserve => if progress < 62 / 100 then 97 / 100 else 12 / 10
  | .surge => if progress < 58 / 100 then 102 / 100 else if progress < 8 / 10 then 114 / 100 else 135 / 100

/-- The motor at the fork with an index in `RACE_CHECKPOINTS`. -/
def raceMotorCall (course : RaceCourse) (strategy : RaceStrategy) (checkpoint : Fin 2) (stamina : ℚ)
    (traffic : RaceTraffic) : RaceCommand :=
  let pace : RacePace :=
    if stamina < 35 ∨ (course.course = .long ∧ course.weather = .rain) then .save
    else match strategy with
      | .burst => if checkpoint = 0 then .steady else .save
      | .conserve => .save
      | .surge => if checkpoint = 0 then .save else .steady
  let terrain := raceTerrain course checkpoint
  let pace := if truthy traffic.outerThreatId ∧ strategy ≠ .conserve ∧ 55 ≤ stamina then .push else pace
  let attack : Bool := decide (35 ≤ stamina) && match strategy with
    | .burst => traffic.gap.any fun gap => decide (gap ≤ RACE_DRAFT_DISTANCE)
    | .surge => decide (checkpoint = 1) && traffic.aheadId.isSome
    | .conserve => decide (checkpoint = 1) && traffic.tiredAhead
  let route := if attack ∨ (terrain = .hill ∧ stamina < 50) then .wide else .shortcut
  ⟨RACE_CHECKPOINTS.getD checkpoint 0, pace, route⟩

def paceFactor : RacePace → ℚ
  | .save => 88 / 100
  | .steady => 112 / 100
  | .push => 155 / 100

/-- Where the motor of a strategy uses its burst. -/
def burstProgress : RaceStrategy → ℚ
  | .burst => 22 / 100
  | .conserve => 78 / 100
  | .surge => 65 / 100

def efficiencyOf : RaceStrategy → ℚ
  | .burst => 11 / 10
  | .conserve => 65 / 100
  | .surge => 92 / 100

def weatherDrain : Weather → ℚ
  | .clear => 0
  | .rain => 48 / 100
  | .wind => 22 / 100

/-! ## Reading positions -/

def positionOf (positions : List RacePosition) (id : String) : Option RacePosition :=
  positions.find? fun position => position.id = id

/-- `calls.findLast` for a runner. -/
def lastCall (calls : List RaceCall) (id : String) : Option RaceCall :=
  (calls.filter fun call => call.id = id).getLast?

def burstOf (bursts : List RaceBurst) (id : String) : Option RaceBurst :=
  (bursts.filter fun burst => burst.id = id).head?

/-- What changes from tick to tick. `times` are the arrivals. -/
structure RaceState where
  positions : List RacePosition
  times : List (String × ℚ)
  calls : List RaceCall
  bursts : List RaceBurst

/-- `times.has(id)`. -/
def arrived (times : List (String × ℚ)) (id : String) : Bool := times.any fun time => time.1 = id

/-- Those that are still running. -/
def running (times : List (String × ℚ)) (positions : List RacePosition) : List RacePosition :=
  positions.filter fun position => !arrived times position.id

section Track

variable {κ : Type} [LinearOrder κ] (collate : String → κ) (weather : RaceCourse → ℚ → ℚ)

/-- By distance, and then by id. -/
def nearKey (position : RacePosition) : ℚ ×ₗ κ := toLex (position.distance, collate position.id)

/-- Strictly ahead, so that horses that are level do not follow each other. -/
def raceTraffic (positions : List RacePosition) (id : String) : RaceTraffic :=
  match positionOf positions id with
  | none => ⟨none, none, none, false⟩
  | some own =>
    let ahead := (orderBy (nearKey collate) (positions.filter fun position =>
      position.id ≠ id ∧ position.path = .shortcut ∧ own.distance + TIE < position.distance)).head?
    let threat := (orderBy (fun position => toLex (|position.distance - own.distance|, collate position.id))
      (positions.filter fun position =>
        position.id ≠ id ∧ position.path = .wide ∧
          |position.distance - own.distance| ≤ RACE_DRAFT_DISTANCE)).head?
    { aheadId := ahead.map RacePosition.id
      gap := ahead.map fun position => position.distance - own.distance
      outerThreatId := threat.map RacePosition.id
      tiredAhead := positions.any fun position =>
        decide (own.distance < position.distance ∧ position.stamina < 35) }

/-- What a race is run with. `burstAt` is `undefined`, `null` or a time. -/
structure RaceInput where
  course : RaceCourse
  entrants : List Racer
  commands : List RaceCommand
  burstAt : Option (Option ℚ)

def runnerOf (input : RaceInput) (id : String) : Option Racer :=
  input.entrants.find? fun runner => runner.id = id

/-! ## A tick -/

/-- `RACE_CHECKPOINTS.findIndex(at => at === now)`. -/
def checkpointAt (now : ℚ) : Option (Fin 2) :=
  if now = 12 then some 0 else if now = 24 then some 1 else none

/-- The call of a runner at a fork. -/
def callOf (input : RaceInput) (state : RaceState) (checkpoint : Fin 2) (runner : Racer) :
    Option RaceCall :=
  if arrived state.times runner.id then none
  else (positionOf state.positions runner.id).map fun position =>
    let command := (if runner.id = "owner" then input.commands[checkpoint.val]? else none).getD
      (raceMotorCall input.course runner.strategy checkpoint position.stamina
        (raceTraffic collate (running state.times state.positions) runner.id))
    ⟨command, runner.id⟩

def callAll (input : RaceInput) (state : RaceState) (now : ℚ) : List RaceCall :=
  match checkpointAt now with
  | none => state.calls
  | some checkpoint => state.calls ++ input.entrants.filterMap (callOf collate input state checkpoint)

/-- The positions with the paths of the latest calls. -/
def snapshotOf (calls : List RaceCall) (positions : List RacePosition) : List RacePosition :=
  positions.map fun position =>
    { position with path := ((lastCall calls position.id).map fun call => call.route).getD .shortcut }

/-- What a horse goes by in a tick: the drafted horse, the burst it has or begins, its stamina after
that, and the call that is in force. -/
structure Plan where
  draftingId : Option String
  burst : Option RaceBurst
  begun : Option RaceBurst
  stamina : ℚ
  activeCall : Option RaceCall

def planOf (input : RaceInput) (state : RaceState) (snapshot : List RacePosition) (now : ℚ) (runner : Racer)
    (position : RacePosition) : Plan :=
  let traffic := raceTraffic collate (running state.times snapshot) runner.id
  let draftingId := if position.path = .shortcut ∧
    (traffic.gap.any fun gap => decide (gap ≤ RACE_DRAFT_DISTANCE)) then traffic.aheadId else none
  let burst := burstOf state.bursts runner.id
  let requested : Bool :=
    match (if runner.id = "owner" then input.burstAt else none) with
    | some burstAt => burstAt = some now
    | none => decide (truthy draftingId = false ∧
        burstProgress runner.strategy ≤ position.distance / input.course.distance)
  let begun : Option RaceBurst :=
    if burst = none ∧ requested ∧ RACE_BURST_COST ≤ position.stamina then
      some ⟨runner.id, now, position.stamina⟩
    else none
  let call := lastCall state.calls runner.id
  { draftingId
    burst := burst <|> begun
    begun
    stamina := if begun.isSome then position.stamina - RACE_BURST_COST else position.stamina
    activeCall := call.filter fun call => decide (now < call.time + RACE_ROUTE_SECONDS) }

/-- `RACE_CHECKPOINTS.indexOf(at)`; a call is at one of them. -/
def checkpointIndex (time : ℚ) : Nat := if time = 12 then 0 else 1

def routeOf (course : RaceCourse) (position : RacePosition) (plan : Plan) : RouteEffect :=
  match plan.activeCall with
  | some call => raceRouteEffect (raceTerrain course (checkpointIndex call.time)) call.route call.pace plan.stamina
  | none => ⟨if position.path = .wide then RACE_OUTSIDE_SPEED else 1, 1⟩

def paceOf (course : RaceCourse) (runner : Racer) (position : RacePosition) (plan : Plan) : ℚ :=
  match plan.activeCall with
  | some call => paceFactor call.pace
  | none => effort runner.strategy (position.distance / course.distance)

def speedOf (course : RaceCourse) (now : ℚ) (runner : Racer) (position : RacePosition) (plan : Plan) : ℚ :=
  let fatigue := 4 / 10 + 6 / 10 * min 1 (plan.stamina / 25)
  let burstSpeed := if plan.burst.any fun burst => decide (now < burst.time + RACE_BURST_SECONDS) then
    RACE_BURST_SPEED else 1
  RACE_BASE_SPEED * (1 + (((runner.aptitude.getD 5 : Nat) : ℚ) - 5) * (2 / 100)) *
    paceOf course runner position plan * weather course position.distance * fatigue *
    (routeOf course position plan).speed * burstSpeed

def drainOf (course : RaceCourse) (runner : Racer) (position : RacePosition) (plan : Plan) : ℚ :=
  let efficiency := if plan.activeCall.isSome then 1 else efficiencyOf runner.strategy
  ((paceOf course runner position plan ^ 3 * (155 / 100) - 8 / 10) + weatherDrain course.weather) * efficiency

/-- The length of a tick. -/
def STEP : ℚ := 1 / 10

/-- Where a horse comes to if nobody is in its way, and the burst it begins. -/
def moveOf (input : RaceInput) (state : RaceState) (snapshot : List RacePosition) (now : ℚ)
    (position : RacePosition) : RacePosition × Option RaceBurst :=
  let still := { position with draftingId := none, blockedBy := none, overtakingId := none }
  if arrived state.times position.id then (still, none)
  else match runnerOf input position.id with
    | none => (still, none)
    | some runner =>
      let plan := planOf collate input state snapshot now runner position
      let drain := drainOf input.course runner position plan
      ({ position with
          distance := position.distance + speedOf weather input.course now runner position plan * STEP
          stamina := max 0 (plan.stamina - drain * (routeOf input.course position plan).drain *
            (if truthy plan.draftingId then RACE_DRAFT_DRAIN else 1) * STEP)
          draftingId := plan.draftingId
          blockedBy := none
          overtakingId := none }, plan.begun)

/-- A horse that follows another one stays behind it. -/
def block (snapshot next : List RacePosition) (before position : RacePosition) : RacePosition :=
  match (position.draftingId.filter fun id => id ≠ "").bind (positionOf next) with
  | none => position
  | some leader =>
    match positionOf snapshot leader.id with
    | none => position
    | some leaderBefore =>
      let gap := leaderBefore.distance - before.distance
      let limit := max before.distance (leader.distance - min RACE_FOLLOW_GAP gap)
      if limit < position.distance then { position with distance := limit, blockedBy := some leader.id }
      else position

/-- The nearest horse that is passed outside. -/
def overtake (snapshot next : List RacePosition) (times : List (String × ℚ)) (before position : RacePosition) :
    RacePosition :=
  if position.path = .wide then
    let passed := (orderBy (nearKey collate) (snapshot.filter fun other =>
      !arrived times other.id && decide (other.id ≠ before.id ∧ before.distance + TIE < other.distance) &&
        (positionOf next other.id).any fun moved => decide (moved.distance + TIE < position.distance))).head?
    { position with overtakingId := passed.map RacePosition.id }
  else position

/-- One horse, from the front: it is held up, it passes, or it is in. -/
def resolve (course : RaceCourse) (snapshot : List RacePosition) (now : ℚ)
    (acc : List RacePosition × List (String × ℚ)) (before : RacePosition) :
    List RacePosition × List (String × ℚ) :=
  match positionOf acc.1 before.id with
  | none => acc
  | some position =>
    if arrived acc.2 position.id then acc
    else
      let position := overtake collate snapshot acc.1 acc.2 before (block snapshot acc.1 before position)
      if course.distance ≤ position.distance then
        (updateKey RacePosition.id acc.1 before.id fun _ => { position with distance := course.distance },
          acc.2 ++ [(position.id, now + STEP * (course.distance - before.distance) /
            (position.distance - before.distance))])
      else (updateKey RacePosition.id acc.1 before.id fun _ => position, acc.2)

/-- From the front, and then by id. -/
def frontKey (position : RacePosition) : ℚ ×ₗ κ := toLex (-position.distance, collate position.id)

/-- All that moved, from the front. -/
def resolveAll (course : RaceCourse) (snapshot : List RacePosition) (now : ℚ)
    (acc : List RacePosition × List (String × ℚ)) : List RacePosition × List (String × ℚ) :=
  (orderBy (frontKey collate) snapshot).foldl (resolve collate course snapshot now) acc

def raceTick (input : RaceInput) (tick : Nat) (state : RaceState) : RaceState :=
  let now : ℚ := tick / 10
  let calls := callAll collate input state now
  let called := { state with calls }
  let snapshot := snapshotOf calls state.positions
  -- the bursts that are pushed on the way are each for a runner of its own
  let moved := snapshot.map (moveOf collate weather input called snapshot now)
  let resolved := resolveAll collate input.course snapshot now (moved.map Prod.fst, state.times)
  { positions := resolved.1, times := resolved.2, calls, bursts := state.bursts ++ moved.filterMap Prod.snd }

/-! ## The race -/

def startOf (entrants : List Racer) : RaceState :=
  { positions := entrants.map fun runner => ⟨runner.id, 0, 100, .shortcut, none, none, none⟩
    times := []
    calls := []
    bursts := [] }

/-- The loop: at most `fuel` ticks, until all are in. -/
def raceLoop (input : RaceInput) : Nat → Nat → RaceState → List RaceFrame × RaceState
  | 0, _, state => ([], state)
  | fuel + 1, tick, state =>
    if state.times.length < input.entrants.length then
      let next := raceTick collate weather input tick state
      let (frames, last) := raceLoop input fuel (tick + 1) next
      (⟨(tick + 1 : Nat) / 10, next.positions⟩ :: frames, last)
    else ([], state)

def timeOf (times : List (String × ℚ)) (id : String) : Option ℚ :=
  (times.find? fun time => time.1 = id).map Prod.snd

def finishOf (times : List (String × ℚ)) (position : RacePosition) : Option RaceFinish :=
  (timeOf times position.id).map fun seconds =>
    let rank := 1 + (times.filter fun other => other.2 < seconds - TIE).length
    ⟨position.id, rank, seconds, position.stamina, [5, 3, 2, 1][rank - 1]?⟩

/-- By seconds, and then by id. -/
def finishKey (finish : RaceFinish) : ℚ ×ₗ κ := toLex (finish.seconds, collate finish.id)

/-! ## What is checked -/

def validCourse (course : RaceCourse) : Bool := decide (1 ≤ course.distance ∧ course.distance ≤ 2000)

def validRacers (entrants : List Racer) : Bool :=
  decide ((1 ≤ entrants.length ∧ entrants.length ≤ 4) ∧ (entrants.map Racer.id).Nodup) &&
    entrants.all fun runner => runner.aptitude.all fun aptitude => decide (aptitude ∈ [4, 5, 6])

def hasOwner (entrants : List Racer) : Bool := entrants.any fun runner => runner.id = "owner"

def validCommands (entrants : List Racer) (commands : List RaceCommand) : Bool :=
  decide (commands.length ≤ RACE_CHECKPOINTS.length) &&
    (commands.zipIdx.all fun command => decide (RACE_CHECKPOINTS[command.2]? = some command.1.time)) &&
    (commands.isEmpty || hasOwner entrants)

/-- A time in tenths of a second, up to rounding. -/
def validBurst (entrants : List Racer) (burstAt : Option (Option ℚ)) : Bool :=
  burstAt.all fun burstAt => burstAt.all fun time : ℚ =>
    decide (0 ≤ time ∧ time ≤ 200 ∧ |time * 10 - (⌊time * 10 + 1 / 2⌋ : Int)| ≤ TIE) && hasOwner entrants

/-- The result of the frames that were run and the last state. -/
def raceOf (entrants : List Racer) (frames : List RaceFrame) (last : RaceState) : RaceSimulation :=
  { frames := ⟨0, (startOf entrants).positions⟩ :: frames
    finish := orderBy (finishKey collate) (last.positions.filterMap (finishOf last.times))
    seconds := ((frames.getLast?).map RaceFrame.time).getD 0
    calls := last.calls
    bursts := last.bursts }

def simulateRace (input : RaceInput) : Except TrackError RaceSimulation := do
  throwIf (¬ (validCourse input.course && validRacers input.entrants))
    (.error "Invalid race entrants or course")
  throwIf (¬ validCommands input.entrants input.commands) (.error "Invalid race checkpoint command")
  throwIf (¬ validBurst input.entrants input.burstAt) (.error "Invalid race burst time")
  let (frames, last) := raceLoop collate weather input 2000 0 (startOf input.entrants)
  throwIf (last.times.length ≠ input.entrants.length) (.error "Race simulation exceeded its time bound")
  return raceOf collate input.entrants frames last

end Track

end Mapae.Arcade.Track
