import Mapae.Arcade.ShopViews

/-!
# The race

A season has three races. The motor that moves the horses is floating-point code: its arrival times
are a parameter, and everything that is derived from them is not.

* `createRaceSeason` and `applyRaceRound` are the season
* `raceObservation` is what the owner's agent sees, `chooseRaceAction` is the bot
* `parseRaceAction` reads an answer
-/

namespace Mapae.Arcade

open Mapae.Infra Mapae.Guardians

/-! ## Words -/

inductive RaceStrategy where
  | burst
  | conserve
  | surge
  deriving DecidableEq

def RaceStrategy.text : RaceStrategy → String
  | .burst => "burst"
  | .conserve => "conserve"
  | .surge => "surge"

def RACE_STRATEGIES : List RaceStrategy := [.burst, .conserve, .surge]

/-- The English texts of `RACE_HABITS`. -/
def RACE_HABITS : RaceStrategy → String
  | .burst => "Takes the outside at either fork when close behind. Raises the pace when challenged outside."
  | .conserve =>
    "Follows to save energy, then goes outside at the second fork if a horse ahead is tired."
  | .surge =>
    "Follows at the first fork, then goes outside at the second if a horse is ahead. Raises the pace when challenged outside."

inductive Weather where
  | clear
  | rain
  | wind
  deriving DecidableEq

def Weather.text : Weather → String
  | .clear => "clear"
  | .rain => "rain"
  | .wind => "wind"

inductive CourseLength where
  | short
  | long
  deriving DecidableEq

def CourseLength.text : CourseLength → String
  | .short => "short"
  | .long => "long"

/-- `RACE_ROUNDS` is 3. -/
abbrev RaceIndex := Fin 3

def RACE_ROUNDS : Nat := 3
def SEASON_TOKENS : Nat := 3
def RACE_ENTRY_COST : Nat := 1
def RACE_CHECKPOINTS : List Nat := [12, 24]
def RACE_BURST_COST : Nat := 20
def RACE_BURST_SECONDS : Nat := 4

structure RaceAction where
  enter : Bool
  strategy : RaceStrategy

def parseRaceAction (value : Json) : Option RaceAction :=
  if value.onlyKeys ["enter", "strategy"] then
    match boolField value "enter", (value.textField "strategy").bind fun text =>
        RACE_STRATEGIES.find? fun strategy => strategy.text = text with
    | some enter, some strategy => some ⟨enter, strategy⟩
    | _, _ => none
  else none

def RaceAction.json (action : RaceAction) : Json :=
  .object [("enter", .bool action.enter), ("strategy", .string action.strategy.text)]

/-! ## Courses -/

structure RaceCourse where
  round : RaceIndex
  seed : Int
  weather : Weather
  course : CourseLength
  distance : Nat

inductive RaceError where
  | invalidAptitudes
  | invalidSeedOrRound
  | invalidEntrants
  | seasonFinished
  | invalidAction
  | tokenLimit
  /-- The motor refuses the commands or runs out of time. -/
  | motor

/-- `hash`. -/
def raceHash (seed : Int) : BitVec 32 :=
  let value := BitVec.ofInt 32 seed
  let value := (value ^^^ (value >>> 16)) * 0x7feb352d#32
  let value := (value ^^^ (value >>> 15)) * 0x846ca68b#32
  value ^^^ (value >>> 16)

def makeRaceCourse (seed : Int) (round : Nat) : Except RaceError RaceCourse :=
  if h : Store.isSafeInteger seed = true ∧ round < RACE_ROUNDS then
    let value := (raceHash (Binary64.ofInt (seed + round * 2654435761))).toNat
    let course := if value / 2 ^ 4 % 2 = 0 then CourseLength.short else .long
    .ok
      { round := ⟨round, h.2⟩
        seed := seed
        weather := [Weather.clear, .rain, .wind].getD (value % 3) .clear
        course := course
        distance := if course = .short then 850 else 1250 }
  else .error .invalidSeedOrRound

/-! ## Seasons -/

structure Racer where
  id : String
  name : String
  strategy : RaceStrategy
  aptitude : Option Nat

structure SeasonRunner extends Racer where
  tokens : Nat
  points : Nat
  entries : Nat
  wins : Nat

structure RaceFinish where
  id : String
  rank : Nat
  seconds : ℚ
  points : Nat

structure RaceSeason where
  seed : Int
  round : Nat
  runners : List SeasonRunner
  /-- The finishes of the races so far. -/
  rounds : List (List RaceFinish)
  rivalId : String

/-- The arrival times of the entrants, by their ids, unless the motor refuses. The commands of the
owner and the moment of the burst only matter to the motor. -/
def RaceMotor (Commands : Type) := RaceCourse → List Racer → Commands → Option (String → ℚ)

def raceLabels : Guardians.Locale → RaceStrategy → String
  | .ko, .burst => "번개"
  | .ko, .conserve => "느긋"
  | .ko, .surge => "막판"
  | .en, .burst => "Flash"
  | .en, .conserve => "Steady"
  | .en, .surge => "Closer"

/-- A runner at the start of the season. -/
def Racer.enter (racer : Racer) : SeasonRunner :=
  { racer with tokens := SEASON_TOKENS, points := 0, entries := 0, wins := 0 }

def createRaceSeason (seed : Int) (name : String) (locale : Guardians.Locale)
    (aptitudes : Option GuardianAptitudes) : Except RaceError RaceSeason := do
  throwIf (aptitudes.any fun aptitudes => ¬ validGuardianAptitudes aptitudes) .invalidAptitudes
  let _ ← makeRaceCourse seed 0
  let owner : Racer := ⟨"owner", name, .conserve, aptitudes.map (·.race)⟩
  let rivals := RACE_STRATEGIES.map fun strategy =>
    (⟨strategy.text, raceLabels locale strategy, strategy, none⟩ : Racer)
  return {
    seed := seed
    round := 0
    runners := (owner :: rivals).map Racer.enter
    rounds := []
    rivalId := (RACE_STRATEGIES.getD ((raceHash seed).toNat % 3) .burst).text }

/-- The place of a time among all times; times that are almost equal share one. -/
def raceRank (times : List ℚ) (seconds : ℚ) : Nat :=
  1 + (times.filter fun other => other < seconds - 1 / 10 ^ 7).length

/-- How a racer finishes. There are no points beyond the fourth place. -/
def finishOf (times : List ℚ) (id : String) (seconds : ℚ) : Option RaceFinish :=
  let rank := raceRank times seconds
  [5, 3, 2, 1][rank - 1]?.map fun points => ⟨id, rank, seconds, points⟩

/-- What `simulateRace` makes of the arrivals. -/
def raceFinish (entrants : List Racer) (arrival : String → ℚ) : Option (List RaceFinish) :=
  let times := entrants.map fun racer => arrival racer.id
  (entrants.mapM fun racer => finishOf times racer.id (arrival racer.id)).map fun finish =>
    finish.mergeSort fun a b => a.seconds < b.seconds ∨ (a.seconds = b.seconds ∧ a.id ≤ b.id)

def validEntrants (entrants : List Racer) : Bool :=
  1 ≤ entrants.length ∧ entrants.length ≤ 4 ∧ (entrants.map Racer.id).Nodup ∧
    entrants.all fun racer => racer.aptitude.all fun aptitude => aptitude ∈ [4, 5, 6]

section Rounds

variable {Commands : Type} (motor : RaceMotor Commands)

def simulateRace (course : RaceCourse) (entrants : List Racer) (commands : Commands) :
    Except RaceError (List RaceFinish) := do
  throwIf (¬ validEntrants entrants) .invalidEntrants
  match (motor course entrants commands).bind (raceFinish entrants) with
  | some finish => return finish
  | none => throw .motor

/-- The runners after a race. -/
def SeasonRunner.after (runner : SeasonRunner) (action : RaceAction) (finish : List RaceFinish) :
    SeasonRunner :=
  match finish.find? fun result => result.id = runner.id with
  | some result =>
    { runner with
      strategy := if runner.id = "owner" then action.strategy else runner.strategy
      tokens := runner.tokens - RACE_ENTRY_COST
      points := runner.points + result.points
      entries := runner.entries + 1
      wins := runner.wins + if result.rank = 1 then 1 else 0 }
  | none => runner

/-- Who runs: everyone with a token, and the owner if it enters. -/
def RaceSeason.entrants (season : RaceSeason) (action : RaceAction) : List Racer :=
  (season.runners.filter fun runner => 1 ≤ runner.tokens ∧ (runner.id ≠ "owner" ∨ action.enter)).map
    fun runner => { runner.toRacer with
      strategy := if runner.id = "owner" then action.strategy else runner.strategy }

def RaceSeason.owner (season : RaceSeason) : Option SeasonRunner :=
  season.runners.find? fun runner => runner.id = "owner"

def applyRaceRound (season : RaceSeason) (input : Json) (commands : Commands) :
    Except RaceError RaceSeason :=
  match parseRaceAction input with
  | none => .error .invalidAction
  | some action => do
    throwIf (RACE_ROUNDS ≤ season.round) .seasonFinished
    throwIf (action.enter ∧ season.owner.any fun owner => owner.tokens < RACE_ENTRY_COST) .tokenLimit
    let course ← makeRaceCourse season.seed season.round
    let finish ← simulateRace motor course (season.entrants action) commands
    return { season with
      round := season.round + 1
      runners := season.runners.map fun runner => runner.after action finish
      rounds := season.rounds ++ [finish] }

/-- One race, if it is run. -/
def RaceSeason.play (season : RaceSeason) (move : Json × Commands) : RaceSeason :=
  match applyRaceRound motor season move.1 move.2 with
  | .ok season' => season'
  | .error _ => season

end Rounds

/-! ## What the agent sees and does -/

def goalText : Outings.AgentGoal → String
  | .score => "score"
  | .save => "save"
  | .explore => "explore"

def trafficRules : String :=
  "Two paths. Following an inner-path horse within 22m reduces stamina drain by 40%, but cannot pass it. No nearby horse means no draft. Outer path is 6% slower for the longer route and no blocking or draft. Paths remain until the next fork or finish; terrain effects last 8 seconds. All decisions use the same tick's public positions."

def raceRules : String :=
  "Choose enter and strategy (burst, conserve, surge). 3 races; everyone starts with 3 game-only entry tokens. All 3 entries are already included. Enter each race for points; watching scores 0. Unused entries expire and have no reward. Places earn 5/3/2/1 season points; tied times earn equal points. All horses start with 100 stamina. Base speed is 19m/s; an NFT guardian has a public aptitude of 4, 5 or 6, adjusting base speed by -2%, 0% or +2%. Opponents and trial couriers have aptitude 5. Burst is fast early but tires; conserve saves stamina; surge attacks late. Rain drains stamina; long courses reward endurance. These tokens have no cash value and cannot change the owner's allowance. One decision before each race; the engine runs movement. Your chosen strategy also drives a deterministic motor at two forks (12 and 24 simulation seconds): it chooses legal pace/path using public terrain, current stamina and opponent positions. Habits: burst takes an outside pass when close behind; conserve follows then passes tired leaders at the second fork; surge waits until the second fork to pass. Burst and surge can raise pace when challenged outside. The same motor drives the opponents. Everyone may use one burst: 1.7x speed for 4 simulation seconds, costing 20 stamina immediately, only when at least 20 remains. Burst strategy triggers it at 22% distance; conserve at 78%; surge at 65%. Motors wait until clear of an inner horse before using a burst, rather than wasting it while blocked. No forced comeback. Aptitude is fixed and public."

def natJson (n : Nat) : Json := .number n 0

/-- The fields of `raceObservation`. -/
def raceView (season : RaceSeason) (goal : Outings.AgentGoal) (course : RaceCourse)
    (owner rival : SeasonRunner) : Json := .object
  [("round", natJson (season.round + 1)), ("weather", .string course.weather.text),
    ("course", .string course.course.text), ("distance", natJson course.distance),
    ("seasonTokens", natJson owner.tokens), ("entryCost", natJson RACE_ENTRY_COST),
    ("seasonPoints", natJson owner.points), ("remainingRounds", natJson (RACE_ROUNDS - season.round)),
    ("ownerGoal", .string (goalText goal)), ("aptitude", natJson (owner.aptitude.getD 5)),
    ("rival", .string rival.name), ("rivalHabit", .string (RACE_HABITS rival.strategy)),
    ("trafficRules", .string trafficRules), ("checkpoints", .array (RACE_CHECKPOINTS.map natJson)),
    ("burstStaminaCost", natJson RACE_BURST_COST), ("burstSeconds", natJson RACE_BURST_SECONDS),
    ("standings", .array (season.runners.map fun runner => .object
      [("name", .string runner.name), ("points", natJson runner.points),
        ("entries", natJson runner.entries)])),
    ("previousFinishes", .array (season.rounds.map fun finish => orNull
      ((finish.find? fun result => result.id = "owner").map fun result => natJson result.rank))),
    ("rules", .string raceRules)]

def raceObservation (season : RaceSeason) (goal : Outings.AgentGoal) : Except RaceError Json := do
  throwIf (RACE_ROUNDS ≤ season.round) .seasonFinished
  let course ← makeRaceCourse season.seed season.round
  match season.owner, season.runners.find? fun runner => runner.id = season.rivalId with
  | some owner, some rival => return raceView season goal course owner rival
  | _, _ => throw .invalidEntrants

def chooseRaceAction (goal : Outings.AgentGoal) (course : RaceCourse) (tokens : Nat) : RaceAction :=
  if tokens < RACE_ENTRY_COST then ⟨false, .conserve⟩
  else
    { enter := true
      strategy :=
        if goal = .explore then RACE_STRATEGIES.get course.round
        else if goal = .save ∨ (course.course = .long ∧ course.weather = .rain) then .conserve
        else if course.course = .short ∧ course.weather = .clear then .burst else .surge }

/-! ## One grammar -/

/-- What an answer to a race says. -/
structure Enters (a : Json) (action : RaceAction) : Prop where
  keys : a.onlyKeys ["enter", "strategy"] = true
  enter : boolField a "enter" = some action.enter
  strategy : a.textField "strategy" = some action.strategy.text

theorem find_strategy {text : String} {strategy : RaceStrategy} :
    (RACE_STRATEGIES.find? fun strategy => strategy.text = text) = some strategy ↔
      text = strategy.text := by
  constructor
  · intro h
    have hfound := List.find?_some h
    simpa [eq_comm] using hfound
  · rintro rfl
    cases strategy <;> rfl

/-- **What the race takes.** -/
theorem parseRaceAction_iff {a : Json} {action : RaceAction} :
    parseRaceAction a = some action ↔ Enters a action := by
  unfold parseRaceAction
  constructor
  · intro h
    split at h
    · next hkeys =>
      split at h
      · next enter strategy henter hstrategy =>
        cases h
        obtain ⟨text, htext, hfind⟩ := Option.bind_eq_some_iff.mp hstrategy
        exact ⟨hkeys, henter, find_strategy.mp hfind ▸ htext⟩
      · cases h
    · cases h
  · rintro ⟨hkeys, henter, hstrategy⟩
    rw [if_pos hkeys, henter, hstrategy]
    dsimp only [Option.bind]
    rw [find_strategy.mpr rfl]

/-- **What the model service takes for a race.** -/
theorem validAction_race_iff {a : Json} : validAction .race a = true ↔ ∃ action, Enters a action := by
  unfold validAction
  rw [decide_eq_true_eq]
  constructor
  · rintro ⟨hkeys, henter, hstrategy⟩
    obtain ⟨enter, henter⟩ := Option.isSome_iff_exists.mp henter
    obtain ⟨text, htext, hword⟩ := (Option.any_eq_true _ _).mp hstrategy
    have hall : ∀ text ∈ ["burst", "conserve", "surge"], ∃ strategy : RaceStrategy, text = strategy.text := by
      simp only [List.forall_mem_cons]
      exact ⟨⟨.burst, rfl⟩, ⟨.conserve, rfl⟩, ⟨.surge, rfl⟩, List.forall_mem_nil _⟩
    obtain ⟨strategy, rfl⟩ := hall text (of_decide_eq_true hword)
    exact ⟨⟨enter, strategy⟩, hkeys, henter, htext⟩
  · rintro ⟨action, hkeys, henter, hstrategy⟩
    refine ⟨hkeys, Option.isSome_iff_exists.mpr ⟨_, henter⟩, ?_⟩
    rw [oneOf, hstrategy]
    cases action.strategy <;> decide

theorem enters_json (action : RaceAction) : Enters action.json action := by
  constructor <;> simp [RaceAction.json, Json.onlyKeys, boolField, Json.textField, Json.field, Json.text]

/-! ## Places -/

/-! ## Seasons that are played -/

def raceIds : List String := "owner" :: RACE_STRATEGIES.map RaceStrategy.text

/-- What holds in every season: four runners with names of at most `n` units. -/
structure RaceSeason.Sound (n : Nat) (season : RaceSeason) : Prop where
  seed : Store.isSafeInteger season.seed = true
  rounds : season.rounds.length = season.round ∧ season.round ≤ RACE_ROUNDS
  ids : season.runners.map (fun runner => runner.id) = raceIds
  names : ∀ runner ∈ season.runners, unitLength runner.name ≤ n
  rival : season.rivalId ∈ raceIds

theorem makeRaceCourse_eq_ok {seed : Int} {round : Nat} {course : RaceCourse}
    (h : makeRaceCourse seed round = .ok course) :
    Store.isSafeInteger seed = true ∧ round < RACE_ROUNDS := by
  unfold makeRaceCourse at h
  split at h
  · next hvalid => exact hvalid
  · cases h

theorem sound_createRaceSeason {seed : Int} {name : String} {locale : Guardians.Locale}
    {aptitudes : Option GuardianAptitudes} {season : RaceSeason} {n : Nat}
    (hname : unitLength name ≤ n) (hn : 20 ≤ n)
    (h : createRaceSeason seed name locale aptitudes = .ok season) : season.Sound n := by
  simp only [createRaceSeason, bind_eq_ok, throwIf_eq_ok, pure_eq_ok] at h
  obtain ⟨-, -, course, hcourse, rfl⟩ := h
  obtain ⟨hseed, -⟩ := makeRaceCourse_eq_ok hcourse
  have hlabels : ∀ strategy, unitLength (raceLabels locale strategy) ≤ 20 := by
    intro strategy
    cases locale <;> cases strategy <;> decide
  refine ⟨hseed, ⟨rfl, Nat.zero_le _⟩, rfl, fun runner hrunner => ?_, ?_⟩
  · obtain ⟨racer, hracer, rfl⟩ := List.mem_map.mp hrunner
    rcases List.mem_cons.mp hracer with rfl | hracer
    · exact hname
    · obtain ⟨strategy, -, rfl⟩ := List.mem_map.mp hracer
      exact (hlabels strategy).trans hn
  · have hall : ∀ k, (RACE_STRATEGIES.getD k .burst).text ∈ raceIds := by
      intro k
      cases RACE_STRATEGIES.getD k .burst <;> decide
    exact hall _

/-- A race changes neither the ids nor the names. -/
theorem runner_after (runner : SeasonRunner) (action : RaceAction) (finish : List RaceFinish) :
    (runner.after action finish).id = runner.id ∧ (runner.after action finish).name = runner.name := by
  unfold SeasonRunner.after
  split
  · exact ⟨rfl, rfl⟩
  · exact ⟨rfl, rfl⟩

theorem RaceSeason.Sound.applyRaceRound {Commands : Type} {motor : RaceMotor Commands} {n : Nat}
    {season season' : RaceSeason} {input : Json} {commands : Commands} (h : season.Sound n)
    (hs' : Arcade.applyRaceRound motor season input commands = .ok season') : season'.Sound n := by
  unfold Arcade.applyRaceRound at hs'
  split at hs'
  · cases hs'
  · next action _ =>
    simp only [bind_eq_ok, throwIf_eq_ok, pure_eq_ok] at hs'
    obtain ⟨-, hround, -, -, course, -, finish, -, rfl⟩ := hs'
    refine ⟨h.seed, ⟨?_, Nat.lt_of_not_le hround⟩, ?_, fun runner hrunner => ?_, h.rival⟩
    · rw [List.length_append, List.length_singleton, h.rounds.1]
    · rw [List.map_map, ← h.ids]
      exact List.map_congr_left fun runner _ => (runner_after runner action finish).1
    · obtain ⟨before, hbefore, rfl⟩ := List.mem_map.mp hrunner
      rw [(runner_after before action finish).2]
      exact h.names before hbefore

theorem RaceSeason.Sound.play {Commands : Type} {motor : RaceMotor Commands} {n : Nat}
    {season : RaceSeason} (h : season.Sound n) (move : Json × Commands) :
    (season.play motor move).Sound n := by
  unfold RaceSeason.play
  split
  · next season' hs' => exact h.applyRaceRound hs'
  · exact h

/-- A runner is found by its id. -/
theorem RaceSeason.Sound.find {n : Nat} {season : RaceSeason} (h : season.Sound n) {id : String}
    (hid : id ∈ raceIds) : ∃ runner ∈ season.runners,
      (season.runners.find? fun runner => runner.id = id) = some runner := by
  rw [← h.ids] at hid
  obtain ⟨runner, hrunner, rfl⟩ := List.mem_map.mp hid
  cases hfind : season.runners.find? fun other => other.id = runner.id with
  | none => exact absurd (decide_eq_true rfl) (List.find?_eq_none.mp hfind runner hrunner)
  | some found => exact ⟨found, List.mem_of_find?_eq_some hfind, rfl⟩

set_option maxRecDepth 4000 in
theorem clear_habits (strategy : RaceStrategy) : Clear 200 (RACE_HABITS strategy) := by
  cases strategy <;> exact clear_ofList (by decide +kernel)

set_option maxRecDepth 4000 in
theorem clear_trafficRules : Clear 400 trafficRules := clear_ofList (by decide +kernel)

set_option maxRecDepth 20000 in
theorem clear_raceRules : Clear 2000 raceRules := clear_ofList (by decide +kernel)

theorem bounded_raceView {n : Nat} {season : RaceSeason} (h : season.Sound n) (hn : n ≤ 4000)
    (goal : Outings.AgentGoal) (course : RaceCourse) (owner : SeasonRunner) {rival : SeasonRunner}
    (hrival : rival ∈ season.runners) : jsonBounded 0 (raceView season goal course owner rival) = true := by
  have hlength : season.runners.length = 4 := by
    have := congrArg List.length h.ids
    rwa [List.length_map] at this
  refine bounded_object (by decide) (by simp) (by simp) ?_
  simp only [List.forall_mem_cons]
  refine ⟨bounded_number (by decide) _ _, bounded_text (n := 10) (by decide) ?_ (by decide),
    bounded_text (n := 10) (by decide) ?_ (by decide), bounded_number (by decide) _ _,
    bounded_number (by decide) _ _, bounded_number (by decide) _ _, bounded_number (by decide) _ _,
    bounded_number (by decide) _ _, bounded_text (n := 10) (by decide) ?_ (by decide),
    bounded_number (by decide) _ _, bounded_text (by decide) (h.names rival hrival) hn,
    bounded_text (n := 200) (by decide) ?_ (by decide),
    bounded_text (by decide) clear_trafficRules.length (by decide),
    by simp [natJson, jsonBounded, allBounded, RACE_CHECKPOINTS],
    bounded_number (by decide) _ _, bounded_number (by decide) _ _, ?standings, ?previous,
    bounded_text (by decide) clear_raceRules.length (by decide), List.forall_mem_nil _⟩
  · cases course.weather <;> decide
  · cases course.course <;> decide
  · cases goal <;> decide
  · exact (clear_habits rival.strategy).length
  case standings =>
    refine bounded_array (by decide) (by omega) fun runner hrunner => ?_
    refine bounded_object (by decide) (by simp) (by simp) ?_
    simp only [List.forall_mem_cons]
    exact ⟨bounded_text (by decide) (h.names runner hrunner) hn, bounded_number (by decide) _ _,
      bounded_number (by decide) _ _, List.forall_mem_nil _⟩
  case previous =>
    have hrounds : season.rounds.length ≤ 3 := h.rounds.1 ▸ h.rounds.2
    refine bounded_array (by decide) (by omega) fun finish _ => ?_
    exact bounded_orNull (by decide) fun result _ => bounded_number (by decide) _ _

/-- **What the agent of a race sees is small.** -/
theorem bounded_raceObservation {n : Nat} {season : RaceSeason} (h : season.Sound n) (hn : n ≤ 4000)
    (goal : Outings.AgentGoal) (hround : season.round < RACE_ROUNDS) :
    ∃ view, raceObservation season goal = .ok view ∧ jsonBounded 0 view = true := by
  have hcourse : ∃ course, makeRaceCourse season.seed season.round = .ok course := by
    unfold makeRaceCourse
    rw [dif_pos ⟨h.seed, hround⟩]
    exact ⟨_, rfl⟩
  obtain ⟨course, hcourse⟩ := hcourse
  obtain ⟨owner, -, howner⟩ := h.find (by decide : "owner" ∈ raceIds)
  obtain ⟨rival, hrival, hfound⟩ := h.find h.rival
  refine ⟨raceView season goal course owner rival, ?_, bounded_raceView h hn goal course owner hrival⟩
  simp only [raceObservation, bind_eq_ok, throwIf_eq_ok]
  refine ⟨⟨⟩, not_le.mpr hround, course, hcourse, ?_⟩
  rw [RaceSeason.owner, howner, hfound]
  rfl

end Mapae.Arcade
