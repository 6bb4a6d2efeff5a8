import Mapae.Store.Arcade
import Mapae.Web.Outcome

/-!
# The records of the arcade in the browser

Characters, practice runs and activities, as they are kept in the browser's storage. They are
checked as a whole when they are read back: one value that does not fit, and nothing is kept.

* `ArcadeState` is what is kept, and `ArcadeState.json` its JSON, in which an absent property does
  not appear
* `parseArcadeState` is the loader
-/

namespace Mapae.Web

open Mapae.Infra Mapae.Store Mapae.Ranking Mapae.Outings

/-! ## Objects with optional properties -/

/-- An object whose properties may be `undefined`: those are not written. -/
def objectOf (members : List (String × Option Json)) : Json :=
  .object (members.filterMap fun member => member.2.map fun value => (member.1, value))

theorem field_objectOf {members : List (String × Option Json)} (h : (members.map Prod.fst).Nodup)
    (name : String) :
    (objectOf members).field name = (members.find? fun member => member.1 = name).bind Prod.snd := by
  have hfind : ∀ members : List (String × Option Json), (members.map Prod.fst).Nodup →
      ((members.filterMap fun member => member.2.map fun value => (member.1, value)).reverse.find?
        fun member => member.1 = name).map Prod.snd =
        (members.find? fun member => member.1 = name).bind Prod.snd := by
    intro members hnodup
    induction members with
    | nil => rfl
    | cons member rest ih =>
      rw [List.map_cons, List.nodup_cons] at hnodup
      have hrest := ih hnodup.2
      obtain ⟨key, value⟩ := member
      by_cases hkey : key = name
      · subst hkey
        -- the name is not among the members behind
        have hnone : ((rest.filterMap fun member => member.2.map fun value =>
            (member.1, value)).reverse.find? fun member => member.1 = key) = none := by
          rw [List.find?_eq_none]
          intro other hother
          rw [List.mem_reverse, List.mem_filterMap] at hother
          obtain ⟨member, hmember, heq⟩ := hother
          obtain ⟨_, -, rfl⟩ := Option.map_eq_some_iff.mp heq
          intro hkey
          have hkey : member.1 = key := by simpa using hkey
          exact hnodup.1 (List.mem_map.mpr ⟨member, hmember, hkey⟩)
        cases value with
        | none => simp [hnone]
        | some value => simp [List.find?_append, hnone]
      · cases value with
        | none => simpa [List.filterMap_cons, List.find?_cons, hkey] using hrest
        | some value => simpa [List.filterMap_cons, List.find?_append, List.find?_cons, hkey] using hrest
  exact hfind members h

/-! ## Characters -/

inductive Color where
  | red
  | jade
  | ink

def Color.text : Color → String
  | .red => "red"
  | .jade => "jade"
  | .ink => "ink"

inductive Temperament where
  | curious
  | bold
  | calm

def Temperament.text : Temperament → String
  | .curious => "curious"
  | .bold => "bold"
  | .calm => "calm"

def COLORS : List String := ["red", "jade", "ink"]

def TEMPERAMENTS : List String := ["curious", "bold", "calm"]

def MAX_CHARACTERS : Nat := 12

inductive AgentMode where
  | rules
  | llm

def AgentMode.text : AgentMode → String
  | .rules => "rules"
  | .llm => "llm"

inductive AgentGoal where
  | score
  | save
  | explore

def AgentGoal.text : AgentGoal → String
  | .score => "score"
  | .save => "save"
  | .explore => "explore"

structure Agent where
  mode : AgentMode
  goal : AgentGoal
  rounds : Decimal

def Agent.json (agent : Agent) : Json := objectOf
  [("mode", some (.string agent.mode.text)), ("goal", some (.string agent.goal.text)),
    ("rounds", some agent.rounds.json)]

def gameText : GameId → String
  | .stamp => "stamp"
  | .race => "race"
  | .shop => "shop"

/-- A character with its records. The appearance is kept as a value. -/
structure Companion where
  id : String
  name : String
  color : Color
  temperament : Temperament
  appearance : Option Json
  configured : Bool
  agent : Agent
  recordVersion : Option Decimal
  best : Decimal
  bests : GameId → Decimal

def bestsJson (bests : GameId → Decimal) : Json := objectOf
  [("stamp", some (bests .stamp).json), ("race", some (bests .race).json),
    ("shop", some (bests .shop).json)]

namespace Companion

def members (c : Companion) : List (String × Option Json) :=
  [("name", some (.string c.name)), ("color", some (.string c.color.text)),
    ("temperament", some (.string c.temperament.text)), ("appearance", c.appearance),
    ("id", some (.string c.id)), ("configured", some (.bool c.configured)),
    ("agent", some c.agent.json), ("recordVersion", c.recordVersion.map Decimal.json),
    ("best", some c.best.json), ("bests", some (bestsJson c.bests))]

def json (c : Companion) : Json := objectOf c.members

end Companion

/-! ## How a character is checked -/

def ZODIACS : List String :=
  ["rat", "ox", "tiger", "rabbit", "dragon", "snake", "horse", "goat", "monkey", "rooster", "dog", "pig"]

def BACKDROPS : List String := ["dawn", "moon", "jade", "ember"]

def CHARMS : List String := ["mapae", "scroll", "pouch", "none"]

def HATS : List String :=
  ["none", "topknot", "gat", "satgat", "samo", "ikseongwan", "jeonrip", "paeraengi", "headwrap"]

def OUTFITS : List String :=
  ["gonryongpo", "minister", "official", "military", "scholar", "artisan", "hemp", "performer"]

def SHOES : List String := ["jipsin", "namaksin", "taesahye", "heukhwa", "beoseon"]

def validWardrobe (v : Json) : Bool :=
  isRecord v && hasField v "hat" (oneOf HATS) && hasField v "outfit" (oneOf OUTFITS) &&
    hasField v "shoes" (oneOf SHOES)

/-- `/^[a-f0-9]{16}$/`. -/
def isSeed (v : Json) : Bool := v.text.any fun value =>
  decide (value.toList.length = 16) &&
    value.toList.all fun c => c.isDigit || decide ('a' ≤ c ∧ c ≤ 'f')

def validGuardian (v : Json) : Bool :=
  isRecord v && hasField v "version" (fun n => n.int = some 1) && hasField v "seed" isSeed &&
    hasField v "zodiac" (oneOf ZODIACS) && hasField v "backdrop" (oneOf BACKDROPS) &&
    hasField v "charm" (oneOf CHARMS) && optionalField v "wardrobe" validWardrobe

def projectWardrobe (w : Json) : Json := objectOf
  [("hat", w.field "hat"), ("outfit", w.field "outfit"), ("shoes", w.field "shoes")]

def projectGuardian (g : Json) : Json := objectOf
  [("version", some (.number 1 0)), ("seed", g.field "seed"), ("zodiac", g.field "zodiac"),
    ("backdrop", g.field "backdrop"), ("charm", g.field "charm"),
    ("wardrobe", (g.field "wardrobe").map projectWardrobe)]

/-- `/^[a-zA-Z0-9-]{1,64}$/`. -/
def isCompanionId (v : Json) : Bool := v.text.any fun value =>
  decide (1 ≤ value.toList.length ∧ value.toList.length ≤ 64) &&
    value.toList.all fun c => isLetterOrDigit c || c == '-'

/-- Something to see, in at most twelve characters. -/
def isName (v : Json) : Bool := v.text.any fun value =>
  decide (trim value ≠ [] ∧ value.toList.length ≤ 12)

/-- `validAllowance`. -/
def validAllowance (v : Json) : Bool := (v.integer 1 MAX_OUTING_ADMISSIONS).isSome

def isAgent (v : Json) : Bool :=
  isRecord v && hasField v "mode" (oneOf ["rules", "llm"]) &&
    hasField v "goal" (oneOf ["score", "save", "explore"]) && hasField v "rounds" validAllowance

def validCompanion (v : Json) : Bool :=
  isRecord v && hasField v "id" isCompanionId && hasField v "name" isName &&
    hasField v "color" (oneOf COLORS) && hasField v "temperament" (oneOf TEMPERAMENTS) &&
    optionalField v "appearance" validGuardian && hasField v "configured" isBoolean &&
    optionalField v "recordVersion" (fun n => integer n && n.int ≠ some 0) &&
    hasField v "best" integer &&
    hasField v "bests" (fun b => isRecord b && hasField b "stamp" integer && hasField b "race" integer &&
      hasField b "shop" integer) &&
    hasField v "agent" isAgent

/-! ## Practice runs -/

structure RunStats where
  score : Decimal
  bestCombo : Decimal
  hits : Decimal
  mistakes : Decimal
  missed : Decimal

def RunStats.none : RunStats := ⟨.ofInt 0, .ofInt 0, .ofInt 0, .ofInt 0, .ofInt 0⟩

def RunStats.all (stats : RunStats) (check : Json → Bool) : Bool :=
  [stats.score, stats.bestCombo, stats.hits, stats.mistakes, stats.missed].all fun d => check d.json

structure Run where
  id : String
  characterId : String
  name : String
  color : Color
  appearance : Option Json
  /-- `at`. -/
  admittedAt : Int
  stats : RunStats
  replaySeed : Option Decimal
  ruleset : Option Nat
  complete : Bool
  aptitudes : Option Json

namespace Run

def members (run : Run) : List (String × Option Json) :=
  [("id", some (.string run.id)), ("characterId", some (.string run.characterId)),
    ("at", some (.number run.admittedAt 0)), ("name", some (.string run.name)),
    ("color", some (.string run.color.text)), ("appearance", run.appearance),
    ("ruleset", run.ruleset.map fun n : Nat => .number n 0), ("score", some run.stats.score.json),
    ("bestCombo", some run.stats.bestCombo.json), ("hits", some run.stats.hits.json),
    ("mistakes", some run.stats.mistakes.json), ("missed", some run.stats.missed.json),
    ("status", some (.string (if run.complete then "complete" else "unfinished"))),
    ("replaySeed", run.replaySeed.map Decimal.json), ("aptitudes", run.aptitudes)]

def json (run : Run) : Json := objectOf run.members

end Run

/-- The check of a run in the loop of the loader. -/
def validRun (ids : List String) (v : Json) : Bool :=
  isRecord v && hasField v "id" (fun id => id.text.any fun value => decide (value ≠ "")) &&
    hasField v "characterId" (oneOf ids) &&
    hasField v "name" (fun name => name.text.any fun value => decide (value.toList.length ≤ 12)) &&
    optionalField v "appearance" validGuardian && hasField v "color" (oneOf COLORS) &&
    ["at", "score", "bestCombo", "hits", "mistakes", "missed"].all (fun name => hasField v name integer) &&
    optionalField v "ruleset" (fun n => integer n && n.int ≠ some 0) &&
    optionalField v "replaySeed" validReplaySeed &&
    optionalField v "aptitudes" validGuardianAptitudes &&
    hasField v "status" (oneOf ["unfinished", "complete"])

/-! ## Activities -/

structure Giwa where
  balanceAfter : Option String
  allowanceAfter : Option String

/-- Free practice, or an outing that was paid for with a ticket. -/
inductive Origin where
  | practice (replaySeed : Option Decimal)
  | paid (mode : AgentMode) (ticketId : String) (model : Option String) (giwa : Giwa)

inductive ActivityStatus where
  | active
  | complete
  | stopped
  deriving DecidableEq

def ActivityStatus.text : ActivityStatus → String
  | .active => "active"
  | .complete => "complete"
  | .stopped => "stopped"

structure Activity where
  id : String
  characterId : String
  game : GameId
  name : String
  color : Color
  appearance : Option Json
  /-- `at`. -/
  admittedAt : Int
  reason : String
  origin : Origin
  outcome : Option Json
  status : ActivityStatus

def orNull : Option String → Json
  | none => .null
  | some value => .string value

def Giwa.json (giwa : Giwa) : Json := objectOf
  [("balanceAfter", some (orNull giwa.balanceAfter)), ("allowanceAfter", some (orNull giwa.allowanceAfter))]

namespace Origin

def ticketId : Origin → Option String
  | practice _ => none
  | paid _ ticketId _ _ => some ticketId

def model : Origin → Option String
  | practice _ => none
  | paid _ _ model _ => model

def modeText : Origin → String
  | practice _ => "human"
  | paid mode _ _ _ => mode.text

def sourceText : Origin → String
  | practice _ => "practice"
  | paid .. => "mapae-giwa"

def giwaJson : Origin → Json
  | practice _ => .null
  | paid _ _ _ giwa => giwa.json

def replaySeed : Origin → Option Decimal
  | practice replaySeed => replaySeed
  | paid .. => none

def isPaid : Origin → Bool
  | practice _ => false
  | paid .. => true

end Origin

namespace Activity

def members (a : Activity) : List (String × Option Json) :=
  [("id", some (.string a.id)), ("characterId", some (.string a.characterId)),
    ("game", some (.string (gameText a.game))), ("mode", some (.string a.origin.modeText)),
    ("source", some (.string a.origin.sourceText)), ("ticketId", some (orNull a.origin.ticketId)),
    ("model", some (orNull a.origin.model)), ("reason", some (.string a.reason)),
    ("giwa", some a.origin.giwaJson), ("name", some (.string a.name)),
    ("color", some (.string a.color.text)), ("appearance", a.appearance),
    ("at", some (.number a.admittedAt 0)), ("outcome", some (a.outcome.getD .null)),
    ("status", some (.string a.status.text)), ("replaySeed", a.origin.replaySeed.map Decimal.json)]

def json (a : Activity) : Json := objectOf a.members

end Activity

/-- `/^\d{1,78}(\.\d{1,6})?$/`. -/
def isAmount (value : String) : Bool :=
  let whole := value.toList.takeWhile Char.isDigit
  let rest := value.toList.dropWhile Char.isDigit
  decide (1 ≤ whole.length ∧ whole.length ≤ 78) &&
    match rest with
    | [] => true
    | '.' :: digits => decide (1 ≤ digits.length ∧ digits.length ≤ 6) && digits.all Char.isDigit
    | _ => false

/-- `null`, or a text that passes the check. -/
def nullOr (check : Json → Bool) (v : Json) : Bool := v.isNull || check v

/-- The part of the check that depends on the source. -/
def validSource (v : Json) : Bool :=
  if v.textField "source" = some "practice" then
    decide (v.textField "mode" = some "human") && hasField v "ticketId" Json.isNull &&
      hasField v "model" Json.isNull && hasField v "giwa" Json.isNull &&
      optionalField v "replaySeed" validReplaySeed
  else
    decide ((v.field "replaySeed").isNone) && decide (v.textField "source" = some "mapae-giwa") &&
      (v.field "mode").any (fun mode => mode.prints "rules" || mode.prints "llm") &&
      hasField v "ticketId" (fun ticket => ticket.text.any Arcade.isIntent) &&
      hasField v "giwa" fun giwa => isRecord giwa &&
        ["balanceAfter", "allowanceAfter"].all fun name =>
          hasField giwa name (nullOr fun amount => amount.text.any isAmount)

/-- The check of an activity in the loop of `parseActivities`. -/
def validActivity (v : Json) : Bool :=
  isRecord v && hasField v "id" (text 128) && hasField v "id" (fun id => id.text.any (· ≠ "")) &&
    hasField v "characterId" (text 64) && hasField v "characterId" (fun id => id.text.any (· ≠ "")) &&
    hasField v "color" (fun color => COLORS.any color.prints) && hasField v "game" (oneOf GAME_IDS) &&
    optionalField v "appearance" validGuardian && hasField v "name" (text 30) &&
    hasField v "at" integer && hasField v "model" (nullOr (text 100)) && hasField v "reason" (text 1000) &&
    hasField v "status" (fun status =>
      ["active", "complete", "stopped"].any status.prints) &&
    hasField v "outcome" (nullOr fun outcome =>
      isOutcome outcome && decide (outcome.textField "game" = v.textField "game")) &&
    validSource v

/-- `parseActivities(v) !== null`. -/
def parseActivities (v : Json) : Bool := listOf 40 validActivity v

/-! ## The state -/

structure ArcadeState where
  characters : List Companion
  selectedCharacterId : Option String
  runs : List Run
  sound : Bool
  reducedMotion : Bool
  activities : List Activity

def newArcadeState : ArcadeState := ⟨[], none, [], false, false, []⟩

namespace ArcadeState

def members (s : ArcadeState) : List (String × Option Json) :=
  [("characters", some (.array (s.characters.map Companion.json))),
    ("selectedCharacterId", some (orNull s.selectedCharacterId)),
    ("runs", some (.array (s.runs.map Run.json))), ("sound", some (.bool s.sound)),
    ("reducedMotion", some (.bool s.reducedMotion)),
    ("activities", some (.array (s.activities.map Activity.json)))]

/-- What `JSON.parse` makes of what `JSON.stringify` wrote. -/
def json (s : ArcadeState) : Json := objectOf s.members

def ids (s : ArcadeState) : List String := s.characters.map Companion.id

end ArcadeState

/-- The texts under `name` in a list of objects. -/
def idsIn (name : String) : Json → List String
  | .array items => items.filterMap fun item => item.textField name
  | _ => []

/-- Whether the loader keeps a value. -/
def acceptsState (v : Json) : Bool :=
  let ids := (v.field "characters").elim [] (idsIn "id")
  isRecord v && hasField v "characters" (listOf MAX_CHARACTERS validCompanion) && decide ids.Nodup &&
    hasField v "selectedCharacterId" (fun selected =>
      if ids = [] then selected.isNull else oneOf ids selected) &&
    hasField v "sound" isBoolean && hasField v "reducedMotion" isBoolean &&
    hasField v "activities" parseActivities &&
    hasField v "activities" (listOf 40 fun a => hasField a "characterId" (oneOf ids)) &&
    hasField v "runs" (listOf 40 (validRun ids))

/-- `parseArcadeState` of the parsed text: nothing where there is no text, or it is no JSON. -/
def parseArcadeState (raw : Option Json) : Json :=
  match raw with
  | none => newArcadeState.json
  | some v => if acceptsState v then v else newArcadeState.json

/-! ## What the checks say of what is kept -/

theorem oneOf_string {words : List String} {value : String} :
    oneOf words (.string value) = true ↔ value ∈ words := by
  simp [oneOf, Json.text]

theorem Color.mem (color : Color) : color.text ∈ COLORS := by
  cases color <;> decide

theorem Run.field (run : Run) (name : String) :
    run.json.field name = (run.members.find? fun member => member.1 = name).bind Prod.snd :=
  field_objectOf (by simp [Run.members]) name

theorem Companion.field (c : Companion) (name : String) :
    c.json.field name = (c.members.find? fun member => member.1 = name).bind Prod.snd :=
  field_objectOf (by simp [Companion.members]) name

theorem Activity.field (a : Activity) (name : String) :
    a.json.field name = (a.members.find? fun member => member.1 = name).bind Prod.snd :=
  field_objectOf (by simp [Activity.members]) name

theorem ArcadeState.field (s : ArcadeState) (name : String) :
    s.json.field name = (s.members.find? fun member => member.1 = name).bind Prod.snd :=
  field_objectOf (by simp [ArcadeState.members]) name

/-- **A run is accepted** where its ids, its numbers and its parts are. -/
theorem validRun_json {ids : List String} {run : Run} :
    validRun ids run.json = true ↔ run.id ≠ "" ∧ run.characterId ∈ ids ∧
      run.name.toList.length ≤ 12 ∧ run.appearance.all validGuardian = true ∧
      integer (.number run.admittedAt 0) = true ∧ run.stats.all integer = true ∧
      (run.ruleset.all fun n : Nat => integer (.number n 0) &&
        decide ((Json.number n 0).int ≠ some 0)) = true ∧
      (run.replaySeed.all fun seed => validReplaySeed seed.json) = true ∧
      run.aptitudes.all validGuardianAptitudes = true := by
  have hrecord : isRecord run.json = true := rfl
  have hcolor := run.color.mem
  have hstatus : (if run.complete then "complete" else "unfinished") ∈ ["unfinished", "complete"] := by
    split <;> decide
  simp [validRun, hasField, optionalField, Run.field, Run.members, hrecord, oneOf_string, hcolor,
    hstatus, RunStats.all, Json.text, and_assoc, Option.all_map]

/-- **A character is accepted** where its texts, its numbers and its appearance are. -/
theorem validCompanion_json {c : Companion} :
    validCompanion c.json = true ↔ isCompanionId (.string c.id) = true ∧
      isName (.string c.name) = true ∧ c.appearance.all validGuardian = true ∧
      (c.recordVersion.all fun n => integer n.json && decide (n.json.int ≠ some 0)) = true ∧
      integer c.best.json = true ∧ (∀ game, integer (c.bests game).json = true) ∧
      validAllowance c.agent.rounds.json = true := by
  have hrecord : isRecord c.json = true := rfl
  have hcolor := c.color.mem
  have htemperament : c.temperament.text ∈ TEMPERAMENTS := by
    cases c.temperament <;> decide
  have hagent : isAgent c.agent.json = validAllowance c.agent.rounds.json := by
    have hfield : ∀ name, c.agent.json.field name = _ := fun name => field_objectOf (by simp) name
    have hmode : c.agent.mode.text ∈ ["rules", "llm"] := by cases c.agent.mode <;> decide
    have hgoal : c.agent.goal.text ∈ ["score", "save", "explore"] := by
      cases c.agent.goal <;> decide
    have hshape : isRecord c.agent.json = true := rfl
    rw [Bool.eq_iff_iff]
    simp [isAgent, hasField, hfield, hshape, oneOf_string, hmode, hgoal]
  have hbests : (∀ game, integer (c.bests game).json = true) ↔
      integer (c.bests .stamp).json = true ∧ integer (c.bests .race).json = true ∧
        integer (c.bests .shop).json = true := by
    constructor
    · exact fun h => ⟨h .stamp, h .race, h .shop⟩
    · rintro ⟨hstamp, hrace, hshop⟩ (_ | _ | _)
      · exact hstamp
      · exact hrace
      · exact hshop
  have hbook : (isRecord (bestsJson c.bests) && hasField (bestsJson c.bests) "stamp" integer &&
      hasField (bestsJson c.bests) "race" integer && hasField (bestsJson c.bests) "shop" integer) =
        true ↔ ∀ game, integer (c.bests game).json = true := by
    have hfield : ∀ name, (bestsJson c.bests).field name = _ := fun name => field_objectOf (by simp) name
    have hshape : isRecord (bestsJson c.bests) = true := rfl
    rw [hbests]
    simp [hasField, hfield, hshape, and_assoc]
  simp only [Bool.and_eq_true] at hbook
  simp [validCompanion, hasField, optionalField, Companion.field, Companion.members, hrecord, hcolor,
    htemperament, oneOf_string, isBoolean, Option.all_map, hagent]
  simp only [hasField] at hbook
  grind

/-- The part of an activity that depends on its source. -/
def Origin.Fits : Origin → Prop
  | .practice replaySeed => (replaySeed.all fun seed => validReplaySeed seed.json) = true
  | .paid _ ticketId _ giwa => Arcade.isIntent ticketId = true ∧
      giwa.balanceAfter.all isAmount = true ∧ giwa.allowanceAfter.all isAmount = true

@[simp] theorem orNull_some (value : String) : orNull (some value) = .string value := rfl

@[simp] theorem orNull_none : orNull none = .null := rfl

@[simp] theorem nullOr_orNull {check : Json → Bool} {value : Option String} :
    nullOr check (orNull value) = true ↔ (value.all fun text => check (.string text)) = true := by
  cases value <;> simp [nullOr, orNull, Json.isNull]

theorem validSource_json {a : Activity} : validSource a.json = true ↔ a.origin.Fits := by
  cases horigin : a.origin with
  | practice replaySeed =>
    simp [validSource, Json.textField, hasField, optionalField, Activity.field, Activity.members,
      horigin, Origin.modeText, Origin.sourceText, Origin.ticketId, Origin.model, Origin.giwaJson,
      Origin.replaySeed, Origin.Fits, Json.isNull, Json.text, Option.all_map]
  | paid mode ticketId model giwa =>
    have hmode : (Json.string mode.text).prints "rules" = true ∨
        (Json.string mode.text).prints "llm" = true := by
      cases mode <;> simp [AgentMode.text, Json.prints]
    have hfield : ∀ name, giwa.json.field name = _ := fun name => field_objectOf (by simp) name
    have hshape : isRecord giwa.json = true := rfl
    simp [validSource, Json.textField, hasField, Activity.field, Activity.members, horigin,
      Origin.modeText, Origin.sourceText, Origin.ticketId, Origin.giwaJson, Origin.replaySeed,
      Origin.Fits, Json.text, hmode, hfield, hshape]

/-- **An activity is accepted** where its texts, its time, its outcome and its source are. -/
theorem validActivity_json {a : Activity} :
    validActivity a.json = true ↔ (unitLength a.id ≤ 128 ∧ a.id ≠ "") ∧
      (unitLength a.characterId ≤ 64 ∧ a.characterId ≠ "") ∧ a.appearance.all validGuardian = true ∧
      unitLength a.name ≤ 30 ∧ integer (.number a.admittedAt 0) = true ∧
      (a.origin.model.all fun model => decide (unitLength model ≤ 100)) = true ∧
      unitLength a.reason ≤ 1000 ∧
      nullOr (fun outcome => isOutcome outcome &&
        decide (outcome.textField "game" = some (gameText a.game))) (a.outcome.getD .null) = true ∧
      a.origin.Fits := by
  have hrecord : isRecord a.json = true := rfl
  have hcolor : (COLORS.any fun word => (Json.string a.color.text).prints word) = true := by
    cases a.color <;> simp [COLORS, Color.text, Json.prints]
  have hgame : gameText a.game ∈ GAME_IDS := by cases a.game <;> decide
  have hstatus : (Json.string a.status.text).prints "active" = true ∨
      (Json.string a.status.text).prints "complete" = true ∨
        (Json.string a.status.text).prints "stopped" = true := by
    cases a.status <;> simp [ActivityStatus.text, Json.prints]
  have htext : ∀ max value, text max (.string value) = decide (unitLength value ≤ max) := fun _ _ => rfl
  rw [← validSource_json]
  simp only [validActivity, Bool.and_eq_true, hasField, optionalField, Activity.field,
    Activity.members, hrecord]
  simp [hcolor, hgame, hstatus, oneOf_string, Json.text, Json.textField, Activity.field,
    Activity.members, htext, and_assoc]
  intros
  rfl

namespace ArcadeState

/-- What the loader asks of a state. -/
structure Loadable (s : ArcadeState) : Prop where
  count : s.characters.length ≤ MAX_CHARACTERS
  characters : ∀ c ∈ s.characters, validCompanion c.json = true
  nodup : s.ids.Nodup
  selected : s.ids = [] ∧ s.selectedCharacterId = none ∨
    ∃ id ∈ s.ids, s.selectedCharacterId = some id
  kept : s.runs.length ≤ 40 ∧ s.activities.length ≤ 40
  runs : ∀ run ∈ s.runs, validRun s.ids run.json = true
  activities : ∀ a ∈ s.activities, validActivity a.json = true ∧ a.characterId ∈ s.ids

theorem idsIn_characters (s : ArcadeState) :
    idsIn "id" (.array (s.characters.map Companion.json)) = s.ids := by
  have hid : ∀ c : Companion, c.json.textField "id" = some c.id := by
    intro c
    simp [Json.textField, Companion.field, Companion.members, Json.text]
  simp [idsIn, ids, List.filterMap_map, hid, List.filterMap_eq_map']

theorem listOf_map {α : Type} {max : Nat} {check : Json → Bool} {f : α → Json} {items : List α} :
    listOf max check (.array (items.map f)) = true ↔
      items.length ≤ max ∧ ∀ item ∈ items, check (f item) = true := by
  simp [listOf]

/-- **A loadable state is loaded.** -/
theorem parseArcadeState_json {s : ArcadeState} (h : s.Loadable) :
    parseArcadeState (some s.json) = s.json := by
  have hselected : (if s.ids = [] then (orNull s.selectedCharacterId).isNull
      else oneOf s.ids (orNull s.selectedCharacterId)) = true := by
    rcases h.selected with ⟨hnil, hnone⟩ | ⟨id, hmem, hsome⟩
    · rw [if_pos hnil, hnone]
      rfl
    · rw [if_neg (List.ne_nil_of_mem hmem), hsome]
      exact oneOf_string.mpr hmem
  have hcharacter : ∀ a ∈ s.activities, hasField a.json "characterId" (oneOf s.ids) = true := by
    intro a ha
    have hid := (h.activities a ha).2
    simp [hasField, Activity.field, Activity.members, oneOf_string, hid]
  have hrecord : isRecord s.json = true := rfl
  have hids : (s.json.field "characters").elim [] (idsIn "id") = s.ids := by
    rw [← s.idsIn_characters]
    simp [ArcadeState.field, ArcadeState.members]
  have haccepted : acceptsState s.json = true := by
    simp only [acceptsState, hids, Bool.and_eq_true, decide_eq_true_eq]
    refine ⟨⟨⟨⟨⟨⟨⟨⟨hrecord, ?_⟩, h.nodup⟩, ?_⟩, ?_⟩, ?_⟩, ?_⟩, ?_⟩, ?_⟩
    · simpa [hasField, ArcadeState.field, ArcadeState.members] using
        listOf_map.mpr ⟨h.count, h.characters⟩
    · simpa [hasField, ArcadeState.field, ArcadeState.members] using hselected
    · simp [hasField, ArcadeState.field, ArcadeState.members, isBoolean]
    · simp [hasField, ArcadeState.field, ArcadeState.members, isBoolean]
    · simpa [hasField, ArcadeState.field, ArcadeState.members, parseActivities] using
        listOf_map.mpr ⟨h.kept.2, fun a ha => (h.activities a ha).1⟩
    · simpa [hasField, ArcadeState.field, ArcadeState.members] using
        listOf_map.mpr ⟨h.kept.2, hcharacter⟩
    · simpa [hasField, ArcadeState.field, ArcadeState.members] using
        listOf_map.mpr ⟨h.kept.1, h.runs⟩
  rw [parseArcadeState]
  exact if_pos haccepted

end ArcadeState

end Mapae.Web
