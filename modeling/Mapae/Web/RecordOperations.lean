import Mapae.Infra.Transition
import Mapae.Web.Records

/-!
# What the arcade does to its records

Each operation checks what it is given and leaves the state alone where it refuses. Practice runs
and activities are kept up to forty, the newest first.

* `RecordOperation` is a call with its arguments, `ArcadeState.perform` what it does
* `Loadable.mapCharacter`, `Loadable.withRuns` and `Loadable.withActivities`: what a change must
  keep for the loader
-/

namespace Mapae.Web

open Mapae.Infra Mapae.Store Mapae.Ranking Mapae.Outings

abbrev Uuid := Store.Arcade.Uuid

/-! ## Characters -/

/-- `Partial<Pick<Companion, ...>>`; the appearance may be taken away. -/
structure CompanionPatch where
  name : Option String
  color : Option Color
  temperament : Option Temperament
  appearance : Option (Option Json)
  agent : Option Agent
  configured : Option Bool

/-- `{...c, ...patch}`. -/
def Companion.patch (c : Companion) (patch : CompanionPatch) : Companion :=
  { c with
    name := patch.name.getD c.name
    color := patch.color.getD c.color
    temperament := patch.temperament.getD c.temperament
    appearance := patch.appearance.getD c.appearance
    agent := patch.agent.getD c.agent
    configured := patch.configured.getD c.configured }

/-- A new score ruleset starts a new record book. -/
def currentRecords (c : Companion) : Companion :=
  if c.recordVersion.any fun version => decide (version.json.int = some (ARCADE_RULESET_VERSION : Int)) then c
  else { c with
    recordVersion := some (.ofInt ARCADE_RULESET_VERSION), best := .ofInt 0, bests := fun _ => .ofInt 0 }

/-! ## Calls -/

/-- What is given of a paid outing. -/
structure PaidTicket where
  id : Uuid
  characterId : String
  game : GameId
  mode : AgentMode
  ticketId : String
  model : Option String
  reason : String
  giwa : Giwa

/-- An activity of a character, just begun. -/
def begun (id : String) (character : Companion) (game : GameId) (admittedAt : Int) (reason : String)
    (origin : Origin) : Activity :=
  ⟨id, character.id, game, character.name, character.color, character.appearance.map projectGuardian,
    admittedAt, reason, origin, none, .active⟩

/-- Whether an outcome was played under the ruleset of today. -/
def isCurrent (outcome : Json) : Bool :=
  (outcome.field "replay").any fun replay =>
    hasField replay "version" fun version => decide (version.int = some (ARCADE_RULESET_VERSION : Int))

/-- The score of an outcome. -/
def scoreOf (outcome : Json) : Decimal := ((outcome.field "score").bind Decimal.ofJson).getD (.ofInt 0)

/-- The best of a game is raised. -/
def Companion.raise (game : GameId) (score : Decimal) (c : Companion) : Companion :=
  { currentRecords c with
    bests := fun g => if g = game then ((currentRecords c).bests g).max score
      else (currentRecords c).bests g }

namespace ArcadeState

/-! ## Choosing a character -/

def selectedCharacter (s : ArcadeState) : Option Companion :=
  s.characters.find? fun c => some c.id = s.selectedCharacterId

def selectCharacter (s : ArcadeState) (id : String) : ArcadeState :=
  if s.characters.any fun c => c.id = id then { s with selectedCharacterId := some id } else s

/-- The character with an id is changed. -/
def mapCharacter (s : ArcadeState) (id : String) (f : Companion → Companion) : ArcadeState :=
  { s with characters := s.characters.map fun c => if c.id = id then f c else c }

def updateCharacter (s : ArcadeState) (id : String) (patch : CompanionPatch) : ArcadeState :=
  match s.characters.find? fun c => c.id = id with
  | none => s
  | some member =>
    if validCompanion (member.patch patch).json then s.mapCharacter id (Companion.patch · patch) else s

def addCharacter (s : ArcadeState) (member : Companion) : ArcadeState :=
  if s.characters.length ≥ MAX_CHARACTERS ∨ validCompanion member.json = false ∨
      s.characters.any (fun c => c.id = member.id) then s
  else { s with
    characters := s.characters ++ [member]
    selectedCharacterId := some member.id }

/-! ## Practice runs -/

/-- `admitPracticeRun`: the state as it was where it throws or refuses. -/
def admitPracticeRun (s : ArcadeState) (id : String) (admittedAt : Int) (replaySeed : Option Decimal)
    (aptitudes : Option Json) : ArcadeState :=
  if (replaySeed.all fun seed => validReplaySeed seed.json) = false then s
  else if aptitudes.all validGuardianAptitudes = false then s
  else if s.runs.any fun run => run.id = id then s
  else match s.selectedCharacter with
    | none => s
    | some character =>
      let ticket : Run := ⟨id, character.id, character.name, character.color,
        character.appearance.map projectGuardian, admittedAt, .none, replaySeed,
        some ARCADE_RULESET_VERSION, false, aptitudes⟩
      { s with runs := (ticket :: s.runs).take 40 }

def finishPracticeRun (s : ArcadeState) (id : String) (result : RunStats) : ArcadeState :=
  match s.runs.find? fun run => run.id = id with
  | none => s
  | some ticket =>
    if ticket.complete then s
    else if result.all integer = false then s
    else
      let finished := { s with
        runs := s.runs.map fun run =>
          if run.id = id then { run with stats := result, complete := true } else run }
      if ticket.ruleset = some ARCADE_RULESET_VERSION then
        finished.mapCharacter ticket.characterId fun c =>
          { currentRecords c with best := (currentRecords c).best.max result.score }
      else finished

/-! ## Activities -/

def admitActivity (s : ArcadeState) (a : PaidTicket) (admittedAt : Int) : ArcadeState :=
  if s.activities.any fun p => p.id = a.id.text ∨
      (a.ticketId ≠ "" ∧ p.origin.ticketId = some a.ticketId) then s
  else if Store.Arcade.isIntent a.ticketId = false then s
  else match s.characters.find? fun c => c.id = a.characterId with
    | none => s
    | some character =>
      let activity := begun a.id.text character a.game admittedAt a.reason
        (.paid a.mode a.ticketId a.model a.giwa)
      if parseActivities (.array [activity.json]) then
        { s with activities := (activity :: s.activities).take 40 }
      else s

def admitHumanActivity (s : ArcadeState) (id : String) (characterId : String) (game : GameId)
    (admittedAt : Int) (replaySeed : Option Decimal) : ArcadeState :=
  match s.characters.find? fun c => c.id = characterId with
  | none => s
  | some member =>
    if s.activities.any fun a => a.id = id then s
    else
      let activity := begun id member game admittedAt "" (.practice replaySeed)
      if parseActivities (.array [activity.json]) then
        { s with activities := (activity :: s.activities).take 40 }
      else s

def completeActivity (s : ArcadeState) (id : String) (outcome : Option Json) : ArcadeState :=
  match s.activities.find? fun a => a.id = id with
  | none => s
  | some a =>
    if a.status ≠ .active ∨
        outcome.any (fun o => !isOutcome o || decide (o.textField "game" ≠ some (gameText a.game))) then s
    else
      let completed := { s with
        activities := s.activities.map fun a =>
          if a.id = id then
            { a with outcome, status := if outcome.isSome then .complete else .stopped }
          else a }
      match outcome with
      | none => completed
      | some o =>
        if isCurrent o ∧ a.origin.isPaid then
          completed.mapCharacter a.characterId (Companion.raise a.game (scoreOf o))
        else completed

end ArcadeState

/-- A call with its arguments. -/
inductive RecordOperation where
  | addCharacter (member : Companion)
  | selectCharacter (id : String)
  | updateCharacter (id : String) (patch : CompanionPatch)
  | admitPracticeRun (id : Uuid) (admittedAt : Int) (replaySeed : Option Decimal)
      (aptitudes : Option Json)
  | finishPracticeRun (id : String) (result : RunStats)
  | admitActivity (a : PaidTicket) (admittedAt : Int)
  | completeActivity (id : String) (outcome : Option Json)
  | admitHumanActivity (id : Uuid) (characterId : String) (game : GameId) (admittedAt : Int)
      (replaySeed : Option Decimal)

def ArcadeState.perform (s : ArcadeState) : RecordOperation → ArcadeState
  | .addCharacter member => s.addCharacter member
  | .selectCharacter id => s.selectCharacter id
  | .updateCharacter id patch => s.updateCharacter id patch
  | .admitPracticeRun id admittedAt replaySeed aptitudes =>
    s.admitPracticeRun id.text admittedAt replaySeed aptitudes
  | .finishPracticeRun id result => s.finishPracticeRun id result
  | .admitActivity a admittedAt => s.admitActivity a admittedAt
  | .completeActivity id outcome => s.completeActivity id outcome
  | .admitHumanActivity id characterId game admittedAt replaySeed =>
    s.admitHumanActivity id.text characterId game admittedAt replaySeed

/-! ## Numbers -/

theorem Decimal.value_of_int {d : Decimal} {n : Int} (h : d.json.int = some n) : d.value = n := by
  have hscaled := Json.int_eq_some.mp h
  have hcast : (d.mantissa : ℚ) * 10 ^ d.exponent.toNat = n * 10 ^ (-d.exponent).toNat := by
    exact_mod_cast hscaled
  unfold Decimal.value
  rcases le_total 0 d.exponent with hpos | hneg
  · obtain ⟨k, hk⟩ := Int.eq_ofNat_of_zero_le hpos
    rw [hk] at hcast ⊢
    simpa using hcast
  · obtain ⟨k, hk⟩ := Int.eq_ofNat_of_zero_le (Int.neg_nonneg_of_nonpos hneg)
    have hexponent : d.exponent = -(k : Int) := by omega
    rw [hexponent] at hcast ⊢
    simp only [Int.toNat_neg_natCast, pow_zero, mul_one, neg_neg, Int.toNat_natCast] at hcast
    rw [hcast, mul_assoc, zpow_neg, zpow_natCast, mul_inv_cancel₀ (by positivity), mul_one]

theorem integer_iff {v : Json} : integer v = true ↔ ∃ n, v.int = some n ∧ 0 ≤ n ∧ n ≤ maxSafeInteger := by
  unfold integer
  rw [Option.any_eq_true]
  simp only [isSafeInteger, Bool.and_eq_true, decide_eq_true_eq]
  constructor
  · rintro ⟨n, hn, ⟨-, hle⟩, hpos⟩
    exact ⟨n, hn, hpos, hle⟩
  · rintro ⟨n, hn, hpos, hle⟩
    have hmax : 0 ≤ maxSafeInteger := by decide
    exact ⟨n, hn, ⟨by omega, hle⟩, hpos⟩

/-- The larger of two numbers is kept as an integer. -/
theorem integer_max {best score : Decimal} (hbest : integer best.json = true)
    (hscore : best.value < score.value → integer score.json = true) :
    integer (best.max score).json = true := by
  unfold Decimal.max
  split
  · next hlt => exact hscore hlt
  · exact hbest

/-- An accepted score above a best is kept where it is an integer. -/
theorem integer_score {best score : Decimal} (hbest : integer best.json = true)
    (hscore : score.json.int.isSome = true) (hbound : |score.value| ≤ 10 ^ 9)
    (hlt : best.value < score.value) : integer score.json = true := by
  obtain ⟨b, hb, hpos, -⟩ := integer_iff.mp hbest
  obtain ⟨n, hn⟩ := Option.isSome_iff_exists.mp hscore
  rw [Decimal.value_of_int hb, Decimal.value_of_int hn] at hlt
  rw [Decimal.value_of_int hn, abs_le] at hbound
  have hlow : b < n := by exact_mod_cast hlt
  have hhigh : n ≤ 10 ^ 9 := by exact_mod_cast hbound.2
  have hmax : (10 : Int) ^ 9 ≤ maxSafeInteger := by decide
  exact integer_iff.mpr ⟨n, hn, by omega, by omega⟩

theorem Decimal.le_max (a b : Decimal) : a.value ≤ (a.max b).value := by
  unfold Decimal.max
  split
  · next h => exact h.le
  · exact le_rfl

/-! ## What a change must keep -/

theorem validWardrobe_project {w : Json} (h : validWardrobe w = true) :
    validWardrobe (projectWardrobe w) = true := by
  have hfield : ∀ name, (projectWardrobe w).field name = _ := fun name => field_objectOf (by simp) name
  have hshape : isRecord (projectWardrobe w) = true := rfl
  simp only [validWardrobe, hasField, Bool.and_eq_true] at h
  simp [validWardrobe, hasField, hfield, hshape, h]

/-- What is projected of an appearance is one. -/
theorem validGuardian_project {g : Json} (h : validGuardian g = true) :
    validGuardian (projectGuardian g) = true := by
  have hfield : ∀ name, (projectGuardian g).field name = _ := fun name => field_objectOf (by simp) name
  have hshape : isRecord (projectGuardian g) = true := rfl
  simp only [validGuardian, hasField, optionalField, Bool.and_eq_true] at h
  have hwardrobe : ((g.field "wardrobe").map projectWardrobe).all validWardrobe = true := by
    cases hw : g.field "wardrobe" with
    | none => rfl
    | some w =>
      have hvalid := h.2
      rw [hw] at hvalid
      exact validWardrobe_project hvalid
  have hversion : (Json.number 1 0).int = some 1 := rfl
  simp [validGuardian, hasField, optionalField, hfield, hshape, h, hversion]
  simpa using hwardrobe

theorem all_project {appearance : Option Json} (h : appearance.all validGuardian = true) :
    (appearance.map projectGuardian).all validGuardian = true := by
  cases appearance with
  | none => rfl
  | some g => exact validGuardian_project h

theorem integer_zero : integer (Decimal.ofInt 0).json = true := rfl

/-- A new record book is as good as the old one. -/
theorem validCompanion_currentRecords {c : Companion} (h : validCompanion c.json = true) :
    validCompanion (currentRecords c).json = true := by
  unfold currentRecords
  split
  · exact h
  · rw [validCompanion_json] at h ⊢
    exact ⟨h.1, h.2.1, h.2.2.1, rfl, integer_zero, fun _ => integer_zero, h.2.2.2.2.2.2⟩

theorem currentRecords_id (c : Companion) : (currentRecords c).id = c.id := by
  unfold currentRecords
  split <;> rfl

namespace ArcadeState.Loadable

variable {s : ArcadeState}

theorem mapCharacter (h : s.Loadable) {id : String} {f : Companion → Companion}
    (hid : ∀ c, (f c).id = c.id)
    (hvalid : ∀ c ∈ s.characters, c.id = id → validCompanion (f c).json = true) :
    (s.mapCharacter id f).Loadable := by
  have hids : (s.mapCharacter id f).ids = s.ids := by
    simp only [ArcadeState.mapCharacter, ids, List.map_map]
    refine List.map_congr_left fun c _ => ?_
    show (if c.id = id then f c else c).id = c.id
    split
    · exact hid c
    · rfl
  refine ⟨by simpa [ArcadeState.mapCharacter] using h.count, ?_, hids ▸ h.nodup, hids ▸ h.selected,
    h.kept, hids ▸ h.runs, hids ▸ h.activities⟩
  intro c hc
  obtain ⟨c', hc', rfl⟩ := List.mem_map.mp hc
  split
  · next heq => exact hvalid c' hc' heq
  · exact h.characters c' hc'

theorem withRuns (h : s.Loadable) {runs : List Run} (hlength : runs.length ≤ 40)
    (hruns : ∀ run ∈ runs, validRun s.ids run.json = true) : { s with runs }.Loadable :=
  ⟨h.count, h.characters, h.nodup, h.selected, ⟨hlength, h.kept.2⟩, hruns, h.activities⟩

theorem withActivities (h : s.Loadable) {activities : List Activity} (hlength : activities.length ≤ 40)
    (hactivities : ∀ a ∈ activities, validActivity a.json = true ∧ a.characterId ∈ s.ids) :
    { s with activities }.Loadable :=
  ⟨h.count, h.characters, h.nodup, h.selected, ⟨h.kept.1, hlength⟩, h.runs, hactivities⟩

end ArcadeState.Loadable

end Mapae.Web
