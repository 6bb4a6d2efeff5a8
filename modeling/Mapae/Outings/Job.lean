import Mapae.Guardians.Names
import Mapae.Guardians.Storage
import Mapae.Ranking.Board

/-!
# Outings

An outing is a job of the seller: it buys a number of tickets for one guardian, one after the other,
and plays a round for each. A job is `queued` until the worker takes it, `running` while a ticket is
paid and played, `paused` where the owner has to look, and `complete` or `stopped` at its end.

Addresses and hashes are the numbers that their hex texts denote.

* `Job` is the row of `arcade_outings`, `Pending` the ticket that is being bought
* `OutingKit` names what comes from elsewhere: the hashes, the games and the settlement of a payment
-/

namespace Mapae.Outings

open Mapae.Infra Mapae.Store Mapae.Guardians Mapae.Ranking

def ARCADE_RULESET_VERSION : Nat := 3
def MAX_OUTING_ADMISSIONS : Nat := 36

inductive OutingStatus where
  | queued
  | running
  | paused
  | stopped
  | complete
  deriving DecidableEq

namespace OutingStatus

/-- `state IN ('queued','running','paused')`. -/
def isActive : OutingStatus → Bool
  | queued | running | paused => true
  | stopped | complete => false

/-- The states that end an outing. -/
def isTerminal (s : OutingStatus) : Bool := !s.isActive

end OutingStatus

/-! ## Guardians and rounds -/

structure GuardianSnapshot where
  chainId : Nat
  collection : String
  tokenId : Nat
  owner : Address
  ownershipEpoch : Nat
  seed : Bytes32
  traitsHash : Bytes32
  ruleset : Nat
  deriving DecidableEq

structure GuardianAptitudes where
  stamp : Nat
  race : Nat
  shop : Nat
  deriving DecidableEq

/-- What an outing uses of the birth traits. -/
structure GuardianTraits where
  color : String
  temperament : String
  aptitudes : GuardianAptitudes

inductive AgentGoal where
  | score
  | save
  | explore
  deriving DecidableEq

structure AgentProfile where
  name : String
  color : String
  temperament : String
  goal : AgentGoal
  aptitudes : Option GuardianAptitudes
  deriving DecidableEq

structure ShopMemory where
  npc : String
  visits : Nat
  service : String
  value : Int
  deriving DecidableEq

structure Replay where
  seed : Nat
  version : Nat
  deriving DecidableEq

/-- What a round came to. `texts` stands for the fields that are only shown. -/
structure ActivityOutcome where
  game : GameId
  score : Int
  victory : Option Bool
  replay : Option Replay
  shopMemory : Option ShopMemory
  texts : String
  deriving DecidableEq

/-- A ranked attempt of a Korean day. -/
structure RankedAttempt where
  day : Int
  attempt : Nat
  deriving DecidableEq

structure OutingResult where
  id : Bytes32
  game : GameId
  seed : Nat
  settledAt : Int
  transaction : Bytes32
  outcome : ActivityOutcome
  ranked : Option RankedAttempt
  deriving DecidableEq

/-- Nothing for `auto`. -/
abbrev GameChoice := Option GameId

def GuardianAptitudes.game (a : GuardianAptitudes) : GameId → Nat
  | .stamp => a.stamp
  | .race => a.race
  | .shop => a.shop

/-- `chooseOutingGame`. -/
def chooseOutingGame (profile : AgentProfile) (choice : GameChoice) (visited : List GameId) : GameId :=
  match choice with
  | some game => game
  | none =>
    match profile.goal with
    | .score =>
      match profile.aptitudes with
      | some a => [GameId.stamp, .race, .shop].foldl
          (fun best game => if a.game game > a.game best then game else best) .stamp
      | none => .race
    | .save => .shop
    | .explore => ([GameId.race, .shop, .stamp].find? fun game => game ∉ visited).getD .race

/-! ## Jobs -/

/-- The ticket that is being bought. `ranked` is fixed when it is drawn. -/
structure Pending where
  game : GameId
  seed : Nat
  header : Option String
  transaction : Option Bytes32
  ranked : Option RankedAttempt
  deriving DecidableEq

structure Job where
  id : String
  owner : Address
  payer : Address
  agent : Address
  context : String
  contextHash : Bytes32
  fingerprint : String
  guardian : GuardianSnapshot
  profile : AgentProfile
  locale : Guardians.Locale
  choice : GameChoice
  admissions : Nat
  spent : Nat
  status : OutingStatus
  updatedAt : Int
  expiresAt : Int
  error : Option String
  stopRequested : Bool
  pending : Option Pending
  results : List OutingResult
  shopMemory : Option ShopMemory
  deriving DecidableEq

/-- `pending?.header` and `pending?.transaction` are both missing: nothing was signed. -/
def Job.unsubmitted (job : Job) : Bool :=
  job.pending.all fun p => p.header.isNone && p.transaction.isNone

/-- `pending?.transaction`. -/
def Job.transaction (job : Job) : Option Bytes32 := job.pending.bind Pending.transaction

/-- `pending?.header`. -/
def Job.header (job : Job) : Option String := job.pending.bind Pending.header

/-- The body of a request, which `parseStart` has checked. -/
structure OutingStart where
  id : String
  tokenId : Nat
  goal : AgentGoal
  locale : Guardians.Locale
  choice : GameChoice
  admissions : Nat
  permissionContext : String
  admissions_pos : 0 < admissions
  admissions_le : admissions ≤ MAX_OUTING_ADMISSIONS

structure ValidatedPermission where
  payer : Address
  expiresAt : Int
  contextHash : Bytes32

/-! ## What comes from elsewhere -/

structure OutingKit where
  /-- `keccak256` of the JSON of the chain, the collection, the outing and the admission. -/
  resultHash : Nat → String → String → Nat → Bytes32
  /-- `keccak256` of the JSON of a round's inputs. -/
  inputsHash : GuardianSnapshot → AgentProfile → Guardians.Locale → GameId → Nat → Option ShopMemory →
    Bytes32
  /-- `guardianTraitsHash`. -/
  traitsHash : Bytes32 → Bytes32
  /-- `guardianTraits`. -/
  traits : Bytes32 → GuardianTraits
  /-- `rankedSeed` of a game, a day, an attempt, a token and a ruleset. -/
  rankedSeed : GameId → Int → Nat → Nat → Nat → Nat
  /-- `fingerprint`. -/
  fingerprint : Address → OutingStart → String
  /-- `runArcadeSimulation`; nothing where it throws. -/
  simulate : GameId → Nat → AgentProfile → Guardians.Locale → Option ShopMemory →
    Option ActivityOutcome
  /-- The bytes of the JSON of an outcome. -/
  byteLength : ActivityOutcome → Nat
  /-- The transaction that settles a signed payment. -/
  settlement : String → Bytes32

/-- An outcome that a round of the game with the seed can come to. -/
structure Plausible (game : GameId) (seed : Nat) (o : ActivityOutcome) : Prop where
  game : o.game = game
  replay : o.replay = some ⟨seed, ARCADE_RULESET_VERSION⟩
  victory : o.victory.isSome = true
  score_nonneg : 0 ≤ o.score
  score_le : o.score ≤ 1000000000

/-- What the runs rely on: the hashes do not collide, different payments settle in different
transactions, and the games end with an outcome of theirs. -/
structure OutingKit.Honest (kit : OutingKit) : Prop where
  resultHash_inj : ∀ {c c' s s' i i' n n'}, kit.resultHash c s i n = kit.resultHash c' s' i' n' →
    i = i' ∧ n = n'
  settlement_inj : Function.Injective kit.settlement
  outcome : ∀ {game seed profile locale memory o},
    kit.simulate game seed profile locale memory = some o → Plausible game seed o

end Mapae.Outings
