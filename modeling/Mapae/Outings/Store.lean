import Mathlib.Data.String.Basic
import Mapae.Outings.Job

/-!
# The outing store

`OutingStore` keeps the outings, the lease of the worker and the ledger in one database. Every
operation is one statement or one transaction; a transaction that throws changes nothing.

`arcade_guardian_results` has a row for each paid round, `arcade_guardian_ranked` one for each that
was a ranked attempt. `GuardianLedger.insert` checks a result against the ticket it was paid with
before it writes both.

* `insert` starts an outing: it retires what expired, and hands over the outings of earlier owners
* `expireUnsubmitted` is the sweep of expired outings that never signed a payment
* `rankedAttemptsTaken` are the attempts of a day that are settled or still pending
* `result` records a paid round and advances its outing
-/

namespace Mapae.Outings

open Mapae.Infra Mapae.Store Mapae.Guardians Mapae.Ranking

inductive OutingError where
  | invalidPermission
  | conflict
  | notFound
  | busy
  | ownerChanged
  | guardianUnavailable
  | resultUnavailable
  /-- `Error` with a message. -/
  | error (message : String)
  /-- SQLite refused a row. -/
  | constraint (name : String)

/-- `resultId`. -/
def resultId (kit : OutingKit) (job : Job) : Bytes32 :=
  kit.resultHash job.guardian.chainId (toLowerCase job.guardian.collection) job.id (job.spent + 1)

/-- `['stamp','race','shop'].indexOf(game)`. -/
def gameIndex : GameId → Nat
  | .stamp => 0
  | .race => 1
  | .shop => 2

/-- A row of `arcade_guardian_results`. -/
structure ResultRow where
  resultId : Bytes32
  outingId : String
  admission : Nat
  collection : String
  payer : Address
  result : Result
  outcome : OutingResult
  /-- Set once the chain reports the payment claimed. -/
  claimed : Bool

/-- `payment_tx`. -/
def ResultRow.paymentTx (r : ResultRow) : Bytes32 := r.result.paymentTx

/-- `UNIQUE(outing_id, admission)`. -/
def ResultRow.round (r : ResultRow) : String × Nat := (r.outingId, r.admission)

/-- The two tables, with their constraints. -/
structure GuardianLedger where
  results : Table ResultRow.resultId
  ranked : RankedTable
  payment_unique : results.Unique ResultRow.paymentTx
  round_unique : results.Unique ResultRow.round

namespace GuardianLedger

def empty : GuardianLedger := ⟨.empty, .empty, Table.unique_empty, Table.unique_empty⟩

/-- `INSERT INTO arcade_guardian_results`. -/
def insertResult (l : GuardianLedger) (r : ResultRow) : Except OutingError GuardianLedger :=
  if hpayment : l.results.free ResultRow.paymentTx r.paymentTx = true then
    if hround : l.results.free ResultRow.round r.round = true then
      match hinsert : l.results.insert? r with
      | none => .error (.constraint "result_id")
      | some results => .ok
        { l with
          results := results
          payment_unique := l.payment_unique.insert? hinsert hpayment
          round_unique := l.round_unique.insert? hinsert hround }
    else .error (.constraint "outing_id, admission")
  else .error (.constraint "payment_tx")

/-- `INSERT INTO arcade_guardian_ranked`. -/
def insertRanked (l : GuardianLedger) (r : RankedRow) : Except OutingError GuardianLedger :=
  match l.ranked.insert? r with
  | none => .error (.constraint "ranked")
  | some ranked => .ok { l with ranked := ranked }

/-- What `insert` asks of a result. -/
def Consistent (kit : OutingKit) (job : Job) (pending : Pending) (outcome : OutingResult) : Prop :=
  outcome.transaction ∈ pending.transaction ∧ outcome.seed = pending.seed ∧
    outcome.ranked = pending.ranked ∧
    (∀ r ∈ outcome.ranked, outcome.seed =
      kit.rankedSeed outcome.game r.day r.attempt job.guardian.tokenId job.guardian.ruleset) ∧
    outcome.game = pending.game ∧ outcome.id = resultId kit job ∧
    outcome.outcome.game = outcome.game ∧
    (outcome.outcome.replay.map Replay.version) = some job.guardian.ruleset ∧
    (outcome.outcome.replay.map Replay.seed) = some outcome.seed ∧
    outcome.outcome.victory.isSome = true ∧
    0 ≤ outcome.outcome.score ∧ outcome.outcome.score ≤ 1000000000

instance (kit : OutingKit) (job : Job) (pending : Pending) (outcome : OutingResult) :
    Decidable (Consistent kit job pending outcome) := by
  unfold Consistent
  infer_instance

/-- The result that is attested. -/
def resultJson (kit : OutingKit) (job : Job) (pending : Pending) (outcome : OutingResult) : Result where
  resultId := outcome.id
  tokenId := job.guardian.tokenId
  actor := job.owner
  ownershipEpoch := job.guardian.ownershipEpoch
  paymentTx := outcome.transaction
  traitsHash := job.guardian.traitsHash
  inputsHash := kit.inputsHash job.guardian job.profile job.locale pending.game pending.seed job.shopMemory
  ruleset := job.guardian.ruleset
  seed := outcome.seed
  game := gameIndex outcome.game
  score := outcome.outcome.score.toNat
  victory := outcome.outcome.victory.getD false

def resultRow (kit : OutingKit) (job : Job) (pending : Pending) (outcome : OutingResult) :
    ResultRow where
  resultId := outcome.id
  outingId := job.id
  admission := job.spent + 1
  collection := toLowerCase job.guardian.collection
  payer := job.payer
  result := resultJson kit job pending outcome
  outcome := outcome
  claimed := false

/-- A hash as a text. -/
def hashText (hash : Bytes32) : String := String.ofList (decimalDigits hash)

theorem hashText_injective : Function.Injective hashText := by
  intro a b h
  have hdigits : decimalDigits a = decimalDigits b := by
    rw [← String.toList_ofList (l := decimalDigits a), ← String.toList_ofList (l := decimalDigits b)]
    exact congrArg String.toList h
  rw [← decimalValue_decimalDigits a, hdigits, decimalValue_decimalDigits]

def rankedRow (job : Job) (outcome : OutingResult) (r : RankedAttempt) : RankedRow where
  resultId := hashText outcome.id
  collection := toLowerCase job.guardian.collection
  tokenId := job.guardian.tokenId
  seed := job.guardian.seed
  ruleset := job.guardian.ruleset
  game := outcome.game
  day := r.day
  attempt := r.attempt
  score := outcome.outcome.score.toNat
  createdAt := outcome.settledAt

/-- `insert`. -/
def insert (kit : OutingKit) (l : GuardianLedger) (job : Job) (outcome : OutingResult) :
    Except OutingError GuardianLedger :=
  match job.pending with
  | none => .error .resultUnavailable
  | some pending =>
    if Consistent kit job pending outcome then do
      let l ← l.insertResult (resultRow kit job pending outcome)
      match outcome.ranked with
      | none => .ok l
      | some r => l.insertRanked (rankedRow job outcome r)
    else .error .resultUnavailable

end GuardianLedger

namespace Job

/-- The columns that the sweep sets. -/
def expire (now : Int) (job : Job) : Job :=
  { job with
    status := .stopped
    error := some "permission_expired"
    context := "0x"
    pending := none
    updatedAt := now }

/-- What the sweep may retire. -/
def expired (now : Int) (job : Job) : Bool :=
  (job.status = .queued || job.status = .paused) && job.expiresAt ≤ now && job.unsubmitted

/-- `ORDER BY updated_at, id`. -/
def ageKey (job : Job) : Int ×ₗ String := toLex (job.updatedAt, job.id)

/-- An outing of an earlier owner, when the token starts one of a later epoch. Signed payments stay
with their actor. -/
def handOver (now : Int) (job : Job) : Job :=
  if job.unsubmitted then
    { job with
      stopRequested := true
      status := .stopped
      context := "0x"
      pending := none
      error := some "owner_changed"
      updatedAt := now }
  else { job with stopRequested := true, error := some "owner_changed", updatedAt := now }

/-- The collection of the guardian, in lower case. -/
def collection (job : Job) : String := toLowerCase job.guardian.collection

/-- Whether the outing is open and of this token. -/
def isOf (collection : String) (tokenId : Nat) (job : Job) : Bool :=
  job.status.isActive && job.collection = collection && job.guardian.tokenId = tokenId

theorem handOver_id (now : Int) (job : Job) : (job.handOver now).id = job.id := by
  unfold handOver
  split <;> rfl

/-- The outing after a round. -/
def advance (result : OutingResult) (now : Int) (job : Job) : Job :=
  let results := job.results ++ [result]
  let status : OutingStatus :=
    if job.stopRequested then .stopped
    else if results.length ≥ job.admissions then .complete
    else .queued
  { job with
    results := results
    shopMemory := result.outcome.shopMemory.or job.shopMemory
    spent := results.length
    pending := none
    updatedAt := now
    error := none
    status := status
    context := if status.isTerminal then "0x" else job.context }

end Job

structure OutingStore where
  outings : Table Job.id
  /-- The worker and the end of its lease. -/
  lease : Option (String × Int)
  ledger : GuardianLedger

namespace OutingStore

def empty : OutingStore := ⟨.empty, none, .empty⟩

def get (s : OutingStore) (id : String) : Option Job := s.outings.get? id

/-- `UPDATE arcade_outings SET ... WHERE id=?`. -/
def save (s : OutingStore) (job : Job) : OutingStore :=
  { s with outings := s.outings.update job.id (fun r => { job with id := r.id }) fun _ => rfl }

/-- The ids of the sub-select, which is limited. -/
def sweepIds (s : OutingStore) (now : Int) : List String :=
  ((orderBy Job.ageKey (s.outings.rows.filter (Job.expired now))).take 64).map Job.id

def expireUnsubmitted (s : OutingStore) (now : Int) : OutingStore :=
  { s with
    outings := s.outings.updateAll (fun job => if job.id ∈ s.sweepIds now then job.expire now else job)
      fun job => by
        split
        · rfl
        · rfl }

/-- The worker, and whether it has the lease now. -/
def takeLease (s : OutingStore) (worker : String) (now : Int) : Bool × OutingStore :=
  let row := match s.lease with
    | none => (worker, now + 120000)
    | some (holder, until_ms) =>
      if until_ms ≤ now ∨ holder = worker then (worker, now + 120000) else (holder, until_ms)
  (row.1 = worker, { s with lease := some row })

def release (s : OutingStore) (worker : String) : OutingStore :=
  { s with lease := s.lease.filter fun row => row.1 ≠ worker }

def next (s : OutingStore) : Option Job :=
  (orderBy Job.ageKey (s.outings.rows.filter fun job =>
    job.status = .running || job.status = .queued)).head?

/-- The attempts of a game that a guardian has taken on a day. -/
def rankedAttemptsTaken (s : OutingStore) (collection : String) (tokenId : Nat) (day : Int)
    (excludeJobId : String) (game : GameId) : List Nat :=
  let settled := (s.ledger.ranked.rows.filter fun row =>
    row.collection = collection ∧ row.tokenId = tokenId ∧ row.day = day ∧ row.game = game).map
      RankedRow.attempt
  let pending := (s.outings.rows.filter fun job =>
    job.isOf collection tokenId && job.id ≠ excludeJobId).filterMap fun job => do
      let p ← job.pending
      let r ← p.ranked
      if r.day = day ∧ p.game = game then some r.attempt else none
  orderBy id (settled ++ pending).dedup

/-! ## Transactions -/

/-- The new outing. -/
def newJob (kit : OutingKit) (owner : Address) (start : OutingStart) (permission : ValidatedPermission)
    (agent : Address) (now : Int) (guardian : GuardianSnapshot) (name : String)
    (shopMemory : Option ShopMemory) : Job where
  id := start.id
  owner := owner
  payer := permission.payer
  agent := agent
  context := start.permissionContext
  contextHash := permission.contextHash
  fingerprint := kit.fingerprint owner start
  guardian := guardian
  profile :=
    { name := name
      color := (kit.traits guardian.seed).color
      temperament := (kit.traits guardian.seed).temperament
      goal := start.goal
      aptitudes := some (kit.traits guardian.seed).aptitudes }
  locale := start.locale
  choice := start.choice
  admissions := start.admissions
  spent := 0
  status := .queued
  updatedAt := now
  expiresAt := permission.expiresAt
  error := none
  stopRequested := false
  pending := none
  results := []
  shopMemory := shopMemory

/-- `GuardianLedger.memory`: what the token's last round of the shop left. -/
def memory (s : OutingStore) (collection : String) (tokenId : Nat) : Option ShopMemory :=
  ((s.ledger.results.rows.filter fun row =>
    row.collection = collection ∧ row.result.tokenId = tokenId ∧ row.outcome.game = .shop).getLast?).bind
      fun row => row.outcome.outcome.shopMemory

/-- The outings of the token that are open. -/
def tokenJobs (s : OutingStore) (guardian : GuardianSnapshot) : List Job :=
  s.outings.rows.filter (Job.isOf (toLowerCase guardian.collection) guardian.tokenId)

/-- The outings of earlier owners are handed over, one after the other. -/
def handOver (s : OutingStore) (guardian : GuardianSnapshot) (now : Int) : OutingStore :=
  { s with
    outings := s.outings.updateAll (fun job =>
      if job.isOf (toLowerCase guardian.collection) guardian.tokenId then job.handOver now else job)
      fun job => by
        split
        · exact job.handOver_id now
        · rfl }

/-- `INSERT INTO arcade_outings`. -/
def insertJob (s : OutingStore) (job : Job) : Except OutingError (OutingStore × Job) :=
  match s.outings.insert? job with
  | none => .error (.constraint "id")
  | some outings => .ok ({ s with outings := outings }, job)

/-- The part of `insert` for a new id. -/
def insertNew (kit : OutingKit) (s : OutingStore) (owner : Address) (start : OutingStart)
    (permission : ValidatedPermission) (agent : Address) (now : Int) (guardian : GuardianSnapshot) :
    Except OutingError (OutingStore × Job) := do
  throwIf (guardian.owner ≠ owner ∨ guardian.tokenId ≠ start.tokenId) OutingError.ownerChanged
  throwIf (guardian.ruleset ≠ ARCADE_RULESET_VERSION ∨
    guardian.traitsHash ≠ kit.traitsHash guardian.seed) OutingError.guardianUnavailable
  let name ← (guardianName start.tokenId .ko).mapError OutingError.error
  let s := s.expireUnsubmitted now
  -- every row first: an older recovery row must not hide the current epoch's operation
  throwIf (∃ previous ∈ s.tokenJobs guardian,
    guardian.ownershipEpoch < previous.guardian.ownershipEpoch) OutingError.ownerChanged
  throwIf (∃ previous ∈ s.tokenJobs guardian,
    previous.guardian.ownershipEpoch = guardian.ownershipEpoch) OutingError.busy
  let s := s.handOver guardian now
  throwIf ((s.outings.rows.filter fun job =>
      job.owner = owner && job.status.isActive && !job.stopRequested).length ≥ 3 ∨
    (s.outings.rows.filter fun job => job.status.isActive).length ≥ 256) OutingError.busy
  throwIf (∃ job ∈ s.outings.rows, job.contextHash = permission.contextHash) OutingError.conflict
  s.insertJob (newJob kit owner start permission agent now guardian name
    (s.memory (toLowerCase guardian.collection) guardian.tokenId))

/-- `insert`. -/
def insert (kit : OutingKit) (s : OutingStore) (owner : Address) (start : OutingStart)
    (permission : ValidatedPermission) (agent : Address) (now : Int) (guardian : GuardianSnapshot) :
    Except OutingError (OutingStore × Job) :=
  match s.get start.id with
  | some prior =>
    if prior.fingerprint ≠ kit.fingerprint owner start then .error .conflict else .ok (s, prior)
  | none => s.insertNew kit owner start permission agent now guardian

/-- `result`. -/
def result (kit : OutingKit) (s : OutingStore) (jobId : String) (result : OutingResult) (now : Int) :
    Except OutingError OutingStore :=
  match s.get jobId with
  | none => .error (.error "null")
  | some job =>
    match job.results.find? fun r => r.id = result.id with
    | some existing => if existing ≠ result then .error .conflict else .ok s
    | none => do
      let ledger ← s.ledger.insert kit job result
      .ok ({ s with ledger := ledger }.save (job.advance result now))

end OutingStore

end Mapae.Outings
