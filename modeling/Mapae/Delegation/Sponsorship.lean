import Mapae.Delegation.Limiter
import Mapae.Delegation.RevocationRelayer
import Mapae.Facilitator.Recovery
import Mapae.Properties.SpendBudget
import Mapae.Shared.NetworkBuckets

/-!
# The sponsored submitter

A sponsor deposits what the EntryPoint will take for a revocation, and a relayer carries the operation. Requests
run at the same time. Between two awaits the code runs without interruption, so a step is one such stretch.

* `submitSponsored` says what a submission does with the answer that it awaited
* `Submitter` is the state of the process: the limiter, the budget, the senders in flight, the flights of
  operations, and the submissions
* `Submitter.respond` is what can happen next, in any order
-/

namespace Mapae.Delegation

open Mapae.Infra Mapae.Store Mapae.Facilitator Calendar

/-! ## Refusals -/

inductive RevokeRefusal where
  | invalidSubmission
  | rateLimited
  | alreadyRevoked
  | invalidAccountSignature
  | staleNonce
  | senderBusy
  | budgetExhausted
  | sponsorUnfunded
  | prefundShort
  | baseFeeUnreadable
  | feeBelowBasefee
  | relayerUnfunded

/-- A refusal that the owner can act on. -/
structure SubmissionRefused where
  reason : RevokeRefusal
  detail : List (String × String)
  httpStatus : Nat

/-- Why a submitter declines before it spends anything. -/
inductive RevocationSubmissionRefusal where
  | prefundShort (deposit requiredPrefund shortfall : Nat)
  | baseFeeUnreadable (maxFeePerGas : Nat)
  | feeBelowBasefee (maxFeePerGas baseFeePerGas : Nat)
  | relayerUnfunded (relayerBalance needed : Nat)

/-- Whether a submission can be carried. A base fee that could not be read is not a base fee of zero. -/
def judgeSubmissionReadiness (deposit requiredPrefund : Nat) (baseFeePerGas : Option Nat)
    (maxFeePerGas relayerBalance : Nat) : Except RevocationSubmissionRefusal Unit :=
  if deposit < requiredPrefund then
    .error (.prefundShort deposit requiredPrefund (requiredPrefund - deposit))
  else
    match baseFeePerGas with
    | none => .error (.baseFeeUnreadable maxFeePerGas)
    | some baseFee =>
      if maxFeePerGas < baseFee then .error (.feeBelowBasefee maxFeePerGas baseFee)
      else if relayerBalance < requiredPrefund then .error (.relayerUnfunded relayerBalance requiredPrefund)
      else .ok ()

def RevocationSubmissionRefusal.reason : RevocationSubmissionRefusal → RevokeRefusal
  | prefundShort .. => .prefundShort
  | baseFeeUnreadable _ => .baseFeeUnreadable
  | feeBelowBasefee .. => .feeBelowBasefee
  | relayerUnfunded .. => .relayerUnfunded

def refusalDetail : RevocationSubmissionRefusal → List (String × String)
  | .prefundShort deposit requiredPrefund shortfall =>
    [("deposit", decimalText deposit), ("requiredPrefund", decimalText requiredPrefund),
      ("shortfall", decimalText shortfall)]
  | .baseFeeUnreadable maxFeePerGas => [("maxFeePerGas", decimalText maxFeePerGas)]
  | .feeBelowBasefee maxFeePerGas baseFeePerGas =>
    [("maxFeePerGas", decimalText maxFeePerGas), ("baseFeePerGas", decimalText baseFeePerGas)]
  | .relayerUnfunded relayerBalance needed =>
    [("relayerBalance", decimalText relayerBalance), ("needed", decimalText needed)]

/-! ## A submission -/

/-- The three reads that are awaited together. -/
structure ChainReads where
  deposit : Nat
  baseFeePerGas : Option Nat
  relayerBalance : Nat
  deriving DecidableEq

/-- The receipt of the sponsor's deposit. -/
structure DepositReceipt where
  success : Bool
  gasUsed : Nat
  effectiveGasPrice : Nat
  l1Fee : FeeField
  deriving DecidableEq

/-- What a mined transaction cost, or the fallback where its L1 fee cannot be read. -/
def costOfReceipt (receipt : DepositReceipt) (fallback : Int) : Int :=
  match readReceiptFeeField receipt.l1Fee with
  | none => fallback
  | some l1Fee => receipt.gasUsed * receipt.effectiveGasPrice + l1Fee

/-- The receipt of `handleOps`, with `success` of each `UserOperationEvent`. -/
structure CarriedReceipt where
  success : Bool
  events : List Bool
  deriving DecidableEq

/-- What an await answers. -/
inductive Answer where
  | revoked (disabled : Bool)
  | nonce (current : Nat)
  | reads (reads : ChainReads)
  | signature (valid : Bool)
  | balance (wei : Nat)
  | sent (hash : String)
  | mined (receipt : DepositReceipt)
  | simulated
  | written (hash : String)
  | carried (receipt : CarriedReceipt)
  /-- The await threw. -/
  | threw
  deriving DecidableEq

inductive RevokeResult where
  | revoked (transaction delegationHash : String)
  | refused (refusal : SubmissionRefused)
  /-- `submission_failed`. -/
  | failed

/-- What a submission awaits. -/
inductive Phase where
  | registered
  | revoked
  | nonce
  | reads
  | signature (reads : ChainReads)
  /-- The token was taken at the instant. -/
  | balance (reads : ChainReads) (now : Instant)
  | sending (reads : ChainReads) (hold : Nat)
  | mining (reads : ChainReads) (hold : Nat)
  | simulating
  | writing
  | carrying (hash : String)
  /-- The result is there, and the sender is still in flight. -/
  | leaving (result : RevokeResult)
  | done (result : RevokeResult)

/-- What a stretch does before its next await. -/
inductive Act where
  | go (phase : Phase)
  /-- `limiter.tryConsume`, for the sender. -/
  | consume (reads : ChainReads)
  /-- `budget.reserve`, at the instant of the token. -/
  | reserve (reads : ChainReads) (now : Instant)
  /-- `budget.settle`. A deposit that was not sent or reverted is not at the EntryPoint. -/
  | settle (hold : Nat) (charged : Int) (returned : Bool) (phase : Phase)

section Submission

variable {D : Type} (config : SponsorConfig) (submission : ValidatedRevocationSubmission D)

/-- What the deposit at the EntryPoint is short of. -/
def prefundShortfall (reads : ChainReads) : Nat :=
  if submission.requiredPrefund ≤ reads.deposit then 0 else submission.requiredPrefund - reads.deposit

def gasReservation : Nat := config.depositGas * config.maxFeePerGas

def reservation (reads : ChainReads) : Nat := prefundShortfall submission reads + gasReservation config

def refuse (reason : RevokeRefusal) (detail : List (String × String)) (httpStatus : Nat) : Phase :=
  .leaving (.refused ⟨reason, detail, httpStatus⟩)

/-- What `carry` reads out of its receipt. A receipt that succeeded is no proof that the operation did. -/
def carriedResult (hash : String) (receipt : CarriedReceipt) : RevokeResult :=
  if receipt.success then
    match receipt.events with
    | true :: _ => .revoked hash submission.delegationHash
    | _ => .failed
  else .failed

def submitSponsored : Phase → Answer → Option Act
  | .revoked, .revoked true =>
    some (.go (refuse .alreadyRevoked [("delegationHash", submission.delegationHash)] 409))
  | .revoked, .revoked false => some (.go .nonce)
  | .nonce, .nonce currentNonce =>
    some (.go (if submission.packed.nonce ≠ currentNonce then refuse .staleNonce [] 409 else .reads))
  | .reads, .reads reads =>
    -- The conditions that do not depend on the deposit, judged as if it were made.
    match judgeSubmissionReadiness submission.requiredPrefund submission.requiredPrefund reads.baseFeePerGas
        submission.gas.maxFeePerGas reads.relayerBalance with
    | .error refusal => some (.go (refuse refusal.reason (refusalDetail refusal) 409))
    | .ok () =>
      some (.go (if 0 < prefundShortfall submission reads then .signature reads else .simulating))
  | .signature _, .signature false =>
    some (.go (refuse .invalidAccountSignature [("sender", submission.sender)] 403))
  | .signature reads, .signature true => some (.consume reads)
  | .balance reads now, .balance sponsorBalance =>
    if sponsorBalance < config.minBalance + reservation config submission reads then
      some (.go (refuse .sponsorUnfunded [] 503))
    else some (.reserve reads now)
  | .sending _ hold, .threw => some (.settle hold 0 true (.leaving .failed))
  | .sending reads hold, .sent _ => some (.go (.mining reads hold))
  | .mining reads hold, .threw =>
    -- The node has it, so that it may still be mined.
    some (.settle hold (reservation config submission reads) false (.leaving .failed))
  | .mining reads hold, .mined receipt =>
    let cost := costOfReceipt receipt (gasReservation config)
    if receipt.success then some (.settle hold (prefundShortfall submission reads + cost) false .simulating)
    else some (.settle hold cost true (.leaving .failed))
  | .simulating, .simulated => some (.go .writing)
  | .writing, .written hash => some (.go (.carrying hash))
  | .carrying hash, .carried receipt => some (.go (.leaving (carriedResult submission hash receipt)))
  | .revoked, .threw | .nonce, .threw | .reads, .threw | .signature _, .threw | .balance _ _, .threw
  | .simulating, .threw | .writing, .threw | .carrying _, .threw => some (.go (.leaving .failed))
  | _, _ => none

end Submission

/-! ## The process -/

structure RevocationTask (D : Type) where
  submission : ValidatedRevocationSubmission D
  phase : Phase
  /-- The answers so far. -/
  heard : List Answer

/-- A deposit that the budget had room for. -/
structure Deposit (D : Type) where
  task : Nat
  submission : ValidatedRevocationSubmission D
  reads : ChainReads
  heard : List Answer
  /-- It was not sent, or it reverted. -/
  returned : Bool

structure SubmitterSetting (D : Type) where
  viem : Viem
  kit : RevocationKit D
  policy : RevocationSubmissionPolicy
  config : SponsorConfig
  submissionKey : PackedUserOperation → String

/-- The state of the process, with what the theorems read of its past: the deposits, by their holds. -/
structure Submitter (D : Type) where
  limiter : FixedWindowLimiter
  books : BudgetRun
  inFlightSenders : List String
  /-- The flights of `PaymentIntentSingleFlight`. -/
  flights : String → Option Nat
  tasks : Nat → Option (RevocationTask D)
  next : Nat
  /-- The requests whose body is still read. -/
  bodies : Nat
  clock : Instant
  deposits : Nat → Option (Deposit D)

inductive SubmitterEvent where
  | tick (now : Instant)
  /-- A request, with its `cf-connecting-ip`. -/
  | request (requester : Option String)
  /-- What `readJson` made of a body; none where it threw. -/
  | body (input : Option Json)
  | start (task : Nat)
  | answer (task : Nat) (answer : Answer)
  | leave (task : Nat)
  | deliver (task : Nat)
  | health
  | restart (now : Instant)

inductive SubmitterReply where
  | quiet
  | refused (refusal : SubmissionRefused)
  | joined (task : Nat)
  | answered (result : RevokeResult)
  | health (budgetRemainingWei spentTodayWei : Int) (rateLimiterKeys : Nat)

def WINDOW_MS : Int := 3600000

def senderKey (sender : String) : String := "sender:" ++ sender

def requestKey (requester : Option String) : String :=
  "ip:" ++ match requester with
    | none => "loopback"
    | some address => String.ofList (Shared.ipBucket address.toList)

namespace Submitter

variable {D : Type} (setting : SubmitterSetting D) (s : Submitter D)

/-- A process that starts over the books. -/
def fresh (books : BudgetRun) (deposits : Nat → Option (Deposit D)) (next : Nat) (clock : Instant)
    (limiter : FixedWindowLimiter) : Submitter D where
  limiter
  books
  inFlightSenders := []
  flights := fun _ => none
  tasks := fun _ => none
  next
  bodies := 0
  clock
  deposits

/-- The first process, over an empty store. -/
def boot (now : Instant) : Except String (Submitter D) := do
  let limiter ← FixedWindowLimiter.create setting.config.ratePerHour WINDOW_MS
  let budget ← SpendBudget.create setting.config.dailyBudget now (some fun _ => 0)
  pure (fresh (.start budget) (fun _ => none) 0 now limiter)

def sweep : Submitter D :=
  { s with limiter := s.limiter.sweep s.clock.ms }

def tryConsume (key : String) : Bool × Submitter D :=
  let (admitted, limiter) := s.limiter.tryConsume key s.clock.ms
  (admitted, { s with limiter })

def setTask (id : Nat) (task : RevocationTask D) : Submitter D :=
  { s with tasks := Function.update s.tasks id (some task) }

/-- `budget.reserve`, and the deposit that the hold is for. -/
def reserve (id : Nat) (task : RevocationTask D) (reads : ChainReads) (now : Instant) : Option Nat × Submitter D :=
  let amount : Int := reservation setting.config task.submission reads
  let books := s.books.exec (.reserve amount now)
  match (s.books.budget.reserve amount now).1 with
  | none => (none, { s with books })
  | some _ =>
    let hold := s.books.holds.nextId
    let deposit : Deposit D := ⟨id, task.submission, reads, task.heard, false⟩
    (some hold, { s with books, deposits := Function.update s.deposits hold (some deposit) })

/-- `budget.settle`. -/
def settle (hold : Nat) (charged : Int) (returned : Bool) : Submitter D :=
  let deposit := (s.deposits hold).map fun deposit => { deposit with returned }
  { s with
    books := s.books.exec (.settle hold (.bigint charged) s.clock)
    deposits := Function.update s.deposits hold deposit }

/-- What a stretch does, for a task with all that it was answered. -/
def perform (id : Nat) (task : RevocationTask D) : Act → Submitter D
  | .go phase => s.setTask id { task with phase }
  | .consume reads =>
    match s.tryConsume (senderKey task.submission.sender) with
    | (false, s') => s'.setTask id { task with phase := refuse .rateLimited [] 429 }
    | (true, s') => s'.setTask id { task with phase := .balance reads s.clock }
  | .reserve reads now =>
    match s.reserve setting id task reads now with
    | (none, s') => s'.setTask id { task with phase := refuse .budgetExhausted [] 503 }
    | (some hold, s') => s'.setTask id { task with phase := .sending reads hold }
  | .settle hold charged returned phase => (s.settle hold charged returned).setTask id { task with phase }

/-- `singleFlight.run`. -/
def join (submission : ValidatedRevocationSubmission D) : Submitter D × SubmitterReply :=
  let key := setting.submissionKey submission.packed
  match s.flights key with
  | some id => (s, .joined id)
  | none =>
    ({ s with flights := Function.update s.flights key (some s.next), next := s.next + 1 }.setTask s.next
      ⟨submission, .registered, []⟩, .joined s.next)

/-- What happens in the state; none where it cannot. -/
def respond : SubmitterEvent → Option (Submitter D × SubmitterReply)
  | .tick now => if s.clock.ms ≤ now.ms then some ({ s with clock := now }, .quiet) else none
  | .request requester =>
    match s.sweep.tryConsume (requestKey requester) with
    | (false, s) => some (s, .refused ⟨.rateLimited, [], 429⟩)
    | (true, s) => some ({ s with bodies := s.bodies + 1 }, .quiet)
  | .body input =>
    if s.bodies = 0 then none
    else
      let s := { s with bodies := s.bodies - 1 }
      match input.map (validateRevocationSubmission setting.viem setting.kit · setting.policy) with
      | some (.ok submission) => some (s.join setting submission)
      | _ => some (s, .refused ⟨.invalidSubmission, [], 400⟩)
  | .start id =>
    match s.tasks id with
    | some ⟨submission, .registered, heard⟩ =>
      if submission.sender ∈ s.inFlightSenders then
        some (s.setTask id ⟨submission,
          .done (.refused ⟨.senderBusy, [("sender", submission.sender)], 409⟩), heard⟩, .quiet)
      else
        some ({ s with inFlightSenders := submission.sender :: s.inFlightSenders }.setTask id
          ⟨submission, .revoked, heard⟩, .quiet)
    | _ => none
  | .answer id answer => do
    let task ← s.tasks id
    let act ← submitSponsored setting.config task.submission task.phase answer
    pure (s.perform setting id { task with heard := task.heard ++ [answer] } act, .quiet)
  | .leave id =>
    match s.tasks id with
    | some ⟨submission, .leaving result, heard⟩ =>
      some ({ s with inFlightSenders := s.inFlightSenders.filter (· ≠ submission.sender) }.setTask id
        ⟨submission, .done result, heard⟩, .quiet)
    | _ => none
  | .deliver id =>
    match s.tasks id with
    | some ⟨submission, .done result, _⟩ =>
      let key := setting.submissionKey submission.packed
      some ({ s with flights := if s.flights key = some id then Function.update s.flights key none else s.flights },
        .answered result)
    | _ => none
  | .health =>
    let s := s.sweep
    some ({ s with books := (s.books.exec (.remaining s.clock)).exec (.spentToday s.clock) },
      .health (s.books.budget.remaining s.clock).1 (s.books.budget.spentToday s.clock).1 s.limiter.hits.rows.length)
  | .restart now =>
    if s.clock.ms ≤ now.ms then
      match FixedWindowLimiter.create setting.config.ratePerHour WINDOW_MS with
      | .error _ => none
      | .ok limiter => some (fresh (s.books.exec (.restart now)) s.deposits s.next now limiter, .quiet)
    else none

def act (event : SubmitterEvent) : Option (Submitter D) := (s.respond setting event).map Prod.fst

end Submitter

/-- The submitter, from its first start. -/
def submitterSystem {D : Type} (setting : SubmitterSetting D) : System (Submitter D) :=
  .ofAct (fun s => ∃ now, Submitter.boot setting now = .ok s) fun s => s.act setting

end Mapae.Delegation
