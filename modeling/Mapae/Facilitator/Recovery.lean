import Mapae.Facilitator.Guards
import Mapae.Shared.X402
import Mapae.Store.JournalRun

/-!
# The settlement recovery

`SettlementRecovery.settle` as a transition system. Between two awaits the code runs without
interruption, so a step of the system is one such stretch: it begins with what the awaited
operation answered and ends at the next await.

* `settlementResponse` is the body of `/settle` for a journal row that has its verdict
* `advance` is the body of one operation ("flight"), a stretch for each await point
* `World` is the journal's file, and the memory of the process over it: the single-flight map,
  the queue of preparations, the flights and the calls that wait for them
* `Action` is what can happen next, in any order: a new call, an answer to a flight, a crash
  with a restart

A flight is numbered by the call that started it. The world also keeps the history of what
was committed, handed to the node, and answered. Nothing reads it but the theorems.
-/

namespace Mapae.Facilitator

open Mapae.Infra Mapae.Shared Mapae.Store Mapae.Delegation

/-! ## The answer for a resolved row -/

/-- The body of a `/settle` answer. -/
structure Erc7710SettleResponse where
  success : Bool
  transaction : String
  network : String
  payer : Option String
  errorReason : Option String
  /-- Whether the body has `replayed: true`. -/
  replayed : Bool

/-- A text that is there and not empty. -/
def truthy (text : Option String) : Option String := text.filter (fun t => t ≠ "")

/-- The wire's answer for a resolved row. -/
def settlementResponse (record : SettlementRecord) (replayed : Bool) :
    Except JsError Erc7710SettleResponse :=
  match record.terminal with
  | none => .error (JsError.ofClass .other)
  | some terminal => .ok
    { success := terminal.outcome = .settled
      network := GIWA_SEPOLIA_CAIP2
      payer := some record.payer
      transaction := record.txHash
      errorReason := truthy terminal.errorCode
      replayed := replayed }

/-! ## What the operations answer -/

/-- A field of a receipt, untyped as the node sends it. -/
inductive FeeField where
  | absent
  | bigint (value : Int)
  | number (value : Int)
  | text (value : String)
  | other
  deriving DecidableEq

def digitValue (c : Char) : Nat :=
  if c.isDigit then c.toNat - '0'.toNat else c.toLower.toNat - 'a'.toNat + 10

def digitsValue (base : Nat) (digits : List Char) : Nat :=
  digits.foldl (fun n c => base * n + digitValue c) 0

/-- `readReceiptFeeField`; `none` where it throws. -/
def readReceiptFeeField : FeeField → Option Int
  | .absent => some 0
  | .bigint value => if value < 0 then none else some value
  | .number value => if isSafeInteger value ∧ 0 ≤ value then some value else none
  | .text value =>
    match trim value with
    | '0' :: 'x' :: digits =>
      if digits ≠ [] ∧ digits.all isHexDigit then some (digitsValue 16 digits) else none
    | digits =>
      if digits ≠ [] ∧ digits.all Char.isDigit then some (digitsValue 10 digits) else none
  | .other => none

structure RecoveryReceipt where
  transactionHash : String
  gasUsed : FeeField
  effectiveGasPrice : FeeField
  l1Fee : FeeField

structure RecoveryPayment where
  paymentIntentId : String
  payer : String
  payTo : String
  amountBase : Int

/-- What `parseTransaction` reads out of serialized bytes. -/
structure ParsedTransaction where
  type : String
  chainId : Option Int
  nonce : Option Int
  gas : Option Int
  maxFeePerGas : Option Int
  maxPriorityFeePerGas : Option Int

/-- The library that hashes and parses transactions. -/
structure Codec where
  keccak256 : String → String
  /-- `none` where it throws. -/
  parseTransaction : String → Option ParsedTransaction

/-- What a `SettlementRecovery` is constructed with, beside the journal and the clock. -/
structure Config where
  signer : String
  chainId : Int
  limits : SettlementLimits

structure SettlementResult where
  record : SettlementRecord
  replayed : Bool

/-! ## The parts of a flight -/

/-- The journal as a stretch finds it: `disk` says whether the file works. -/
structure Moment where
  now : Int
  disk : Bool

def storageUnavailable : JsError := JsError.ofClass .settlementStorageUnavailable

def pendingError (record : SettlementRecord) : JsError :=
  JsError.ofClass (.settlementPending record.txHash)

/-- `SettlementRecovery.known`. -/
def known (moment : Moment) (db : JournalDb) (intent : String) :
    Except JsError (Option SettlementRecord) :=
  if moment.disk then
    match db.read intent with
    | .ok record => .ok record
    | .error _ => .error storageUnavailable
  else .error storageUnavailable

/-- The allocation of a nonce between the node's answer and `prepare`. -/
def allocateNonce (config : Config) (moment : Moment) (db : JournalDb) (pending : Int) :
    Except JsError Int :=
  if moment.disk then
    match db.nextNonce config.signer config.chainId pending with
    | .ok nonce => .ok nonce
    | .error _ => .error storageUnavailable
  else .error storageUnavailable

/-- Gas and fees of the prepared transaction, if it has the allocated envelope. -/
def allocatedEnvelope (config : Config) (nonce : Int) (tx : ParsedTransaction) :
    Option (Int × Int × Int) :=
  if tx.type ≠ "eip1559" ∨ tx.chainId ≠ some config.chainId ∨ tx.nonce ≠ some nonce then none
  else
    match tx.gas, tx.maxFeePerGas, tx.maxPriorityFeePerGas with
    | some gas, some fee, some priority => some (gas, fee, priority)
    | _, _, _ => none

/-- The claim's input for a prepared transaction. -/
def claimInput (codec : Codec) (config : Config) (moment : Moment) (payment : RecoveryPayment)
    (nonce : Int) (serialized : String) (envelope : Int × Int × Int) : SettlementInput where
  paymentIntentId := payment.paymentIntentId
  payer := payment.payer
  payTo := payment.payTo
  amountBase := payment.amountBase
  signer := config.signer
  chainId := config.chainId
  nonce := nonce
  gas := envelope.1
  maxFeePerGas := envelope.2.1
  maxPriorityFeePerGas := envelope.2.2
  txHash := codec.keccak256 serialized
  createdAt := moment.now

/-- From the answer of `prepare` to the end of the preparation. -/
def claimPrepared (codec : Codec) (config : Config) (moment : Moment) (db : JournalDb)
    (payment : RecoveryPayment) (nonce : Int) (serialized : String) :
    Except JsError SettlementRecord × JournalDb :=
  match (codec.parseTransaction serialized).bind (allocatedEnvelope config nonce) with
  | none => (.error (JsError.ofClass .other), db)
  | some envelope =>
    if moment.disk then
      match (SettlementJournal.claim
          (claimInput codec config moment payment nonce serialized envelope) config.limits).run
          db with
      | .ok record db' => (.ok record, db')
      | .error (.budgetExceeded code) db' =>
        (.error (JsError.ofClass (.settlementBudgetExceeded code)), db')
      | .error _ db' => (.error storageUnavailable, db')
    else (.error storageUnavailable, db)

/-- Gas used and actual cost of a receipt of this record's transaction; `none` where the code
throws. -/
def receiptCost (record : SettlementRecord) (receipt : RecoveryReceipt) : Option (Int × Int) :=
  if toLowerCase receipt.transactionHash ≠ record.txHash then none
  else
    match receipt.gasUsed, receipt.effectiveGasPrice with
    | .bigint gasUsed, .bigint price =>
      if gasUsed ≤ 0 then none
      else do
        let gas ← readReceiptFeeField (.bigint gasUsed)
        let price ← readReceiptFeeField (.bigint price)
        let l1Fee ← readReceiptFeeField receipt.l1Fee
        some (gasUsed, gas * price + l1Fee)
    | _, _ => none

/-- From a receipt to the terminal write. -/
def conclude (moment : Moment) (db : JournalDb) (record : SettlementRecord)
    (receipt : RecoveryReceipt) (failure : Option String) :
    Except JsError SettlementRecord × JournalDb :=
  match receiptCost record receipt with
  | none => (.error (pendingError record), db)
  | some (gasUsed, actualCost) =>
    if moment.disk then
      match (SettlementJournal.finish record.paymentIntentId
          { atMs := moment.now, gasUsed := gasUsed, actualCost := actualCost,
            errorCode := failure }).run db with
      | .ok finished db' => (.ok finished, db')
      | .error _ db' => (.error (pendingError record), db')
    else (.error (pendingError record), db)

/-! ## One flight -/

/-- Where a flight is waiting. -/
inductive Phase where
  /-- In the single-flight map; its body has not begun. -/
  | registered
  /-- Its preparation waits for the ones before it. -/
  | queued
  | pendingNonce
  | prepare (nonce : Int)
  /-- The preparation is over. -/
  | prepared (record : SettlementRecord) (replayed : Bool)
  | receipt (record : SettlementRecord) (replayed : Bool)
  | restore (record : SettlementRecord) (replayed : Bool)
  | send (record : SettlementRecord) (replayed : Bool)
  | wait (record : SettlementRecord) (replayed : Bool)
  | settled (result : Except JsError SettlementResult)

/-- The preparation is not over. -/
def Phase.preparing : Phase → Bool
  | .registered | .queued | .pendingNonce | .prepare _ => true
  | _ => false

/-- How an await ended. -/
inductive Input where
  /-- It is this flight's turn, or the answer carries nothing. -/
  | resume
  | threw (error : JsError)
  | nonce (pending : Int)
  | serialized (bytes : String)
  /-- `receipt` or `wait` answered, and what `failure` makes of the receipt. -/
  | receipt (receipt : Option RecoveryReceipt) (failure : Option String)

/-- What happened, for the history. -/
inductive Event where
  /-- The flight's preparation found the row. -/
  | found (flight : Nat) (record : SettlementRecord)
  /-- The flight's preparation wrote the row, for the prepared bytes. -/
  | claimed (flight : Nat) (serialized : String) (record : SettlementRecord)
  /-- The bytes were handed to `send`. -/
  | sent (flight : Nat) (intent serialized : String)
  /-- The flight's promise was rejected. -/
  | failed (flight : Nat) (intent : String) (error : JsError)
  /-- The call got its answer. -/
  | answered (call flight : Nat) (intent : String) (result : Except JsError SettlementResult)

structure Effect where
  phase : Phase
  db : JournalDb
  events : List Event

section Flight

variable (codec : Codec) (config : Config) (moment : Moment) (db : JournalDb) (flight : Nat)
  (payment : RecoveryPayment)

/-- The flight's promise is rejected. -/
def fail (db : JournalDb) (error : JsError) : Effect where
  phase := .settled (.error error)
  db := db
  events := [.failed flight (toLowerCase payment.paymentIntentId) error]

/-- Waits on, with nothing to note. -/
def await (phase : Phase) : Effect := ⟨phase, db, []⟩

/-- The stretch from a receipt to the end of the flight. -/
def finishFlight (record : SettlementRecord) (replayed : Bool) (receipt : RecoveryReceipt)
    (failure : Option String) : Effect :=
  match conclude moment db record receipt failure with
  | (.ok finished, db') => ⟨.settled (.ok ⟨finished, replayed⟩), db', []⟩
  | (.error error, db') => fail flight payment db' error

/-- **One stretch of `settle`'s operation**, from the end of one await to the next. -/
def advance : Phase → Input → Option Effect
  | .registered, .resume => some (await db .queued)
  | .queued, .resume => some <|
    match known moment db payment.paymentIntentId with
    | .error error => fail flight payment db error
    | .ok (some existing) => ⟨.prepared existing true, db, [.found flight existing]⟩
    | .ok none => await db .pendingNonce
  | .pendingNonce, .threw error => some (fail flight payment db error)
  | .pendingNonce, .nonce pending => some <|
    match allocateNonce config moment db pending with
    | .error error => fail flight payment db error
    | .ok nonce => await db (.prepare nonce)
  | .prepare _, .threw error => some (fail flight payment db error)
  | .prepare nonce, .serialized bytes => some <|
    match claimPrepared codec config moment db payment nonce bytes with
    | (.error error, db') => fail flight payment db' error
    | (.ok record, db') => ⟨.prepared record false, db', [.claimed flight bytes record]⟩
  | .prepared record replayed, .resume => some <|
    if record.terminal.isSome then ⟨.settled (.ok ⟨record, replayed⟩), db, []⟩
    else await db (.receipt record replayed)
  -- From here on whatever is thrown is reported as pending.
  | .receipt record _, .threw _ => some (fail flight payment db (pendingError record))
  | .receipt record replayed, .receipt (some receipt) failure =>
    some (finishFlight moment db flight payment record replayed receipt failure)
  | .receipt record replayed, .receipt none _ => some (await db (.restore record replayed))
  | .restore record _, .threw _ => some (fail flight payment db (pendingError record))
  | .restore record replayed, .serialized bytes => some <|
    if codec.keccak256 bytes ≠ record.txHash then fail flight payment db (pendingError record)
    else ⟨.send record replayed, db, [.sent flight record.paymentIntentId bytes]⟩
  | .send record replayed, .resume => some (await db (.wait record replayed))
  | .send record replayed, .threw _ => some (await db (.wait record replayed))
  | .wait record _, .threw _ => some (fail flight payment db (pendingError record))
  | .wait record replayed, .receipt (some receipt) failure =>
    some (finishFlight moment db flight payment record replayed receipt failure)
  | _, _ => none

end Flight

/-! ## The process -/

structure Flight where
  payment : RecoveryPayment
  phase : Phase

/-- A call that waits for a flight. -/
structure Call where
  intent : String
  flight : Nat

/-- The journal's file and the process over it. -/
structure World where
  db : JournalDb
  config : Config
  /-- The single-flight map. -/
  inflight : String → Option Nat
  /-- The chain of preparations, the running one first. -/
  queue : List Nat
  flights : Nat → Option Flight
  calls : Nat → Option Call
  next : Nat
  history : List Event

/-- A process that has just started over a file. -/
def World.boot (db : JournalDb) (config : Config) (next : Nat) (history : List Event) : World where
  db := db
  config := config
  inflight _ := none
  queue := []
  flights _ := none
  calls _ := none
  next := next
  history := history

/-- What the operator's timer and the routes do to the ledger besides. -/
inductive Housekeeping where
  | prune (rejectedBefore keepRejected : Int)
  | recordRejection (event : SettlementEventInput)

def Housekeeping.op : Housekeeping → JournalOp
  | .prune before keep => .prune before keep
  | .recordRejection event => .recordRejection event

inductive Action where
  /-- A call of `settle`. -/
  | settle (payment : RecoveryPayment)
  /-- An await of a flight ends. -/
  | advance (flight : Nat) (input : Input) (moment : Moment)
  /-- The owner of a settled flight takes it out of the map. -/
  | cleanup (flight : Nat)
  /-- A call gets the result of its flight. -/
  | answer (call : Nat)
  | housekeeping (op : Housekeeping)
  /-- The process ends, wherever it is, and another one starts over the file. -/
  | restart (config : Config)

/-- What a call makes of its flight's result: only the owner's answer keeps its mark. -/
def SettlementResult.markedFor (own : Bool) (result : SettlementResult) : SettlementResult :=
  if own then result else { result with replayed := true }

namespace World

/-- `settle` up to its first await: joins the flight of this intent or starts one. -/
def settle (w : World) (payment : RecoveryPayment) : World :=
  match w.inflight payment.paymentIntentId with
  | some flight =>
    { w with
      calls := Function.update w.calls w.next
        (some ⟨toLowerCase payment.paymentIntentId, flight⟩)
      next := w.next + 1 }
  | none =>
    { w with
      inflight := Function.update w.inflight payment.paymentIntentId (some w.next)
      flights := Function.update w.flights w.next (some ⟨payment, .registered⟩)
      calls := Function.update w.calls w.next
        (some ⟨toLowerCase payment.paymentIntentId, w.next⟩)
      next := w.next + 1 }

/-- The chain of preparations after a flight went from one phase to another. -/
def requeue (queue : List Nat) (flight : Nat) (before after : Phase) : List Nat :=
  match before with
  | .registered => queue ++ [flight]
  | _ => if before.preparing ∧ ¬ after.preparing then queue.erase flight else queue

/-- It may go on: a preparation that has not begun waits for the ones before it. -/
def mayAdvance (w : World) (flight : Nat) : Phase → Bool
  | .queued => w.queue.head? = some flight
  | _ => true

def applyEffect (w : World) (flight : Nat) (fl : Flight) (effect : Effect) : World :=
  { w with
    db := effect.db
    flights := Function.update w.flights flight (some { fl with phase := effect.phase })
    queue := requeue w.queue flight fl.phase effect.phase
    history := effect.events ++ w.history }

/-- What an action does; `none` where it is not possible. -/
def act (codec : Codec) (w : World) : Action → Option World
  | .settle payment => some (w.settle payment)
  | .advance flight input moment => do
    let fl ← w.flights flight
    if w.mayAdvance flight fl.phase then
      let effect ← advance codec w.config moment w.db flight fl.payment fl.phase input
      some (w.applyEffect flight fl effect)
    else none
  | .cleanup flight => do
    let fl ← w.flights flight
    match fl.phase with
    | .settled _ =>
      if w.inflight fl.payment.paymentIntentId = some flight then
        some { w with inflight := Function.update w.inflight fl.payment.paymentIntentId none }
      else some w
    | _ => none
  | .answer call => do
    let waiting ← w.calls call
    let fl ← w.flights waiting.flight
    match fl.phase with
    | .settled result =>
      some { w with
        calls := Function.update w.calls call none
        history := .answered call waiting.flight waiting.intent
          (result.map (SettlementResult.markedFor (call = waiting.flight))) :: w.history }
    | _ => none
  | .housekeeping op => some { w with db := JournalOp.exec w.db op.op }
  | .restart config => some (boot w.db config w.next w.history)

end World

/-- Settling over a file that starts out empty. -/
def settlementSystem (codec : Codec) : System World :=
  .ofAct (fun w => ∃ config, w = World.boot JournalDb.empty config 0 []) (World.act codec)

end Mapae.Facilitator
