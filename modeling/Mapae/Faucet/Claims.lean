import Mapae.Faucet.LedgerRun

/-!
# Claims and the reconciler

`createFaucet` decides what is sent. A claim reserves, reads the recipient's balance, and then,
one claim at a time, reads the funds and a nonce, signs, persists the signed bytes and broadcasts
them. The reconciler finishes what a crash or a lost answer left open, and fills the nonces that
nothing holds.

* `ClaimPhase` and `ReconcilePhase` say what a task waits for
* `advance` is what it does when its await ends, up to the next one
* `Event` notes what is persisted, what is broadcast, and what the stale rule failed

A transaction is known by its hash, as it is to the node.
-/

namespace Mapae.Faucet

open Mapae.Infra Mapae.Store

/-! ## What is configured -/

structure FaucetConfig where
  /-- The kill switch. -/
  enabled : Bool
  /-- Empty keeps the ETH tab off. -/
  ethMissions : List String
  ethDailyWei : Nat
  /-- ETH the faucet keeps for stablecoin mint gas. -/
  minBalanceWei : Int

/-- `FAUCET_MUSDC_MISSIONS`. -/
def musdcMissions : List String := ["x_follow_mapae"]

/-- `FAUCET_TARGET_BASE`. -/
def targetBase : Int := 1000000000

/-- `FAUCET_ETH_AMOUNT_WEI`. -/
def ethAmountWei : Int := 500000000000000

def mintGas : Int := 100000
def transferGas : Int := 50000
def maxFeePerGas : Int := 50000000
def priorityFeePerGas : Int := 1000000

/-- A reserved claim older than this was never signed: its request died. -/
def staleReservationMs : Int := 120000

/-- How long a broadcast may go unseen before the same bytes are sent again. -/
def rebroadcastAfterMs : Int := 120000

namespace FaucetConfig

variable (config : FaucetConfig)

def kindOn (kind : FaucetClaimKind) : Bool :=
  config.enabled && (kind == .musdc || config.ethMissions.length > 0)

def missionsOf : FaucetClaimKind → List String
  | .musdc => musdcMissions
  | .eth => config.ethMissions

/-- What the faucet's balance must cover for one claim, beyond what in-flight claims took. -/
def need : FaucetClaimKind → Int
  | .musdc => mintGas * maxFeePerGas
  | .eth => config.minBalanceWei + ethAmountWei + transferGas * maxFeePerGas

end FaucetConfig

/-- `planTopUp`: how much to mint so that `balance` reaches `target`. -/
def planTopUp (balance target : Int) : Except StoreError Int :=
  if balance < 0 ∨ target < 0 then
    .error (.error "balance and target must be non-negative base amounts")
  else if balance < target then .ok (target - balance)
  else .ok 0

/-- `DELEGATED_EOA`: a wallet that delegated its code. -/
def isDelegatedEoa (code : String) : Bool :=
  match code.toList with
  | '0' :: 'x' :: 'e' :: 'f' :: '0' :: '1' :: '0' :: '0' :: digits =>
    digits.length == 40 && digits.all isHexDigit
  | _ => false

structure ClaimRequest where
  kind : FaucetClaimKind
  owner : String
  ipKey : String
  subnetKey : String
  missions : List String

inductive FaucetRefusal where
  | faucetOff
  | missionIncomplete
  | admission (refusal : AdmissionRefusal)
  | notEligible
  | eligibilityUnavailable
  | faucetEmpty
  | feeTooHigh
  | unavailable

inductive ClaimOutcome where
  /-- The claim as the page sees it. -/
  | view (claim : Option FaucetClaimRow)
  | refused (refusal : FaucetRefusal)
  /-- The ledger refused the request's own fields. -/
  | threw (e : StoreError)

/-- `mint(recipient, amount)` on the stablecoin. -/
structure MintCall where
  recipient : String
  amount : Int

/-- What the signer is asked to sign. A transfer has no call data. -/
structure FaucetTransaction where
  recipient : String
  data : Option MintCall
  value : Int
  gas : Int
  nonce : Int
  maxFeePerGas : Int
  maxPriorityFeePerGas : Int

/-- `MOCK_USDC.address`. -/
def mockUsdcAddress : String := "0xcfeb694719A09caeb80798e2011298F29CDa4e92"

/-- The transaction that pays a claim. -/
def claimTransaction (kind : FaucetClaimKind) (recipient : String) (amount nonce : Int) :
    FaucetTransaction :=
  match kind with
  | .musdc =>
    ⟨mockUsdcAddress, some ⟨recipient, amount⟩, 0, mintGas, nonce, maxFeePerGas,
      priorityFeePerGas⟩
  | .eth => ⟨recipient, none, amount, transferGas, nonce, maxFeePerGas, priorityFeePerGas⟩

/-! ## What a task waits for -/

inductive BroadcastResult where
  | accepted
  | rejected

inductive ReceiptStatus where
  | success
  | reverted
  deriving DecidableEq

/-- Where a claim is. The phases from `funds` to `send` are inside the mutex. -/
inductive ClaimPhase where
  /-- `chain.payer`, for the account a stablecoin claim is minted to. -/
  | payer (request : ClaimRequest)
  /-- The missions that are verified, and for ETH the wallet's code. -/
  | eligibility (input : FaucetReserveInput)
  /-- The recipient's balance. -/
  | plan (id : String) (kind : FaucetClaimKind) (recipient : String)
  /-- In the queue of `serial`. -/
  | queued (id : String) (kind : FaucetClaimKind) (recipient : String) (amount : Int)
  /-- The faucet's balance and the base fee. -/
  | funds (id : String) (kind : FaucetClaimKind) (recipient : String) (amount : Int)
  /-- `chain.nonce(…, "pending")`. -/
  | pending (id : String) (kind : FaucetClaimKind) (recipient : String) (amount : Int)
  | sign (id : String) (amount : Int) (transaction : FaucetTransaction)
  /-- The signed bytes are on disk, and nobody has seen them. -/
  | persisted (id raw : String)
  /-- `chain.sendRaw`. -/
  | send (id raw : String)
  /-- `chain.waitForReceipt`, outside the mutex. -/
  | wait (id raw : String)
  | answered (outcome : ClaimOutcome)

/-- What a reconcile pass has of the ledger: the rest of its snapshot and the mined nonce that
it was told. -/
structure Sweep where
  startedAt : Int
  rest : List FaucetClaimRow
  mined : Option Int

/-- Where a reconcile pass is. -/
inductive ReconcilePhase where
  /-- `chain.receipt` of a claim. -/
  | receipt (sweep : Sweep) (row : FaucetClaimRow) (signed : SignedTransaction)
  /-- `chain.nonce(…, "latest")`. -/
  | latest (sweep : Sweep) (row : FaucetClaimRow) (signed : SignedTransaction)
  /-- The receipt once more: the chain's mined nonce has passed the claim's. -/
  | landed (sweep : Sweep) (row : FaucetClaimRow) (signed : SignedTransaction)
  /-- `chain.sendRaw` of the same bytes. -/
  | resend (sweep : Sweep) (row : FaucetClaimRow) (signed : SignedTransaction)
  /-- The receipt once more: the node rejected the bytes. -/
  | late (sweep : Sweep) (row : FaucetClaimRow) (signed : SignedTransaction)
  /-- In the queue of `serial`. -/
  | queued
  /-- `chain.nonce(…, "pending")`, inside the mutex like the two that follow. -/
  | pending (held : List Int)
  | sign (held : List Int) (nonce : Int)
  | send (held : List Int) (nonce : Int) (raw : String)
  | finished

inductive Phase where
  | claim (phase : ClaimPhase)
  | reconcile (phase : ReconcilePhase)

/-- Inside the mutex. -/
def Phase.critical : Phase → Bool
  | .claim (.funds ..) | .claim (.pending ..) | .claim (.sign ..) | .claim (.persisted ..)
  | .claim (.send ..) => true
  | .reconcile (.pending ..) | .reconcile (.sign ..) | .reconcile (.send ..) => true
  | _ => false

/-- How an await ended. -/
inductive Answer where
  /-- The call threw: a timeout, a dropped connection. -/
  | lost
  /-- Nothing was asked: it is the task's turn. -/
  | turn
  | address (address : String)
  | code (code : Option String)
  | balance (wei : Int)
  | funds (balance : Int) (baseFee : Option Int)
  | nonce (count : Int)
  | signed (raw : String)
  | sent (result : BroadcastResult)
  | receipt (status : Option ReceiptStatus)

/-! ## What is written -/

/-- What happened to a claim, for the history. -/
inductive Event where
  /-- Its signed transaction is on disk. -/
  | signed (id : String) (transaction : SignedTransaction)
  /-- These bytes were handed to the node. -/
  | broadcast (id raw : String)
  /-- The stale-reservation rule failed it. -/
  | stale (id : String)

/-- The ledger, the rows that were pruned from it, and what happened, the latest first. -/
structure Books where
  rows : ClaimTable
  pruned : List FaucetClaimRow
  history : List Event

namespace Books

/-- Every claim that was ever reserved. -/
def claims (b : Books) : List FaucetClaimRow := b.rows.rows ++ b.pruned

/-- The ledger after a statement. -/
def exec {α : Type} (b : Books) (statement : Statement α) : Books :=
  { b with rows := after statement b.rows }

def note (b : Books) (event : Event) : Books := { b with history := event :: b.history }

def state? (b : Books) (id : String) : Option FaucetClaimState :=
  (b.rows.get? id).map FaucetClaimRow.state

end Books

/-- What the code relies on of Keccak and of signed transactions. -/
structure TransactionHashes where
  keccak256 : String → String
  /-- The nonce of the transaction that a hash names. -/
  nonceOf : String → Int
  /-- The hash is of the bytes, not of the letters they are written in. -/
  keccak256_toLowerCase : ∀ raw,
    toLowerCase (keccak256 (toLowerCase raw)) = toLowerCase (keccak256 raw)

/-- The hash a row is stored with. -/
def TransactionHashes.hashOf (hashes : TransactionHashes) (raw : String) : String :=
  toLowerCase (hashes.keccak256 raw)

/-- What a task reads of its surroundings: the clock, and a random UUID. -/
structure Moment where
  now : Int
  uuid : String

abbrev Stretch := Phase × Books

/-! ## A claim -/

/-- The claim is answered with its row. -/
def answerView (b : Books) (id : String) : Stretch :=
  (.claim (.answered (.view (b.rows.get? id))), b)

def answerRefused (b : Books) (refusal : FaucetRefusal) : Stretch :=
  (.claim (.answered (.refused refusal)), b)

/-- The `catch` of `decide`. Only an unsigned claim can be failed here; a signed one belongs to
the reconciler. -/
def caught (b : Books) (moment : Moment) (id : String) : Stretch :=
  let b := if b.state? id = some .reserved then b.exec (markFailed id moment.now) else b
  if b.state? id = some .failed then answerRefused b .unavailable else answerView b id

/-- `decide` after `chain.payer`: the ledger is asked before the network. -/
def checkAdmission (config : FaucetConfig) (b : Books) (moment : Moment) (request : ClaimRequest)
    (recipient : String) : Stretch :=
  let input : FaucetReserveInput :=
    { kind := request.kind, owner := toLowerCase request.owner
      recipient := toLowerCase recipient, ipKey := request.ipKey, subnetKey := request.subnetKey
      amount := match request.kind with | .eth => ethAmountWei | .musdc => 0 }
  match assertReserveInput input moment.now with
  | .error e => (.claim (.answered (.threw e)), b)
  | .ok _ =>
    match admission b.rows input moment.now (limitsOf config.ethDailyWei input.kind) with
    | some (.inflight claim) => (.claim (.answered (.view (some claim))), b)
    | some (.refused refusal) => answerRefused b (.admission refusal)
    | none => (.claim (.eligibility input), b)

/-- `decide`, for a claim that has arrived. -/
def decideClaim (config : FaucetConfig) (b : Books) (moment : Moment) (request : ClaimRequest) :
    Stretch :=
  if config.kindOn request.kind = false then answerRefused b .faucetOff
  else if (config.missionsOf request.kind).all (fun id => request.missions.contains id) = false then
    answerRefused b .missionIncomplete
  else
    match request.kind with
    | .musdc => (.claim (.payer request), b)
    | .eth => checkAdmission config b moment request request.owner

/-- `decide` after `eligibility`: the claim is reserved. -/
def reserveClaim (config : FaucetConfig) (b : Books) (moment : Moment)
    (input : FaucetReserveInput) : Stretch :=
  let statement := reserve moment.uuid input moment.now (limitsOf config.ethDailyWei input.kind)
  match answer statement b.rows with
  | .error e => (.claim (.answered (.threw e)), b.exec statement)
  | .ok (.refused refusal) => answerRefused (b.exec statement) (.admission refusal)
  | .ok (.ok claim false) => (.claim (.answered (.view (some claim))), b.exec statement)
  | .ok (.ok claim true) =>
    (.claim (.plan claim.id input.kind input.recipient), b.exec statement)

/-- `eligibility`. The missions of the source are all honoured as asserted, so only the code of an
ETH wallet is read. -/
def eligible (config : FaucetConfig) (b : Books) (moment : Moment) (input : FaucetReserveInput) :
    Answer → Option Stretch
  | .turn => if input.kind = .musdc then some (reserveClaim config b moment input) else none
  | .lost => if input.kind = .eth then some (answerRefused b .eligibilityUnavailable) else none
  | .code code =>
    if input.kind = .eth then
      some (if code.all fun code => code == "0x" || isDelegatedEoa code then
        reserveClaim config b moment input else answerRefused b .notEligible)
    else none
  | _ => none

/-- `plan`: how much to send. -/
def planAmount (kind : FaucetClaimKind) (balance : Int) : Except StoreError Int :=
  match kind with
  | .musdc => planTopUp balance targetBase
  | .eth => .ok (if ethAmountWei ≤ balance then 0 else ethAmountWei)

def planned (b : Books) (moment : Moment) (id : String) (kind : FaucetClaimKind)
    (recipient : String) (balance : Int) : Stretch :=
  match planAmount kind balance with
  | .error _ => caught b moment id
  | .ok amount =>
    if amount = 0 then answerView (b.exec (markSkipped id moment.now)) id
    else (.claim (.queued id kind recipient amount), b)

/-- `affordable`: the refusal of a claim that cannot be paid for. -/
def affordable (config : FaucetConfig) (rows : ClaimTable) (kind : FaucetClaimKind) (balance : Int) :
    Option Int → Option FaucetRefusal
  | none => some .unavailable
  | some baseFee =>
    if maxFeePerGas < baseFee then some .feeTooHigh
    else if balance - (inflight rows).1 - (inflight rows).2 * mintGas * maxFeePerGas <
        config.need kind then
      some .faucetEmpty
    else none

def funded (config : FaucetConfig) (b : Books) (moment : Moment) (id : String)
    (kind : FaucetClaimKind) (recipient : String) (amount balance : Int) (baseFee : Option Int) :
    Stretch :=
  match affordable config b.rows kind balance baseFee with
  | some refusal => answerRefused (b.exec (markFailed id moment.now)) refusal
  | none => (.claim (.pending id kind recipient amount), b)

/-- The larger of the node's pending count and the ledger's own next nonce. -/
def numbered (b : Books) (id : String) (kind : FaucetClaimKind) (recipient : String)
    (amount pending : Int) : Stretch :=
  (.claim (.sign id amount (claimTransaction kind recipient amount (max pending (nextNonce b.rows)))),
    b)

/-- The columns of a signature. -/
def signedColumns (hashes : TransactionHashes) (transaction : FaucetTransaction) (raw : String) :
    SignedTransaction :=
  ⟨transaction.nonce, hashes.hashOf raw, toLowerCase raw⟩

/-- The bytes reach the disk before the network. -/
def persist (hashes : TransactionHashes) (b : Books) (moment : Moment) (id : String) (amount : Int)
    (transaction : FaucetTransaction) (raw : String) : Stretch :=
  let signed := signedColumns hashes transaction raw
  let statement := markSigned id ⟨signed, amount⟩ moment.now
  match answer statement b.rows with
  | .error _ => caught (b.exec statement) moment id
  -- The reconciler already failed this reservation: nothing is sent.
  | .ok false => answerRefused (b.exec statement) .unavailable
  | .ok true => (.claim (.persisted id raw), (b.exec statement).note (.signed id signed))

/-- A node that rejects the bytes did not take them; the claim fails. -/
def broadcasted (b : Books) (moment : Moment) (id raw : String) : BroadcastResult → Stretch
  | .accepted => (.claim (.wait id raw), b.exec (markSent id moment.now))
  | .rejected => caught (b.exec (markFailed id moment.now)) moment id

/-- What a receipt says is recorded; without one nothing is. -/
def recordReceipt (b : Books) (moment : Moment) (id : String) : Option ReceiptStatus → Books
  | some .success => b.exec (markConfirmed id moment.now)
  | some .reverted => b.exec (markFailed id moment.now)
  | none => b

/-- **One stretch of a claim**, from the end of one await to the next. -/
def ClaimPhase.advance (config : FaucetConfig) (hashes : TransactionHashes) (b : Books)
    (moment : Moment) : ClaimPhase → Answer → Option Stretch
  | .payer request, .address recipient => some (checkAdmission config b moment request recipient)
  | .payer _, .lost => some (.claim (.answered (.threw (.error "payer"))), b)
  | .eligibility input, answer => eligible config b moment input answer
  | .plan id kind recipient, .balance balance => some (planned b moment id kind recipient balance)
  | .plan id _ _, .lost => some (caught b moment id)
  | .queued id kind recipient amount, .turn => some (.claim (.funds id kind recipient amount), b)
  | .funds id kind recipient amount, .funds balance baseFee =>
    some (funded config b moment id kind recipient amount balance baseFee)
  | .funds id _ _ _, .lost => some (caught b moment id)
  | .pending id kind recipient amount, .nonce count =>
    some (numbered b id kind recipient amount count)
  | .pending id _ _ _, .lost => some (caught b moment id)
  | .sign id amount transaction, .signed raw =>
    some (persist hashes b moment id amount transaction raw)
  | .sign id _ _, .lost => some (caught b moment id)
  | .persisted id raw, .turn => some (.claim (.send id raw), b.note (.broadcast id raw))
  | .send id raw, .sent result => some (broadcasted b moment id raw result)
  -- The node may hold the bytes, so the claim stays signed.
  | .send id raw, .lost => some (.claim (.wait id raw), b)
  | .wait id _, .receipt status => some (answerView (recordReceipt b moment id status) id)
  | .wait id _, .lost => some (answerView b id)
  | _, _ => none

/-! ## The reconciler -/

/-- The loop of `reconcile`, up to its next await. Reserved rows take none. -/
def sweepRows (now : Int) (sweep : Sweep) : List FaucetClaimRow → Books → Stretch
  | [], b => (.reconcile .queued, b)
  | row :: rest, b =>
    if row.state = .reserved then
      -- The rule fails a claim only if it is still where the snapshot saw it, or further on.
      if sweep.startedAt - row.createdAt > staleReservationMs ∧
          answer (markFailed row.id sweep.startedAt) b.rows = .ok true then
        sweepRows now sweep rest
          ((b.exec (markFailed row.id sweep.startedAt)).note (.stale row.id))
      else sweepRows now sweep rest b
    else
      match row.signed with
      | some signed => (.reconcile (.receipt { sweep with rest := rest } row signed), b)
      -- `CHECK` has no such row; a receipt of nothing throws, and the row is deferred.
      | none => sweepRows now sweep rest b

/-- `continue`, and the `catch` of a deferred row. -/
def Sweep.continue (sweep : Sweep) (b : Books) (now : Int) : Stretch :=
  sweepRows now sweep sweep.rest b

/-- `reconcile`, when it starts. -/
def reconcile (b : Books) (now : Int) : Stretch :=
  let before := now - ledgerRetentionMs
  let b : Books :=
    { rows := after (prune before) b.rows
      pruned := b.rows.rows.filter (FaucetClaimRow.prunable before) ++ b.pruned
      history := b.history }
  let rows := unsettled b.rows
  if rows.isEmpty then (.reconcile .finished, b)
  else sweepRows now ⟨now, rows, none⟩ rows b

/-- A row without a receipt, once the mined nonce is known. -/
def unmined (b : Books) (now mined : Int) (sweep : Sweep) (row : FaucetClaimRow)
    (signed : SignedTransaction) : Stretch :=
  if signed.nonce < mined then (.reconcile (.landed sweep row signed), b)
  else if sweep.startedAt - row.updatedAt < rebroadcastAfterMs then sweep.continue b now
  else (.reconcile (.resend sweep row signed), b.note (.broadcast row.id signed.rawTx))

/-- The last word on a claim: a success confirms it, and anything else fails it. -/
def settle (b : Books) (now : Int) (sweep : Sweep) (row : FaucetClaimRow) :
    Option ReceiptStatus → Stretch
  | some .success => sweep.continue (b.exec (markConfirmed row.id now)) now
  | _ => sweep.continue (b.exec (markFailed row.id now)) now

/-- The first nonce from `nonce` on that is below the highest held one and that nothing holds. -/
def nextGap (held : List Int) (nonce : Int) : Option Int :=
  match held.max? with
  | none => none
  | some top =>
    ((List.range (top - nonce).toNat).map fun k => nonce + (k : Int)).find? fun n => n ∉ held

/-- The loop of `fillGaps`, up to its next await. -/
def fillFrom (b : Books) (held : List Int) (nonce : Int) : Stretch :=
  match nextGap held nonce with
  | none => (.reconcile .finished, b)
  | some gap => (.reconcile (.sign held gap), b)

/-- `fillGaps`, when it enters the mutex. -/
def fillGaps (b : Books) : Stretch :=
  let held := (unsettled b.rows).filterMap fun row =>
    if row.state = .reserved then none else row.signed.map SignedTransaction.nonce
  if held.isEmpty then (.reconcile .finished, b) else (.reconcile (.pending held), b)

/-- **One stretch of a reconcile pass.** -/
def ReconcilePhase.advance (b : Books) (now : Int) : ReconcilePhase → Answer → Option Stretch
  | .receipt sweep row signed, .receipt status =>
    match status with
    | some status => some (settle b now sweep row (some status))
    | none =>
      match sweep.mined with
      | none => some (.reconcile (.latest sweep row signed), b)
      | some mined => some (unmined b now mined sweep row signed)
  | .latest sweep row signed, .nonce mined =>
    some (unmined b now mined { sweep with mined := some mined } row signed)
  | .landed sweep row _, .receipt status => some (settle b now sweep row status)
  | .resend sweep row _, .sent .accepted => some (sweep.continue (b.exec (markSent row.id now)) now)
  | .resend sweep row signed, .sent .rejected => some (.reconcile (.late sweep row signed), b)
  | .late sweep row _, .receipt status => some (settle b now sweep row status)
  | .receipt sweep _ _, .lost | .latest sweep _ _, .lost | .landed sweep _ _, .lost
  | .resend sweep _ _, .lost | .late sweep _ _, .lost => some (sweep.continue b now)
  | .queued, .turn => some (fillGaps b)
  | .pending held, .nonce count => some (fillFrom b held count)
  | .sign held nonce, .signed raw => some (.reconcile (.send held nonce raw), b)
  | .send held nonce _, .sent .accepted => some (fillFrom b held (nonce + 1))
  | .send _ _ _, .sent .rejected => some (.reconcile .finished, b)
  | .pending _, .lost | .sign _ _, .lost | .send _ _ _, .lost => some (.reconcile .finished, b)
  | _, _ => none

/-- **One stretch of a task.** -/
def advance (config : FaucetConfig) (hashes : TransactionHashes) (b : Books) (moment : Moment) :
    Phase → Answer → Option Stretch
  | .claim phase, answer => phase.advance config hashes b moment answer
  | .reconcile phase, answer => phase.advance b moment.now answer

end Mapae.Faucet
