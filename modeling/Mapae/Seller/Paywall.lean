import Mapae.Seller.Ladder
import Mapae.Shared.Token
import Mapae.Store.PaymentIdentifiers

/-!
# The paywall

The middleware in front of a priced resource. It reads the payment header, binds the payment's
identifier, has the facilitator verify and settle, and lets the handler behind it serve. Between
two awaits the code runs without interruption, so each function below is one such stretch:

* `begin` reads the header, up to the wait for the facilitator's kind
* `quote` prices the payment and binds its identifier, up to the wait for `/verify`
* `verified` is the stretch up to the wait for `/settle`
* `settled` records the settlement, up to the callback and the handler
* `serve` writes the receipt on what the handler served

`readDelegatedPayment` checks the shape of what a buyer sent. It reads and never verifies: the
facilitator decodes the signed chain. The database is there for the stretches that use it;
`Moment.disk` says whether it works.
-/

namespace Mapae.Seller

open Mapae.Infra Mapae.Delegation Mapae.Shared Mapae.Store

/-- The signed part of a payment. -/
structure Erc7710DelegationPayload where
  delegationManager : String
  delegator : String
  permissionContext : String

/-- A payment that could be read: what it is keyed on, and the whole document as it came. -/
structure DelegatedPayment where
  payload : Erc7710DelegationPayload
  document : Json

/-- `extra.assetTransferMethod` of the terms the buyer accepted. -/
def assetTransferMethod (candidate : Json) : Option String :=
  (Json.fieldOf (candidate.field "accepted") "extra").bind (Json.textField · "assetTransferMethod")

/-- The three fields of `candidate.payload`, checked one after the other. -/
def delegationPayload (viem : Viem) (candidate : Json) : Option Erc7710DelegationPayload := do
  let payload ← candidate.field "payload"
  let delegationManager ← payload.textField "delegationManager"
  guard (viem.isAddress delegationManager)
  let delegator ← payload.textField "delegator"
  guard (viem.isAddress delegator)
  let permissionContext ← payload.textField "permissionContext"
  guard (isHex permissionContext ∧ ¬ permissionContext.length ≤ 2)
  some ⟨delegationManager, delegator, permissionContext⟩

/-- The payment in a header, or the reason it is none. -/
def readDelegatedPayment {Wire : Type} (viem : Viem) (codec : HeaderCodec Wire) (header : Wire) :
    Except String DelegatedPayment :=
  match codec.decode header with
  | none => .error "invalid base64 JSON"
  | some candidate =>
    if assetTransferMethod candidate ≠ some "erc7710" then .error "not an ERC-7710 payment"
    else
      match delegationPayload viem candidate with
      | none => .error "invalid delegation payload"
      | some payload => .ok ⟨payload, candidate⟩

/-! ## What a paywall is made of -/

/-- The libraries a paywall uses, and how long a header is. -/
structure Libraries (Wire : Type) where
  viem : Viem
  hashing : Hashing
  codec : HeaderCodec Wire
  headerLength : Wire → Nat

def MAX_PAYMENT_HEADER_LENGTH : Nat := 150000

/-- A paywall whose options were accepted. -/
structure Paywall where
  payTo : String
  amount : Nat
  description : String
  advertised : Option (List (String × Json))
  paymentIdentifiers : Bool
  baseUrl : Option String

/-- The kind that the facilitator advertises. -/
structure FacilitatorKind where
  facilitatorAddresses : List String
  delegationManager : Option String

/-- The terms of the offer. -/
structure Erc7710PaymentRequirements where
  scheme : String
  network : String
  amount : String
  payTo : String
  maxTimeoutSeconds : Nat
  asset : String
  kind : FacilitatorKind

def buildErc7710PaymentRequirements (payTo : String) (amount : Nat) (kind : FacilitatorKind) :
    Erc7710PaymentRequirements where
  scheme := "exact"
  network := GIWA_SEPOLIA_CAIP2
  amount := String.ofList (decimalDigits amount)
  payTo := payTo
  maxTimeoutSeconds := 60
  asset := MOCK_USDC_ADDRESS
  kind := kind

def Erc7710PaymentRequirements.toJson (requirements : Erc7710PaymentRequirements) : Json := .object
  [("scheme", .string requirements.scheme), ("network", .string requirements.network),
    ("amount", .string requirements.amount), ("payTo", .string requirements.payTo),
    ("maxTimeoutSeconds", .number requirements.maxTimeoutSeconds 0),
    ("asset", .string requirements.asset),
    ("extra", .object
      ([("assetTransferMethod", .string "erc7710"), ("paymentFlow", .string "upfront"),
          ("facilitatorAddresses",
            .array (requirements.kind.facilitatorAddresses.map Json.string))] ++
        (requirements.kind.delegationManager.map fun manager =>
          ("delegationManager", Json.string manager)).toList))]

/-- The parts of a request that the paywall reads. -/
structure PaywallRequest (Wire : Type) where
  /-- `Payment-Signature`. -/
  header : Option Wire
  method : String
  url : String
  origin : String
  pathname : String
  search : String
  /-- There is no handler behind the paywall. -/
  lastRoute : Bool

/-- The body of a 402. -/
def offerBody {Wire : Type} (paywall : Paywall) (request : PaywallRequest Wire)
    (requirements : Erc7710PaymentRequirements) : Json :=
  let url := match paywall.baseUrl with
    | some baseUrl => baseUrl ++ request.pathname
    | none => request.url
  .object
    ([("x402Version", .number 2 0),
        ("resource", .object [("url", .string url), ("description", .string paywall.description)]),
        ("accepts", .array [requirements.toJson])] ++
      (paywall.advertised.map fun extensions => ("extensions", Json.object extensions)).toList)

/-! ## The request fingerprint -/

def FINGERPRINT_VERSION : String := "mapae.x402.payment-identifier.fingerprint.v2"

/-- `toUpperCase` of ASCII text. -/
def toUpperCase (value : String) : String := String.ofList (value.toList.map Char.toUpper)

/-- The terms of the offer, the resource and the method, folded into one hash. -/
def requestFingerprint (hashing : Hashing) (requirements : Erc7710PaymentRequirements)
    (resource method : String) : String :=
  let canonical := "\n".intercalate
    [FINGERPRINT_VERSION, requirements.scheme, requirements.network, requirements.asset,
      requirements.amount, requirements.payTo, resource, toUpperCase method]
  -- Without the leading `0x`.
  String.ofList ((hashing.sha256 (hashing.toBytes canonical)).toList.drop 2)

/-! ## A request on its way -/

/-- A payment whose header could be read. -/
structure PresentedPayment where
  payment : DelegatedPayment
  /-- The claimed delegator. -/
  payer : String
  identifier : Option String

/-- A payment that was priced. -/
structure Attempt where
  presented : PresentedPayment
  requirements : Erc7710PaymentRequirements
  amount : Nat
  intent : String
  fingerprint : String

/-- What an identifier is bound to for this payment. -/
def Attempt.pair (attempt : Attempt) : String × String := (attempt.fingerprint, attempt.intent)

structure SettlementReceipt where
  intent : String
  payer : String
  amount : String
  asset : String
  payTo : String
  network : String
  transaction : Option String
  replayed : Bool

/-- Where a request is waiting. -/
inductive Phase (Wire : Type) where
  /-- For the facilitator's kind. -/
  | kind (presented : Option PresentedPayment)
  /-- For the answer of `/verify`. -/
  | verify (attempt : Attempt)
  /-- For the answer of `/settle`. -/
  | settle (attempt : Attempt)
  /-- For the seller's callback and the handler. -/
  | deliver (attempt : Attempt) (receipt : SettlementReceipt)
  | answered (response : HttpResponse Wire)

/-- The clock, and whether the database works. -/
structure Moment where
  now : Int
  disk : Bool

section Stretches

variable {Wire : Type} (lib : Libraries Wire) (paywall : Paywall) (request : PaywallRequest Wire)

/-- What the framework answers when a middleware throws. -/
def serverError : HttpResponse Wire := { status := 500, paymentResponse := none, body := none }

def notFound : HttpResponse Wire :=
  { status := 404, paymentResponse := none, body := some (errorBody "not_found") }

/-- A payment that could not be read. -/
def malformedPayment (payer : Option String) (detail : String) : HttpResponse Wire :=
  { status := 400
    paymentResponse := some (writeFailureReceipt lib.codec INVALID_PAYLOAD payer "")
    body := some (.object
      [("error", .string "malformed_payment"), ("detail", .string detail)]) }

/-- From the arrival of a request to the wait for the facilitator's kind. -/
def begin : Phase Wire :=
  if request.lastRoute then .answered notFound
  else
    match request.header with
    | none => .kind none
    | some header =>
      if lib.headerLength header > MAX_PAYMENT_HEADER_LENGTH then
        .answered (malformedPayment lib none "header too large")
      else
        match readDelegatedPayment lib.viem lib.codec header with
        | .error detail => .answered (malformedPayment lib none detail)
        | .ok payment =>
          let payer := lib.viem.getAddress payment.payload.delegator
          if paywall.paymentIdentifiers then
            match readPaymentIdentifier payment.document with
            | .malformed => .answered (malformedPayment lib (some payer)
                "payment-identifier must be 16–128 characters of [A-Za-z0-9_-]")
            | .present id => .kind (some ⟨payment, payer, some id⟩)
            | .absent => .kind (some ⟨payment, payer, none⟩)
          else .kind (some ⟨payment, payer, none⟩)

/-- The intent of a payment under the paywall's offer. -/
def paymentIntent (payment : DelegatedPayment) : PaymentIntent where
  network := GIWA_SEPOLIA_CAIP2
  asset := MOCK_USDC_ADDRESS
  amount := paywall.amount
  payTo := paywall.payTo
  delegationManager := lib.viem.getAddress payment.payload.delegationManager
  permissionContext := payment.payload.permissionContext

/-- The payment as it was priced; `none` where the derivation of its key throws. -/
def priced (presented : PresentedPayment) (kind : FacilitatorKind) : Option Attempt := do
  let requirements := buildErc7710PaymentRequirements paywall.payTo paywall.amount kind
  let intent ← derivePaymentIntentId lib.viem lib.hashing
    (paymentIntent lib paywall presented.payment)
  let resource := paywall.baseUrl.getD request.origin ++ request.pathname ++ request.search
  some
    { presented := presented
      requirements := requirements
      amount := paywall.amount
      intent := intent
      fingerprint := requestFingerprint lib.hashing requirements resource request.method }

/-- The receipt of a settled payment. -/
def receiptOf (attempt : Attempt) (payer : String) (transaction : Option String)
    (replayed : Bool) : SettlementReceipt where
  intent := attempt.intent
  payer := payer
  amount := fromTokenAmount attempt.amount
  asset := attempt.requirements.asset
  payTo := paywall.payTo
  network := GIWA_SEPOLIA_CAIP2
  transaction := transaction
  replayed := replayed

/-- `PaymentIdentifierConflict` on the wire. -/
def conflictReason : PaymentIdentifierConflict → String
  | .fingerprint => "fingerprint"
  | .paymentIntent => "payment_intent"

/-- The 409 of an identifier that is bound to another payment. What was recorded under it is
named only when it paid for this very request. -/
def conflictAnswer (attempt : Attempt) (reason : PaymentIdentifierConflict)
    (recorded : Option RecordedPayment) : HttpResponse Wire :=
  let charged := if reason = .paymentIntent then recorded else none
  let word := if charged.isSome then PAYMENT_IDENTIFIER_SETTLED else PAYMENT_IDENTIFIER_CONFLICT
  { status := 409
    paymentResponse := some (writeFailureReceipt lib.codec word
      (some ((charged.map fun payment => lib.viem.getAddress payment.payer).getD
        attempt.presented.payer))
      ((charged.bind RecordedPayment.txHash).getD ""))
    body := some (.object
      [("error", .string word), ("detail", .string (conflictReason reason))]) }

/-- What a stretch left behind: where the request waits, and the identifiers. -/
abbrev Stretch (Wire : Type) := Phase Wire × IdentifierTable

/-- The binding of an identified payment, up to the wait for `/verify`. -/
def bindIdentifier (moment : Moment) (rows : IdentifierTable) (attempt : Attempt) (id : String) :
    Stretch Wire :=
  if moment.disk then
    match (PaymentIdentifiers.bind id attempt.fingerprint attempt.intent moment.now).run rows with
    | .error _ rows' => (.answered serverError, rows')
    | .ok (.conflict reason recorded) rows' =>
      (.answered (conflictAnswer lib attempt reason recorded), rows')
    | .ok (.settled recorded) rows' =>
      -- Settled before: the stored result answers, and nothing is settled again.
      (.deliver attempt (receiptOf paywall attempt (lib.viem.getAddress recorded.payer)
        recorded.txHash true), rows')
    | .ok .new rows' => (.verify attempt, rows')
  else (.answered serverError, rows)

/-- From the facilitator's kind to the wait for `/verify`. -/
def quote (moment : Moment) (rows : IdentifierTable) (presented : Option PresentedPayment)
    (kind : Option FacilitatorKind) : Stretch Wire :=
  match kind with
  | none =>
    let receipt := presented.map fun presented =>
      writeFailureReceipt lib.codec FACILITATOR_NOT_READY (some presented.payer) ""
    (.answered
      { status := 503, paymentResponse := receipt
        body := some (errorBody "facilitator_unavailable") }, rows)
  | some kind =>
    match presented with
    | none =>
      let body := offerBody paywall request
        (buildErc7710PaymentRequirements paywall.payTo paywall.amount kind)
      (.answered { status := 402, paymentResponse := none, body := some body }, rows)
    | some presented =>
      match priced lib paywall request presented kind with
      | none => (.answered serverError, rows)
      | some attempt =>
        match presented.identifier with
        | none => (.verify attempt, rows)
        | some id => bindIdentifier lib paywall moment rows attempt id

/-- From the answer of `/verify` to the wait for `/settle`. -/
def verified (attempt : Attempt) (answer : FetchResult) : Phase Wire :=
  let outcome := decideVerification lib.viem (FacilitatorClient.call answer) attempt.presented.payer
  match verificationAnswer lib.codec (offerBody paywall request attempt.requirements)
      attempt.presented.payer outcome with
  | some response => .answered response
  | none => .settle attempt

/-- The record of a settlement. Losing it is reported to the operator, and to nobody else. -/
def recordSettlement (moment : Moment) (rows : IdentifierTable) (attempt : Attempt)
    (transaction : Option String) : IdentifierTable :=
  match attempt.presented.identifier with
  | none => rows
  | some id =>
    if moment.disk then
      after (PaymentIdentifiers.record id attempt.presented.payer transaction moment.now) rows
    else rows

/-- From the answer of `/settle` to the callback and the handler. -/
def settled (moment : Moment) (rows : IdentifierTable) (attempt : Attempt) (answer : FetchResult) :
    Stretch Wire :=
  let outcome := decideSettlement lib.viem (FacilitatorClient.call answer) attempt.presented.payer
  match settlementRefusal lib.codec (offerBody paywall request attempt.requirements)
      attempt.presented.payer outcome with
  | some response => (.answered response, rows)
  | none =>
    (.deliver attempt (receiptOf paywall attempt attempt.presented.payer outcome.transaction
      outcome.replayed), recordSettlement moment rows attempt outcome.transaction)

/-- What the handler served, with the receipt. -/
def serve (receipt : SettlementReceipt) (resource : Nat × Option Json) : HttpResponse Wire :=
  deliver lib.codec resource receipt.payer receipt.transaction

end Stretches

end Mapae.Seller
