import Mapae.Infra.Json
import Mapae.Store.Values

/-!
# What the seller makes of the facilitator's answers

The facilitator, the seller and the buyer's client exchange a closed set of words, each under the name
that all ends import. `decideVerification` and `decideSettlement` map an answer of `/verify` and of
`/settle` onto the outcomes the seller acts on.

The payment intent is the off-chain key of one exact payment: a hash of the offer's terms and of the
signed delegation, and of nothing else.

The functions `isAddress` and `getAddress` belong to a library; `Viem` stands for them, and `Hashing` for
its hash and ABI functions.
-/

namespace Mapae.Delegation

open Mapae.Infra Mapae.Store

/-! ## The words of the wire -/

/-- A transaction was broadcast and its result is not known yet. -/
def SETTLEMENT_PENDING : String := "settlement_pending"

/-- The request was refused before it was read. -/
def RATE_LIMITED : String := "rate_limited"

/-- No verdict was formed. -/
def FACILITATOR_NOT_READY : String := "facilitator_not_ready"

/-- The payment's text could not be read, or disagrees with the offer. -/
def INVALID_PAYLOAD : String := "invalid_payload"

/-- The chain would not redeem the delegation. -/
def DELEGATION_REJECTED : String := "delegation_rejected"

/-- The redemption was mined and did not credit the seller. -/
def VENDOR_NOT_CREDITED : String := "vendor_not_credited"

/-- The redemption was mined and reverted. -/
def SETTLEMENT_REVERTED : String := "settlement_reverted"

/-- The payment identifier is bound to another payment. -/
def PAYMENT_IDENTIFIER_CONFLICT : String := "payment_identifier_conflict"

/-- The payment identifier was settled by another payment. -/
def PAYMENT_IDENTIFIER_SETTLED : String := "payment_identifier_settled"

def UNEXPECTED_VERIFY_ERROR : String := "unexpected_verify_error"

def UNEXPECTED_SETTLE_ERROR : String := "unexpected_settle_error"

/-- Every refusal word this profile knows. -/
def KNOWN_REFUSAL_REASONS : List String :=
  ["insufficient_funds", "invalid_scheme", "unsupported_scheme", "invalid_network",
    INVALID_PAYLOAD, "invalid_payment_requirements", "invalid_x402_version",
    "invalid_transaction_state", DELEGATION_REJECTED, "payer_budget_exhausted",
    "budget_exhausted", SETTLEMENT_REVERTED, VENDOR_NOT_CREDITED]

/-- The words of a failure that was formed after the broadcast. -/
def MINED_REFUSAL_REASONS : List String := [SETTLEMENT_REVERTED, VENDOR_NOT_CREDITED]

/-! ## The outcomes of a call -/

/-- The address functions of `viem`. -/
structure Viem where
  isAddress : String → Bool
  /-- The checksummed form of a text that `isAddress` accepts. -/
  getAddress : String → String

def zeroAddress : String := "0x0000000000000000000000000000000000000000"

/-- What a facilitator call produced. The body is there when the call reached a JSON body. -/
structure FacilitatorAnswer where
  reachable : Bool
  body : Option Json

/-- `/^0x[0-9a-fA-F]{64}$/`. -/
def isTransactionHash (text : String) : Bool := isHexOf 32 text

/-- A hash, or nothing. -/
def readTransaction (value : Option Json) : Option String :=
  (value.bind Json.text).filter isTransactionHash

inductive VerificationOutcome where
  | unavailable (errorReason : String)
  | rejected (errorReason : String)
  | accepted (payer : String)

inductive SettlementOutcome where
  /-- The facilitator did not look at the request: nothing was charged. -/
  | unavailable (errorReason : String)
  /-- The payer may have been charged. -/
  | unknown (transaction : Option String)
  /-- The settlement failed. -/
  | failed (errorReason : String) (transaction : Option String)
  | settled (transaction : Option String) (replayed : Bool)

/-- The transaction that the outcome names. -/
def SettlementOutcome.transaction : SettlementOutcome → Option String
  | unavailable _ => none
  | unknown transaction => transaction
  | failed _ transaction => transaction
  | settled transaction _ => transaction

/-- The facilitator answered from its own record. -/
def SettlementOutcome.replayed : SettlementOutcome → Bool
  | settled _ replayed => replayed
  | _ => false

/-- The facilitator's word if it is known, `DELEGATION_REJECTED` if not. -/
def foldRefusalReason (value : Option String) : String :=
  match value with
  | some word => if word ∈ KNOWN_REFUSAL_REASONS then word else DELEGATION_REJECTED
  | none => DELEGATION_REJECTED

/-- The body names the payer that the seller derived from the header. -/
def namesPayer (viem : Viem) (body : Json) (expectedPayer : String) : Bool :=
  match body.textField "payer" with
  | some payer => viem.isAddress payer && viem.getAddress payer == expectedPayer
  | none => false

/-- The body of a call that reached one that can be read. -/
def FacilitatorAnswer.readable (response : FacilitatorAnswer) : Option Json :=
  if response.reachable then response.body.filter Json.isObject else none

/-- `isVerificationAccepted` of an object. -/
def isVerificationAccepted (viem : Viem) (body : Json) (expectedPayer : String) : Bool :=
  body.trueField "isValid" && namesPayer viem body expectedPayer

/-- A call to `/verify`, as the seller reads it. -/
def decideVerification (viem : Viem) (response : FacilitatorAnswer) (expectedPayer : String) :
    VerificationOutcome :=
  match response.readable with
  | none => .unavailable FACILITATOR_NOT_READY
  | some body =>
    let invalidReason := body.textField "invalidReason"
    if invalidReason = some RATE_LIMITED then .unavailable RATE_LIMITED
    else if invalidReason = some FACILITATOR_NOT_READY ∨
        invalidReason = some UNEXPECTED_VERIFY_ERROR then
      .unavailable FACILITATOR_NOT_READY
    else if !isVerificationAccepted viem body expectedPayer then
      .rejected (foldRefusalReason invalidReason)
    else .accepted expectedPayer

/-- A call to `/settle`, as the seller reads it. -/
def decideSettlement (viem : Viem) (response : FacilitatorAnswer) (expectedPayer : String) :
    SettlementOutcome :=
  match response.readable with
  | none => .unknown none
  | some body =>
    let errorReason := body.textField "errorReason"
    let transaction := readTransaction (body.field "transaction")
    if errorReason = some RATE_LIMITED then .unavailable RATE_LIMITED
    else if errorReason = some FACILITATOR_NOT_READY then .unavailable FACILITATOR_NOT_READY
    else if errorReason = some SETTLEMENT_PENDING ∨
        errorReason = some UNEXPECTED_SETTLE_ERROR then
      .unknown transaction
    else if !body.trueField "success" then
      let errorReason := foldRefusalReason errorReason
      if transaction ≠ none ∧ errorReason ∉ MINED_REFUSAL_REASONS then .unknown transaction
      else .failed errorReason transaction
    -- A success under another payer is no clean failure: money may well have moved.
    else if !namesPayer viem body expectedPayer then .unknown transaction
    else .settled transaction (body.trueField "replayed")

/-! ## What the outcomes say -/

theorem isTransactionHash_of_readTransaction {value : Option Json} {transaction : String}
    (h : readTransaction value = some transaction) : isTransactionHash transaction = true :=
  (Option.filter_eq_some_iff.mp h).2

/-! ## The fields of an offer -/

def X402_VERSION : Int := 2

/-- `value === X402_VERSION`. -/
def isX402Version (value : Option Json) : Bool := value.bind Json.int = some X402_VERSION

/-- Whether a declared flow is one that is settled at once. -/
def flowSupported (declaredFlow : Option Json) : Bool :=
  match declaredFlow with
  | none => true
  | some .null => true
  | some (.string flow) => decide (flow = "upfront" ∨ flow = "authorization")
  | _ => false

variable {viem : Viem}

/-! ## The payment intent -/

/-- A value as the ABI encoder sees it. -/
inductive AbiValue where
  | bytes32 (value : String)
  | string (value : String)
  /-- An address is its bytes, in whichever case the text spelled them. -/
  | address (bytes : String)
  | uint256 (value : Nat)

/-- The hash functions of `viem`: bytes are hex texts. -/
structure Hashing where
  keccak256 : String → String
  sha256 : String → String
  /-- The UTF-8 bytes of a text. -/
  toBytes : String → String
  encodeAbiParameters : List AbiValue → String

/-- `/^0x[0-9a-fA-F]*$/`. -/
def isHex (text : String) : Bool :=
  match text.toList with
  | '0' :: 'x' :: digits => digits.all isHexDigit
  | _ => false

/-- The encoder throws for a text that is no address. -/
def abiAddress (viem : Viem) (value : String) : Option AbiValue :=
  if viem.isAddress value then some (.address (toLowerCase value)) else none

/-- It throws for a number that does not fit. -/
def abiUint256 (value : Nat) : Option AbiValue :=
  if value < 2 ^ 256 then some (.uint256 value) else none

/-- The fields one exact payment is keyed on. -/
structure PaymentIntent where
  network : String
  asset : String
  amount : Nat
  payTo : String
  delegationManager : String
  permissionContext : String

def PAYMENT_INTENT_DOMAIN (hashing : Hashing) : String :=
  hashing.keccak256 (hashing.toBytes "mapae.erc7710.payment-intent.v1")

/-- The key of the payment; `none` where the encoder throws. -/
def derivePaymentIntentId (viem : Viem) (hashing : Hashing) (intent : PaymentIntent) :
    Option String := do
  let asset ← abiAddress viem intent.asset
  let amount ← abiUint256 intent.amount
  let payTo ← abiAddress viem intent.payTo
  let delegationManager ← abiAddress viem intent.delegationManager
  some (hashing.keccak256 (hashing.encodeAbiParameters
    [.bytes32 (PAYMENT_INTENT_DOMAIN hashing), .string intent.network, asset, amount, payTo,
      delegationManager, .bytes32 (hashing.keccak256 intent.permissionContext)]))

end Mapae.Delegation
