import Mapae.Delegation.FacilitatorContract
import Mapae.Shared.X402

/-!
# What the buyer's client makes of the seller's answer

The second half of `payForDelegatedResource`: the payment header is on the wire, and the
answer, or its absence, becomes a result that says whether the payer may have been charged.
-/

namespace Mapae.Delegation

open Mapae.Infra Mapae.Shared Mapae.Store

/-- The codes that a seller's own word can select. -/
inductive SellerRefusalCode where
  /-- The payer may already have been charged. -/
  | SETTLEMENT_UNKNOWN
  /-- Nothing was examined and nothing was charged. -/
  | SELLER_UNAVAILABLE
  | PAYMENT_REJECTED
  deriving DecidableEq

open SellerRefusalCode

/-- Why a payment whose header was sent did not yield the resource. -/
inductive DelegatedPaymentFailureCode where
  | refused (code : SellerRefusalCode)
  | MALFORMED_RESOURCE

open DelegatedPaymentFailureCode

inductive DelegatedPaymentResult where
  /-- The payment bought the resource. -/
  | ok (transaction : Option String) (resource : Json)
  | failed (code : DelegatedPaymentFailureCode) (detail : String) (status : Option Nat)
      (transaction : Option String)

/-- The statuses of a seller that could not establish what happened. -/
def SETTLEMENT_UNKNOWN_STATUSES : List Nat := [408, 425, 504, 502, 520, 521, 522, 523, 524]

/-- The statuses of a seller that could not take the payment. -/
def SELLER_UNAVAILABLE_STATUSES : List Nat := [429, 503]

def X402_REFUSAL_WORDS : List String :=
  ["insufficient_funds", "invalid_scheme", "unsupported_scheme", "invalid_network",
    INVALID_PAYLOAD, "invalid_payment_requirements", "invalid_x402_version",
    "invalid_transaction_state"]

/-- The words a seller may classify its own refusal with. -/
def SELLER_REFUSAL_CODES : List (String × SellerRefusalCode) :=
  [(SETTLEMENT_PENDING, SETTLEMENT_UNKNOWN),
    (UNEXPECTED_SETTLE_ERROR, SETTLEMENT_UNKNOWN),
    (RATE_LIMITED, SELLER_UNAVAILABLE),
    (FACILITATOR_NOT_READY, SELLER_UNAVAILABLE),
    (UNEXPECTED_VERIFY_ERROR, SELLER_UNAVAILABLE),
    (DELEGATION_REJECTED, PAYMENT_REJECTED),
    (PAYMENT_IDENTIFIER_CONFLICT, PAYMENT_REJECTED),
    (PAYMENT_IDENTIFIER_SETTLED, SETTLEMENT_UNKNOWN)] ++
  X402_REFUSAL_WORDS.map fun word => (word, PAYMENT_REJECTED)

def REFUSAL_NOTE : SellerRefusalCode → String
  | SETTLEMENT_UNKNOWN => "the payer may already be charged"
  | SELLER_UNAVAILABLE => "nothing charged, retry later"
  | PAYMENT_REJECTED => "no settlement was attempted"

/-- What a failing answer's `Payment-Response` declared about itself. -/
structure DeclaredRefusal where
  code : Option SellerRefusalCode
  /-- The word, when it is one of ours. -/
  reason : Option String
  /-- The hash it named. -/
  transaction : Option String

/-- The hash a seller's own body names. -/
def extractTransaction (resource : Json) : Option String :=
  readTransaction (Json.fieldOf (resource.field "receipt") "transaction")

section Reading

variable {Wire : Type} (codec : HeaderCodec Wire)

/-- How the seller described its own failure, of the two fields that are read. -/
def readSellerRefusal (header : Option Wire) : DeclaredRefusal :=
  match header.bind codec.decode with
  | none => { code := none, reason := none, transaction := none }
  | some receipt =>
    let reason := receipt.textField "errorReason"
    let code := reason.bind fun word => SELLER_REFUSAL_CODES.lookup word
    { code := code
      reason := if code.isSome then reason else none
      transaction := readTransaction (receipt.field "transaction") }

/-- The receipt in `Payment-Response`, when it is a receipt of this payment: the hash it names,
or nothing in its place. -/
def readSettlementReceipt (viem : Viem) (header : Option Wire) (delegator : String) :
    Option (Option String) :=
  match header.bind codec.decode with
  | none => none
  | some receipt =>
    if receipt.isObject ∧ receipt.trueField "success" ∧
        receipt.textField "network" = some GIWA_SEPOLIA_CAIP2 ∧
        namesPayer viem receipt (viem.getAddress delegator) then
      match receipt.field "transaction" with
      | none => some none
      | some .null => some none
      | some (.string "") => some none
      | some (.string transaction) =>
        if isTransactionHash transaction then some (some transaction) else none
      | some _ => none
    else none

/-- What the status alone says of a failing answer. -/
def codeOfStatus (status : Nat) : SellerRefusalCode :=
  if status ∈ SETTLEMENT_UNKNOWN_STATUSES then SETTLEMENT_UNKNOWN
  else if status ∈ SELLER_UNAVAILABLE_STATUSES then SELLER_UNAVAILABLE
  else PAYMENT_REJECTED

/-- What a failing answer says: its word may add caution to its status, never take it away. -/
def codeOfRefusal (status : Nat) (refusal : DeclaredRefusal) : SellerRefusalCode :=
  if codeOfStatus status = SETTLEMENT_UNKNOWN ∨ refusal.transaction ≠ none then SETTLEMENT_UNKNOWN
  else refusal.code.getD (codeOfStatus status)

/-- The sentence of a failing answer. -/
def detailOfRefusal (status : Nat) (refusal : DeclaredRefusal) : String :=
  let code := codeOfRefusal status refusal
  let what :=
    match refusal.reason with
    | some reason => s!"seller reported {reason} ({status})"
    | none =>
      if code = SETTLEMENT_UNKNOWN then s!"seller could not confirm settlement ({status})"
      else if code = SELLER_UNAVAILABLE then s!"seller could not take the payment ({status})"
      else s!"seller rejected the payment ({status})"
  let found :=
    match refusal.transaction with
    | some transaction => s!" — transaction {transaction}"
    | none => ""
  s!"{what} — {REFUSAL_NOTE code}{found}"

/-- The result of a payment whose header was sent: `none` is a connection that died with
`message`. -/
def resultOfAnswer (viem : Viem) (delegator message : String)
    (second : Option (HttpResponse Wire)) : DelegatedPaymentResult :=
  match second with
  | none =>
    .failed (refused SETTLEMENT_UNKNOWN) s!"no answer after the payment was sent: {message}" none
      none
  | some second =>
    if !second.ok then
      let refusal := readSellerRefusal codec second.paymentResponse
      let code := codeOfRefusal second.status refusal
      .failed (refused code) (detailOfRefusal second.status refusal) (some second.status)
        (if code = SETTLEMENT_UNKNOWN then refusal.transaction else none)
    else
      match second.body with
      | none =>
        .failed MALFORMED_RESOURCE s!"resource could not be read: {message}" (some second.status)
          none
      | some resource =>
        let transaction :=
          match readSettlementReceipt codec viem second.paymentResponse delegator with
          | some named => named
          | none => extractTransaction resource
        .ok transaction resource

end Reading

/-! ## What a failing answer says -/

/-- **A named hash outranks the word and the status of a failing answer.** -/
theorem codeOfRefusal_of_transaction {status : Nat} {refusal : DeclaredRefusal}
    {transaction : String} (h : refusal.transaction = some transaction) :
    codeOfRefusal status refusal = SETTLEMENT_UNKNOWN := by
  unfold codeOfRefusal
  rw [if_pos (Or.inr (by rw [h]; exact fun hnone => nomatch hnone))]

/-- No word takes away the caution of a status. -/
theorem codeOfRefusal_of_status {status : Nat} (refusal : DeclaredRefusal)
    (h : status ∈ SETTLEMENT_UNKNOWN_STATUSES) :
    codeOfRefusal status refusal = SETTLEMENT_UNKNOWN := by
  unfold codeOfRefusal
  rw [if_pos (Or.inl (by rw [codeOfStatus, if_pos h]))]

/-- A failing answer is reported under its code, with the hash it named when it is in doubt. -/
theorem resultOfAnswer_failing {Wire : Type} (codec : HeaderCodec Wire) (viem : Viem)
    (delegator message : String) {second : HttpResponse Wire} {code : SellerRefusalCode}
    (h : second.ok = false)
    (hcode : codeOfRefusal second.status (readSellerRefusal codec second.paymentResponse) = code) :
    resultOfAnswer codec viem delegator message (some second) =
      .failed (refused code)
        (detailOfRefusal second.status (readSellerRefusal codec second.paymentResponse))
        (some second.status)
        (if code = SETTLEMENT_UNKNOWN then
          (readSellerRefusal codec second.paymentResponse).transaction else none) := by
  subst hcode
  simp only [resultOfAnswer, h, Bool.not_false, if_true]

end Mapae.Delegation
