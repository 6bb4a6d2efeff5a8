import Mapae.Delegation.FacilitatorContract
import Mapae.Shared.X402

/-!
# The paywall's answer ladder

Which status and which receipt a buyer gets for each outcome of the two facilitator calls.

* `FacilitatorClient.call` is one call as the seller makes it
* `verificationAnswer` answers what `/verify` did not accept
* `settlementAnswer` answers every outcome of `/settle`
-/

namespace Mapae.Seller

open Mapae.Infra Mapae.Shared Mapae.Delegation

/-- What one HTTP call of the facilitator came to. -/
inductive FetchResult where
  /-- Refused, timed out, redirected, or cut off. -/
  | threw
  /-- Answered. The body is `none` when it is not JSON. -/
  | answered (status : Nat) (body : Option Json)

/-- `FacilitatorClient.#call`: every way that did not yield a body is unreachable. -/
def FacilitatorClient.call : FetchResult → FacilitatorAnswer
  | .threw => { reachable := false, body := none }
  | .answered status body =>
    if ¬ (200 ≤ status ∧ status < 300) then { reachable := false, body := none }
    else
      match body with
      | none => { reachable := false, body := none }
      | some value => { reachable := true, body := some value }

/-- The words of the bodies the paywall answers with. -/
def errorBody (word : String) : Json := .object [("error", .string word)]

section Answers

variable {Wire : Type} (codec : HeaderCodec Wire)

/-- The receipt of an attempted payment that was not settled. -/
def writeFailureReceipt (errorReason : String) (payer : Option String) (transaction : String) :
    Wire :=
  encodePaymentResponseHeader codec (.failure GIWA_SEPOLIA_CAIP2 payer transaction errorReason)

/-- The 402 that re-issues the offer, under the receipt `header`. -/
def offer (body : Json) (header : Wire) : HttpResponse Wire :=
  { status := 402, paymentResponse := some header, body := some body }

/-- The rungs of a verification. `none` means the payment goes on to settlement. -/
def verificationAnswer (offerBody : Json) (payer : String) :
    VerificationOutcome → Option (HttpResponse Wire)
  | .unavailable errorReason => some
      { status := 503
        paymentResponse := some (writeFailureReceipt codec errorReason (some payer) "")
        body := some (errorBody "facilitator_unavailable") }
  | .rejected errorReason =>
      some (offer offerBody (writeFailureReceipt codec errorReason (some payer) ""))
  | .accepted _ => none

/-- The rungs of a settlement. `none` means the resource is delivered. -/
def settlementRefusal (offerBody : Json) (payer : String) :
    SettlementOutcome → Option (HttpResponse Wire)
  | .unavailable errorReason => some
      { status := 503
        paymentResponse := some (writeFailureReceipt codec errorReason (some payer) "")
        body := some (errorBody "facilitator_unavailable") }
  | .unknown transaction => some
      { status := 504
        paymentResponse := some
          (writeFailureReceipt codec SETTLEMENT_PENDING (some payer) (transaction.getD ""))
        body := some (errorBody "settlement_unknown") }
  | .failed errorReason transaction =>
      let receipt := writeFailureReceipt codec errorReason (some payer) (transaction.getD "")
      -- The buyer has paid once: no offer goes back with it.
      if errorReason = VENDOR_NOT_CREDITED then some
        { status := 502, paymentResponse := some receipt,
          body := some (errorBody "settlement_misdirected") }
      else some (offer offerBody receipt)
  | .settled _ _ => none

/-- What the handler behind the paywall served, with the receipt of the payment that bought
it. -/
def deliver (resource : Nat × Option Json) (payer : String) (transaction : Option String) :
    HttpResponse Wire :=
  { status := resource.1
    paymentResponse := some (encodePaymentResponseHeader codec
      (.success GIWA_SEPOLIA_CAIP2 payer (transaction.getD "")))
    body := resource.2 }

/-- The two ends of a payment: the 402 with its offer, and what the handler serves. -/
structure Paywalled where
  offer : Json
  resource : Nat × Option Json

/-- The answer to every outcome of a settlement. -/
def settlementAnswer (paywalled : Paywalled) (payer : String) (outcome : SettlementOutcome) :
    HttpResponse Wire :=
  (settlementRefusal codec paywalled.offer payer outcome).getD
    (deliver codec paywalled.resource payer outcome.transaction)

end Answers

/-! ## What the rungs answer -/

section Rungs

variable {Wire : Type} {codec : HeaderCodec Wire} {offerBody : Json} {payer : String}
  {response : HttpResponse Wire}

/-- The resource is not what a refused verification is answered with. -/
theorem verificationAnswer_status {outcome : VerificationOutcome}
    (h : verificationAnswer codec offerBody payer outcome = some response) :
    response.status ≠ 200 := by
  cases outcome with
  | unavailable errorReason =>
    cases h
    exact fun h => nomatch h
  | rejected errorReason =>
    cases h
    exact fun h => nomatch h
  | accepted payer => cases h

theorem settlementRefusal_status {outcome : SettlementOutcome}
    (h : settlementRefusal codec offerBody payer outcome = some response) :
    response.status ≠ 200 := by
  cases outcome with
  | unavailable errorReason =>
    cases h
    exact fun h => nomatch h
  | unknown transaction =>
    cases h
    exact fun h => nomatch h
  | failed errorReason transaction =>
    simp only [settlementRefusal] at h
    split at h <;> cases h <;> exact fun h => nomatch h
  | settled transaction replayed => cases h

end Rungs

end Mapae.Seller
