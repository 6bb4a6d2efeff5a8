import Mapae.Delegation.FacilitatorContract

/-!
# What a failed attempt says

Every failure of the facilitator's two routes is an error object, and `describeFailure` is the
one classification of it, for the wire and for the ledger alike.

* `not_ready`: no verdict was formed
* `rejected`: nobody was charged
* `error`: a transaction exists and its result is unknown
-/

namespace Mapae.Facilitator

open Mapae.Store Mapae.Delegation

/-- A refusal formed before the chain was touched. -/
inductive PaymentValidationReason where
  | invalidX402Version
  | invalidPayload
  | invalidPaymentRequirements
  | unsupportedScheme
  | invalidNetwork
  | invalidTransactionState
  deriving DecidableEq

def PaymentValidationReason.text : PaymentValidationReason → String
  | .invalidX402Version => "invalid_x402_version"
  | .invalidPayload => INVALID_PAYLOAD
  | .invalidPaymentRequirements => "invalid_payment_requirements"
  | .unsupportedScheme => "unsupported_scheme"
  | .invalidNetwork => "invalid_network"
  | .invalidTransactionState => "invalid_transaction_state"

/-- The classes of error objects that the classification tells apart. -/
inductive ErrorClass where
  | rpcUnreachableBeforeBroadcast
  | settlementStorageUnavailable
  | settlementPending (transaction : String)
  | paymentValidation (reason : PaymentValidationReason)
  | settlementBudgetExceeded (errorCode : BudgetCode)
  | redemptionRejected
  /-- `ContractFunctionRevertedError`: the chain answered no. -/
  | contractFunctionReverted
  /-- `ExecutionRevertedError`: the same, without revert data. -/
  | executionReverted
  /-- Any other `Error`. -/
  | other
  /-- A thrown value that is not an `Error`. -/
  | notAnError
  deriving DecidableEq

/-- A thrown value: its class, and the error it wraps. -/
inductive JsError where
  | mk (cls : ErrorClass) (cause : Option JsError)

def JsError.cls : JsError → ErrorClass
  | .mk cls _ => cls

/-- An error that wraps nothing. -/
def JsError.ofClass (cls : ErrorClass) : JsError := .mk cls none

/-- The first `depth` links of the chain of causes. -/
def causeChain : Nat → JsError → List ErrorClass
  | 0, _ => []
  | depth + 1, .mk cls cause =>
    if cls = .notAnError then []
    else cls :: (match cause with
      | some error => causeChain depth error
      | none => [])

/-- The chain itself refused the redemption. -/
def isRedemptionRevert (error : JsError) : Bool :=
  (causeChain 8 error).any fun cls => cls = .contractFunctionReverted ∨ cls = .executionReverted

inductive Route where
  | verify
  | settle

inductive SettlementFailure where
  | notReady
  | rejected (errorCode : String)
  | error (transaction : String)

/-- What a failed attempt says to the wire and to the ledger. -/
def describeFailure (error : JsError) (route : Route) : SettlementFailure :=
  match error.cls with
  | .rpcUnreachableBeforeBroadcast => .notReady
  | .settlementStorageUnavailable => .notReady
  | .settlementPending transaction => .error transaction
  | .paymentValidation reason => .rejected reason.text
  | .settlementBudgetExceeded errorCode => .rejected errorCode.text
  | cls =>
    if cls = .redemptionRejected ∨ isRedemptionRevert error then .rejected DELEGATION_REJECTED
    else
      match route with
      | .verify => .rejected UNEXPECTED_VERIFY_ERROR
      | .settle => .rejected UNEXPECTED_SETTLE_ERROR

end Mapae.Facilitator
