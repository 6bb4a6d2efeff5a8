import Mapae.Delegation.ResourcePayment
import Mapae.Store.Scheduler

/-!
# The executor of the payment scheduler

A job is paid through the client, with a provider that refuses to sign outside of the job's conditions. The
result of the client is read as `paid`, as `unpaid` where nothing can have been charged, or as `unknown`.

* `Execution.exchange` is the client's call, `paymentExecutor` the reading of its result
* `scheduledProvider_ok` says what holds of a leaf that was signed for a job
-/

namespace Mapae.Delegation

open Mapae.Infra Mapae.Shared Mapae.Store

variable {viem : Viem} {Wire N : Type}

def PRE_HEADER_FAILURES : List PaymentFailureCode :=
  [.NOT_PAYMENT_REQUIRED, .UNSUPPORTED_X402_VERSION, .SELLER_OFFER_INVALID, .FACILITATOR_UNTRUSTED,
    .MANAGER_MISMATCH, .SPEND_POLICY_REFUSED, .LIMIT_EXCEEDED, .PERMISSION_INACTIVE, .PERMISSION_EMPTY,
    .SIGNING_FAILED]

/-- A code as it is stored. -/
def PaymentFailureCode.text : PaymentFailureCode → String
  | NOT_PAYMENT_REQUIRED => "NOT_PAYMENT_REQUIRED"
  | UNSUPPORTED_X402_VERSION => "UNSUPPORTED_X402_VERSION"
  | SELLER_OFFER_INVALID => "SELLER_OFFER_INVALID"
  | FACILITATOR_UNTRUSTED => "FACILITATOR_UNTRUSTED"
  | MANAGER_MISMATCH => "MANAGER_MISMATCH"
  | LIMIT_EXCEEDED => "LIMIT_EXCEEDED"
  | SPEND_POLICY_REFUSED => "SPEND_POLICY_REFUSED"
  | PERMISSION_INACTIVE => "PERMISSION_INACTIVE"
  | PERMISSION_EMPTY => "PERMISSION_EMPTY"
  | SIGNING_FAILED => "SIGNING_FAILED"
  | PAYMENT_REJECTED => "PAYMENT_REJECTED"
  | SELLER_UNAVAILABLE => "SELLER_UNAVAILABLE"
  | SETTLEMENT_UNKNOWN => "SETTLEMENT_UNKNOWN"
  | MALFORMED_RESOURCE => "MALFORMED_RESOURCE"
  | TRANSPORT_ERROR => "TRANSPORT_ERROR"

/-- `BigInt` of an amount, which prints as a positive decimal. -/
def bigInt : Json → Int
  | .string text => decimalValue text.toList
  | .number mantissa exponent => ((Json.number mantissa exponent).int).getD 0
  | .array [value] => bigInt value
  | _ => 0

def amountOf (offer : Json) : Int := ((offer.field "amount").map bigInt).getD 0

/-- What `allowed` reads: the status of the job in the store, when it is there, and the clock. -/
structure Reading where
  status : Option JobStatus
  now : Int

def allowed (job : ScheduledJob) (reading : Reading) : Bool :=
  decide (reading.status ≠ some .cancelled) && decide (reading.now < job.endsAt)

/-- The agent's runtime, as the executor uses it. -/
structure ScheduleRuntime (viem : Viem) extends OfferConfig viem where
  preflight : Option (Json → Except String PreflightAnswer)
  provider : Json → Except String Leaf

/-- The provider for a job. Its state is `policyDenied`. -/
def scheduledProvider (runtime : ScheduleRuntime viem) (job : ScheduledJob) (before after : Reading) (offer : Json)
    (policyDenied : Bool) : Except String Leaf × Bool :=
  if allowed job before = false ∨ toLowerCase (payToOf offer) ≠ toLowerCase job.payTo ∨
      amountOf offer > job.maxAmountBase then
    (.error "schedule condition refused", true)
  else
    match runtime.provider offer with
    | .error message => (.error message, policyDenied)
    | .ok signed =>
      if allowed job after = false then (.error "schedule cancelled or expired while signing", true)
      else (.ok signed, policyDenied)

/-- A job, and what its execution meets. The target is what `resolveResourceTarget` gave. -/
structure Execution (viem : Viem) (Wire N : Type) where
  codec : HeaderCodec Wire
  texts : FailureTexts
  format : AnswerFormat Wire N
  runtime : ScheduleRuntime viem
  job : ScheduledJob
  before : Reading
  after : Reading
  target : String
  answers : SellerAnswers Wire N
  paymentIdentifier : String

namespace Execution

variable (x : Execution viem Wire N)

def config : DelegatedPaymentConfig viem Bool where
  toOfferConfig := x.runtime.toOfferConfig
  preflight := x.runtime.preflight
  provider := scheduledProvider x.runtime x.job x.before x.after

/-- The client's call. -/
def exchange : Exchange Wire Bool :=
  payForDelegatedResource x.codec x.texts x.config x.format x.target x.answers x.paymentIdentifier false

end Execution

/-- The reading of a result. -/
def readResult (policyDenied : Bool) : PaymentResult → ScheduledResult
  | .ok amount _ transaction _ _ => .paid ((amount.map bigInt).getD 0) transaction
  | .failed code _ _ _ _ =>
    if policyDenied then .unpaid "POLICY_DENIED" false
    else if code = .TRANSPORT_ERROR ∨ code = .SELLER_UNAVAILABLE then .unpaid code.text true
    -- These failures happen before a payment header can leave this process.
    else if code ∈ PRE_HEADER_FAILURES then .unpaid code.text false
    else .unknown code.text

def readExchange (e : Exchange Wire Bool) : Except Escape ScheduledResult :=
  e.outcome.map (readResult e.state)

def paymentExecutor (x : Execution viem Wire N) : Except Escape ScheduledResult := readExchange x.exchange

/-- What `tick` makes of an execution: an exception is an unknown outcome. -/
def recorded : Except Escape ScheduledResult → ScheduledResult
  | .ok result => result
  | .error _ => .unknown "EXECUTION_INTERRUPTED"

/-! ## What the reading knows -/

/-- **The list of the scheduler** and the transport are the codes before the header. -/
theorem early_iff (code : PaymentFailureCode) :
    code.Early ↔ code ∈ PRE_HEADER_FAILURES ∨ code = .TRANSPORT_ERROR := by
  cases code <;> decide

/-- A failure before the header is unpaid. -/
theorem readResult_early {code : PaymentFailureCode} (h : code.Early) (policyDenied : Bool) (detail : String)
    (status : Option Nat) (paymentIdentifier transaction : Option String) :
    ∃ text retry, readResult policyDenied (.failed code detail status paymentIdentifier transaction) =
      .unpaid text retry := by
  simp only [readResult]
  split
  · exact ⟨_, _, rfl⟩
  · split
    · exact ⟨_, _, rfl⟩
    · next hretry =>
      rcases (early_iff code).mp h with hlist | htransport
      · exact ⟨_, _, if_pos hlist⟩
      · exact absurd (Or.inl htransport) hretry

/-- A failure after the header is unknown, unless the seller could not take the payment. -/
theorem readResult_late {code : PaymentFailureCode} (h : ¬ code.Early) (detail : String) (status : Option Nat)
    (paymentIdentifier transaction : Option String) :
    readResult false (.failed code detail status paymentIdentifier transaction) =
      if code = .SELLER_UNAVAILABLE then .unpaid "SELLER_UNAVAILABLE" true else .unknown code.text := by
  rw [early_iff, not_or] at h
  by_cases hcode : code = .SELLER_UNAVAILABLE
  · simp [readResult, hcode, PaymentFailureCode.text]
  · simp [readResult, hcode, h.1, h.2]

/-- **A leaf that was signed for a job** is for its recipient, and within its bound. -/
theorem scheduledProvider_ok {runtime : ScheduleRuntime viem} {job : ScheduledJob} {before after : Reading}
    {offer : Json} {denied denied' : Bool} {leaf : Leaf}
    (h : scheduledProvider runtime job before after offer denied = (.ok leaf, denied')) :
    toLowerCase (payToOf offer) = toLowerCase job.payTo ∧ amountOf offer ≤ job.maxAmountBase ∧ denied' = denied := by
  unfold scheduledProvider at h
  split at h
  · cases h
  · next hconditions =>
    simp only [not_or, not_not, Int.not_lt, gt_iff_lt] at hconditions
    split at h
    · cases h
    · split at h
      · cases h
      · cases h
        exact ⟨hconditions.2.1, hconditions.2.2, rfl⟩

end Mapae.Delegation
