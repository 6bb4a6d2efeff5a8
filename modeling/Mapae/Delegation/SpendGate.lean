import Mapae.Delegation.FacilitatorContract
import Mapae.Infra.Table
import Mapae.Infra.Transition
import Mapae.Shared.Token

/-!
# The agent's spend gate

An operator bounds what an agent runtime signs: per payment, per session, and to whom.

* `judge` answers whether terms are within the policy, and changes nothing
* `wrap` puts a leaf provider behind the same judgement. It judges and reserves before the
  provider is awaited, and gives the reservation back when the provider throws

A call is two stretches: up to the await, and what happens once the provider settles.
-/

namespace Mapae.Delegation

open Mapae.Infra Mapae.Shared Mapae.Store

/-! ## The policy -/

/-- The limits of a runtime, in base units. What is not set is not limited. -/
structure AgentSpendPolicy where
  maxPerPaymentBase : Option Nat
  maxSessionTotalBase : Option Nat
  /-- The payees, in checksummed form. -/
  allowedPayTo : Option (List String)

/-! ## The judgement -/

/-- `/^[1-9]\d*$/`. -/
def isPositiveDecimal (text : String) : Bool :=
  match text.toList with
  | [] => false
  | first :: rest => first ≠ '0' && first.isDigit && rest.all Char.isDigit

/-- The part of a checked offer that the gate reads. -/
structure PaymentTerms (viem : Viem) where
  amount : String
  payTo : String
  amount_decimal : isPositiveDecimal amount = true
  payTo_address : viem.isAddress payTo = true

/-- `BigInt(amount)`. -/
def PaymentTerms.base {viem : Viem} (terms : PaymentTerms viem) : Nat :=
  decimalValue terms.amount.toList

inductive PreflightVerdict where
  | ok
  /-- Refused with the code `SPEND_POLICY_REFUSED`. -/
  | refused (detail : String)
  deriving DecidableEq

variable {viem : Viem}

/-- Whether terms are within the policy, when `signedBase` is signed or being signed. -/
def judge (policy : AgentSpendPolicy) (signedBase : Int) (terms : PaymentTerms viem) :
    PreflightVerdict :=
  let amount := terms.base
  let payTo := viem.getAddress terms.payTo
  if policy.allowedPayTo.any (fun allowed => payTo ∉ allowed) then
    .refused s!"payTo {payTo} is not in AGENT_ALLOWED_PAY_TO"
  else
    match policy.maxPerPaymentBase.filter (fun cap => amount > cap) with
    | some cap =>
      .refused s!"payment of {amount} exceeds the AGENT_MAX_PAYMENT_MUSDC cap of {cap}"
    | none =>
      match policy.maxSessionTotalBase.filter (fun cap : Nat => signedBase + amount > cap) with
      | some cap =>
        .refused (s!"payment of {amount} would take this session to {signedBase + amount}, " ++
          s!"over the AGENT_SESSION_BUDGET_MUSDC of {cap}")
      | none => .ok

/-- **What passes the judgement is within every limit.** -/
theorem judge_eq_ok {policy : AgentSpendPolicy} {signedBase : Int} {terms : PaymentTerms viem} :
    judge policy signedBase terms = .ok ↔
      (∀ allowed, policy.allowedPayTo = some allowed → viem.getAddress terms.payTo ∈ allowed) ∧
        (∀ cap, policy.maxPerPaymentBase = some cap → terms.base ≤ cap) ∧
        ∀ cap, policy.maxSessionTotalBase = some cap → signedBase + terms.base ≤ cap := by
  have hwithin {cap? : Option Nat} {p : Nat → Bool} :
      cap?.filter p = none ↔ ∀ cap, cap? = some cap → p cap = false := by
    cases cap? <;> simp [Option.filter]
  have hpayee :
      policy.allowedPayTo.any (fun allowed => viem.getAddress terms.payTo ∉ allowed) = false ↔
      ∀ allowed, policy.allowedPayTo = some allowed → viem.getAddress terms.payTo ∈ allowed := by
    cases policy.allowedPayTo <;> simp
  unfold judge
  dsimp only
  split
  · next hout =>
    refine ⟨(fun h => nomatch h), fun h => ?_⟩
    rw [hpayee.mpr h.1] at hout
    exact nomatch hout
  · next hin =>
    have hin := hpayee.mp (Bool.eq_false_iff.mpr hin)
    split
    · next cap hcap =>
      obtain ⟨hsome, hover⟩ := Option.filter_eq_some_iff.mp hcap
      refine ⟨(fun h => nomatch h), fun h => ?_⟩
      have hle := h.2.1 cap hsome
      have hlt := of_decide_eq_true hover
      omega
    · next hcap =>
      have hper := hwithin.mp hcap
      split
      · next cap htotal =>
        obtain ⟨hsome, hover⟩ := Option.filter_eq_some_iff.mp htotal
        refine ⟨(fun h => nomatch h), fun h => ?_⟩
        have hle := h.2.2 cap hsome
        have hlt := of_decide_eq_true hover
        omega
      · next htotal =>
        have hsession := hwithin.mp htotal
        refine Iff.intro (fun _ => ⟨hin, fun cap hsome => ?_, fun cap hsome => ?_⟩) (fun _ => rfl)
        · have := of_decide_eq_false (hper cap hsome)
          omega
        · have := of_decide_eq_false (hsession cap hsome)
          omega

/-! ## Calls through the wrapped provider -/

/-- Where a call to the inner provider is. -/
inductive SigningPhase where
  | inFlight
  /-- The inner provider returned a leaf. -/
  | signed
  /-- The inner provider threw: there is no leaf. -/
  | rejected
  deriving DecidableEq

/-- A call that reached the inner provider. -/
structure SigningCall (viem : Viem) where
  id : Nat
  terms : PaymentTerms viem
  phase : SigningPhase

structure GateState (viem : Viem) where
  signedBase : Int
  calls : Table (@SigningCall.id viem)

inductive GateAction (viem : Viem) where
  | judge (terms : PaymentTerms viem)
  /-- The wrapped provider is called. -/
  | call (terms : PaymentTerms viem)
  /-- The inner provider returns to the call, or throws. -/
  | resolve (id : Nat)
  | reject (id : Nat)

namespace SigningCall

def enter (phase : SigningPhase) (c : SigningCall viem) : SigningCall viem := { c with phase := phase }

@[simp] theorem enter_id (phase : SigningPhase) (c : SigningCall viem) : (c.enter phase).id = c.id := rfl

/-- What the call keeps of the session's total. -/
def counted (c : SigningCall viem) : Int := if c.phase = .rejected then 0 else c.terms.base

end SigningCall

namespace GateState

/-- The wrapped provider, up to its await: it throws, or it reserves the amount. -/
def begin (policy : AgentSpendPolicy) (s : GateState viem) (terms : PaymentTerms viem) :
    Except String (GateState viem) :=
  match judge policy s.signedBase terms with
  | .refused detail => .error s!"spend policy refused: {detail}"
  | .ok => .ok
    { signedBase := s.signedBase + terms.base
      calls := s.calls.insertNext (fun id => ⟨id, terms, .inFlight⟩) (fun _ => rfl) }

/-- The end of the call: the `catch` gives back the amount of this call. -/
def settle (s : GateState viem) (c : SigningCall viem) (phase : SigningPhase) : GateState viem where
  signedBase := if phase = .rejected then s.signedBase - c.terms.base else s.signedBase
  calls := s.calls.update c.id (SigningCall.enter phase) (SigningCall.enter_id phase)

/-- The call `id`, while the inner provider has not answered it. -/
def pending (s : GateState viem) (id : Nat) : Option (SigningCall viem) :=
  (s.calls.get? id).filter fun c => c.phase = .inFlight

def act (policy : AgentSpendPolicy) (s : GateState viem) : GateAction viem → Option (GateState viem)
  | .judge _ => some s
  | .call terms => some ((s.begin policy terms).toOption.getD s)
  | .resolve id => (s.pending id).map fun c => s.settle c .signed
  | .reject id => (s.pending id).map fun c => s.settle c .rejected

/-- The payments that are signed or in flight. -/
def outstanding (s : GateState viem) : Int := s.calls.sum SigningCall.counted

end GateState

/-- A runtime whose gate is open to any number of calls at once. -/
def spendGate (viem : Viem) (policy : AgentSpendPolicy) : System (GateState viem) :=
  .ofAct (fun s => s = ⟨0, Table.empty⟩) (GateState.act policy)

end Mapae.Delegation
