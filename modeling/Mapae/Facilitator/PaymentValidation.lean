import Mapae.Delegation.UserOperation
import Mapae.Facilitator.Guards
import Mapae.Shared.Token
import Mapae.Shared.X402

/-!
# The payments a facilitator redeems

`validateDelegatedPayment` reads a request of any shape, and `buildDelegatedTransfer` makes the
execution from what was accepted. A refusal is a `PaymentValidationError`, and any other exception
comes from a library.

The checks are grouped as the request has it: its shape, the offer, the payer's echo of it, the
signed payload and the redeemers.

viem is asked about four fields before they are known to be texts. `ViemValues` stands for what it
answers there, and a call may throw.
-/

namespace Mapae.Facilitator

open Mapae.Infra Mapae.Delegation Mapae.Shared

/-- What the validator throws. -/
inductive ValidationError where
  | refused (reason : PaymentValidationReason) (message : String)
  /-- No `PaymentValidationError`. -/
  | exception (message : String)

/-- The decoder of permission contexts. A chain has its root last. -/
structure ContextDecoder (D : Type) where
  /-- Nothing when decoding throws. -/
  decodeDelegations : String → Option (List D)
  delegator : D → String

structure ValidationOptions where
  delegationManager : String
  facilitator : String
  maxAmount : Option Nat

structure ValidatedDelegatedPayment where
  paymentPayload : Json
  paymentRequirements : Json
  amount : Nat
  /-- The root payer of the signed permission context. -/
  payer : String
  paymentIntentId : String

/-- `0x` and 64 KiB. -/
def MAX_PERMISSION_CONTEXT_HEX_LENGTH : Nat := 131074

/-- Throws a refusal. -/
def refuseIf (p : Prop) [Decidable p] (reason : PaymentValidationReason) (message : String) :
    Except ValidationError Unit :=
  throwIf p (.refused reason message)

/-- The fields that viem reads before they are known to be texts. -/
inductive AddressField where
  | asset
  | payTo
  | delegationManager
  | delegator

/-- `isAddress` and `getAddress` of any value; `none` where a call throws. viem takes what is no text
for what it prints as, and remembers the texts it was asked about, so that such a value has an answer
in each place. -/
structure ViemValues (viem : Viem) where
  isAddress : AddressField → Option Json → Option Bool
  getAddress : AddressField → Option Json → Option String
  isAddress_string : ∀ field text,
    isAddress field (some (.string text)) = some (viem.isAddress text)
  getAddress_string : ∀ {field text}, viem.isAddress text = true →
    getAddress field (some (.string text)) = some (viem.getAddress text)
  checksummed : ∀ {field value address}, getAddress field value = some address →
    viem.isAddress address = true ∧ viem.getAddress address = address

/-- `isAddress(value) && getAddress(value) === address`. -/
def ViemValues.names {viem : Viem} (values : ViemValues viem) (field : AddressField)
    (value : Option Json) (address : String) : Option Bool :=
  (values.isAddress field value).bind fun is =>
    if is then (values.getAddress field value).map (· == address) else some false

/-- What viem answers, if it does not throw. -/
def answerOf {α : Type} (answer : Option α) : Except ValidationError α :=
  orThrow answer (.exception "TypeError")

/-- A field that is an object. -/
def recordField (value : Json) (name : String) : Option Json := (value.field name).filter Json.isObject

def sameAddress (viem : Viem) (a b : Option Json) : Bool :=
  match a.bind Json.text, b.bind Json.text with
  | some a, some b =>
    viem.isAddress a && viem.isAddress b && decide (viem.getAddress a = viem.getAddress b)
  | _, _ => false

def sameOptionalManager (viem : Viem) (a b : Option Json) : Bool :=
  match a, b with
  | none, none => true
  | a, b => sameAddress viem a b

/-- An absent list and an empty one are the same offer. -/
def sameAddressList (viem : Viem) (a b : Option Json) : Bool :=
  match Json.listOrEmpty a, Json.listOrEmpty b with
  | some left, some right =>
    left.length == right.length &&
      (left.zip right).all fun pair => sameAddress viem (some pair.1) (some pair.2)
  | _, _ => false

/-- Whether the payer accepted the offer it was made. -/
def sameRequirement (viem : Viem) (a b : Json) : Bool :=
  let extra := a.field "extra"
  let extra' := b.field "extra"
  Json.strictEqual (a.field "scheme") (b.field "scheme") &&
  Json.strictEqual (a.field "network") (b.field "network") &&
  Json.strictEqual (a.field "amount") (b.field "amount") &&
  Json.strictEqual (a.field "maxTimeoutSeconds") (b.field "maxTimeoutSeconds") &&
  sameAddress viem (a.field "payTo") (b.field "payTo") &&
  sameAddress viem (a.field "asset") (b.field "asset") &&
  Json.strictEqual (Json.fieldOf extra "assetTransferMethod")
    (Json.fieldOf extra' "assetTransferMethod") &&
  Json.strictEqual (Json.fieldOf extra "paymentFlow") (Json.fieldOf extra' "paymentFlow") &&
  sameOptionalManager viem (Json.fieldOf extra "delegationManager")
    (Json.fieldOf extra' "delegationManager") &&
  sameAddressList viem (Json.fieldOf extra "facilitatorAddresses")
    (Json.fieldOf extra' "facilitatorAddresses")

/-! ## The checks -/

section Checking

variable {viem : Viem}

/-- The parts of a request. -/
structure RequestParts where
  requirements : Json
  payment : Json
  accepted : Json
  payload : Json

/-- The shape of the request, and its versions. -/
def readRequest (input : Json) : Except ValidationError RequestParts := do
  refuseIf (input.isObject = false) .invalidPayload "request must be an object"
  refuseIf (isX402Version (input.field "x402Version") = false) .invalidX402Version
    "unsupported x402Version"
  let missing := ValidationError.refused .invalidPayload
    "paymentPayload and paymentRequirements are required"
  let requirements ← orThrow (recordField input "paymentRequirements") missing
  let payment ← orThrow (recordField input "paymentPayload") missing
  refuseIf (isX402Version (payment.field "x402Version") = false) .invalidX402Version
    "paymentPayload.x402Version is unsupported"
  let missing := ValidationError.refused .invalidPayload
    "paymentPayload.accepted and paymentPayload.payload are required"
  let accepted ← orThrow (recordField payment "accepted") missing
  let payload ← orThrow (recordField payment "payload") missing
  pure { requirements, payment, accepted, payload }

/-- The scheme and the network of the offer. -/
def readScheme (requirements : Json) : Except ValidationError Unit := do
  let extra := requirements.field "extra"
  refuseIf (requirements.textField "scheme" ≠ some "exact" ∨
      (Json.fieldOf extra "assetTransferMethod").bind Json.text ≠ some "erc7710")
    .unsupportedScheme "unsupported scheme or asset transfer method"
  refuseIf (requirements.textField "network" ≠ some GIWA_SEPOLIA_CAIP2) .invalidNetwork
    "unsupported network"

/-- The asset of the offer, which must be the token. -/
def assertAsset (values : ViemValues viem) (requirements : Json) : Except ValidationError Unit := do
  let supported ← answerOf (values.names .asset (requirements.field "asset") MOCK_USDC_ADDRESS)
  refuseIf (supported = false) .invalidPaymentRequirements "unsupported asset"

def assertPayTo (values : ViemValues viem) (requirements : Json) : Except ValidationError Unit := do
  let isAddress ← answerOf (values.isAddress .payTo (requirements.field "payTo"))
  refuseIf (isAddress = false) .invalidPaymentRequirements "payTo must be an address"

/-- The amount of the offer, with its timeout and its flow. -/
def readAmount (maxAmount : Option Nat) (requirements : Json) : Except ValidationError Nat := do
  refuseIf ((requirements.field "maxTimeoutSeconds").bind (·.integer 1 300) = none)
    .invalidPaymentRequirements "maxTimeoutSeconds must be between 1 and 300"
  let text ← orThrow ((requirements.textField "amount").filter isUintText)
    (.refused .invalidPaymentRequirements "amount must be an integer string")
  refuseIf (flowSupported (Json.fieldOf (requirements.field "extra") "paymentFlow") = false)
    .invalidPaymentRequirements "unsupported payment flow"
  let amount := decimalValue text.toList
  refuseIf (amount = 0) .invalidPaymentRequirements "amount must be positive"
  refuseIf (maxAmount.any (· < amount) = true) .invalidPaymentRequirements
    "amount exceeds facilitator safety cap"
  pure amount

/-- The terms of the offer, and its amount. -/
def readOffer (values : ViemValues viem) (maxAmount : Option Nat) (requirements : Json) :
    Except ValidationError Nat := do
  readScheme requirements
  assertAsset values requirements
  assertPayTo values requirements
  readAmount maxAmount requirements

/-- The signed payload's manager, which must be the configured one. -/
def readManager (values : ViemValues viem) (delegationManager : String) (payload : Json) :
    Except ValidationError String := do
  let manager := viem.getAddress delegationManager
  let allowed ← answerOf
    (values.names .delegationManager (payload.field "delegationManager") manager)
  throwIf (allowed = false) (.refused .invalidPayload "delegationManager is not allowlisted")
  pure manager

/-- A permission context that is not malformed. -/
def isContext (text : String) : Bool :=
  isHex text && decide (2 < text.toList.length) &&
    decide (text.toList.length ≤ MAX_PERMISSION_CONTEXT_HEX_LENGTH)

variable {D : Type}

/-- The permission context, and the payer who signed its root. -/
def readRoot (viem : Viem) (decoder : ContextDecoder D) (payload : Json) :
    Except ValidationError (String × String) := do
  let context ← orThrow ((payload.textField "permissionContext").filter isContext)
    (.refused .invalidPayload "permissionContext is malformed or too large")
  let chain ← orThrow (decoder.decodeDelegations context)
    (.refused .invalidPayload "permissionContext is not a valid delegation chain")
  let root ← orThrow ((chain.getLast?.map decoder.delegator).filter viem.isAddress)
    (.refused .invalidPayload "permissionContext must contain a root delegator")
  pure (context, viem.getAddress root)

/-- The context and its payer, whom the payload must name. -/
def readPayer (values : ViemValues viem) (decoder : ContextDecoder D) (payload : Json) :
    Except ValidationError (String × String) := do
  let isAddress ← answerOf (values.isAddress .delegator (payload.field "delegator"))
  refuseIf (isAddress = false) .invalidPayload "delegator must be an address"
  let (context, payer) ← readRoot viem decoder payload
  let claimed ← answerOf (values.getAddress .delegator (payload.field "delegator"))
  refuseIf (payer ≠ claimed) .invalidPayload
    "claimed delegator does not match the signed root payer"
  pure (context, payer)

/-- A list of redeemers names this facilitator. -/
def assertRedeemer (viem : Viem) (facilitator : String) (facilitators : Option Json) :
    Except ValidationError Unit :=
  match facilitators.filter Json.truthy with
  | none => pure ()
  | some (.array addresses) =>
    refuseIf ((addresses.any fun address =>
        ((address.text.filter viem.isAddress).map viem.getAddress)
          = some (viem.getAddress facilitator)) = false)
      .invalidPaymentRequirements "this facilitator is not advertised as a redeemer"
  | some _ => .error (.exception "facilitators.some is not a function")

/-- What the checks found. -/
structure CheckedPayment where
  parts : RequestParts
  amount : Nat
  manager : String
  context : String
  payer : String

/-- Every check of a request, before its intent is derived. -/
def checkDelegatedPayment (values : ViemValues viem) (decoder : ContextDecoder D) (input : Json)
    (options : ValidationOptions) : Except ValidationError CheckedPayment := do
  let parts ← readRequest input
  let amount ← readOffer values options.maxAmount parts.requirements
  refuseIf (sameRequirement viem parts.accepted parts.requirements = false) .invalidPayload
    "accepted requirements do not exactly match the seller offer"
  let manager ← readManager values options.delegationManager parts.payload
  let (context, payer) ← readPayer values decoder parts.payload
  assertRedeemer viem options.facilitator
    (Json.fieldOf (parts.requirements.field "extra") "facilitatorAddresses")
  pure { parts, amount, manager, context, payer }

/-- `getAddress` of a field that was checked. -/
def addressOf (viem : Viem) (value : Json) (name : String) : String :=
  ((value.textField name).map viem.getAddress).getD ""

/-- The intent that a request is for. -/
def intentOf (viem : Viem) (checked : CheckedPayment) : PaymentIntent where
  network := (checked.parts.requirements.textField "network").getD ""
  asset := addressOf viem checked.parts.requirements "asset"
  amount := checked.amount
  payTo := addressOf viem checked.parts.requirements "payTo"
  delegationManager := checked.manager
  permissionContext := checked.context

def validateDelegatedPayment (values : ViemValues viem) (hashing : Hashing)
    (decoder : ContextDecoder D) (input : Json) (options : ValidationOptions) :
    Except ValidationError ValidatedDelegatedPayment := do
  let checked ← checkDelegatedPayment values decoder input options
  let paymentIntentId ← orThrow (derivePaymentIntentId viem hashing (intentOf viem checked))
    (.exception "IntegerOutOfRangeError")
  pure
    { paymentPayload := checked.parts.payment
      paymentRequirements := checked.parts.requirements
      amount := checked.amount
      payer := checked.payer
      paymentIntentId }

end Checking

/-! ## The execution -/

/-- `transfer(address,uint256)` with its arguments. -/
structure TransferCall where
  recipient : AbiValue
  amount : AbiValue

structure Execution where
  target : String
  value : Nat
  callData : TransferCall

/-- How the executions of a redemption are carried out. -/
inductive ExecutionMode where
  | SingleDefault

structure DelegatedTransfer where
  delegations : List String
  modes : List ExecutionMode
  executions : List (List Execution)

/-- The redemption of an accepted payment; `none` where a library function throws. -/
def buildDelegatedTransfer (viem : Viem) (payment : ValidatedDelegatedPayment) :
    Option DelegatedTransfer := do
  let payload ← payment.paymentPayload.field "payload"
  let context ← payload.textField "permissionContext"
  let asset ← (payment.paymentRequirements.textField "asset").filter viem.isAddress
  let payTo ← (payment.paymentRequirements.textField "payTo").filter viem.isAddress
  let recipient ← abiAddress viem (viem.getAddress payTo)
  let amount ← abiUint256 payment.amount
  some
    { delegations := [context]
      modes := [.SingleDefault]
      executions := [[{ target := viem.getAddress asset, value := 0, callData := { recipient, amount } }]] }

/-! ## What is thrown -/

section Refuses

variable {α β : Type}

/-- Nothing but a refusal is thrown. -/
def Refuses (x : Except ValidationError α) : Prop :=
  ∀ e, x = .error e → ∃ reason message, e = .refused reason message

theorem Refuses.ok (a : α) : Refuses (.ok a) := fun _ h => nomatch h

theorem Refuses.pure (a : α) : Refuses (pure a : Except ValidationError α) := .ok a

theorem Refuses.throwIf {p : Prop} [Decidable p] {reason : PaymentValidationReason}
    {message : String} : Refuses (throwIf p (.refused reason message) : Except _ Unit) := by
  intro e h
  obtain ⟨-, rfl⟩ := throwIf_eq_error.mp h
  exact ⟨reason, message, rfl⟩

theorem Refuses.orThrow {value : Option α} {reason : PaymentValidationReason} {message : String} :
    Refuses (orThrow value (.refused reason message)) := by
  intro e h
  cases value with
  | none => exact ⟨reason, message, (Except.error.inj h).symm⟩
  | some a => cases h

theorem Refuses.bind {x : Except ValidationError α} {f : α → Except ValidationError β}
    (hx : Refuses x) (hf : ∀ a, x = .ok a → Refuses (f a)) : Refuses (x >>= f) := by
  intro e h
  rcases bind_eq_error.mp h with h | ⟨a, ha, h⟩
  · exact hx e h
  · exact hf a ha e h

/-- A bind refuses when both of its parts do. -/
theorem refuses_bind {x : Except ValidationError α} {f : α → Except ValidationError β} :
    Refuses (x >>= f) ↔ Refuses x ∧ ∀ a, x = .ok a → Refuses (f a) :=
  ⟨fun h => ⟨fun e he => h e (bind_eq_error.mpr (.inl he)),
    fun a ha e he => h e (bind_eq_error.mpr (.inr ⟨a, ha, he⟩))⟩, fun h => .bind h.1 h.2⟩

/-- viem answers, or what is thrown is no refusal. -/
theorem refuses_answerOf {answer : Option α} : Refuses (answerOf answer) ↔ answer ≠ none := by
  cases answer with
  | none => exact ⟨fun h => (nomatch (h _ rfl).choose_spec.choose_spec), fun h => absurd rfl h⟩
  | some a => exact ⟨fun _ => nofun, fun _ => .ok a⟩

end Refuses

section Checks

variable {D : Type} {viem : Viem} {values : ViemValues viem}
  {decoder : ContextDecoder D} {input : Json} {options : ValidationOptions} {maxAmount : Option Nat}
  {requirements payload : Json}

theorem refuses_readRequest : Refuses (readRequest input) := by
  refine .bind .throwIf fun _ _ => .bind .throwIf fun _ _ => ?_
  refine .bind .orThrow fun _ _ => .bind .orThrow fun _ _ => .bind .throwIf fun _ _ => ?_
  exact .bind .orThrow fun _ _ => .bind .orThrow fun _ _ => .pure _

theorem refuses_readScheme : Refuses (readScheme requirements) :=
  .bind .throwIf fun _ _ => .throwIf

theorem refuses_readAmount : Refuses (readAmount maxAmount requirements) := by
  refine .bind .throwIf fun _ _ => .bind .orThrow fun _ _ => .bind .throwIf fun _ _ => ?_
  exact .bind .throwIf fun _ _ => .bind .throwIf fun _ _ => .pure _

theorem refuses_readRoot : Refuses (readRoot viem decoder payload) :=
  .bind .orThrow fun _ _ => .bind .orThrow fun _ _ => .bind .orThrow fun _ _ => .pure _

/-- viem answers what is asked about an offer. -/
structure OfferAnswered (values : ViemValues viem) (requirements : Json) : Prop where
  asset : readScheme requirements = .ok () →
    values.names .asset (requirements.field "asset") MOCK_USDC_ADDRESS ≠ none
  payTo : readScheme requirements = .ok () → assertAsset values requirements = .ok () →
    values.isAddress .payTo (requirements.field "payTo") ≠ none

/-- viem answers what is asked about a signed payload. -/
structure PayloadAnswered (values : ViemValues viem) (decoder : ContextDecoder D)
    (delegationManager : String) (payload : Json) : Prop where
  manager : values.names .delegationManager (payload.field "delegationManager")
    (viem.getAddress delegationManager) ≠ none
  delegator : ∀ manager, readManager values delegationManager payload = .ok manager →
    values.isAddress .delegator (payload.field "delegator") ≠ none
  claimed : ∀ manager root, readManager values delegationManager payload = .ok manager →
    values.isAddress .delegator (payload.field "delegator") = some true →
    readRoot viem decoder payload = .ok root →
    values.getAddress .delegator (payload.field "delegator") ≠ none

/-- viem answers what it is asked about a request: about its offer, and about the payload where the
payer accepted the offer. -/
def Answered (values : ViemValues viem) (decoder : ContextDecoder D) (input : Json)
    (options : ValidationOptions) : Prop :=
  ∀ parts, readRequest input = .ok parts →
    OfferAnswered values parts.requirements ∧
    ∀ amount, readOffer values options.maxAmount parts.requirements = .ok amount →
      sameRequirement viem parts.accepted parts.requirements = true →
      PayloadAnswered values decoder options.delegationManager parts.payload

theorem refuses_readOffer :
    Refuses (readOffer values maxAmount requirements) ↔ OfferAnswered values requirements := by
  simp only [readOffer, assertAsset, assertPayTo, refuses_bind, refuses_answerOf, refuseIf,
    Refuses.throwIf, refuses_readScheme, refuses_readAmount, implies_true, and_true, true_and]
  exact ⟨fun h => ⟨fun hscheme => (h ⟨⟩ hscheme).1, fun hscheme hasset => (h ⟨⟩ hscheme).2 ⟨⟩ hasset⟩,
    fun h _ hscheme => ⟨h.asset hscheme, fun _ hasset => h.payTo hscheme hasset⟩⟩

theorem refuses_readManager {delegationManager : String} :
    Refuses (readManager values delegationManager payload) ↔
      values.names .delegationManager (payload.field "delegationManager")
        (viem.getAddress delegationManager) ≠ none := by
  simp only [readManager, refuses_bind, refuses_answerOf, Refuses.throwIf, Refuses.pure,
    implies_true, and_true]

theorem refuses_readPayer :
    Refuses (readPayer values decoder payload) ↔
      values.isAddress .delegator (payload.field "delegator") ≠ none ∧
      (values.isAddress .delegator (payload.field "delegator") = some true →
        ∀ root, readRoot viem decoder payload = .ok root →
          values.getAddress .delegator (payload.field "delegator") ≠ none) := by
  simp only [readPayer, refuses_bind, refuses_answerOf, refuseIf, Refuses.throwIf, Refuses.pure,
    refuses_readRoot, implies_true, and_true, true_and]
  refine and_congr_right fun _ => ⟨fun h his root hroot => ?_, fun h is his _ hok root hroot => ?_⟩
  · exact h true (orThrow_eq_ok.mpr his) ⟨⟩ (throwIf_eq_ok.mpr nofun) root hroot
  · obtain rfl : is = true := by simpa using throwIf_eq_ok.mp hok
    exact h (orThrow_eq_ok.mp his) root hroot

theorem refuses_signed {delegationManager : String} :
    (Refuses (readManager values delegationManager payload) ∧
      ∀ manager, readManager values delegationManager payload = .ok manager →
        Refuses (readPayer values decoder payload)) ↔
      PayloadAnswered values decoder delegationManager payload := by
  simp only [refuses_readManager, refuses_readPayer]
  exact ⟨fun h => ⟨h.1, fun m hm => (h.2 m hm).1, fun m root hm his => (h.2 m hm).2 his root⟩,
    fun h => ⟨h.manager, fun m hm => ⟨h.delegator m hm, fun his root => h.claimed m root hm his⟩⟩⟩

/-- The redeemers of two offers that agree are a list, or are not there. -/
theorem refuses_assertRedeemer {facilitator : String} (a : Option Json) {b : Option Json}
    (h : sameAddressList viem a b = true) : Refuses (assertRedeemer viem facilitator b) := by
  cases b with
  | none => exact .pure ()
  | some b =>
    cases b with
    | null => exact .pure ()
    | array addresses => exact .throwIf
    | _ =>
      rw [sameAddressList] at h
      split at h
      · next hright => cases hright
      · cases h

/-- **The checks throw refusals only**, as far as viem answers. -/
theorem refuses_checkDelegatedPayment :
    Refuses (checkDelegatedPayment values decoder input options) ↔
      Answered values decoder input options := by
  rw [checkDelegatedPayment, refuses_bind, and_iff_right refuses_readRequest]
  refine forall₂_congr fun parts _ => ?_
  rw [refuses_bind, refuses_readOffer]
  refine and_congr_right fun _ => forall₂_congr fun amount _ => ?_
  rw [refuseIf, refuses_bind, and_iff_right Refuses.throwIf]
  simp only [throwIf_eq_ok, Bool.not_eq_false, forall_const]
  refine forall_congr' fun hsame => ⟨fun h => ?_, fun h => ?_⟩
  · have h := refuses_bind.mp h
    exact refuses_signed.mp ⟨h.1, fun m hm => (refuses_bind.mp (h.2 m hm)).1⟩
  · have h := refuses_signed.mpr h
    simp only [sameRequirement, Bool.and_eq_true] at hsame
    exact .bind h.1 fun m hm => .bind (h.2 m hm) fun _ _ =>
      .bind (refuses_assertRedeemer _ hsame.2) fun _ _ => .pure _

end Checks

/-! ## What was checked -/

/-- Two texts that are one address. -/
def SameAddress (viem : Viem) (a b : Option String) : Prop :=
  ∃ x y, a = some x ∧ b = some y ∧ viem.isAddress x = true ∧ viem.isAddress y = true ∧
    viem.getAddress x = viem.getAddress y

/-- The terms of an offer that is settled here, and its amount. -/
structure OfferTerms (viem : Viem) (maxAmount : Option Nat) (requirements : Json) (amount : Nat) :
    Prop where
  scheme_eq : requirements.textField "scheme" = some "exact"
  method_eq : (Json.fieldOf (requirements.field "extra") "assetTransferMethod").bind Json.text
    = some "erc7710"
  network_eq : requirements.textField "network" = some GIWA_SEPOLIA_CAIP2
  asset_eq : ∃ asset, requirements.textField "asset" = some asset ∧ viem.isAddress asset = true ∧
    viem.getAddress asset = MOCK_USDC_ADDRESS
  payTo_isAddress : ∃ payTo, requirements.textField "payTo" = some payTo ∧ viem.isAddress payTo = true
  timeout_eq : ∃ n, (requirements.field "maxTimeoutSeconds").bind Json.int = some n ∧ 1 ≤ n ∧ n ≤ 300
  amount_eq : ∃ text, requirements.textField "amount" = some text ∧ isUintText text = true ∧
    decimalValue text.toList = amount
  flow_supported : flowSupported (Json.fieldOf (requirements.field "extra") "paymentFlow") = true
  amount_pos : 0 < amount
  amount_le : ∀ cap, maxAmount = some cap → amount ≤ cap

/-- The payer accepted the offer it was made, field by field. Addresses may be spelled in two
ways. -/
structure SameTerms (viem : Viem) (accepted requirements : Json) : Prop where
  scheme_eq : accepted.textField "scheme" = requirements.textField "scheme"
  network_eq : accepted.textField "network" = requirements.textField "network"
  amount_eq : accepted.textField "amount" = requirements.textField "amount"
  timeout_eq : (accepted.field "maxTimeoutSeconds").bind Json.int
    = (requirements.field "maxTimeoutSeconds").bind Json.int
  payTo_same : SameAddress viem (accepted.textField "payTo") (requirements.textField "payTo")
  asset_same : SameAddress viem (accepted.textField "asset") (requirements.textField "asset")
  method_eq : (Json.fieldOf (accepted.field "extra") "assetTransferMethod").bind Json.text
    = (Json.fieldOf (requirements.field "extra") "assetTransferMethod").bind Json.text
  flow_eq : Json.fieldOf (accepted.field "extra") "paymentFlow"
    = Json.fieldOf (requirements.field "extra") "paymentFlow"
  manager_same :
    (Json.fieldOf (accepted.field "extra") "delegationManager" = none ∧
      Json.fieldOf (requirements.field "extra") "delegationManager" = none) ∨
    SameAddress viem ((Json.fieldOf (accepted.field "extra") "delegationManager").bind Json.text)
      ((Json.fieldOf (requirements.field "extra") "delegationManager").bind Json.text)
  facilitators_same : ∃ left right,
    Json.listOrEmpty (Json.fieldOf (accepted.field "extra") "facilitatorAddresses") = some left ∧
      Json.listOrEmpty (Json.fieldOf (requirements.field "extra") "facilitatorAddresses")
        = some right ∧
      List.Forall₂ (fun a b => SameAddress viem a.text b.text) left right

section Sound

variable {viem : Viem} {values : ViemValues viem} {maxAmount : Option Nat}
  {requirements accepted : Json}

theorem sameAddress_eq_true {a b : Option Json} :
    sameAddress viem a b = true ↔ SameAddress viem (a.bind Json.text) (b.bind Json.text) := by
  unfold sameAddress SameAddress
  split
  · next x y hx hy => simp [hx, hy, and_assoc]
  · next h =>
    constructor
    · nofun
    · rintro ⟨x, y, hx, hy, -⟩
      exact absurd hy (h x y hx)

theorem sameOptionalManager_eq_true {a b : Option Json} :
    sameOptionalManager viem a b = true ↔
      (a = none ∧ b = none) ∨ SameAddress viem (a.bind Json.text) (b.bind Json.text) := by
  unfold sameOptionalManager
  split
  · simp
  · next h =>
    rw [sameAddress_eq_true]
    exact ⟨.inr, fun hor => hor.elim (fun hnone => (h hnone.1 hnone.2).elim) id⟩

theorem sameAddressList_eq_true {a b : Option Json} :
    sameAddressList viem a b = true ↔
      ∃ left right, Json.listOrEmpty a = some left ∧ Json.listOrEmpty b = some right ∧
        List.Forall₂ (fun a b => SameAddress viem a.text b.text) left right := by
  unfold sameAddressList
  split
  · next left right hleft hright =>
    simp only [Bool.and_eq_true, beq_iff_eq, List.all_eq_true]
    constructor
    · rintro ⟨hlength, hall⟩
      refine ⟨left, right, hleft, hright, List.forall₂_iff_zip.mpr ⟨hlength, fun {x y} hmem => ?_⟩⟩
      exact sameAddress_eq_true.mp (hall (x, y) hmem)
    · rintro ⟨left', right', hleft', hright', hsame⟩
      obtain rfl := Option.some.inj (hleft.symm.trans hleft')
      obtain rfl := Option.some.inj (hright.symm.trans hright')
      obtain ⟨hlength, hall⟩ := List.forall₂_iff_zip.mp hsame
      exact ⟨hlength, fun pair hmem => sameAddress_eq_true.mpr (hall hmem)⟩
  · next h =>
    constructor
    · nofun
    · rintro ⟨left, right, hleft, hright, -⟩
      exact absurd hright (h left right hleft)

theorem field_of_textField {value : Json} {name text : String}
    (h : value.textField name = some text) : value.field name = some (.string text) := by
  obtain ⟨v, hv, htext⟩ := Option.bind_eq_some_iff.mp h
  cases v with
  | string t => rw [hv, show t = text from Option.some.inj htext]
  | _ => cases htext

theorem ViemValues.names_eq_true {field : AddressField} {value : Option Json} {address : String} :
    values.names field value address = some true ↔
      values.isAddress field value = some true ∧ values.getAddress field value = some address := by
  rw [ViemValues.names, Option.bind_eq_some_iff]
  constructor
  · rintro ⟨_ | _, his, h⟩
    · cases h
    · simpa [his] using h
  · rintro ⟨his, hget⟩
    exact ⟨true, his, by simp [hget]⟩

theorem ViemValues.names_string {field : AddressField} {text address : String}
    (his : viem.isAddress text = true) :
    values.names field (some (.string text)) address = some true ↔ viem.getAddress text = address := by
  rw [names_eq_true, values.isAddress_string, values.getAddress_string his, his,
    and_iff_right rfl, Option.some_inj]

/-- **What the checks of an offer say of it**, where the payer echoed it. -/
theorem offerTerms_of_readOffer {amount : Nat}
    (h : readOffer values maxAmount requirements = .ok amount)
    (hsame : sameRequirement viem accepted requirements = true) :
    OfferTerms viem maxAmount requirements amount := by
  simp only [readOffer, readScheme, assertAsset, assertPayTo, readAmount, answerOf, refuseIf,
    bind_eq_ok, throwIf_eq_ok, orThrow_eq_ok, pure_eq_ok, exists_const, not_or, not_not,
    Bool.not_eq_false, Option.filter_eq_some_iff] at h
  obtain ⟨⟨⟨hscheme, hmethod⟩, hnetwork⟩, ⟨_, hnamed, rfl⟩, -, htimeout, text, ⟨htext, huint⟩, hflow,
    hpos, hcap, rfl⟩ := h
  simp only [sameRequirement, Bool.and_eq_true, sameAddress_eq_true] at hsame
  obtain ⟨-, payTo, -, hpayTo, -, hpayToIs, -⟩ := hsame.1.1.1.1.1.2
  obtain ⟨-, asset, -, hasset, -, hassetIs, -⟩ := hsame.1.1.1.1.2
  rw [field_of_textField hasset, ViemValues.names_string hassetIs] at hnamed
  obtain ⟨n, hn⟩ := Option.ne_none_iff_exists'.mp htimeout
  obtain ⟨value, hvalue, hn⟩ := Option.bind_eq_some_iff.mp hn
  obtain ⟨hint, hbounds⟩ := Option.filter_eq_some_iff.mp hn
  refine
    { scheme_eq := hscheme
      method_eq := hmethod
      network_eq := hnetwork
      asset_eq := ⟨asset, hasset, hassetIs, hnamed⟩
      payTo_isAddress := ⟨payTo, hpayTo, hpayToIs⟩
      timeout_eq := ⟨n, Option.bind_eq_some_iff.mpr ⟨value, hvalue, hint⟩, by simpa using hbounds⟩
      amount_eq := ⟨text, htext, huint, rfl⟩
      flow_supported := hflow
      amount_pos := Nat.pos_of_ne_zero hpos
      amount_le := fun cap hmax => ?_ }
  rw [hmax] at hcap
  simpa using hcap

/-- A declared flow that is supported equals one flow only. -/
theorem flow_eq_of_strictEqual {a b : Option Json} (h : Json.strictEqual a b = true)
    (hb : flowSupported b = true) : a = b := by
  cases b with
  | none => cases a with
    | none => rfl
    | some a => cases a <;> cases h
  | some b =>
    cases b with
    | null => cases a with
      | none => cases h
      | some a => cases a <;> first | rfl | cases h
    | string value =>
      obtain ⟨a, ha, htext⟩ := Option.bind_eq_some_iff.mp (Json.text_of_strictEqual h rfl)
      cases a with
      | string value' => rw [ha, show value' = value from Option.some.inj htext]
      | _ => cases htext
    | _ => cases hb

/-- **An echo that passes accepts the offer.** -/
theorem sameTerms_of_sameRequirement {amount : Nat}
    (hoffer : OfferTerms viem maxAmount requirements amount)
    (h : sameRequirement viem accepted requirements = true) :
    SameTerms viem accepted requirements := by
  simp only [sameRequirement, Bool.and_eq_true] at h
  obtain ⟨⟨⟨⟨⟨⟨⟨⟨⟨hscheme, hnetwork⟩, hamount⟩, htimeout⟩, hpayTo⟩, hasset⟩, hmethod⟩, hflow⟩,
    hmanager⟩, hlist⟩ := h
  obtain ⟨n, hn, -⟩ := hoffer.timeout_eq
  obtain ⟨text, htext, -⟩ := hoffer.amount_eq
  exact
    { scheme_eq := (Json.text_of_strictEqual hscheme hoffer.scheme_eq).trans hoffer.scheme_eq.symm
      network_eq := (Json.text_of_strictEqual hnetwork hoffer.network_eq).trans
        hoffer.network_eq.symm
      amount_eq := (Json.text_of_strictEqual hamount htext).trans htext.symm
      timeout_eq := (Json.int_of_strictEqual htimeout hn).trans hn.symm
      payTo_same := sameAddress_eq_true.mp hpayTo
      asset_same := sameAddress_eq_true.mp hasset
      method_eq := (Json.text_of_strictEqual hmethod hoffer.method_eq).trans hoffer.method_eq.symm
      flow_eq := flow_eq_of_strictEqual hflow hoffer.flow_supported
      manager_same := sameOptionalManager_eq_true.mp hmanager
      facilitators_same := sameAddressList_eq_true.mp hlist }

end Sound

end Mapae.Facilitator
