import Mapae.Facilitator.PaymentValidation

/-!
# What a facilitator accepts

For every request of any shape, a payment that is accepted is the root payer's own, on the
facilitator's own terms, and its execution is one transfer of exactly the amount to the payee.

A request that is not accepted is refused, but for two kinds. viem may throw when it is asked about a
field that is no text: an address in an array, say. And a request that passes every check may have an
amount that does not fit in 256 bits, where deriving its intent throws; a cap below that amount is a
check it fails.
-/

namespace Mapae.Facilitator

open Mapae.Infra Mapae.Delegation Mapae.Shared Mapae.Store

variable {D : Type} {viem : Viem}

/-- What an accepted payment is. -/
structure SoundPayment (values : ViemValues viem) (decoder : ContextDecoder D) (input : Json)
    (options : ValidationOptions) (payment : ValidatedDelegatedPayment) : Prop where
  requirements_eq : input.field "paymentRequirements" = some payment.paymentRequirements
  payment_eq : input.field "paymentPayload" = some payment.paymentPayload
  /-- The terms are the facilitator's. -/
  offer : OfferTerms viem options.maxAmount payment.paymentRequirements payment.amount
  /-- The payer accepted exactly them. -/
  echoed : ∃ accepted, payment.paymentPayload.field "accepted" = some accepted ∧
    SameTerms viem accepted payment.paymentRequirements
  /-- The redeemer is among those the offer lists. -/
  redeemer : ∀ addresses,
    Json.fieldOf (payment.paymentRequirements.field "extra") "facilitatorAddresses"
        = some (.array addresses) →
      ∃ address ∈ addresses, ∃ text, address.text = some text ∧ viem.isAddress text = true ∧
        viem.getAddress text = viem.getAddress options.facilitator
  /-- The signed payload names the configured manager, the payer is the delegator of its root, and
  the execution moves the amount to the payee and does nothing else. -/
  signed : ∃ payload context chain root payTo,
    payment.paymentPayload.field "payload" = some payload ∧
    values.names .delegationManager (payload.field "delegationManager")
      (viem.getAddress options.delegationManager) = some true ∧
    payload.textField "permissionContext" = some context ∧
    decoder.decodeDelegations context = some chain ∧ chain.getLast? = some root ∧
    viem.isAddress (decoder.delegator root) = true ∧
    payment.payer = viem.getAddress (decoder.delegator root) ∧
    payment.paymentRequirements.textField "payTo" = some payTo ∧
    buildDelegatedTransfer viem payment = some
      { delegations := [context]
        modes := [.SingleDefault]
        executions := [[
          { target := MOCK_USDC_ADDRESS
            value := 0
            callData :=
              { recipient := .address (toLowerCase (viem.getAddress payTo))
                amount := .uint256 payment.amount } }]] }

/-- The request passes every check that is made before its intent is derived. -/
def Passes (values : ViemValues viem) (decoder : ContextDecoder D) (input : Json)
    (options : ValidationOptions) : Prop :=
  ∃ checked, checkDelegatedPayment values decoder input options = .ok checked

/-- The amount the request asks for. -/
def requestedAmount (input : Json) : Option Nat :=
  ((input.field "paymentRequirements").bind (·.textField "amount")).map fun text =>
    decimalValue text.toList

section Checked

variable {values : ViemValues viem} {hashing : Hashing} {decoder : ContextDecoder D} {input : Json}
  {options : ValidationOptions} {checked : CheckedPayment}

theorem recordField_eq_some {value record : Json} {name : String} :
    recordField value name = some record ↔ value.field name = some record ∧ record.isObject = true :=
  Option.filter_eq_some_iff

/-- What the checks say of a request. -/
structure Checked (values : ViemValues viem) (decoder : ContextDecoder D) (input : Json)
    (options : ValidationOptions) (checked : CheckedPayment) : Prop where
  requirements_eq : input.field "paymentRequirements" = some checked.parts.requirements
  payment_eq : input.field "paymentPayload" = some checked.parts.payment
  accepted_eq : checked.parts.payment.field "accepted" = some checked.parts.accepted
  payload_eq : checked.parts.payment.field "payload" = some checked.parts.payload
  offer : OfferTerms viem options.maxAmount checked.parts.requirements checked.amount
  same : sameRequirement viem checked.parts.accepted checked.parts.requirements = true
  manager : values.names .delegationManager (checked.parts.payload.field "delegationManager")
    checked.manager = some true
  manager_eq : checked.manager = viem.getAddress options.delegationManager
  payer : ∃ chain root, checked.parts.payload.textField "permissionContext" = some checked.context ∧
    decoder.decodeDelegations checked.context = some chain ∧ chain.getLast? = some root ∧
    viem.isAddress (decoder.delegator root) = true ∧
    checked.payer = viem.getAddress (decoder.delegator root)
  redeemer : assertRedeemer viem options.facilitator
    (Json.fieldOf (checked.parts.requirements.field "extra") "facilitatorAddresses") = .ok ()

theorem checked_of_ok (h : checkDelegatedPayment values decoder input options = .ok checked) :
    Checked values decoder input options checked := by
  simp only [checkDelegatedPayment, readRequest, readManager, readPayer, readRoot, answerOf, refuseIf,
    bind_eq_ok, throwIf_eq_ok, orThrow_eq_ok, pure_eq_ok, exists_const, not_not, Bool.not_eq_false,
    Option.filter_eq_some_iff, recordField_eq_some] at h
  obtain ⟨_, ⟨-, -, requirements, hrequirements, payment, hpayment, -, accepted, haccepted, payload,
    hpayload, rfl⟩, amount, hoffer, hsame, _, ⟨_, hmanager, rfl, rfl⟩, ⟨_, _⟩,
    ⟨_, -, -, ⟨_, _⟩, ⟨context, hcontext, chain, hchain, root, ⟨hroot, hrootIs⟩, heq⟩, -, -, -, heq'⟩,
    _, hredeemer, rfl⟩ := h
  cases heq
  cases heq'
  obtain ⟨link, hlink, rfl⟩ := Option.map_eq_some_iff.mp hroot
  exact
    { requirements_eq := hrequirements.1
      payment_eq := hpayment.1
      accepted_eq := haccepted.1
      payload_eq := hpayload.1
      offer := offerTerms_of_readOffer hoffer hsame
      same := hsame
      manager := hmanager
      manager_eq := rfl
      payer := ⟨chain, link, hcontext.1, hchain, hlink, hrootIs, rfl⟩
      redeemer := hredeemer }

theorem abiAddress_eq {address : String} (h : viem.isAddress address = true) :
    abiAddress viem address = some (.address (toLowerCase address)) := if_pos h

/-- An intent of addresses is derived when its amount fits. -/
theorem derivePaymentIntentId_eq_none {intent : PaymentIntent}
    (hasset : viem.isAddress intent.asset = true) (hpayTo : viem.isAddress intent.payTo = true)
    (hmanager : viem.isAddress intent.delegationManager = true) :
    derivePaymentIntentId viem hashing intent = none ↔ 2 ^ 256 ≤ intent.amount := by
  rw [← not_lt]
  by_cases hamount : intent.amount < 2 ^ 256
  · rw [derivePaymentIntentId, abiAddress_eq hasset, abiAddress_eq hpayTo, abiAddress_eq hmanager,
      abiUint256, if_pos hamount]
    exact ⟨nofun, fun h => absurd hamount h⟩
  · rw [derivePaymentIntentId, abiAddress_eq hasset, abiUint256, if_neg hamount]
    exact ⟨fun _ => hamount, fun _ => rfl⟩

theorem Checked.derive_eq_none (hviem : viem.Lawful) (hashing : Hashing)
    (h : Checked values decoder input options checked) :
    derivePaymentIntentId viem hashing (intentOf viem checked) = none ↔ 2 ^ 256 ≤ checked.amount := by
  obtain ⟨asset, hasset, hassetIs, -⟩ := h.offer.asset_eq
  obtain ⟨payTo, hpayTo, hpayToIs⟩ := h.offer.payTo_isAddress
  refine derivePaymentIntentId_eq_none ?_ ?_ ?_
  · simpa [intentOf, addressOf, hasset] using hviem.isAddress_getAddress hassetIs
  · simpa [intentOf, addressOf, hpayTo] using hviem.isAddress_getAddress hpayToIs
  · exact (values.checksummed (ViemValues.names_eq_true.mp h.manager).2).1

/-- The amount that was checked is the one that was asked for. -/
theorem Checked.requestedAmount_eq (h : Checked values decoder input options checked) :
    requestedAmount input = some checked.amount := by
  obtain ⟨text, htext, -, hvalue⟩ := h.offer.amount_eq
  simp [requestedAmount, h.requirements_eq, htext, hvalue]

/-- A list of redeemers that passes names the facilitator. -/
theorem redeemer_of_ok {addresses : List Json} {facilitator : String}
    (h : assertRedeemer viem facilitator (some (.array addresses)) = .ok ()) :
    ∃ address ∈ addresses, ∃ text, address.text = some text ∧ viem.isAddress text = true ∧
      viem.getAddress text = viem.getAddress facilitator := by
  have hany := throwIf_eq_ok.mp h
  rw [Bool.not_eq_false, List.any_eq_true] at hany
  obtain ⟨address, hmem, heq⟩ := hany
  obtain ⟨text, htext, hsame⟩ := Option.map_eq_some_iff.mp (of_decide_eq_true heq)
  obtain ⟨htext, his⟩ := Option.filter_eq_some_iff.mp htext
  exact ⟨address, hmem, text, htext, his, hsame⟩

theorem exists_of_validate {payment : ValidatedDelegatedPayment}
    (h : validateDelegatedPayment values hashing decoder input options = .ok payment) :
    ∃ checked id, checkDelegatedPayment values decoder input options = .ok checked ∧
      derivePaymentIntentId viem hashing (intentOf viem checked) = some id ∧
      payment =
        { paymentPayload := checked.parts.payment
          paymentRequirements := checked.parts.requirements
          amount := checked.amount
          payer := checked.payer
          paymentIntentId := id } := by
  simp only [validateDelegatedPayment, bind_eq_ok, orThrow_eq_ok, pure_eq_ok] at h
  obtain ⟨checked, hok, id, hid, rfl⟩ := h
  exact ⟨checked, id, hok, hid, rfl⟩

/-- **What passes the checks and fits is sound.** -/
theorem Checked.sound (hviem : viem.Lawful) (h : Checked values decoder input options checked)
    (hfits : checked.amount < 2 ^ 256) (paymentIntentId : String) :
    SoundPayment values decoder input options
      { paymentPayload := checked.parts.payment
        paymentRequirements := checked.parts.requirements
        amount := checked.amount
        payer := checked.payer
        paymentIntentId } where
  requirements_eq := h.requirements_eq
  payment_eq := h.payment_eq
  offer := h.offer
  echoed := ⟨_, h.accepted_eq, sameTerms_of_sameRequirement h.offer h.same⟩
  redeemer addresses haddresses := by
    have hredeemer := h.redeemer
    rw [haddresses] at hredeemer
    exact redeemer_of_ok hredeemer
  signed := by
    obtain ⟨chain, root, hcontext, hchain, hroot, hrootIs, hpayer⟩ := h.payer
    obtain ⟨asset, hasset, hassetIs, hassetEq⟩ := h.offer.asset_eq
    obtain ⟨payTo, hpayTo, hpayToIs⟩ := h.offer.payTo_isAddress
    refine ⟨_, checked.context, chain, root, payTo, h.payload_eq, h.manager_eq ▸ h.manager, hcontext,
      hchain, hroot, hrootIs, hpayer, hpayTo, ?_⟩
    have hchecksum := hviem.isAddress_getAddress hpayToIs
    simp only [buildDelegatedTransfer, h.payload_eq, hcontext, hasset, hpayTo,
      Option.filter_some_pos hassetIs, Option.filter_some_pos hpayToIs, abiAddress_eq hchecksum,
      abiUint256, if_pos hfits, Option.bind_eq_bind, Option.bind_some, ← hassetEq]

end Checked

/-- **What is accepted is sound, and what is not is refused**, where viem answers and the amount fits
or a check fails. -/
theorem delegated_payment_validated_iff (hviem : viem.Lawful) (values : ViemValues viem)
    (hashing : Hashing) (decoder : ContextDecoder D) (input : Json) (options : ValidationOptions) :
    (∀ payment, validateDelegatedPayment values hashing decoder input options = .ok payment →
      SoundPayment values decoder input options payment) ∧
    (Refuses (validateDelegatedPayment values hashing decoder input options) ↔
      Answered values decoder input options ∧ (Passes values decoder input options →
        ∀ amount, requestedAmount input = some amount → amount < 2 ^ 256)) ∧
    ∀ cap, options.maxAmount = some cap → cap < 2 ^ 256 →
      (Refuses (validateDelegatedPayment values hashing decoder input options) ↔
        Answered values decoder input options) := by
  have hiff : Refuses (validateDelegatedPayment values hashing decoder input options) ↔
      Answered values decoder input options ∧ (Passes values decoder input options →
        ∀ amount, requestedAmount input = some amount → amount < 2 ^ 256) := by
    rw [validateDelegatedPayment, refuses_bind, refuses_checkDelegatedPayment]
    refine and_congr_right fun _ => ⟨fun hrefuses => ?_, fun hfits checked hok => ?_⟩
    · rintro ⟨checked, hok⟩ amount hamount
      have hchecked := checked_of_ok hok
      obtain rfl := Option.some.inj (hchecked.requestedAmount_eq.symm.trans hamount)
      by_contra hle
      have hrefuses := hrefuses checked hok
      rw [(hchecked.derive_eq_none hviem hashing).mpr (not_lt.mp hle)] at hrefuses
      obtain ⟨reason, message, he⟩ := hrefuses _ rfl
      cases he
    · have hchecked := checked_of_ok hok
      have hlt := hfits ⟨checked, hok⟩ _ hchecked.requestedAmount_eq
      obtain ⟨id, hid⟩ := Option.ne_none_iff_exists'.mp
        (mt (hchecked.derive_eq_none hviem hashing).mp (not_le.mpr hlt))
      rw [hid]
      exact .ok _
  refine ⟨fun payment h => ?_, hiff, fun cap hcap hfits => hiff.trans (and_iff_left ?_)⟩
  · obtain ⟨checked, id, hok, hid, rfl⟩ := exists_of_validate h
    have hchecked := checked_of_ok hok
    refine hchecked.sound hviem (not_le.mp fun hle => ?_) id
    rw [(hchecked.derive_eq_none hviem hashing).mpr hle] at hid
    cases hid
  · rintro ⟨checked, hok⟩ amount hamount
    have hchecked := checked_of_ok hok
    obtain rfl := Option.some.inj (hchecked.requestedAmount_eq.symm.trans hamount)
    exact (hchecked.offer.amount_le cap hcap).trans_lt hfits

/-! ## One request, with two amounts and two payees -/

/-- An array that prints as an address is taken for it, and then has no `toLowerCase`. -/
def ViemValues.plain : ViemValues Viem.plain where
  isAddress _ value :=
    match value with
    | some (.string text) => some (isHexOf 20 text)
    | some (.array [.string text]) => if isHexOf 20 text then none else some false
    | _ => some false
  getAddress _ value := (value.bind Json.text).filter (isHexOf 20)
  isAddress_string _ _ := rfl
  getAddress_string h := Option.filter_some_pos h
  checksummed h := ⟨(Option.filter_eq_some_iff.mp h).2, rfl⟩

def sampleAddress : String := "0x00000000000000000000000000000000000000aa"

def sampleRequirements (amount : String) (payTo : Json) : Json :=
  .object
    [("scheme", .string "exact"), ("network", .string GIWA_SEPOLIA_CAIP2),
      ("amount", .string amount), ("payTo", payTo),
      ("maxTimeoutSeconds", .number 60 0), ("asset", .string MOCK_USDC_ADDRESS),
      ("extra", .object [("assetTransferMethod", .string "erc7710")])]

def sampleRequest (amount : String) (payTo : Json) : Json :=
  .object
    [("x402Version", .number 2 0), ("paymentRequirements", sampleRequirements amount payTo),
      ("paymentPayload", .object
        [("x402Version", .number 2 0), ("accepted", sampleRequirements amount payTo),
          ("payload", .object
            [("delegationManager", .string sampleAddress), ("delegator", .string sampleAddress),
              ("permissionContext", .string "0x01")])])]

def sampleHashing : Hashing := ⟨id, id, id, fun _ => "0x"⟩

/-- Every context is one delegation of the sample account. -/
def sampleDecoder : ContextDecoder Unit := ⟨fun _ => some [()], fun _ => sampleAddress⟩

def uncappedOptions : ValidationOptions := ⟨sampleAddress, sampleAddress, none⟩

/-- What the facilitator makes of the sample request. -/
def validated (amount : String) (payTo : Json) : Except ValidationError ValidatedDelegatedPayment :=
  validateDelegatedPayment .plain sampleHashing sampleDecoder (sampleRequest amount payTo)
    uncappedOptions

theorem delegated_payment_validated_sample :
    ∃ payment, validated "1000" (.string sampleAddress) = .ok payment ∧
      SoundPayment .plain sampleDecoder (sampleRequest "1000" (.string sampleAddress)) uncappedOptions
        payment := by
  obtain ⟨payment, h⟩ : ∃ payment, validated "1000" (.string sampleAddress) = .ok payment := ⟨_, rfl⟩
  exact ⟨payment, h, (delegated_payment_validated_iff Viem.plain_lawful .plain sampleHashing
    sampleDecoder (sampleRequest "1000" (.string sampleAddress)) uncappedOptions).1 payment h⟩

/-- 2 ^ 256. -/
def hugeAmount : String :=
  "115792089237316195423570985008687907853269984665640564039457584007913129639936"

def throwsException : Except ValidationError ValidatedDelegatedPayment → Bool
  | .error (.exception _) => true
  | _ => false

theorem not_refuses {x : Except ValidationError ValidatedDelegatedPayment}
    (h : throwsException x = true) : ¬ Refuses x := by
  intro hrefuses
  unfold throwsException at h
  split at h
  · obtain ⟨_, _, he⟩ := hrefuses _ rfl
    cases he
  · cases h

/-- **Two exceptions that are no refusals**: an amount of more than 256 bits passes the checks where
there is no cap, and viem throws on a payee in an array. -/
theorem exceptions_escape :
    ¬ Refuses (validated hugeAmount (.string sampleAddress)) ∧
      ¬ Refuses (validated "1000" (.array [.string sampleAddress])) :=
  ⟨not_refuses (by decide +kernel), not_refuses (by decide +kernel)⟩

end Mapae.Facilitator
