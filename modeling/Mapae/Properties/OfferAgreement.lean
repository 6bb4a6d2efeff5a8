import Mathlib.Logic.Equiv.List
import Mapae.Properties.DelegatedPayments
import Mapae.Seller.Agreement

/-!
# What is offered is accepted

For every kind of a facilitator and every price, an offer that a client chooses, echoed with a leaf it
signed, is a payment that the facilitator accepts, and the seller keys it as the facilitator does. Two
payments that are accepted have one key exactly when they are for the same intent.

The validator has two bounds of its own. A permission context is 64 KiB at most, and an amount that does
not fit in 256 bits has no key.
-/

namespace Mapae.Seller

open Mapae.Infra Mapae.Delegation Mapae.Facilitator Mapae.Shared Mapae.Store

variable {Wire D S : Type}

/-! ## A payment as a client makes it -/

/-- The document in a client's header. -/
def echo (offer : Erc7710PaymentRequirements) (leaf : Leaf) (extensions : Json) : Json :=
  buildErc7710PaymentPayload offer.toJson leaf.delegationManager leaf.permissionContext leaf.delegator extensions

/-- The offer of a paywall. -/
def Paywall.offer (paywall : Paywall) (kind : FacilitatorKind) : Erc7710PaymentRequirements :=
  buildErc7710PaymentRequirements paywall.payTo paywall.amount kind

/-- A client chose the offer of this facilitator's kind and signed a leaf for it. -/
structure Agreed (lib : Libraries Wire) (decoder : ContextDecoder D) (texts : FailureTexts)
    (config : DelegatedPaymentConfig lib.viem S) (paywall : Paywall) (kind : FacilitatorKind)
    (options : ValidationOptions) (leaf : Leaf) : Prop where
  addresses : kind.OfAddresses lib.viem
  chosen : ∃ body, acceptOffer texts config body = .ok (paywall.offer kind).toJson
  signed : ∃ s, (signLeaf config (paywall.offer kind).toJson s).1 = .ok leaf
  facilitator : ∃ address ∈ kind.facilitatorAddresses,
    lib.viem.getAddress address = lib.viem.getAddress options.facilitator
  manager : lib.viem.getAddress options.delegationManager = lib.viem.getAddress config.delegationManager
  cap : ∀ cap, options.maxAmount = some cap → paywall.amount ≤ cap
  context : isHex leaf.permissionContext = true
  root : ∃ chain root, decoder.decodeDelegations leaf.permissionContext = some chain ∧ chain.getLast? = some root ∧
    lib.viem.isAddress (decoder.delegator root) = true ∧
    lib.viem.getAddress (decoder.delegator root) = lib.viem.getAddress leaf.delegator

section Client

variable {viem : Viem} {texts : FailureTexts} {config : DelegatedPaymentConfig viem S}

/-- **What a client chooses is payable.** -/
theorem payable_of_acceptOffer {body offer : Json} (h : acceptOffer texts config body = .ok offer) :
    Payable config.toOfferConfig offer := by
  have hchosen : chooseOffer texts config.toOfferConfig body = .ok (.accepted offer) := by
    unfold acceptOffer at h
    split at h
    · cases h
    · cases h
    · next hchosen =>
      cases h
      exact hchosen
  unfold chooseOffer at hchosen
  split at hchosen
  · cases hchosen
  · dsimp only at hchosen
    split at hchosen
    · split at hchosen <;> cases hchosen
    · unfold selectOffer at hchosen
      split at hchosen
      · next candidate rest _ =>
        have hselected : Selected config.toOfferConfig (candidate :: rest)
            (selectFrom texts config.toOfferConfig none (candidate :: rest)) := selectFrom_cases texts _ nofun
        obtain ⟨onRail, honRail, hchosen⟩ := bind_eq_ok.mp hchosen
        rw [honRail] at hselected
        cases hselected with
        | payable _ _ hpayable =>
          cases hchosen
          exact hpayable
        | refused _ hfailed =>
          cases onRail with
          | none => cases hchosen
          | some selection =>
            cases hchosen
            exact absurd rfl (hfailed offer)
      · cases hchosen

/-- **A signed leaf** is under the client's manager. -/
theorem of_signLeaf {offer : Json} {s : S} {leaf : Leaf} (h : (signLeaf config offer s).1 = .ok leaf) :
    viem.isAddress leaf.delegationManager = true ∧ viem.isAddress leaf.delegator = true ∧
      viem.getAddress leaf.delegationManager = viem.getAddress config.delegationManager := by
  unfold signLeaf at h
  split at h
  · cases h
  · split at h
    · cases h
    · next hmanager =>
      cases h
      simpa only [not_or, not_not, Bool.not_eq_false] using hmanager

end Client

/-! ## At the facilitator -/

section Checked

variable {lib : Libraries Wire} {decoder : ContextDecoder D} {texts : FailureTexts}
  {config : DelegatedPaymentConfig lib.viem S} {paywall : Paywall} {kind : FacilitatorKind}
  {options : ValidationOptions} {leaf : Leaf} {extensions : Json} {values : ViemValues lib.viem}

/-- The signed part of the echo. -/
def signedPart (leaf : Leaf) : Json := .object
  [("delegationManager", .string leaf.delegationManager), ("permissionContext", .string leaf.permissionContext),
    ("delegator", .string leaf.delegator)]

theorem readRequest_echo {offer : Erc7710PaymentRequirements} :
    readRequest (facilitatorRequest (echo offer leaf extensions) offer) =
      .ok ⟨offer.toJson, echo offer leaf extensions, offer.toJson, signedPart leaf⟩ := rfl

theorem readManager_echo (hagreed : Agreed lib decoder texts config paywall kind options leaf) :
    readManager values options.delegationManager (signedPart leaf) =
      .ok (lib.viem.getAddress leaf.delegationManager) := by
  obtain ⟨_, hsigned⟩ := hagreed.signed
  obtain ⟨his, -, heq⟩ := of_signLeaf hsigned
  have hfield : (signedPart leaf).field "delegationManager" = some (.string leaf.delegationManager) := rfl
  rw [readManager, hagreed.manager.trans heq.symm, hfield, (ViemValues.names_string his).mpr rfl]
  rfl

/-- A context whose bytes decode is not empty. -/
theorem isContext_of_agreed (hempty : decoder.decodeDelegations "0x" = none)
    (hagreed : Agreed lib decoder texts config paywall kind options leaf)
    (hlength : leaf.permissionContext.toList.length ≤ MAX_PERMISSION_CONTEXT_HEX_LENGTH) :
    isContext leaf.permissionContext = true := by
  obtain ⟨chain, _, hdecode, -⟩ := hagreed.root
  have hhex := hagreed.context
  have hnonempty : 2 < leaf.permissionContext.toList.length := by
    unfold isHex at hhex
    split at hhex
    · next digits htext =>
      cases digits with
      | nil =>
        have hcontext : leaf.permissionContext = "0x" := String.ext htext
        rw [hcontext, hempty] at hdecode
        cases hdecode
      | cons digit digits =>
        rw [htext]
        simp
    · cases hhex
  simp [isContext, hagreed.context, hnonempty, hlength]

theorem readPayer_echo (hempty : decoder.decodeDelegations "0x" = none)
    (hagreed : Agreed lib decoder texts config paywall kind options leaf)
    (hlength : leaf.permissionContext.toList.length ≤ MAX_PERMISSION_CONTEXT_HEX_LENGTH) :
    ∃ payer, readPayer values decoder (signedPart leaf) = .ok (leaf.permissionContext, payer) := by
  obtain ⟨_, hsigned⟩ := hagreed.signed
  obtain ⟨-, his, -⟩ := of_signLeaf hsigned
  obtain ⟨chain, root, hdecode, hlast, hroot, heq⟩ := hagreed.root
  have hdelegator : (signedPart leaf).field "delegator" = some (.string leaf.delegator) := rfl
  have hcontext : (signedPart leaf).textField "permissionContext" = some leaf.permissionContext := rfl
  have hpayer : (chain.getLast?.map decoder.delegator).filter lib.viem.isAddress = some (decoder.delegator root) := by
    rw [hlast]
    exact Option.filter_eq_some_iff.mpr ⟨rfl, hroot⟩
  refine ⟨lib.viem.getAddress (decoder.delegator root), ?_⟩
  have hroot : readRoot lib.viem decoder (signedPart leaf) =
      .ok (leaf.permissionContext, lib.viem.getAddress (decoder.delegator root)) := by
    rw [readRoot, hcontext,
      orThrow_bind (Option.filter_eq_some_iff.mpr ⟨rfl, isContext_of_agreed hempty hagreed hlength⟩),
      orThrow_bind hdecode, orThrow_bind hpayer]
    rfl
  rw [readPayer, hdelegator, values.isAddress_string, values.getAddress_string his, his, hroot]
  exact throwIf_bind (not_not.mpr heq)

/-- **Every check of the facilitator passes.** -/
theorem check_echo (values : ViemValues lib.viem) (extensions : Json) (hempty : decoder.decodeDelegations "0x" = none)
    (hagreed : Agreed lib decoder texts config paywall kind options leaf)
    (hlength : leaf.permissionContext.toList.length ≤ MAX_PERMISSION_CONTEXT_HEX_LENGTH) :
    ∃ payer, checkDelegatedPayment values decoder
        (facilitatorRequest (echo (paywall.offer kind) leaf extensions) (paywall.offer kind)) options =
      .ok
        { parts := ⟨(paywall.offer kind).toJson, echo (paywall.offer kind) leaf extensions, (paywall.offer kind).toJson,
            signedPart leaf⟩
          amount := paywall.amount
          manager := lib.viem.getAddress leaf.delegationManager
          context := leaf.permissionContext
          payer := payer } := by
  obtain ⟨_, hchosen⟩ := hagreed.chosen
  have hpayable := payable_of_acceptOffer hchosen
  have hoffer := readOffer_offer hpayable values hagreed.cap
  have hsame := sameRequirement_offer hpayable hagreed.addresses
  obtain ⟨payer, hpayer⟩ := readPayer_echo hempty hagreed hlength
  have hredeemer : assertRedeemer lib.viem options.facilitator
      (extraField (paywall.offer kind) "facilitatorAddresses") = .ok () :=
    assertRedeemer_offer hagreed.addresses hagreed.facilitator
  refine ⟨payer, ?_⟩
  refine bind_eq_ok.mpr ⟨_, readRequest_echo, bind_eq_ok.mpr ⟨_, hoffer, bind_eq_ok.mpr ⟨⟨⟩, ?_, ?_⟩⟩⟩
  · exact throwIf_eq_ok.mpr (by rw [Bool.not_eq_false]; exact hsame)
  · exact bind_eq_ok.mpr ⟨_, readManager_echo hagreed, bind_eq_ok.mpr ⟨_, hpayer, bind_eq_ok.mpr ⟨_, hredeemer, rfl⟩⟩⟩

end Checked

/-! ## At the seller -/

section Seller

variable {lib : Libraries Wire} {decoder : ContextDecoder D} {texts : FailureTexts}
  {config : DelegatedPaymentConfig lib.viem S} {paywall : Paywall} {kind : FacilitatorKind}
  {options : ValidationOptions} {leaf : Leaf} {extensions : Json}

/-- What the seller reads in the header. -/
def delegatedPayment (offer : Erc7710PaymentRequirements) (leaf : Leaf) (extensions : Json) : DelegatedPayment :=
  ⟨⟨leaf.delegationManager, leaf.delegator, leaf.permissionContext⟩, echo offer leaf extensions⟩

theorem assetTransferMethod_echo (offer : Erc7710PaymentRequirements) :
    assetTransferMethod (echo offer leaf extensions) = some "erc7710" := by
  obtain ⟨_, _, _, _, _, _, _, _ | manager⟩ := offer <;> rfl

theorem readDelegatedPayment_echo (hempty : decoder.decodeDelegations "0x" = none)
    (hagreed : Agreed lib decoder texts config paywall kind options leaf)
    (hlength : leaf.permissionContext.toList.length ≤ MAX_PERMISSION_CONTEXT_HEX_LENGTH) {header : Wire}
    (hheader : lib.codec.decode header = some (echo (paywall.offer kind) leaf extensions)) :
    readDelegatedPayment lib.viem lib.codec header = .ok (delegatedPayment (paywall.offer kind) leaf extensions) := by
  obtain ⟨_, hsigned⟩ := hagreed.signed
  obtain ⟨hmanager, hdelegator, -⟩ := of_signLeaf hsigned
  have hcontext := isContext_of_agreed hempty hagreed hlength
  simp only [isContext, Bool.and_eq_true, decide_eq_true_eq] at hcontext
  have hlong : ¬ leaf.permissionContext.length ≤ 2 := by
    rw [← String.length_toList]
    exact Nat.not_le.mpr hcontext.1.2
  have hpayload : delegationPayload lib.viem (echo (paywall.offer kind) leaf extensions) =
      some ⟨leaf.delegationManager, leaf.delegator, leaf.permissionContext⟩ := by
    show (do
      guard (lib.viem.isAddress leaf.delegationManager)
      guard (lib.viem.isAddress leaf.delegator)
      guard (isHex leaf.permissionContext ∧ ¬ leaf.permissionContext.length ≤ 2)
      some _) = _
    simp [guard, hmanager, hdelegator, hcontext.1.1, hlong]
  unfold readDelegatedPayment
  rw [hheader]
  dsimp only
  rw [if_neg (not_not.mpr (assetTransferMethod_echo _)), hpayload]
  rfl

/-- **The seller keys the payment as the facilitator does.** -/
theorem validate_echo (values : ViemValues lib.viem) (hviem : lib.viem.Checksums)
    (hempty : decoder.decodeDelegations "0x" = none) (hagreed : Agreed lib decoder texts config paywall kind options leaf)
    (hlength : leaf.permissionContext.toList.length ≤ MAX_PERMISSION_CONTEXT_HEX_LENGTH)
    (hamount : paywall.amount < 2 ^ 256) :
    ∃ payment, validateDelegatedPayment values lib.hashing decoder
        (facilitatorRequest (echo (paywall.offer kind) leaf extensions) (paywall.offer kind)) options = .ok payment ∧
      derivePaymentIntentId lib.viem lib.hashing
        (paymentIntent lib paywall (delegatedPayment (paywall.offer kind) leaf extensions)) =
          some payment.paymentIntentId := by
  obtain ⟨payer, hchecked⟩ := check_echo values extensions hempty hagreed hlength
  obtain ⟨_, hchosen⟩ := hagreed.chosen
  have hpayable := payable_of_acceptOffer hchosen
  have hpayTo := isAddress_payTo hpayable
  obtain ⟨hasset, hassetEq⟩ := isAddress_asset hpayable
  obtain ⟨_, hsigned⟩ := hagreed.signed
  have hmanager := hviem.isAddress_getAddress (of_signLeaf hsigned).1
  have hseller : (paymentIntent lib paywall (delegatedPayment (paywall.offer kind) leaf extensions)).Derivable lib.viem :=
    ⟨hasset, hamount, hpayTo, hmanager⟩
  have hfacilitator : PaymentIntent.Derivable lib.viem (intentOf lib.viem
      { parts := ⟨(paywall.offer kind).toJson, echo (paywall.offer kind) leaf extensions, (paywall.offer kind).toJson,
          signedPart leaf⟩
        amount := paywall.amount
        manager := lib.viem.getAddress leaf.delegationManager
        context := leaf.permissionContext
        payer := payer }) :=
    ⟨hviem.isAddress_getAddress hasset, hamount, hviem.isAddress_getAddress hpayTo, hmanager⟩
  refine ⟨_, bind_eq_ok.mpr ⟨_, hchecked, bind_eq_ok.mpr ⟨_, orThrow_eq_ok.mpr hfacilitator.derive, rfl⟩⟩, ?_⟩
  rw [hseller.derive]
  have hpayToEq := hviem.lower_getAddress hpayTo
  have hassetEq := hviem.lower_getAddress hasset
  simp only [PaymentIntent.encoded, PaymentIntent.values, paymentIntent, intentOf, addressOf, Json.textField,
    Paywall.offer, field_network, field_asset, field_payTo, delegatedPayment]
  simp only [buildErc7710PaymentRequirements, Json.text, Option.bind_some, Option.map_some, Option.getD_some, hpayToEq,
    hassetEq]

end Seller

/-! ## Two payments -/

/-- The manager as a payload spells it; what is no text is spelled as viem reads it. -/
def spelledManager {viem : Viem} (values : ViemValues viem) (payload : Json) : String :=
  match payload.field "delegationManager" with
  | some (.string text) => text
  | value => (values.getAddress .delegationManager value).getD ""

/-- What a payment is for, as its request spells it. -/
def spelledIntent {viem : Viem} (values : ViemValues viem) (payment : ValidatedDelegatedPayment) : PaymentIntent where
  network := (payment.paymentRequirements.textField "network").getD ""
  asset := (payment.paymentRequirements.textField "asset").getD ""
  amount := payment.amount
  payTo := (payment.paymentRequirements.textField "payTo").getD ""
  delegationManager := ((payment.paymentPayload.field "payload").map (spelledManager values)).getD ""
  permissionContext := ((payment.paymentPayload.field "payload").bind (·.textField "permissionContext")).getD ""

section Accepted

variable {viem : Viem} {values : ViemValues viem} {hashing : Hashing} {decoder : ContextDecoder D} {input : Json}
  {options : ValidationOptions} {checked : CheckedPayment} {payment : ValidatedDelegatedPayment}

theorem context_of_readPayer {payload : Json} {context payer : String}
    (h : readPayer values decoder payload = .ok (context, payer)) :
    payload.textField "permissionContext" = some context ∧ isContext context = true := by
  obtain ⟨_, -, h⟩ := bind_eq_ok.mp h
  obtain ⟨_, -, h⟩ := bind_eq_ok.mp h
  obtain ⟨⟨context', payer'⟩, hroot, h⟩ := bind_eq_ok.mp h
  obtain ⟨_, -, h⟩ := bind_eq_ok.mp h
  obtain ⟨_, -, h⟩ := bind_eq_ok.mp h
  obtain ⟨rfl, -⟩ := Prod.mk.inj (pure_eq_ok.mp h)
  obtain ⟨_, hcontext, hroot⟩ := bind_eq_ok.mp hroot
  obtain ⟨_, -, hroot⟩ := bind_eq_ok.mp hroot
  obtain ⟨_, -, hroot⟩ := bind_eq_ok.mp hroot
  obtain ⟨rfl, -⟩ := Prod.mk.inj (pure_eq_ok.mp hroot)
  exact Option.filter_eq_some_iff.mp (orThrow_eq_ok.mp hcontext)

/-- An accepted manager is the configured one, in some spelling. -/
theorem spelledManager_spec {payload : Json} {manager : String}
    (h : values.names .delegationManager (payload.field "delegationManager") manager = some true) :
    viem.isAddress (spelledManager values payload) = true ∧
      viem.getAddress (spelledManager values payload) = manager := by
  obtain ⟨his, hget⟩ := ViemValues.names_eq_true.mp h
  unfold spelledManager
  split
  · next text htext =>
    rw [htext, values.isAddress_string] at his
    rw [htext] at h
    exact ⟨Option.some.inj his, (ViemValues.names_string (Option.some.inj his)).mp h⟩
  · rw [hget]
    exact values.checksummed hget

theorem isHex_of_check (h : checkDelegatedPayment values decoder input options = .ok checked) :
    isHex checked.context = true := by
  obtain ⟨parts, -, h⟩ := bind_eq_ok.mp h
  obtain ⟨amount, -, h⟩ := bind_eq_ok.mp h
  obtain ⟨_, -, h⟩ := bind_eq_ok.mp h
  obtain ⟨manager, -, h⟩ := bind_eq_ok.mp h
  obtain ⟨⟨context, payer⟩, hpayer, h⟩ := bind_eq_ok.mp h
  obtain ⟨_, -, h⟩ := bind_eq_ok.mp h
  cases pure_eq_ok.mp h
  have hcontext := (context_of_readPayer hpayer).2
  simp only [isContext, Bool.and_eq_true] at hcontext
  exact hcontext.1.1

/-- **The key of an accepted payment** is the key of what its request spells. -/
theorem derive_spelledIntent (hviem : viem.Checksums)
    (h : validateDelegatedPayment values hashing decoder input options = .ok payment) :
    derivePaymentIntentId viem hashing (spelledIntent values payment) = some payment.paymentIntentId ∧
      isHex (spelledIntent values payment).permissionContext = true := by
  obtain ⟨checked, hok, h⟩ := bind_eq_ok.mp h
  obtain ⟨id, hid, h⟩ := bind_eq_ok.mp h
  cases pure_eq_ok.mp h
  have hid := orThrow_eq_ok.mp hid
  have hchecked := checked_of_ok hok
  obtain ⟨asset, hasset, hassetIs, -⟩ := hchecked.offer.asset_eq
  obtain ⟨payTo, hpayTo, hpayToIs⟩ := hchecked.offer.payTo_isAddress
  obtain ⟨hmanagerIs, hmanagerEq⟩ := spelledManager_spec hchecked.manager
  obtain ⟨_, _, hcontext, -⟩ := hchecked.payer
  have hintent : intentOf viem checked =
      { network := (checked.parts.requirements.textField "network").getD ""
        asset := viem.getAddress asset
        amount := checked.amount
        payTo := viem.getAddress payTo
        delegationManager := viem.getAddress (spelledManager values checked.parts.payload)
        permissionContext := checked.context } := by
    simp [intentOf, addressOf, hasset, hpayTo, hmanagerEq]
  have hspelled : spelledIntent values
      { paymentPayload := checked.parts.payment
        paymentRequirements := checked.parts.requirements
        amount := checked.amount
        payer := checked.payer
        paymentIntentId := id } =
      { network := (checked.parts.requirements.textField "network").getD ""
        asset := asset
        amount := checked.amount
        payTo := payTo
        delegationManager := spelledManager values checked.parts.payload
        permissionContext := checked.context } := by
    simp [spelledIntent, hasset, hpayTo, hchecked.payload_eq, hcontext]
  have hamount := (derive_eq_some.mp hid).1.amount
  have hderivable : PaymentIntent.Derivable viem
      { network := (checked.parts.requirements.textField "network").getD ""
        asset := asset
        amount := checked.amount
        payTo := payTo
        delegationManager := spelledManager values checked.parts.payload
        permissionContext := checked.context } := ⟨hassetIs, hamount, hpayToIs, hmanagerIs⟩
  rw [hspelled, ← derive_congr hviem hderivable, ← hintent]
  exact ⟨hid, isHex_of_check hok⟩

end Accepted

section Echo

variable {lib : Libraries Wire} {decoder : ContextDecoder D} {texts : FailureTexts}
  {config : DelegatedPaymentConfig lib.viem S} {paywall : Paywall} {kind : FacilitatorKind}
  {options : ValidationOptions} {leaf : Leaf} {extensions : Json} {payment : ValidatedDelegatedPayment}
  {values : ViemValues lib.viem}

/-- What the checks of an accepted echo found. -/
theorem checked_of_validate_echo
    (h : validateDelegatedPayment values lib.hashing decoder
      (facilitatorRequest (echo (paywall.offer kind) leaf extensions) (paywall.offer kind)) options = .ok payment) :
    ∃ checked : CheckedPayment,
      checked.parts = ⟨(paywall.offer kind).toJson, echo (paywall.offer kind) leaf extensions,
        (paywall.offer kind).toJson, signedPart leaf⟩ ∧
      checked.amount = paywall.amount ∧ checked.context = leaf.permissionContext ∧
      isContext leaf.permissionContext = true ∧ checked.amount < 2 ^ 256 ∧
      payment.paymentPayload = checked.parts.payment ∧ payment.paymentRequirements = checked.parts.requirements ∧
      payment.amount = checked.amount := by
  obtain ⟨checked, hok, h⟩ := bind_eq_ok.mp h
  obtain ⟨id, hid, h⟩ := bind_eq_ok.mp h
  cases pure_eq_ok.mp h
  have hfits : checked.amount < 2 ^ 256 := (derive_eq_some.mp (orThrow_eq_ok.mp hid)).1.amount
  obtain ⟨parts, hparts, hok⟩ := bind_eq_ok.mp hok
  cases readRequest_echo.symm.trans hparts
  obtain ⟨amount, hoffer, hok⟩ := bind_eq_ok.mp hok
  obtain ⟨_, hsame, hok⟩ := bind_eq_ok.mp hok
  obtain ⟨manager, -, hok⟩ := bind_eq_ok.mp hok
  obtain ⟨⟨context, payer⟩, hpayer, hok⟩ := bind_eq_ok.mp hok
  obtain ⟨_, -, hok⟩ := bind_eq_ok.mp hok
  cases pure_eq_ok.mp hok
  have hsame := (Bool.not_eq_false _).mp (throwIf_eq_ok.mp hsame)
  have hamount : amount = paywall.amount := by
    obtain ⟨text, htext, -, hvalue⟩ := (offerTerms_of_readOffer hoffer hsame).amount_eq
    obtain rfl : decimalText paywall.amount = text := Option.some.inj htext
    rw [← hvalue, decimalValue_decimalText]
  obtain ⟨hcontext, his⟩ := context_of_readPayer hpayer
  obtain rfl : leaf.permissionContext = context := Option.some.inj hcontext
  exact ⟨_, rfl, hamount, rfl, his, hfits, rfl, rfl, rfl⟩

/-- An accepted echo is within the bounds of the validator. -/
theorem bounds_of_validate_echo
    (h : validateDelegatedPayment values lib.hashing decoder
      (facilitatorRequest (echo (paywall.offer kind) leaf extensions) (paywall.offer kind)) options = .ok payment) :
    leaf.permissionContext.toList.length ≤ MAX_PERMISSION_CONTEXT_HEX_LENGTH ∧ paywall.amount < 2 ^ 256 := by
  obtain ⟨checked, -, hamount, -, hcontext, hfits, -⟩ := checked_of_validate_echo h
  simp only [isContext, Bool.and_eq_true, decide_eq_true_eq] at hcontext
  exact ⟨hcontext.2, hamount ▸ hfits⟩

/-- An accepted echo spells the offer and the leaf. -/
theorem spelledIntent_of_validate_echo
    (h : validateDelegatedPayment values lib.hashing decoder
      (facilitatorRequest (echo (paywall.offer kind) leaf extensions) (paywall.offer kind)) options = .ok payment) :
    spelledIntent values payment =
      { network := GIWA_SEPOLIA_CAIP2
        asset := MOCK_USDC_ADDRESS
        amount := paywall.amount
        payTo := paywall.payTo
        delegationManager := leaf.delegationManager
        permissionContext := leaf.permissionContext } := by
  obtain ⟨checked, hparts, hamount, -, -, -, hpayload, hrequirements, hpaid⟩ := checked_of_validate_echo h
  rw [spelledIntent, hpayload, hrequirements, hpaid, hamount, hparts]
  rfl

/-- **An echo is accepted** exactly when it is within the bounds of the validator. -/
theorem validate_echo_iff (values : ViemValues lib.viem) (hviem : lib.viem.Checksums)
    (hempty : decoder.decodeDelegations "0x" = none) (hagreed : Agreed lib decoder texts config paywall kind options leaf) :
    (∃ payment, validateDelegatedPayment values lib.hashing decoder
        (facilitatorRequest (echo (paywall.offer kind) leaf extensions) (paywall.offer kind)) options = .ok payment) ↔
      leaf.permissionContext.toList.length ≤ MAX_PERMISSION_CONTEXT_HEX_LENGTH ∧ paywall.amount < 2 ^ 256 := by
  constructor
  · rintro ⟨payment, h⟩
    exact bounds_of_validate_echo h
  · rintro ⟨hlength, hamount⟩
    obtain ⟨payment, h, -⟩ := validate_echo values hviem hempty hagreed hlength hamount
    exact ⟨payment, h⟩

end Echo

/-- What is offered is accepted, and what the keys of payments say. -/
structure OffersAgree (lib : Libraries Wire) (decoder : ContextDecoder D) (S : Type) : Prop where
  /-- An echo is accepted when its context is 64 KiB at most and its amount fits in 256 bits. -/
  accepted {texts : FailureTexts} {config : DelegatedPaymentConfig lib.viem S} {paywall : Paywall}
    {kind : FacilitatorKind} {options : ValidationOptions} {leaf : Leaf} (values : ViemValues lib.viem)
    (extensions : Json) (hagreed : Agreed lib decoder texts config paywall kind options leaf) :
    (∃ payment, validateDelegatedPayment values lib.hashing decoder
        (facilitatorRequest (echo (paywall.offer kind) leaf extensions) (paywall.offer kind)) options = .ok payment) ↔
      leaf.permissionContext.toList.length ≤ MAX_PERMISSION_CONTEXT_HEX_LENGTH ∧ paywall.amount < 2 ^ 256
  /-- The seller derives the key that the facilitator derives. -/
  keyed {texts : FailureTexts} {config : DelegatedPaymentConfig lib.viem S} {paywall : Paywall}
    {kind : FacilitatorKind} {options : ValidationOptions} {leaf : Leaf} {extensions : Json}
    {payment : ValidatedDelegatedPayment} {header : Wire} {values : ViemValues lib.viem}
    (hagreed : Agreed lib decoder texts config paywall kind options leaf)
    (h : validateDelegatedPayment values lib.hashing decoder
      (facilitatorRequest (echo (paywall.offer kind) leaf extensions) (paywall.offer kind)) options = .ok payment)
    (hheader : lib.codec.decode header = some (echo (paywall.offer kind) leaf extensions)) :
    ∃ delegated, readDelegatedPayment lib.viem lib.codec header = .ok delegated ∧
      derivePaymentIntentId lib.viem lib.hashing (paymentIntent lib paywall delegated) = some payment.paymentIntentId
  /-- Two payments have one key exactly when they are for one intent. -/
  keys {input input' : Json} {options options' : ValidationOptions} {payment payment' : ValidatedDelegatedPayment}
    {values values' : ViemValues lib.viem}
    (h : validateDelegatedPayment values lib.hashing decoder input options = .ok payment)
    (h' : validateDelegatedPayment values' lib.hashing decoder input' options' = .ok payment')
    (hcontexts : lib.hashing.Separates (spelledIntent values payment).permissionContext
      (spelledIntent values' payment').permissionContext)
    (hencoded : lib.hashing.Separates ((spelledIntent values payment).encoded lib.hashing)
      ((spelledIntent values' payment').encoded lib.hashing)) :
    payment.paymentIntentId = payment'.paymentIntentId ↔
      (spelledIntent values payment).Same (spelledIntent values' payment')

/-- **The offer, its two validators and the keys of payments agree.** -/
theorem offers_agree {lib : Libraries Wire} (hviem : lib.viem.Checksums) (hhash : lib.hashing.Lawful)
    {decoder : ContextDecoder D} (hempty : decoder.decodeDelegations "0x" = none) (S : Type) :
    OffersAgree lib decoder S where
  accepted values _ hagreed := validate_echo_iff values hviem hempty hagreed
  keyed hagreed h hheader := by
    obtain ⟨hlength, hamount⟩ := bounds_of_validate_echo h
    obtain ⟨payment, hvalid, hkey⟩ := validate_echo _ hviem hempty hagreed hlength hamount
    obtain rfl := Except.ok.inj (hvalid.symm.trans h)
    exact ⟨_, readDelegatedPayment_echo hempty hagreed hlength hheader, hkey⟩
  keys h h' hcontexts hencoded := by
    obtain ⟨hid, hcontext⟩ := derive_spelledIntent hviem h
    obtain ⟨hid', hcontext'⟩ := derive_spelledIntent hviem h'
    exact derive_eq_iff hviem hhash hcontext hcontext' hcontexts hencoded hid hid'

/-! ## Two spellings of one payment, and a payment out of bounds -/

/-- The numbers of the characters of a value. -/
def abiCodes (value : AbiValue) : List Nat :=
  let text := match value.canonical with
    | .bytes32 value => value
    | .string value => value
    | .address bytes => bytes
    | .uint256 value => decimalText value
  text.toList.map Char.toNat

/-- A hash of 64 digits: the first ones of the text. -/
def prefixHash (text : String) : String := hexText ((hexBytes text ++ List.replicate 64 '0').take 64)

/-- The values in unary. -/
def unaryHashing : Hashing where
  keccak256 := prefixHash
  sha256 := prefixHash
  toBytes _ := "0x"
  encodeAbiParameters values := hexText (List.replicate (2 * Encodable.encode (values.map abiCodes)) '0')

theorem isHex_hexText {digits : List Char} : isHex (hexText digits) = digits.all isHexDigit := by
  rw [isHex, hexText, String.toList_ofList]
  rfl

theorem hexDigits_hexBytes {text : String} (h : isHex text = true) : (hexBytes text).all isHexDigit = true := by
  have hbody : ((hexBody text).map Char.toLower).all isHexDigit = true := by
    unfold isHex at h
    split at h
    · next digits htext =>
      rw [hexBody, htext]
      simp only [List.drop_succ_cons, List.drop_zero, List.all_map, List.all_eq_true] at h ⊢
      intro c hc
      exact isHexDigit_toLower (h c hc)
    · cases h
  unfold hexBytes
  dsimp only
  split
  · exact hbody
  · rw [List.all_cons, hbody]
    decide

theorem toLower_of_mem_hexBytes {text : String} {c : Char} (hc : c ∈ hexBytes text) : c.toLower = c := by
  have hbody {c : Char} (hc : c ∈ (hexBody text).map Char.toLower) : c.toLower = c := by
    obtain ⟨d, -, rfl⟩ := List.mem_map.mp hc
    exact toLower_toLower d
  unfold hexBytes at hc
  dsimp only at hc
  split at hc
  · exact hbody hc
  · rcases List.mem_cons.mp hc with rfl | hc
    · decide
    · exact hbody hc

/-- A digit of the hash is one of the text, or a zero. -/
theorem mem_prefixHash {text : String} {c : Char} (hc : c ∈ (hexBytes text ++ List.replicate 64 '0').take 64) :
    c ∈ hexBytes text ∨ c = '0' :=
  (List.mem_append.mp (List.mem_of_mem_take hc)).imp_right List.eq_of_mem_replicate

theorem hexBytes_unary (n : Nat) : hexBytes (hexText (List.replicate (2 * n) '0')) = List.replicate (2 * n) '0' := by
  have hzero : Char.toLower '0' = '0' := by decide
  rw [hexBytes, hexBody_hexText, List.map_replicate, hzero]
  simp

theorem canonical_of_abiCodes {value value' : AbiValue} (htype : value.type = value'.type)
    (h : abiCodes value = abiCodes value') : value.canonical = value'.canonical := by
  have hinj {a b : String} (h : a.toList.map Char.toNat = b.toList.map Char.toNat) : a = b :=
    String.ext (List.map_injective_iff.mpr (fun _ _ => Char.toNat_inj.mp) h)
  cases value <;> cases value' <;> try cases htype
  · exact congrArg AbiValue.bytes32 (hinj h)
  · exact congrArg AbiValue.string (hinj h)
  · exact congrArg AbiValue.address (hinj h)
  · next n n' =>
    have htext : decimalText n = decimalText n' := hinj h
    have hvalue := decimalValue_decimalText n
    rw [htext, decimalValue_decimalText] at hvalue
    exact congrArg AbiValue.uint256 hvalue.symm

theorem canonical_of_map_abiCodes : ∀ {values values' : List AbiValue},
    values.map AbiValue.type = values'.map AbiValue.type → values.map abiCodes = values'.map abiCodes →
      values.map AbiValue.canonical = values'.map AbiValue.canonical
  | [], [], _, _ => rfl
  | value :: values, value' :: values', htypes, hcodes => by
    obtain ⟨htype, htypes⟩ := List.cons.inj htypes
    obtain ⟨hcode, hcodes⟩ := List.cons.inj hcodes
    rw [List.map_cons, List.map_cons, canonical_of_abiCodes htype hcode, canonical_of_map_abiCodes htypes hcodes]

theorem unaryHashing_lawful : unaryHashing.Lawful where
  keccak_hex {text} h := by
    have hall : ((hexBytes text ++ List.replicate 64 '0').take 64).all isHexDigit = true := by
      refine List.all_eq_true.mpr fun c hc => ?_
      rcases mem_prefixHash hc with hc | rfl
      · exact List.all_eq_true.mp (hexDigits_hexBytes h) c hc
      · decide
    have hlength : ((hexBytes text ++ List.replicate 64 '0').take 64).length = 64 := by
      rw [List.length_take, List.length_append, List.length_replicate]
      omega
    show isHexOf 32 (hexText _) = true
    rw [isHexOf, hexText, String.toList_ofList]
    show (_ && _) = true
    rw [hall, hlength]
    rfl
  keccak_lower {text} _ := by
    have hlower : ((hexBytes text ++ List.replicate 64 '0').take 64).map Char.toLower =
        (hexBytes text ++ List.replicate 64 '0').take 64 := by
      refine (List.map_congr_left fun c hc => ?_).trans (List.map_id _)
      rcases mem_prefixHash hc with hc | rfl
      · exact toLower_of_mem_hexBytes hc
      · decide
    show toLowerCase (hexText _) = hexText _
    rw [toLowerCase, hexText, String.toList_ofList, List.map_cons, List.map_cons, hlower]
    rfl
  keccak_congr _ _ h := by
    show prefixHash _ = prefixHash _
    rw [prefixHash, prefixHash, h]
  toBytes_hex _ := show isHex "0x" = true by decide
  encode_hex _ := by
    show isHex (hexText _) = true
    rw [isHex_hexText]
    refine List.all_eq_true.mpr fun c hc => ?_
    rw [List.eq_of_mem_replicate hc]
    decide
  encode_inj {values values'} _ _ htypes h := by
    have hlength := congrArg List.length h
    simp only [unaryHashing, hexBytes_unary, List.length_replicate] at hlength
    have hcodes : values.map abiCodes = values'.map abiCodes := Encodable.encode_injective (by omega)
    exact canonical_of_map_abiCodes htypes hcodes

theorem plain_checksums : Viem.plain.Checksums where
  toLawful := Viem.plain_lawful
  isHexOf_of_isAddress := id
  lower_getAddress _ := rfl

def plainLibraries : Libraries Json := ⟨Viem.plain, unaryHashing, HeaderCodec.plain, fun _ => 0⟩

def plainValues : ViemValues plainLibraries.viem := .plain

/-- Every context but the empty one is a delegation of the sample account. -/
def nonemptyDecoder : ContextDecoder Unit :=
  ⟨fun context => if context = "0x" then none else some [()], fun _ => sampleAddress⟩

def sampleLeaf (context : String) : Leaf := ⟨sampleAddress, context, sampleAddress⟩

/-- A client that trusts the sample account and signs one leaf. -/
def sampleClient (context : String) : DelegatedPaymentConfig Viem.plain Unit where
  trustedFacilitators := [sampleAddress]
  delegationManager := sampleAddress
  isAddress_delegationManager := by decide
  preflight := none
  provider _ _ := (.ok (sampleLeaf context), ())

def samplePaywall (amount : Nat) : Paywall := ⟨sampleAddress, amount, "sample", none, false, none⟩

def sampleKind : FacilitatorKind := ⟨[sampleAddress], some sampleAddress⟩

def sampleOffer (amount : Nat) : Json := ((samplePaywall amount).offer sampleKind).toJson

def sampleTexts : FailureTexts := ⟨fun _ => "", fun _ => ""⟩

section Sample

variable {amount : Nat} {context : String}

theorem assertErc7710Offer_sample (hamount : amount ≠ 0) :
    assertErc7710Offer Viem.plain (sampleOffer amount) = .ok (sampleOffer amount) := by
  refine assertErc7710Offer_eq_ok.mpr ⟨?_, rfl⟩
  exact
    { onRail := rfl
      asset_eq := addressField_eq_some.mpr ⟨MOCK_USDC_ADDRESS, rfl, by decide, rfl⟩
      payTo := ⟨sampleAddress, addressField_eq_some.mpr ⟨sampleAddress, rfl, by decide, rfl⟩, by decide⟩
      amount := ⟨_, rfl, isPositiveText_decimalText hamount⟩
      flow := rfl
      timeout := ⟨60, timeout_offer sampleAddress amount sampleKind⟩
      list := ⟨_, rfl⟩
      manager := .inr (.inr ⟨_, rfl⟩) }

theorem judgeOffer_sample (hamount : amount ≠ 0) :
    judgeOffer sampleTexts (sampleClient context).toOfferConfig (sampleOffer amount) =
      .ok (.accepted (sampleOffer amount)) := by
  unfold judgeOffer
  rw [assertErc7710Offer_sample hamount]
  rfl

theorem acceptOffer_sample (hamount : amount ≠ 0) :
    acceptOffer sampleTexts (sampleClient context)
      (.object [("x402Version", .number 2 0), ("accepts", .array [sampleOffer amount])]) = .ok (sampleOffer amount) := by
  have hselect : selectFrom sampleTexts (sampleClient context).toOfferConfig none [sampleOffer amount] =
      .ok (some (.accepted (sampleOffer amount))) := by
    unfold selectFrom
    rw [judgeOffer_sample hamount]
    rfl
  have hselection : selectOffer sampleTexts (sampleClient context).toOfferConfig (some (.array [sampleOffer amount])) =
      .ok (.accepted (sampleOffer amount)) := by
    unfold selectOffer
    dsimp only
    rw [hselect]
    rfl
  have hchosen : chooseOffer sampleTexts (sampleClient context).toOfferConfig
      (.object [("x402Version", .number 2 0), ("accepts", .array [sampleOffer amount])]) =
        .ok (.accepted (sampleOffer amount)) := hselection
  rw [acceptOffer, hchosen]

theorem agreed_sample (hamount : amount ≠ 0) (hhex : isHex context = true)
    (hne : context ≠ "0x") :
    Agreed plainLibraries nonemptyDecoder sampleTexts (sampleClient context) (samplePaywall amount) sampleKind uncappedOptions
      (sampleLeaf context) where
  addresses := by
    refine ⟨fun address hmem => ?_, ?_⟩
    · rw [List.mem_singleton.mp hmem]
      decide
    · rintro _ ⟨⟩
      decide
  chosen := ⟨_, acceptOffer_sample hamount⟩
  signed := by
    have his : Viem.plain.isAddress sampleAddress = true := by decide
    refine ⟨(), ?_⟩
    show (signLeaf (sampleClient context) (sampleOffer amount) ()).1 = _
    simp [signLeaf, sampleClient, sampleLeaf, his]
  facilitator := ⟨sampleAddress, List.mem_singleton_self _, rfl⟩
  manager := rfl
  cap := nofun
  context := hhex
  root := ⟨[()], (), if_neg hne, rfl, by decide, rfl⟩

/-- What the facilitator makes of the sample client's payment. -/
def validateSample (amount : Nat) (context : String) : Except ValidationError ValidatedDelegatedPayment :=
  validateDelegatedPayment plainValues plainLibraries.hashing nonemptyDecoder
    (facilitatorRequest (echo ((samplePaywall amount).offer sampleKind) (sampleLeaf context) .null)
      ((samplePaywall amount).offer sampleKind)) uncappedOptions

variable {payment : ValidatedDelegatedPayment}

theorem bounds_of_validateSample (h : validateSample amount context = .ok payment) :
    context.toList.length ≤ MAX_PERMISSION_CONTEXT_HEX_LENGTH ∧ amount < 2 ^ 256 := by
  unfold validateSample at h
  exact bounds_of_validate_echo h

theorem spelledIntent_of_validateSample (h : validateSample amount context = .ok payment) :
    spelledIntent plainValues payment =
      ⟨GIWA_SEPOLIA_CAIP2, MOCK_USDC_ADDRESS, amount, sampleAddress, sampleAddress, context⟩ := by
  unfold validateSample at h
  exact spelledIntent_of_validate_echo h

end Sample

/-- 64 KiB and one byte. -/
def longContext : String := hexText (List.replicate 131074 '0')

theorem isHex_longContext : isHex longContext = true := by
  rw [longContext, isHex_hexText]
  refine List.all_eq_true.mpr fun c hc => ?_
  rw [List.eq_of_mem_replicate hc]
  decide

theorem length_longContext : longContext.toList.length = 131076 := by
  rw [longContext, hexText, String.toList_ofList, List.length_cons, List.length_cons, List.length_replicate]

/-- A client agrees to pay, and the facilitator does not accept: for a context that is too long, and for an
amount that is too large. -/
theorem agreed_not_accepted :
    (Agreed plainLibraries nonemptyDecoder sampleTexts (sampleClient longContext) (samplePaywall 1) sampleKind uncappedOptions
        (sampleLeaf longContext) ∧ ¬ ∃ payment, validateSample 1 longContext = .ok payment) ∧
      Agreed plainLibraries nonemptyDecoder sampleTexts (sampleClient "0x01") (samplePaywall (2 ^ 256)) sampleKind
        uncappedOptions (sampleLeaf "0x01") ∧ ¬ ∃ payment, validateSample (2 ^ 256) "0x01" = .ok payment := by
  refine ⟨⟨?_, ?_⟩, ?_, ?_⟩
  · refine agreed_sample (by decide) isHex_longContext fun h => ?_
    have hlength := length_longContext
    rw [h] at hlength
    exact absurd hlength (by decide)
  · rintro ⟨payment, h⟩
    have hle := (bounds_of_validateSample h).1
    rw [length_longContext] at hle
    exact absurd hle (by decide)
  · exact agreed_sample (by decide) (by decide) (by decide)
  · rintro ⟨payment, h⟩
    exact absurd (bounds_of_validateSample h).2 (Nat.lt_irrefl _)

/-- One payment under two spellings of its context: both are accepted, under one key. -/
theorem offers_agree_spellings :
    ∃ payment payment', validateSample 1000 "0xab" = .ok payment ∧ validateSample 1000 "0xAB" = .ok payment' ∧
      payment.paymentIntentId = payment'.paymentIntentId := by
  have hagree : OffersAgree plainLibraries nonemptyDecoder Unit :=
    offers_agree plain_checksums unaryHashing_lawful rfl Unit
  have hagreed := agreed_sample (show (1000 : Nat) ≠ 0 by decide) (show isHex "0xab" = true by decide) (by decide)
  have hagreed' := agreed_sample (show (1000 : Nat) ≠ 0 by decide) (show isHex "0xAB" = true by decide) (by decide)
  obtain ⟨payment, h⟩ := (hagree.accepted plainValues .null hagreed).mpr (by decide)
  obtain ⟨payment', h'⟩ := (hagree.accepted plainValues .null hagreed').mpr (by decide)
  have hspelled := spelledIntent_of_validateSample h
  have hspelled' := spelledIntent_of_validateSample h'
  have hcontext : hexBytes "0xab" = hexBytes "0xAB" := by decide
  have hsame : (spelledIntent plainValues payment).Same (spelledIntent plainValues payment') := by
    rw [hspelled, hspelled']
    exact ⟨rfl, rfl, rfl, rfl, rfl, hcontext⟩
  have hhash : unaryHashing.keccak256 "0xab" = unaryHashing.keccak256 "0xAB" :=
    congrArg (fun bytes => hexText ((bytes ++ List.replicate 64 '0').take 64)) hcontext
  have hencoded : (spelledIntent plainValues payment).encoded unaryHashing =
      (spelledIntent plainValues payment').encoded unaryHashing := by
    rw [hspelled, hspelled', PaymentIntent.encoded, PaymentIntent.encoded, PaymentIntent.values, PaymentIntent.values]
    simp only [hhash]
  refine ⟨payment, payment', h, h', (hagree.keys h h' (fun _ => ?_) fun _ => ?_).mpr hsame⟩
  · rw [hspelled, hspelled']
    exact hcontext
  · exact congrArg hexBytes hencoded

end Mapae.Seller
