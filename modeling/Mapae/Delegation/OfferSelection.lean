import Mapae.Delegation.FacilitatorContract
import Mapae.Shared.Token
import Mapae.Shared.X402

/-!
# Choosing an offer

The buyer's client reads a seller's 402 document, of any shape, and takes the first offer it can
pay. `assertErc7710Offer` judges an offer inside a `try`. What throws outside of it escapes.

* `Offered` is what the judgement of an offer asks for, but for its manager
* `judgeOffer_cases` says how a candidate is judged: `Payable` offers are accepted, and those that
  are `NullManaged` throw
* `selectFrom_cases` is the loop, which the first of these ends
-/

namespace Mapae.Delegation

open Mapae.Infra Mapae.Shared

variable {viem : Viem}

/-- What the client compares an offer with. Its manager comes from a deployment that was verified. -/
structure OfferConfig (viem : Viem) where
  trustedFacilitators : List String
  delegationManager : String
  isAddress_delegationManager : viem.isAddress delegationManager = true

/-- What `assertErc7710Offer` throws. -/
inductive OfferFault where
  | said (message : String)
  /-- An exception of the language, of a value that cannot be printed. -/
  | typeError

inductive OfferFailureCode where
  | SELLER_OFFER_INVALID
  | FACILITATOR_UNTRUSTED
  | MANAGER_MISMATCH
  | UNSUPPORTED_X402_VERSION

inductive OfferSelection where
  | accepted (offer : Json)
  | failed (code : OfferFailureCode) (detail : String)

/-- An exception that no `try` catches. -/
inductive Escape where
  /-- `getAddress` of what is no address. -/
  | invalidAddress
  /-- A value that cannot be printed. -/
  | typeError
  /-- `JSON.parse` of what is no JSON. -/
  | syntaxError

/-- The texts of a failure: `errorMessage` of what was thrown, and `String` of a value. -/
structure FailureTexts where
  errorMessage : OfferFault → String
  print : Option Json → String

/-- Whether a value that can be printed is printed as a positive decimal. A number from 10 ^ 21 on is
printed with an exponent, and an array of one value as this value. -/
def printsPositive : Json → Bool
  | .string text => isPositiveText text
  | .number mantissa exponent => (Json.number mantissa exponent).int.any fun n => 1 ≤ n ∧ n < 10 ^ 21
  | .array [value] => printsPositive value
  | _ => false

/-- `/^[1-9]\d*$/.test(value)`. -/
def testPositive (value : Option Json) : Except OfferFault Bool :=
  match value with
  | none => pure false
  | some value => if value.unprintable then .error .typeError else pure (printsPositive value)

def isExactErc7710OnGiwa (value : Json) : Bool :=
  value.isObject && decide (value.textField "scheme" = some "exact") &&
    decide (value.textField "network" = some GIWA_SEPOLIA_CAIP2) &&
    decide ((Json.fieldOf (value.field "extra") "assetTransferMethod").bind Json.text = some "erc7710")

/-- The address a field has. -/
def addressField (viem : Viem) (value : Option Json) : Option String :=
  ((value.bind Json.text).filter viem.isAddress).map viem.getAddress

/-- The manager an offer advertises. -/
def managerOf (offer : Json) : Option Json := Json.fieldOf (offer.field "extra") "delegationManager"

/-- Throws a message. -/
def sayIf (p : Prop) [Decidable p] (message : String) : Except OfferFault Unit :=
  throwIf p (.said message)

def assertErc7710Offer (viem : Viem) (req : Json) : Except OfferFault Json := do
  sayIf (isExactErc7710OnGiwa req = false) "seller did not offer exact ERC-7710 on GIWA"
  let asset ← orThrow (addressField viem (req.field "asset")) (.said "seller asset is not an address")
  sayIf (asset ≠ MOCK_USDC_ADDRESS) s!"unexpected asset {asset}"
  let payTo ← orThrow (addressField viem (req.field "payTo")) (.said "seller payTo is malformed")
  sayIf (payTo = zeroAddress) "seller payTo is the zero address"
  let positive ← testPositive (req.field "amount")
  sayIf (positive = false) "seller amount is malformed"
  let extra := req.field "extra"
  sayIf (flowSupported (Json.fieldOf extra "paymentFlow") = false)
    "seller declares an unsupported payment flow"
  sayIf ((req.field "maxTimeoutSeconds").bind (·.integer 1 300) = none) "seller timeout is unsafe"
  sayIf (Json.listOrEmpty (Json.fieldOf extra "facilitatorAddresses") = none)
    "seller facilitatorAddresses is not a list"
  let advertisedManager := (managerOf req).filter fun value => !value.isNull
  sayIf (advertisedManager.isSome = true ∧ addressField viem advertisedManager = none)
    "seller delegationManager is malformed"
  pure req

/-- Whether a trusted facilitator is among those advertised. -/
def overlaps (viem : Viem) (trustedFacilitators : List String) (advertised : List Json) : Bool :=
  trustedFacilitators.any fun trusted =>
    advertised.any fun facilitator => addressField viem (some facilitator) = some trusted

/-- The last check of `judgeOffer`: an advertised manager is the client's. -/
def judgeManager (config : OfferConfig viem) (accepted : Json) : Except Escape OfferSelection :=
  match managerOf accepted with
  | none => pure (.accepted accepted)
  | some advertisedManager =>
    match addressField viem (some advertisedManager) with
    | none => .error .invalidAddress
    | some manager =>
      if manager ≠ viem.getAddress config.delegationManager then
        pure (.failed .MANAGER_MISMATCH
          "seller advertises a different DelegationManager than the verified deployment")
      else pure (.accepted accepted)

def judgeOffer (texts : FailureTexts) (config : OfferConfig viem) (candidate : Json) :
    Except Escape OfferSelection :=
  match assertErc7710Offer viem candidate with
  | .error fault => pure (.failed .SELLER_OFFER_INVALID (texts.errorMessage fault))
  | .ok accepted =>
    let extra := accepted.field "extra"
    let advertised := (Json.listOrEmpty (Json.fieldOf extra "facilitatorAddresses")).getD []
    if overlaps viem config.trustedFacilitators advertised = false then
      pure (.failed .FACILITATOR_UNTRUSTED
        "seller and trusted facilitator signer lists do not overlap")
    else judgeManager config accepted

/-- The loop over the candidates. `onRail` is the verdict on the first of them that was meant for
this client. -/
def selectFrom (texts : FailureTexts) (config : OfferConfig viem) :
    Option OfferSelection → List Json → Except Escape (Option OfferSelection)
  | onRail, [] => pure onRail
  | onRail, candidate :: accepts => do
    let verdict ← judgeOffer texts config candidate
    match verdict with
    | .accepted offer => pure (some (.accepted offer))
    | .failed code detail =>
      let onRail := if onRail.isNone && isExactErc7710OnGiwa candidate then
          some (.failed code detail)
        else onRail
      selectFrom texts config onRail accepts

def selectOffer (texts : FailureTexts) (config : OfferConfig viem) (accepts : Option Json) :
    Except Escape OfferSelection :=
  match accepts with
  | some (.array (candidate :: rest)) => do
    let onRail ← selectFrom texts config none (candidate :: rest)
    pure (onRail.getD (.failed .SELLER_OFFER_INVALID
      s!"no exact ERC-7710 offer on GIWA among {rest.length + 1} accepts"))
  | _ => pure (.failed .SELLER_OFFER_INVALID "402 body has no accepts")

/-- What `payForDelegatedResource` makes of the document, up to its choice of an offer. -/
def chooseOffer (texts : FailureTexts) (config : OfferConfig viem) (body : Json) :
    Except Escape OfferSelection :=
  if body.isObject = false then pure (.failed .SELLER_OFFER_INVALID "402 body is not an object")
  else
    let version := body.field "x402Version"
    if isX402Version version = false then
      if version.any Json.unprintable then .error .typeError
      else pure (.failed .UNSUPPORTED_X402_VERSION s!"unsupported x402 version {texts.print version}")
    else selectOffer texts config (body.field "accepts")

/-! ## The judgement of an offer -/

/-- What `assertErc7710Offer` accepts. -/
structure WellFormed (viem : Viem) (offer : Json) : Prop where
  onRail : isExactErc7710OnGiwa offer = true
  asset_eq : addressField viem (offer.field "asset") = some MOCK_USDC_ADDRESS
  payTo : ∃ payTo, addressField viem (offer.field "payTo") = some payTo ∧ payTo ≠ zeroAddress
  amount : ∃ amount, offer.field "amount" = some amount ∧ printsPositive amount = true
  flow : flowSupported (Json.fieldOf (offer.field "extra") "paymentFlow") = true
  timeout : ∃ seconds, (offer.field "maxTimeoutSeconds").bind (·.integer 1 300) = some seconds
  list : ∃ advertised,
    Json.listOrEmpty (Json.fieldOf (offer.field "extra") "facilitatorAddresses") = some advertised
  manager : managerOf offer = none ∨ managerOf offer = some .null ∨
    ∃ manager, addressField viem (managerOf offer) = some manager

/-- What the judgement of an offer asks for, but for its manager. -/
structure Offered (config : OfferConfig viem) (offer : Json) : Prop extends WellFormed viem offer where
  trusted : ∃ advertised,
    Json.listOrEmpty (Json.fieldOf (offer.field "extra") "facilitatorAddresses") = some advertised ∧
      ∃ trusted ∈ config.trustedFacilitators, ∃ facilitator ∈ advertised,
        addressField viem (some facilitator) = some trusted

/-- An offer that passes every check. -/
structure Payable (config : OfferConfig viem) (offer : Json) : Prop extends Offered config offer where
  agrees : managerOf offer = none ∨
    addressField viem (managerOf offer) = some (viem.getAddress config.delegationManager)

/-- An offer that passes the checks before its manager is compared, and advertises `null`. -/
structure NullManaged (config : OfferConfig viem) (offer : Json) : Prop
    extends Offered config offer where
  null_eq : managerOf offer = some .null

theorem unprintable_eq_false {value : Json} (h : printsPositive value = true) :
    value.unprintable = false := by
  fun_induction printsPositive value with
  | case1 => rfl
  | case2 => rfl
  | case3 value ih => simp [Json.unprintable, Json.anyUnprintable, ih h]
  | case4 => cases h

theorem testPositive_eq_true {value : Option Json} :
    testPositive value = .ok true ↔ ∃ amount, value = some amount ∧ printsPositive amount = true := by
  cases value with
  | none => simp [testPositive]
  | some value =>
    by_cases hprints : printsPositive value = true
    · simp [testPositive, unprintable_eq_false hprints, hprints]
    · by_cases hunprintable : value.unprintable = true
      · simp [testPositive, hunprintable, hprints]
      · simp [testPositive, hunprintable, hprints]

/-- An advertised manager is an address, unless it is absent or `null`. -/
theorem manager_wellFormed {manager : Option Json} :
    ¬ ((manager.filter fun value => !value.isNull).isSome = true ∧
      addressField viem (manager.filter fun value => !value.isNull) = none) ↔
    manager = none ∨ manager = some .null ∨ ∃ text, addressField viem manager = some text := by
  cases manager with
  | none => simp
  | some manager =>
    cases manager with
    | null => simp [Json.isNull]
    | _ => simp [Json.isNull, Option.filter, Option.ne_none_iff_exists']

/-- **What the assertion accepts is well formed**, and the other way round. -/
theorem assertErc7710Offer_eq_ok {offer accepted : Json} :
    assertErc7710Offer viem offer = .ok accepted ↔ WellFormed viem offer ∧ offer = accepted := by
  simp only [assertErc7710Offer, sayIf, bind_eq_ok, throwIf_eq_ok, orThrow_eq_ok, pure_eq_ok,
    exists_const, not_not, Bool.not_eq_false, manager_wellFormed]
  constructor
  · rintro ⟨honRail, _, hasset, rfl, payTo, hpayTo, hzero, _, hamount, rfl, hflow, htimeout, hlist,
      hmanager, rfl⟩
    exact
      ⟨{ onRail := honRail
         asset_eq := hasset
         payTo := ⟨payTo, hpayTo, hzero⟩
         amount := testPositive_eq_true.mp hamount
         flow := hflow
         timeout := Option.ne_none_iff_exists'.mp htimeout
         list := Option.ne_none_iff_exists'.mp hlist
         manager := hmanager }, rfl⟩
  · rintro ⟨h, rfl⟩
    obtain ⟨payTo, hpayTo, hzero⟩ := h.payTo
    exact ⟨h.onRail, _, h.asset_eq, rfl, payTo, hpayTo, hzero, _, testPositive_eq_true.mpr h.amount,
      rfl, h.flow, Option.ne_none_iff_exists'.mpr h.timeout,
      Option.ne_none_iff_exists'.mpr h.list, h.manager, rfl⟩

theorem overlaps_eq_true {trustedFacilitators : List String} {advertised : List Json} :
    overlaps viem trustedFacilitators advertised = true ↔
      ∃ trusted ∈ trustedFacilitators, ∃ facilitator ∈ advertised,
        addressField viem (some facilitator) = some trusted := by
  simp [overlaps]

/-- The three ways of a candidate. -/
inductive Judged (config : OfferConfig viem) (candidate : Json) :
    Except Escape OfferSelection → Prop where
  | payable : Payable config candidate → Judged config candidate (.ok (.accepted candidate))
  | refused {code : OfferFailureCode} {detail : String} : ¬ Payable config candidate →
      ¬ NullManaged config candidate → Judged config candidate (.ok (.failed code detail))
  | escaped : NullManaged config candidate → Judged config candidate (.error .invalidAddress)

theorem judgeManager_cases {config : OfferConfig viem} {offer : Json} (h : Offered config offer) :
    Judged config offer (judgeManager config offer) := by
  unfold judgeManager
  cases hmanager : managerOf offer with
  | none => exact .payable ⟨h, .inl hmanager⟩
  | some manager =>
    cases haddress : addressField viem (some manager) with
    | none =>
      -- only `null` has passed the assertion and is no address
      have hnull : managerOf offer = some .null := by
        rcases h.manager with hnone | hnull | ⟨text, htext⟩
        · rw [hmanager] at hnone
          cases hnone
        · exact hnull
        · rw [hmanager, haddress] at htext
          cases htext
      simp only [haddress]
      exact .escaped ⟨h, hnull⟩
    | some text =>
      have hnotNull : ¬ NullManaged config offer := fun hnull => by
        obtain rfl := Option.some.inj (hmanager.symm.trans hnull.null_eq)
        cases haddress
      by_cases hsame : text = viem.getAddress config.delegationManager
      · have hagrees : addressField viem (managerOf offer)
            = some (viem.getAddress config.delegationManager) := by rw [hmanager, haddress, hsame]
        simp only [haddress, hsame, ne_eq, not_true_eq_false, if_false]
        exact .payable ⟨h, .inr hagrees⟩
      · have hforeign : ¬ Payable config offer := fun hpayable => by
          rcases hpayable.agrees with hnone | hagrees
          · rw [hmanager] at hnone
            cases hnone
          · rw [hmanager, haddress] at hagrees
            exact hsame (Option.some.inj hagrees)
        simp only [haddress, hsame, ne_eq, not_false_eq_true, if_true]
        exact .refused hforeign hnotNull

/-- **A candidate is accepted, refused with a reason, or throws.** -/
theorem judgeOffer_cases (texts : FailureTexts) (config : OfferConfig viem) (candidate : Json) :
    Judged config candidate (judgeOffer texts config candidate) := by
  unfold judgeOffer
  cases hassert : assertErc7710Offer viem candidate with
  | error fault =>
    have hill : ¬ WellFormed viem candidate := fun h => by
      rw [assertErc7710Offer_eq_ok.mpr ⟨h, rfl⟩] at hassert
      cases hassert
    exact .refused (fun h => hill h.toWellFormed) (fun h => hill h.toWellFormed)
  | ok accepted =>
    obtain ⟨hwell, rfl⟩ := assertErc7710Offer_eq_ok.mp hassert
    obtain ⟨advertised, hlist⟩ := hwell.list
    simp only [hlist, Option.getD_some]
    split
    · next hoverlaps =>
      have hstranger : ¬ Offered config candidate := fun h => by
        obtain ⟨advertised', hlist', htrusted⟩ := h.trusted
        obtain rfl := Option.some.inj (hlist.symm.trans hlist')
        rw [overlaps_eq_true.mpr htrusted] at hoverlaps
        cases hoverlaps
      exact .refused (fun h => hstranger h.toOffered) (fun h => hstranger h.toOffered)
    · next hoverlaps =>
      have htrusted := overlaps_eq_true.mp ((Bool.not_eq_false _).mp hoverlaps)
      exact judgeManager_cases { hwell with trusted := ⟨advertised, hlist, htrusted⟩ }

/-! ## The loop -/

/-- The candidates before some element of the list are all refused. -/
def Refused (config : OfferConfig viem) (candidates : List Json) : Prop :=
  ∀ candidate ∈ candidates, ¬ Payable config candidate ∧ ¬ NullManaged config candidate

/-- The three ways of the loop. -/
inductive Selected (config : OfferConfig viem) (accepts : List Json) :
    Except Escape (Option OfferSelection) → Prop where
  | payable {before after : List Json} {offer : Json} : accepts = before ++ offer :: after →
      Refused config before → Payable config offer →
      Selected config accepts (.ok (some (.accepted offer)))
  | refused {onRail : Option OfferSelection} : Refused config accepts →
      (∀ offer, onRail ≠ some (.accepted offer)) → Selected config accepts (.ok onRail)
  | escaped {before after : List Json} {offer : Json} : accepts = before ++ offer :: after →
      Refused config before → NullManaged config offer →
      Selected config accepts (.error .invalidAddress)

theorem Selected.cons {config : OfferConfig viem} {candidate : Json} {accepts : List Json}
    {outcome : Except Escape (Option OfferSelection)} (hpayable : ¬ Payable config candidate)
    (hnull : ¬ NullManaged config candidate) (h : Selected config accepts outcome) :
    Selected config (candidate :: accepts) outcome := by
  have hcons {before : List Json} (h : Refused config before) : Refused config (candidate :: before) :=
    List.forall_mem_cons.mpr ⟨⟨hpayable, hnull⟩, h⟩
  cases h with
  | payable heq hbefore hoffer => exact .payable (by rw [heq, List.cons_append]) (hcons hbefore) hoffer
  | refused hall hfailed => exact .refused (hcons hall) hfailed
  | escaped heq hbefore hoffer => exact .escaped (by rw [heq, List.cons_append]) (hcons hbefore) hoffer

/-- **The loop ends at the first candidate that is payable or throws**, and what it keeps until then
is a failure. -/
theorem selectFrom_cases (texts : FailureTexts) (config : OfferConfig viem) {onRail : Option OfferSelection}
    {accepts : List Json} (hfailed : ∀ offer, onRail ≠ some (.accepted offer)) :
    Selected config accepts (selectFrom texts config onRail accepts) := by
  induction accepts generalizing onRail with
  | nil => exact .refused (by simp [Refused]) hfailed
  | cons candidate accepts ih =>
    have hjudged := judgeOffer_cases texts config candidate
    unfold selectFrom
    generalize judgeOffer texts config candidate = verdict at hjudged
    cases hjudged with
    | payable hpayable => exact .payable (List.nil_append _).symm (by simp [Refused]) hpayable
    | escaped hnull => exact .escaped (List.nil_append _).symm (by simp [Refused]) hnull
    | refused hpayable hnull =>
      refine Selected.cons hpayable hnull (ih fun offer => ?_)
      split
      · simp
      · exact hfailed offer

end Mapae.Delegation
