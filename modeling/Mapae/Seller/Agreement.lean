import Mapae.Delegation.ResourcePayment
import Mapae.Facilitator.PaymentValidation
import Mapae.Seller.Paywall

/-!
# From the facilitator's kind to its validator

The seller copies what a facilitator advertises into its offer, the buyer's client echoes the offer in a
payload, and the seller hands both to the facilitator.

* `derive_eq_iff` says when two intents have one id
* `readOffer_offer`, `sameRequirement_offer` and their siblings say that the checks of the facilitator pass
-/

namespace Mapae.Delegation

open Mapae.Infra Mapae.Store

/-! ## The laws of the libraries -/

/-- A checksum is spelled by letter case alone. -/
structure Viem.Checksums (viem : Viem) : Prop extends viem.Lawful where
  isHexOf_of_isAddress {a : String} : viem.isAddress a = true → isHexOf 20 a = true
  lower_getAddress {a : String} : viem.isAddress a = true → toLowerCase (viem.getAddress a) = toLowerCase a

/-- The bytes of a hex text, two digits each. An odd text is read as if a zero stood in front. -/
def hexBytes (text : String) : List Char :=
  let digits := (hexBody text).map Char.toLower
  if digits.length % 2 = 0 then digits else '0' :: digits

inductive AbiType where
  | bytes32
  | string
  | address
  | uint256

namespace AbiValue

def type : AbiValue → AbiType
  | bytes32 _ => .bytes32
  | string _ => .string
  | address _ => .address
  | uint256 _ => .uint256

/-- The value that is encoded, whatever the letter case of its hex. -/
def canonical : AbiValue → AbiValue
  | bytes32 value => .bytes32 (toLowerCase value)
  | string value => .string value
  | address bytes => .address (toLowerCase bytes)
  | uint256 value => .uint256 value

/-- What the encoder takes. -/
def Fits : AbiValue → Prop
  | bytes32 value => isHexOf 32 value = true
  | string _ => True
  | address bytes => isHexOf 20 bytes = true
  | uint256 value => value < 2 ^ 256

end AbiValue

/-- What `viem` says of its hash and of its encoder. -/
structure Hashing.Lawful (hashing : Hashing) : Prop where
  keccak_hex {text : String} : isHex text = true → isHexOf 32 (hashing.keccak256 text) = true
  keccak_lower {text : String} : isHex text = true → toLowerCase (hashing.keccak256 text) = hashing.keccak256 text
  keccak_congr {a b : String} : isHex a = true → isHex b = true → hexBytes a = hexBytes b →
    hashing.keccak256 a = hashing.keccak256 b
  toBytes_hex (text : String) : isHex (hashing.toBytes text) = true
  encode_hex {values : List AbiValue} : (∀ value ∈ values, value.Fits) →
    isHex (hashing.encodeAbiParameters values) = true
  /-- Values of the same types are told apart by their encoding. -/
  encode_inj {values values' : List AbiValue} : (∀ value ∈ values, value.Fits) →
    (∀ value ∈ values', value.Fits) → values.map AbiValue.type = values'.map AbiValue.type →
    hexBytes (hashing.encodeAbiParameters values) = hexBytes (hashing.encodeAbiParameters values') →
      values.map AbiValue.canonical = values'.map AbiValue.canonical

/-- The hash does not collide on two texts. -/
def Hashing.Separates (hashing : Hashing) (a b : String) : Prop :=
  hashing.keccak256 a = hashing.keccak256 b → hexBytes a = hexBytes b

/-! ## The ids of intents -/

section Intents

variable {viem : Viem} {hashing : Hashing} {intent intent' : PaymentIntent} {id id' : String}

namespace PaymentIntent

/-- The values that are hashed. -/
def values (hashing : Hashing) (intent : PaymentIntent) : List AbiValue :=
  [.bytes32 (PAYMENT_INTENT_DOMAIN hashing), .string intent.network, .address (toLowerCase intent.asset),
    .uint256 intent.amount, .address (toLowerCase intent.payTo), .address (toLowerCase intent.delegationManager),
    .bytes32 (hashing.keccak256 intent.permissionContext)]

/-- The text that is hashed to the id. -/
def encoded (hashing : Hashing) (intent : PaymentIntent) : String :=
  hashing.encodeAbiParameters (intent.values hashing)

/-- An intent whose id does not throw. -/
structure Derivable (viem : Viem) (intent : PaymentIntent) : Prop where
  asset : viem.isAddress intent.asset = true
  amount : intent.amount < 2 ^ 256
  payTo : viem.isAddress intent.payTo = true
  manager : viem.isAddress intent.delegationManager = true

/-- Two intents are one, whatever the letter case of their hex. -/
structure Same (intent intent' : PaymentIntent) : Prop where
  network_eq : intent.network = intent'.network
  asset_eq : toLowerCase intent.asset = toLowerCase intent'.asset
  amount_eq : intent.amount = intent'.amount
  payTo_eq : toLowerCase intent.payTo = toLowerCase intent'.payTo
  manager_eq : toLowerCase intent.delegationManager = toLowerCase intent'.delegationManager
  context_eq : hexBytes intent.permissionContext = hexBytes intent'.permissionContext

end PaymentIntent

theorem derive_eq_some : derivePaymentIntentId viem hashing intent = some id ↔
    intent.Derivable viem ∧ id = hashing.keccak256 (intent.encoded hashing) := by
  constructor
  · intro h
    simp only [derivePaymentIntentId, abiAddress, abiUint256, Option.bind_eq_bind, Option.bind_eq_some_iff,
      Option.ite_none_right_eq_some, Option.some.injEq] at h
    obtain ⟨_, ⟨hasset, rfl⟩, _, ⟨hamount, rfl⟩, _, ⟨hpayTo, rfl⟩, _, ⟨hmanager, rfl⟩, rfl⟩ := h
    exact ⟨⟨hasset, hamount, hpayTo, hmanager⟩, rfl⟩
  · rintro ⟨⟨hasset, hamount, hpayTo, hmanager⟩, rfl⟩
    simp only [derivePaymentIntentId, abiAddress, abiUint256, if_pos hasset, if_pos hpayTo, if_pos hmanager,
      if_pos hamount, Option.bind_eq_bind, Option.bind_some]
    rfl

/-- A derivable intent has an id. -/
theorem PaymentIntent.Derivable.derive (h : intent.Derivable viem) :
    derivePaymentIntentId viem hashing intent = some (hashing.keccak256 (intent.encoded hashing)) :=
  derive_eq_some.mpr ⟨h, rfl⟩

theorem PaymentIntent.Derivable.fits (hviem : viem.Checksums) (hhash : hashing.Lawful)
    (hcontext : isHex intent.permissionContext = true) (h : intent.Derivable viem) :
    ∀ value ∈ intent.values hashing, value.Fits := by
  have haddress {a : String} (ha : viem.isAddress a = true) : isHexOf 20 (toLowerCase a) = true :=
    isHexOf_toLowerCase (hviem.isHexOf_of_isAddress ha)
  simp only [values, List.forall_mem_cons]
  exact ⟨hhash.keccak_hex (hhash.toBytes_hex _), trivial, haddress h.asset, h.amount, haddress h.payTo,
    haddress h.manager, hhash.keccak_hex hcontext, List.forall_mem_nil _⟩

/-- **Two intents have one id** if and only if they are the same. -/
theorem derive_eq_iff (hviem : viem.Checksums) (hhash : hashing.Lawful)
    (hcontext : isHex intent.permissionContext = true) (hcontext' : isHex intent'.permissionContext = true)
    (hcontexts : hashing.Separates intent.permissionContext intent'.permissionContext)
    (hencoded : hashing.Separates (intent.encoded hashing) (intent'.encoded hashing))
    (h : derivePaymentIntentId viem hashing intent = some id)
    (h' : derivePaymentIntentId viem hashing intent' = some id') : id = id' ↔ intent.Same intent' := by
  obtain ⟨hderivable, rfl⟩ := derive_eq_some.mp h
  obtain ⟨hderivable', rfl⟩ := derive_eq_some.mp h'
  constructor
  · intro heq
    have hvalues := hhash.encode_inj (hderivable.fits hviem hhash hcontext)
      (hderivable'.fits hviem hhash hcontext') rfl (hencoded heq)
    simp only [PaymentIntent.values, AbiValue.canonical, List.map_cons, List.map_nil, List.cons.injEq,
      AbiValue.string.injEq, AbiValue.address.injEq, AbiValue.uint256.injEq, AbiValue.bytes32.injEq,
      toLowerCase_toLowerCase, and_true, true_and] at hvalues
    obtain ⟨hnetwork, hasset, hamount, hpayTo, hmanager, hhashes⟩ := hvalues
    rw [hhash.keccak_lower hcontext, hhash.keccak_lower hcontext'] at hhashes
    exact ⟨hnetwork, hasset, hamount, hpayTo, hmanager, hcontexts hhashes⟩
  · intro hsame
    have hvalues : intent.values hashing = intent'.values hashing := by
      simp only [PaymentIntent.values, hsame.network_eq, hsame.asset_eq, hsame.amount_eq, hsame.payTo_eq,
        hsame.manager_eq, hhash.keccak_congr hcontext hcontext' hsame.context_eq]
    rw [PaymentIntent.encoded, PaymentIntent.encoded, hvalues]

/-- An intent under other spellings of its addresses has the same id. -/
theorem derive_congr (hviem : viem.Checksums) (h : intent.Derivable viem) :
    derivePaymentIntentId viem hashing
        { intent with
          asset := viem.getAddress intent.asset
          payTo := viem.getAddress intent.payTo
          delegationManager := viem.getAddress intent.delegationManager } =
      derivePaymentIntentId viem hashing intent := by
  have hchecksummed : PaymentIntent.Derivable viem
      { intent with
        asset := viem.getAddress intent.asset
        payTo := viem.getAddress intent.payTo
        delegationManager := viem.getAddress intent.delegationManager } :=
    ⟨hviem.isAddress_getAddress h.asset, h.amount, hviem.isAddress_getAddress h.payTo,
      hviem.isAddress_getAddress h.manager⟩
  rw [hchecksummed.derive, h.derive]
  simp only [PaymentIntent.encoded, PaymentIntent.values, hviem.lower_getAddress h.asset,
    hviem.lower_getAddress h.payTo, hviem.lower_getAddress h.manager]

end Intents

end Mapae.Delegation

namespace Mapae.Seller

open Mapae.Infra Mapae.Delegation Mapae.Facilitator Mapae.Shared Mapae.Store

/-! ## The kind of a facilitator -/

section Kinds

variable {viem : Viem} {kind : FacilitatorKind}

/-- A kind has addresses only. -/
structure FacilitatorKind.OfAddresses (viem : Viem) (kind : FacilitatorKind) : Prop where
  facilitators : ∀ address ∈ kind.facilitatorAddresses, viem.isAddress address = true
  manager : ∀ manager, kind.delegationManager = some manager → viem.isAddress manager = true

theorem addressField_eq_some {value : Option Json} {address : String} :
    addressField viem value = some address ↔
      ∃ text, value.bind Json.text = some text ∧ viem.isAddress text = true ∧ viem.getAddress text = address := by
  simp only [addressField, Option.map_eq_some_iff, Option.filter_eq_some_iff, and_assoc]

end Kinds

/-! ## The offer at the facilitator -/

/-- What the seller sends to `/verify` and `/settle`. -/
def facilitatorRequest (payload : Json) (requirements : Erc7710PaymentRequirements) : Json := .object
  [("x402Version", .number X402_VERSION 0), ("paymentPayload", payload),
    ("paymentRequirements", requirements.toJson)]

section Fields

variable (requirements : Erc7710PaymentRequirements)

@[simp] theorem field_scheme : requirements.toJson.field "scheme" = some (.string requirements.scheme) := rfl

@[simp] theorem field_network : requirements.toJson.field "network" = some (.string requirements.network) := rfl

@[simp] theorem field_amount : requirements.toJson.field "amount" = some (.string requirements.amount) := rfl

@[simp] theorem field_payTo : requirements.toJson.field "payTo" = some (.string requirements.payTo) := rfl

@[simp] theorem field_timeout :
    requirements.toJson.field "maxTimeoutSeconds" = some (.number requirements.maxTimeoutSeconds 0) := rfl

@[simp] theorem field_asset : requirements.toJson.field "asset" = some (.string requirements.asset) := rfl

/-- A field of `extra`. -/
def extraField (name : String) : Option Json := Json.fieldOf (requirements.toJson.field "extra") name

@[simp] theorem extraField_method : extraField requirements "assetTransferMethod" = some (.string "erc7710") := by
  obtain ⟨_, _, _, _, _, _, _, _ | manager⟩ := requirements <;> rfl

@[simp] theorem extraField_flow : extraField requirements "paymentFlow" = some (.string "upfront") := by
  obtain ⟨_, _, _, _, _, _, _, _ | manager⟩ := requirements <;> rfl

@[simp] theorem extraField_facilitators : extraField requirements "facilitatorAddresses" =
    some (.array (requirements.kind.facilitatorAddresses.map Json.string)) := by
  obtain ⟨_, _, _, _, _, _, _, _ | manager⟩ := requirements <;> rfl

@[simp] theorem extraField_manager : extraField requirements "delegationManager" =
    requirements.kind.delegationManager.map Json.string := by
  obtain ⟨_, _, _, _, _, _, _, _ | manager⟩ := requirements <;> rfl

end Fields

section Passing

variable {viem : Viem} {config : OfferConfig viem} {payTo : String} {amount : Nat} {kind : FacilitatorKind}

/-- An offer that a client pays has a positive amount. -/
theorem amount_ne_zero (h : Payable config (buildErc7710PaymentRequirements payTo amount kind).toJson) : amount ≠ 0 := by
  rintro rfl
  obtain ⟨_, hfield, hprints⟩ := h.amount
  rw [field_amount] at hfield
  cases hfield
  exact absurd hprints (show ¬ isPositiveText "0" = true by decide)

theorem isAddress_payTo (h : Payable config (buildErc7710PaymentRequirements payTo amount kind).toJson) :
    viem.isAddress payTo = true := by
  obtain ⟨_, hfield, -⟩ := h.payTo
  rw [field_payTo] at hfield
  obtain ⟨text, htext, his, -⟩ := addressField_eq_some.mp hfield
  cases htext
  exact his

theorem isAddress_asset (h : Payable config (buildErc7710PaymentRequirements payTo amount kind).toJson) :
    viem.isAddress MOCK_USDC_ADDRESS = true ∧ viem.getAddress MOCK_USDC_ADDRESS = MOCK_USDC_ADDRESS := by
  have hfield := h.asset_eq
  rw [field_asset] at hfield
  obtain ⟨text, htext, his, heq⟩ := addressField_eq_some.mp hfield
  cases htext
  exact ⟨his, heq⟩

theorem timeout_offer (payTo : String) (amount : Nat) (kind : FacilitatorKind) :
    ((buildErc7710PaymentRequirements payTo amount kind).toJson.field "maxTimeoutSeconds").bind (·.integer 1 300) =
      some 60 := by
  simp [buildErc7710PaymentRequirements, Json.integer, Json.int, Option.filter]

/-- **The terms of the offer** are the facilitator's. -/
theorem readOffer_offer (h : Payable config (buildErc7710PaymentRequirements payTo amount kind).toJson)
    (values : ViemValues viem) {maxAmount : Option Nat} (hcap : ∀ cap, maxAmount = some cap → amount ≤ cap) :
    readOffer values maxAmount (buildErc7710PaymentRequirements payTo amount kind).toJson = .ok amount := by
  obtain ⟨hasset, hassetEq⟩ := isAddress_asset h
  have htext : String.ofList (decimalDigits amount) = decimalText amount := rfl
  have hmax : ¬ maxAmount.any (· < amount) = true := by
    intro hany
    obtain ⟨cap, hmax, hlt⟩ := (Option.any_eq_true _ _).mp hany
    exact absurd (of_decide_eq_true hlt) (Nat.not_lt.mpr (hcap cap hmax))
  have hmethod := extraField_method (buildErc7710PaymentRequirements payTo amount kind)
  have hflow := extraField_flow (buildErc7710PaymentRequirements payTo amount kind)
  rw [extraField] at hmethod hflow
  refine bind_eq_ok.mpr ⟨⟨⟩, ?scheme, bind_eq_ok.mpr ⟨⟨⟩, ?asset, bind_eq_ok.mpr ⟨⟨⟩, ?payTo, ?amount⟩⟩⟩
  case scheme =>
    rw [readScheme, hmethod]
    simp [buildErc7710PaymentRequirements, Json.textField, Json.text, refuseIf, throwIf_bind]
  case asset =>
    rw [assertAsset, field_asset]
    exact bind_eq_ok.mpr ⟨true, orThrow_eq_ok.mpr ((ViemValues.names_string hasset).mpr hassetEq), rfl⟩
  case payTo =>
    rw [assertPayTo, field_payTo, values.isAddress_string]
    exact bind_eq_ok.mpr ⟨true, orThrow_eq_ok.mpr (congrArg some (isAddress_payTo h)), rfl⟩
  case amount =>
    unfold readAmount refuseIf
    dsimp only
    rw [throwIf_bind ?timeout, orThrow_bind (a := decimalText amount) ?uint, throwIf_bind ?flow, throwIf_bind ?zero,
      throwIf_bind ?cap]
    · rw [decimalValue_decimalText]
      rfl
    case timeout =>
      rw [timeout_offer]
      simp
    case uint =>
      simp [buildErc7710PaymentRequirements, Json.textField, Json.text, Option.filter, htext, isUintText_decimalText]
    case flow =>
      rw [hflow]
      decide
    case zero =>
      rw [decimalValue_decimalText]
      exact amount_ne_zero h
    case cap =>
      rw [decimalValue_decimalText]
      exact hmax

/-- **The offer is the same requirement** as its echo. -/
theorem sameRequirement_offer (h : Payable config (buildErc7710PaymentRequirements payTo amount kind).toJson)
    (hkind : kind.OfAddresses viem) :
    sameRequirement viem (buildErc7710PaymentRequirements payTo amount kind).toJson
      (buildErc7710PaymentRequirements payTo amount kind).toJson = true := by
  have hasset := (isAddress_asset h).1
  have hpayTo := isAddress_payTo h
  have hsame {text : String} (his : viem.isAddress text = true) :
      sameAddress viem (some (.string text)) (some (.string text)) = true :=
    sameAddress_eq_true.mpr ⟨text, text, rfl, rfl, his, his, rfl⟩
  have hmanager : sameOptionalManager viem (kind.delegationManager.map Json.string)
      (kind.delegationManager.map Json.string) = true := by
    cases hmanager : kind.delegationManager with
    | none => rfl
    | some manager => exact hsame (hkind.manager manager hmanager)
  have hlist : sameAddressList viem (some (.array (kind.facilitatorAddresses.map Json.string)))
      (some (.array (kind.facilitatorAddresses.map Json.string))) = true := by
    refine sameAddressList_eq_true.mpr ⟨_, _, rfl, rfl, List.forall₂_same.mpr fun address hmem => ?_⟩
    obtain ⟨text, htext, rfl⟩ := List.mem_map.mp hmem
    have his := hkind.facilitators text htext
    exact ⟨text, text, rfl, rfl, his, his, rfl⟩
  have hmethod := extraField_method (buildErc7710PaymentRequirements payTo amount kind)
  have hflow := extraField_flow (buildErc7710PaymentRequirements payTo amount kind)
  have hfacilitators := extraField_facilitators (buildErc7710PaymentRequirements payTo amount kind)
  have hadvertised := extraField_manager (buildErc7710PaymentRequirements payTo amount kind)
  rw [extraField] at hmethod hflow hfacilitators hadvertised
  simp only [sameRequirement, Bool.and_eq_true, field_scheme, field_network, field_asset, field_payTo, field_timeout,
    field_amount, hmethod, hflow, hfacilitators, hadvertised]
  refine ⟨⟨⟨⟨⟨⟨⟨⟨⟨?_, ?_⟩, ?_⟩, ?_⟩, hsame hpayTo⟩, hsame hasset⟩, ?_⟩, ?_⟩, hmanager⟩, hlist⟩
  all_goals simp [Json.strictEqual, Json.sameNumber]

/-- The facilitator's own address is in the list. -/
theorem assertRedeemer_offer (hkind : kind.OfAddresses viem) {facilitator : String}
    (h : ∃ address ∈ kind.facilitatorAddresses, viem.getAddress address = viem.getAddress facilitator) :
    assertRedeemer viem facilitator
      (extraField (buildErc7710PaymentRequirements payTo amount kind) "facilitatorAddresses") = .ok () := by
  obtain ⟨address, hmem, heq⟩ := h
  rw [extraField_facilitators]
  refine throwIf_eq_ok.mpr ?_
  rw [Bool.not_eq_false, List.any_eq_true]
  refine ⟨.string address, List.mem_map_of_mem hmem, ?_⟩
  simp [Json.text, Option.filter, hkind.facilitators address hmem, heq]

end Passing

end Mapae.Seller
