import Mapae.Delegation.OfferSelection
import Mapae.Delegation.PaymentClient
import Mapae.Delegation.Redaction

/-!
# Paying for a resource

`payForDelegatedResource` asks a seller for a resource, chooses an offer of the answer, has a leaf signed
for it, and asks again with the payment header. What it does before the header is `agreeOffer` and
`signLeaf`, which end the call early. The second answer, when it is paid, is rid of the secrets
(`redactAnswer`), which no `try` surrounds; what it then says is `resultOfAnswer`.

* `Exchange` is one call: the requests that left, in order, and what was returned or thrown
* `exchange_cases` says that the call ended early, or that the header left, and what then came of the answer
-/

namespace Mapae.Delegation

open Mapae.Infra Mapae.Shared

variable {viem : Viem} {Wire N S : Type}

/-! ## Codes and results -/

/-- `DelegatedPaymentFailureCode`, all of it. -/
inductive PaymentFailureCode where
  | NOT_PAYMENT_REQUIRED
  | UNSUPPORTED_X402_VERSION
  | SELLER_OFFER_INVALID
  | FACILITATOR_UNTRUSTED
  | MANAGER_MISMATCH
  | LIMIT_EXCEEDED
  | SPEND_POLICY_REFUSED
  | PERMISSION_INACTIVE
  | PERMISSION_EMPTY
  | SIGNING_FAILED
  | PAYMENT_REJECTED
  | SELLER_UNAVAILABLE
  | SETTLEMENT_UNKNOWN
  | MALFORMED_RESOURCE
  | TRANSPORT_ERROR
  deriving DecidableEq

/-- The code of an offer that was not chosen. -/
def OfferFailureCode.code : OfferFailureCode → PaymentFailureCode
  | SELLER_OFFER_INVALID => .SELLER_OFFER_INVALID
  | FACILITATOR_UNTRUSTED => .FACILITATOR_UNTRUSTED
  | MANAGER_MISMATCH => .MANAGER_MISMATCH
  | UNSUPPORTED_X402_VERSION => .UNSUPPORTED_X402_VERSION

/-- The codes of a verdict before the signing. -/
inductive PreflightCode where
  | LIMIT_EXCEEDED
  | PERMISSION_INACTIVE
  | PERMISSION_EMPTY
  | SPEND_POLICY_REFUSED

def PreflightCode.code : PreflightCode → PaymentFailureCode
  | LIMIT_EXCEEDED => .LIMIT_EXCEEDED
  | PERMISSION_INACTIVE => .PERMISSION_INACTIVE
  | PERMISSION_EMPTY => .PERMISSION_EMPTY
  | SPEND_POLICY_REFUSED => .SPEND_POLICY_REFUSED

/-- The code of a payment whose header was sent. -/
def DelegatedPaymentFailureCode.code : DelegatedPaymentFailureCode → PaymentFailureCode
  | refused .SETTLEMENT_UNKNOWN => .SETTLEMENT_UNKNOWN
  | refused .SELLER_UNAVAILABLE => .SELLER_UNAVAILABLE
  | refused .PAYMENT_REJECTED => .PAYMENT_REJECTED
  | MALFORMED_RESOURCE => .MALFORMED_RESOURCE

inductive PaymentResult where
  | ok (amount : Option Json) (payTo : String) (transaction : Option String) (resource : Json)
      (paymentIdentifier : String)
  | failed (code : PaymentFailureCode) (detail : String) (status : Option Nat)
      (paymentIdentifier transaction : Option String)

/-! ## What the call meets -/

structure Request (Wire : Type) where
  target : String
  /-- `Payment-Signature`. -/
  paymentSignature : Option Wire

/-- The answer to the first request. -/
structure FirstResponse (Wire : Type) where
  status : Nat
  paymentRequired : Option Wire
  json : Except String Json

/-- The answer to the second request. -/
structure SecondResponse (Wire N : Type) where
  status : Nat
  paymentResponse : Option Wire
  contentType : Option Utf16
  /-- What `json()` or `text()` gives, as the content type says. Nothing when the body breaks off. -/
  body : Option (JsValue N) → Option (JsValue N)

/-- What the seller answers in one call, and the transport in its place. -/
structure SellerAnswers (Wire N : Type) where
  first : Except String (FirstResponse Wire)
  /-- Nothing when the connection dies. -/
  second : Option (SecondResponse Wire N)
  /-- The message of what broke off the second answer, or its body. -/
  message : String

inductive PreflightAnswer where
  | ok
  | refused (code : PreflightCode) (detail : String)

/-- What a `DelegatedLeafProvider` gives. -/
structure Leaf where
  delegationManager : String
  permissionContext : String
  delegator : String

/-- The configuration. The provider may act on a state of its own, also where it throws. -/
structure DelegatedPaymentConfig (viem : Viem) (S : Type) extends OfferConfig viem where
  preflight : Option (Json → Except String PreflightAnswer)
  provider : Json → S → Except String Leaf × S

/-- How a call ends before the header. -/
inductive Stop where
  | escaped (escape : Escape)
  | failed (code : PaymentFailureCode) (detail : String) (status : Option Nat)

/-- `failure(..)`, which names no identifier. -/
def Stop.outcome : Stop → Except Escape PaymentResult
  | escaped escape => .error escape
  | failed code detail status => .ok (.failed code detail status none none)

/-- One call. -/
structure Exchange (Wire S : Type) where
  requests : List (Request Wire)
  outcome : Except Escape PaymentResult
  state : S

/-- The payment header has left. -/
def Exchange.HeaderSent (x : Exchange Wire S) : Prop := ∃ r ∈ x.requests, r.paymentSignature.isSome = true

/-! ## The second answer -/

/-- How the texts and the numbers of an answer are written. -/
structure AnswerFormat (Wire N : Type) extends NumberFormat N where
  /-- The mantissa and the exponent of a number. -/
  decimal : N → Int × Int
  /-- The text of a header. -/
  header : Wire → Utf16

/-- A lone surrogate is shown as U+FFFD. -/
def unitChar (unit : Nat) : Char :=
  if isHighSurrogate unit || isLowSurrogate unit then Char.ofNat 0xFFFD else Char.ofNat unit

def charsOf : Utf16 → List Char
  | [] => []
  | [unit] => [unitChar unit]
  | unit :: low :: rest =>
    if isHighSurrogate unit && isLowSurrogate low then
      Char.ofNat (0x10000 + (unit - 0xD800) * 0x400 + (low - 0xDC00)) :: charsOf rest
    else unitChar unit :: charsOf (low :: rest)

def textOf (units : Utf16) : String := String.ofList (charsOf units)

section Answer

variable (format : AnswerFormat Wire N) (secrets : List Utf16)

mutual

/-- A value, as what reads its fields sees it. -/
def jsonOf : JsValue N → Json
  | .null => .null
  | .bool value => .bool value
  | .number value => .number (format.decimal value).1 (format.decimal value).2
  | .string value => .string (textOf value)
  | .array items => .array (jsonOfItems items)
  | .object members => .object (jsonOfMembers members)

def jsonOfItems : List (JsValue N) → List Json
  | [] => []
  | value :: rest => jsonOf value :: jsonOfItems rest

def jsonOfMembers : List (Utf16 × JsValue N) → List (String × Json)
  | [] => []
  | (name, value) :: rest => (textOf name, jsonOf value) :: jsonOfMembers rest

end

def SecondResponse.ok (second : SecondResponse Wire N) : Bool :=
  decide (200 ≤ second.status ∧ second.status < 300)

/-- `redactBearerSecrets`, of which nothing catches what it throws. -/
def redact (value : JsValue N) : Except Escape (JsValue N) :=
  orThrow (redactBearerSecrets format.toNumberFormat value secrets) .syntaxError

/-- The content type that is declared, without the secrets. -/
def redactType (second : SecondResponse Wire N) : Except Escape (Option (JsValue N)) :=
  (second.contentType.map JsValue.string).mapM (redact format secrets)

/-- The answer, as the rest of the call sees it. The body of one that is not paid is not read. -/
def redactAnswer (second : SecondResponse Wire N) : Except Escape (HttpResponse Wire) := do
  if second.ok then
    let contentType ← redactType format secrets second
    let resource ← (second.body contentType).mapM (redact format secrets)
    return ⟨second.status, second.paymentResponse, resource.map (jsonOf format)⟩
  else return ⟨second.status, second.paymentResponse, none⟩

end Answer

/-! ## Before the header -/

section Call

variable (codec : HeaderCodec Wire) (texts : FailureTexts) (config : DelegatedPaymentConfig viem S)

/-- The offers of a 402 answer: of its header, else of its body. -/
def readOffers (first : FirstResponse Wire) : Except Stop Json :=
  match first.paymentRequired.bind codec.decode with
  | some body => .ok body
  | none => first.json.mapError fun message =>
    .failed .SELLER_OFFER_INVALID
      s!"402 offer is neither a Payment-Required header nor a JSON body: {message}" none

/-- The offer that is chosen. -/
def acceptOffer (body : Json) : Except Stop Json :=
  match chooseOffer texts config.toOfferConfig body with
  | .error escape => .error (.escaped escape)
  | .ok (.failed code detail) => .error (.failed code.code detail none)
  | .ok (.accepted offer) => .ok offer

def askPreflight (offer : Json) : Except Stop Unit :=
  match config.preflight with
  | none => .ok ()
  | some preflight =>
    match preflight offer with
    | .ok .ok => .ok ()
    | .ok (.refused code detail) => .error (.failed code.code detail none)
    | .error message => .error (.failed .TRANSPORT_ERROR s!"preflight read failed: {message}" none)

/-- All up to the signing. -/
def agreeOffer (answers : SellerAnswers Wire N) : Except Stop Json := do
  let first ← answers.first.mapError fun message => Stop.failed .TRANSPORT_ERROR message none
  throwIf (first.status ≠ 402)
    (Stop.failed .NOT_PAYMENT_REQUIRED s!"expected 402, received {first.status}" (some first.status))
  let body ← readOffers codec first
  let offer ← acceptOffer texts config body
  askPreflight config offer
  return offer

/-- The leaf for an offer, when it is signed under the right manager. -/
def signLeaf (offer : Json) (s : S) : Except Stop Leaf × S :=
  match config.provider offer s with
  | (.error message, s) => (.error (.failed .SIGNING_FAILED s!"leaf signing failed: {message}" none), s)
  | (.ok leaf, s) =>
    if viem.isAddress leaf.delegationManager = false ∨ viem.isAddress leaf.delegator = false ∨
        viem.getAddress leaf.delegationManager ≠ viem.getAddress config.delegationManager then
      (.error (.failed .MANAGER_MISMATCH "provider returned an unexpected DelegationManager" none), s)
    else (.ok leaf, s)

/-! ## The payment -/

def buildPaymentIdentifierEcho (id : String) : Json := .object
  [("info", .object [("required", .bool false), ("id", .string id)]), ("schema", PAYMENT_IDENTIFIER_SCHEMA)]

def buildErc7710PaymentPayload (accepted : Json) (delegationManager permissionContext delegator : String)
    (extensions : Json) : Json := .object
  [("x402Version", .number X402_VERSION 0), ("accepted", accepted),
    ("payload", .object
      [("delegationManager", .string delegationManager), ("permissionContext", .string permissionContext),
        ("delegator", .string delegator)]),
    ("extensions", extensions)]

/-- The recipient of an offer that was chosen. -/
def payToOf (offer : Json) : String := (offer.textField "payTo").getD ""

/-- The result after the header. -/
def sentResult (viem : Viem) (offer : Json) (paymentIdentifier : String) : DelegatedPaymentResult → PaymentResult
  | .ok transaction resource =>
    .ok (offer.field "amount") (viem.getAddress (payToOf offer)) transaction resource paymentIdentifier
  | .failed code detail status transaction => .failed code.code detail status (some paymentIdentifier) transaction

/-- The payment for an offer. -/
def paymentPayload (viem : Viem) (offer : Json) (leaf : Leaf) (paymentIdentifier : String) : Json :=
  buildErc7710PaymentPayload offer (viem.getAddress leaf.delegationManager) leaf.permissionContext
    (viem.getAddress leaf.delegator)
    (.object [(PAYMENT_IDENTIFIER_EXTENSION, buildPaymentIdentifierEcho paymentIdentifier)])

/-- What no answer may be handed on with. -/
def bearerSecrets (format : AnswerFormat Wire N) (leaf : Leaf) (paymentHeader : Wire) : List Utf16 :=
  [utf16 leaf.permissionContext, format.header paymentHeader]

def payForDelegatedResource (format : AnswerFormat Wire N) (target : String) (answers : SellerAnswers Wire N)
    (paymentIdentifier : String) (s : S) : Exchange Wire S :=
  let first : Request Wire := { target := target, paymentSignature := none }
  match agreeOffer codec texts config answers with
  | .error stop => ⟨[first], stop.outcome, s⟩
  | .ok offer =>
    match signLeaf config offer s with
    | (.error stop, s) => ⟨[first], stop.outcome, s⟩
    | (.ok leaf, s) =>
      let paymentHeader := codec.encode (paymentPayload viem offer leaf paymentIdentifier)
      let second : Request Wire := { target := target, paymentSignature := some paymentHeader }
      let secrets := bearerSecrets format leaf paymentHeader
      let outcome := (answers.second.mapM (redactAnswer format secrets)).map fun second =>
        sentResult viem offer paymentIdentifier
          (resultOfAnswer codec viem (viem.getAddress leaf.delegator) answers.message second)
      ⟨[first, second], outcome, s⟩

end Call

/-! ## How a call ends -/

/-- The codes of a call that ended before the header. -/
def PaymentFailureCode.Early (code : PaymentFailureCode) : Prop :=
  code ∈ [NOT_PAYMENT_REQUIRED, UNSUPPORTED_X402_VERSION, SELLER_OFFER_INVALID, FACILITATOR_UNTRUSTED,
    MANAGER_MISMATCH, LIMIT_EXCEEDED, SPEND_POLICY_REFUSED, PERMISSION_INACTIVE, PERMISSION_EMPTY,
    SIGNING_FAILED, TRANSPORT_ERROR]

instance : DecidablePred PaymentFailureCode.Early := fun code => inferInstanceAs (Decidable (code ∈ _))

/-- A stop that throws, or fails with an early code. -/
def Stop.Early : Stop → Prop
  | escaped _ => True
  | failed code _ _ => code.Early

theorem OfferFailureCode.early (code : OfferFailureCode) : code.code.Early := by
  cases code <;> decide

theorem PreflightCode.early (code : PreflightCode) : code.code.Early := by
  cases code <;> decide

/-- **No code of an answer to the header** is an early one. -/
theorem DelegatedPaymentFailureCode.not_early (code : DelegatedPaymentFailureCode) : ¬ code.code.Early := by
  rcases code with (_ | _ | _) | _ <;> decide

section Call

variable {codec : HeaderCodec Wire} {texts : FailureTexts} {config : DelegatedPaymentConfig viem S}

theorem mapError_eq_error {α ε ε' : Type} {f : ε → ε'} {x : Except ε α} {e : ε'} :
    x.mapError f = .error e ↔ ∃ e', x = .error e' ∧ f e' = e := by
  cases x <;> simp [Except.mapError]

theorem readOffers_early {first : FirstResponse Wire} {stop : Stop} (h : readOffers codec first = .error stop) :
    stop.Early := by
  unfold readOffers at h
  split at h
  · cases h
  · obtain ⟨message, -, rfl⟩ := mapError_eq_error.mp h
    show PaymentFailureCode.Early _
    decide

theorem acceptOffer_early {body : Json} {stop : Stop}
    (h : acceptOffer texts config body = .error stop) : stop.Early := by
  unfold acceptOffer at h
  split at h
  · cases h
    trivial
  · next code _ _ =>
    cases h
    exact code.early
  · cases h

theorem askPreflight_early {offer : Json} {stop : Stop} (h : askPreflight config offer = .error stop) :
    stop.Early := by
  unfold askPreflight at h
  split at h
  · cases h
  · split at h
    · cases h
    · next code _ _ =>
      cases h
      exact code.early
    · cases h
      show PaymentFailureCode.Early _
      decide

/-- **What stops a call before the signing** has an early code. -/
theorem agreeOffer_early {answers : SellerAnswers Wire N} {stop : Stop}
    (h : agreeOffer codec texts config answers = .error stop) : stop.Early := by
  unfold agreeOffer at h
  rcases bind_eq_error.mp h with h | ⟨first, -, h⟩
  · obtain ⟨message, -, rfl⟩ := mapError_eq_error.mp h
    show PaymentFailureCode.Early _
    decide
  rcases bind_eq_error.mp h with h | ⟨_, -, h⟩
  · obtain ⟨-, rfl⟩ := throwIf_eq_error.mp h
    show PaymentFailureCode.Early _
    decide
  rcases bind_eq_error.mp h with h | ⟨body, -, h⟩
  · exact readOffers_early h
  rcases bind_eq_error.mp h with h | ⟨offer, -, h⟩
  · exact acceptOffer_early h
  rcases bind_eq_error.mp h with h | ⟨_, -, h⟩
  · exact askPreflight_early h
  · cases h

theorem signLeaf_early {offer : Json} {s s' : S} {stop : Stop} (h : signLeaf config offer s = (.error stop, s')) :
    stop.Early := by
  unfold signLeaf at h
  split at h
  · cases h
    show PaymentFailureCode.Early _
    decide
  · split at h
    · cases h
      show PaymentFailureCode.Early _
      decide
    · cases h

/-- A leaf that is used is what the provider gave. -/
theorem signLeaf_eq_ok {offer : Json} {s s' : S} {leaf : Leaf} (h : signLeaf config offer s = (.ok leaf, s')) :
    config.provider offer s = (.ok leaf, s') := by
  unfold signLeaf at h
  split at h
  · cases h
  · next heq =>
    split at h
    · cases h
    · cases h
      exact heq

end Call

/-! ## Redaction -/

section Answer

variable {format : AnswerFormat Wire N} {secrets : List Utf16} {second : SecondResponse Wire N}

/-- There is nothing to take out of the text of a value, or what is left of it is JSON. -/
def Redactable (format : AnswerFormat Wire N) (secrets : List Utf16) (value : JsValue N) : Prop :=
  let serialized := stringify format.toNumberFormat value
  let cleaned := secrets.foldl redactSecret serialized
  cleaned = serialized ∨ (parseJson format.toNumberFormat cleaned).isSome = true

/-- Redaction gets through what an answer declares, and through its body. -/
structure RedactableAnswer (format : AnswerFormat Wire N) (secrets : List Utf16)
    (second : SecondResponse Wire N) : Prop where
  contentType : ∀ declared, second.contentType = some declared → Redactable format secrets (.string declared)
  resource : ∀ contentType resource, redactType format secrets second = .ok contentType →
    second.body contentType = some resource → Redactable format secrets resource

theorem redact_cases (format : AnswerFormat Wire N) (secrets : List Utf16) (value : JsValue N) :
    Redactable format secrets value ∧ (∃ value', redact format secrets value = .ok value') ∨
      ¬ Redactable format secrets value ∧ redact format secrets value = .error .syntaxError := by
  unfold Redactable redact redactBearerSecrets
  dsimp only
  split
  · next hsame => exact .inl ⟨.inl hsame, _, rfl⟩
  · next hsame =>
    cases hparse : parseJson format.toNumberFormat
        (secrets.foldl redactSecret (stringify format.toNumberFormat value)) with
    | none => exact .inr ⟨by simp [hsame], rfl⟩
    | some value' => exact .inl ⟨.inr rfl, value', rfl⟩

/-- The same for what may not be there. -/
theorem redact_option_cases (format : AnswerFormat Wire N) (secrets : List Utf16) (value : Option (JsValue N)) :
    (∀ v, value = some v → Redactable format secrets v) ∧
        (∃ value', value.mapM (redact format secrets) = .ok value') ∨
      ¬ (∀ v, value = some v → Redactable format secrets v) ∧
        value.mapM (redact format secrets) = .error .syntaxError := by
  cases value with
  | none => exact .inl ⟨nofun, none, rfl⟩
  | some v =>
    rw [Option.mapM_some]
    rcases redact_cases format secrets v with ⟨hv, v', heq⟩ | ⟨hv, heq⟩
    · refine .inl ⟨fun _ h => Option.some.inj h ▸ hv, some v', ?_⟩
      rw [heq]
      rfl
    · refine .inr ⟨fun h => hv (h v rfl), ?_⟩
      rw [heq]
      rfl

/-- **Redacting an answer throws** exactly where redaction does not get through one that is paid. -/
theorem redactAnswer_cases (format : AnswerFormat Wire N) (secrets : List Utf16) (second : SecondResponse Wire N) :
    (second.ok = true → RedactableAnswer format secrets second) ∧
        (∃ response, redactAnswer format secrets second = .ok response) ∨
      (second.ok = true ∧ ¬ RedactableAnswer format secrets second) ∧
        redactAnswer format secrets second = .error .syntaxError := by
  unfold redactAnswer
  cases hok : second.ok with
  | false => exact .inl ⟨nofun, _, rfl⟩
  | true =>
    rw [if_pos rfl]
    rcases redact_option_cases format secrets (second.contentType.map .string) with
      ⟨hdeclared, contentType, htype⟩ | ⟨hdeclared, htype⟩
    · rcases redact_option_cases format secrets (second.body contentType) with
        ⟨hresource, resource, hread⟩ | ⟨hresource, hread⟩
      · refine .inl ⟨fun _ => ⟨fun declared h => hdeclared _ (by rw [h]; rfl), ?_⟩, _,
          bind_eq_ok.mpr ⟨contentType, htype, bind_eq_ok.mpr ⟨resource, hread, rfl⟩⟩⟩
        intro contentType' resource h
        cases htype.symm.trans h
        exact hresource resource
      · exact .inr ⟨⟨rfl, fun h => hresource fun resource => h.resource contentType resource htype⟩,
          bind_eq_error.mpr (.inr ⟨contentType, htype, bind_eq_error.mpr (.inl hread)⟩)⟩
    · refine .inr ⟨⟨rfl, fun h => hdeclared fun value hvalue => ?_⟩, bind_eq_error.mpr (.inl htype)⟩
      obtain ⟨declared, hdeclared, rfl⟩ := Option.map_eq_some_iff.mp hvalue
      exact h.contentType declared hdeclared

end Answer

section Cases

variable {codec : HeaderCodec Wire} {texts : FailureTexts} {config : DelegatedPaymentConfig viem S}
  {format : AnswerFormat Wire N} {target : String} {answers : SellerAnswers Wire N} {paymentIdentifier : String}
  {s : S}

/-- The ways of a call. -/
inductive Ended (codec : HeaderCodec Wire) (texts : FailureTexts) (config : DelegatedPaymentConfig viem S)
    (format : AnswerFormat Wire N) (target : String) (answers : SellerAnswers Wire N) (paymentIdentifier : String)
    (s : S) : Exchange Wire S → Prop where
  /-- It stopped before the signing. -/
  | early {stop : Stop} : agreeOffer codec texts config answers = .error stop →
      Ended codec texts config format target answers paymentIdentifier s ⟨[⟨target, none⟩], stop.outcome, s⟩
  /-- It stopped at the signing. -/
  | unsigned {offer : Json} {stop : Stop} {s' : S} : agreeOffer codec texts config answers = .ok offer →
      signLeaf config offer s = (.error stop, s') →
      Ended codec texts config format target answers paymentIdentifier s ⟨[⟨target, none⟩], stop.outcome, s'⟩
  /-- The header left. -/
  | sent {offer : Json} {leaf : Leaf} {s' : S} {paymentHeader : Wire} :
      agreeOffer codec texts config answers = .ok offer → signLeaf config offer s = (.ok leaf, s') →
      paymentHeader = codec.encode (paymentPayload viem offer leaf paymentIdentifier) →
      Ended codec texts config format target answers paymentIdentifier s
        ⟨[⟨target, none⟩, ⟨target, some paymentHeader⟩],
          (answers.second.mapM (redactAnswer format (bearerSecrets format leaf paymentHeader))).map fun second =>
            sentResult viem offer paymentIdentifier
              (resultOfAnswer codec viem (viem.getAddress leaf.delegator) answers.message second), s'⟩

/-- **A call ends early, or the header has left and the answer is read.** -/
theorem exchange_cases : Ended codec texts config format target answers paymentIdentifier s
    (payForDelegatedResource codec texts config format target answers paymentIdentifier s) := by
  unfold payForDelegatedResource
  dsimp only
  split
  · next hstop => exact .early hstop
  · next hoffer =>
    split
    · next hstop => exact .unsigned hoffer hstop
    · next hleaf => exact .sent hoffer hleaf rfl

end Cases

end Mapae.Delegation
