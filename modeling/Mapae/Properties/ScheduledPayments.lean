import Mapae.Delegation.PaymentExecutor
import Mapae.Properties.OfferChoice

/-!
# Scheduled payments

A payment that the scheduler may make again was not made: the failures that it takes for unpaid are those of
calls whose header never left, or of sellers that could not take the payment.

The result of a call tells whether its header has left, and names the identifier where it has, unless the
redaction of a paid answer throws. The exception then leaves the call, and the identifier is lost.

* `Ended.told` is about one call, and `soundRecord` about one execution
* `scheduled_payments_iff` is the main result
-/

namespace Mapae.Delegation

open Mapae.Infra Mapae.Shared Mapae.Store

variable {viem : Viem} {Wire N S : Type}

theorem not_headerSent {request : Request Wire} {outcome : Except Escape PaymentResult} {s : S}
    (h : request.paymentSignature = none) : ¬ (⟨[request], outcome, s⟩ : Exchange Wire S).HeaderSent := by
  rintro ⟨r, hr, hsome⟩
  obtain rfl := List.mem_singleton.mp hr
  rw [h] at hsome
  cases hsome

theorem headerSent_second (first : Request Wire) (target : String) (header : Wire)
    (outcome : Except Escape PaymentResult) (s : S) : (⟨[first, ⟨target, some header⟩], outcome, s⟩ : Exchange Wire S).HeaderSent :=
  ⟨⟨target, some header⟩, List.mem_cons_of_mem _ List.mem_cons_self, rfl⟩

/-- The result is right about the header. -/
def Told (x : Exchange Wire S) : PaymentResult → Prop
  | .ok .. => x.HeaderSent
  | .failed code _ _ paymentIdentifier _ =>
    (code ∈ PRE_HEADER_FAILURES ∨ code = .TRANSPORT_ERROR ↔ ¬ x.HeaderSent) ∧
      (paymentIdentifier.isSome = true ↔ x.HeaderSent)

/-- What the end of a call says of the header. -/
def TellsHeader (x : Exchange Wire S) : Prop :=
  match x.outcome with
  | .error _ => ¬ x.HeaderSent
  | .ok result => Told x result

theorem TellsHeader.told {x : Exchange Wire S} {result : PaymentResult} (h : TellsHeader x)
    (hresult : x.outcome = .ok result) : Told x result := by
  unfold TellsHeader at h
  rw [hresult] at h
  exact h

theorem Stop.tellsHeader {stop : Stop} {request : Request Wire} {s : S} (hstop : stop.Early)
    (h : request.paymentSignature = none) : TellsHeader (⟨[request], stop.outcome, s⟩ : Exchange Wire S) := by
  have hnot : ¬ (⟨[request], stop.outcome, s⟩ : Exchange Wire S).HeaderSent := not_headerSent h
  cases stop with
  | escaped escape => exact hnot
  | failed code detail status =>
    exact ⟨iff_of_true ((early_iff code).mp hstop) hnot, iff_of_false (fun h => nomatch h) hnot⟩

/-- Redaction gets through what the seller answers to the payment. -/
def AnswerRedactable (codec : HeaderCodec Wire) (texts : FailureTexts) (config : DelegatedPaymentConfig viem S)
    (format : AnswerFormat Wire N) (answers : SellerAnswers Wire N) (paymentIdentifier : String) (s : S) : Prop :=
  ∀ offer leaf s' second, agreeOffer codec texts config answers = .ok offer →
    signLeaf config offer s = (.ok leaf, s') → answers.second = some second → second.ok = true →
      RedactableAnswer format
        (bearerSecrets format leaf (codec.encode (paymentPayload viem offer leaf paymentIdentifier))) second

section Call

variable {codec : HeaderCodec Wire} {texts : FailureTexts} {config : DelegatedPaymentConfig viem S}
  {format : AnswerFormat Wire N} {target : String} {answers : SellerAnswers Wire N} {paymentIdentifier : String}
  {s : S} {x : Exchange Wire S}

theorem told_sent {offer : Json} {answer : DelegatedPaymentResult}
    (hsent : x.HeaderSent) : Told x (sentResult viem offer paymentIdentifier answer) := by
  cases answer with
  | ok transaction resource => exact hsent
  | failed code detail status transaction =>
    refine ⟨iff_of_false (fun hearly => code.not_early ((early_iff _).mpr hearly)) fun hnot => hnot hsent, ?_⟩
    exact iff_of_true rfl hsent

/-- **A result that is returned** is right about the header, and the call ends otherwise, with the header
gone, exactly when redaction does not get through the answer. -/
theorem Ended.told (h : Ended codec texts config format target answers paymentIdentifier s x) :
    (∀ result, x.outcome = .ok result → Told x result) ∧
      (x.HeaderSent ∧ (∃ escape, x.outcome = .error escape) ↔
        ¬ AnswerRedactable codec texts config format answers paymentIdentifier s) := by
  cases h with
  | @early stop hstop =>
    have htells : TellsHeader (⟨[⟨target, none⟩], stop.outcome, s⟩ : Exchange Wire S) :=
      Stop.tellsHeader (agreeOffer_early hstop) rfl
    refine ⟨fun result => htells.told, ?_⟩
    refine iff_of_false (fun h => not_headerSent rfl h.1) (not_not.mpr fun offer leaf s' second hoffer => ?_)
    cases hstop.symm.trans hoffer
  | @unsigned offer stop s' hagreed hstop =>
    have htells : TellsHeader (⟨[⟨target, none⟩], stop.outcome, s'⟩ : Exchange Wire S) :=
      Stop.tellsHeader (signLeaf_early hstop) rfl
    refine ⟨fun result => htells.told, ?_⟩
    refine iff_of_false (fun h => not_headerSent rfl h.1) (not_not.mpr fun offer leaf s' second hoffer hleaf => ?_)
    cases hagreed.symm.trans hoffer
    cases hstop.symm.trans hleaf
  | @sent offer leaf s' paymentHeader hagreed hsigned hheader =>
    have hiff : AnswerRedactable codec texts config format answers paymentIdentifier s ↔
        ∀ second, answers.second = some second → second.ok = true →
          RedactableAnswer format (bearerSecrets format leaf paymentHeader) second := by
      subst hheader
      refine ⟨fun h second => h offer leaf s' second hagreed hsigned,
        fun h offer' leaf' s'' second hoffer hleaf => ?_⟩
      cases hagreed.symm.trans hoffer
      cases hsigned.symm.trans hleaf
      exact h second
    constructor
    · intro result hresult
      cases hread : answers.second.mapM (redactAnswer format (bearerSecrets format leaf paymentHeader)) with
      | error escape =>
        rw [hread] at hresult
        cases hresult
      | ok second =>
        rw [hread] at hresult
        cases hresult
        exact told_sent (headerSent_second ..)
    · -- The header has left, so what is left to say is whether redaction throws.
      rw [hiff]
      refine (and_iff_right (headerSent_second ..)).trans ?_
      cases hsecond : answers.second with
      | none => exact iff_of_false nofun (not_not.mpr nofun)
      | some second =>
        rw [Option.mapM_some]
        rcases redactAnswer_cases format (bearerSecrets format leaf paymentHeader) second with
          ⟨hredacts, response, heq⟩ | ⟨⟨hok, hnot⟩, heq⟩
        · rw [heq]
          exact iff_of_false nofun (not_not.mpr fun _ h => Option.some.inj h ▸ hredacts)
        · rw [heq]
          exact iff_of_true ⟨_, rfl⟩ fun h => hnot (h second rfl hok)

/-- **The end of a call tells whether its header has left**, exactly when redaction gets through. -/
theorem Ended.tellsHeader_iff (h : Ended codec texts config format target answers paymentIdentifier s x) :
    TellsHeader x ↔ AnswerRedactable codec texts config format answers paymentIdentifier s := by
  obtain ⟨htold, hescapes⟩ := h.told
  rw [← not_not (a := AnswerRedactable ..), ← hescapes]
  unfold TellsHeader
  cases houtcome : x.outcome with
  | error escape => exact ⟨fun hnot h => hnot h.1, fun hnot h => hnot ⟨h, escape, rfl⟩⟩
  | ok result => exact iff_of_true (htold result houtcome) fun h => nomatch h.2

end Call

/-- What is recorded of a call for a job is right. -/
def SoundRecord (viem : Viem) (job : ScheduledJob) (e : Exchange Wire Bool) : ScheduledResult → Prop
  | .paid amountBase transaction =>
    amountBase ≤ job.maxAmountBase ∧ ∃ amount payTo resource paymentIdentifier,
      e.outcome = .ok (.ok amount (viem.getAddress payTo) transaction resource paymentIdentifier) ∧
        amountBase = (amount.map bigInt).getD 0 ∧ toLowerCase payTo = toLowerCase job.payTo
  | .unpaid code _ =>
    ¬ e.HeaderSent ∨ code = "SELLER_UNAVAILABLE" ∧ ∃ detail status paymentIdentifier transaction,
      e.outcome = .ok (.failed .SELLER_UNAVAILABLE detail status paymentIdentifier transaction)
  | .unknown code =>
    (∃ escape, e.outcome = .error escape) ∧ code = "EXECUTION_INTERRUPTED" ∨
      e.HeaderSent ∧ ∃ clientCode detail status paymentIdentifier transaction,
        e.outcome = .ok (.failed clientCode detail status paymentIdentifier transaction) ∧
          clientCode ≠ .SELLER_UNAVAILABLE ∧ code = clientCode.text

theorem Stop.soundRecord {job : ScheduledJob} {stop : Stop} {request : Request Wire} {s : Bool} (hstop : stop.Early)
    (h : request.paymentSignature = none) :
    SoundRecord viem job ⟨[request], stop.outcome, s⟩
      (recorded (readExchange ⟨[request], stop.outcome, s⟩)) := by
  have hnot : ¬ (⟨[request], stop.outcome, s⟩ : Exchange Wire Bool).HeaderSent := not_headerSent h
  cases stop with
  | escaped escape => exact .inl ⟨⟨escape, rfl⟩, rfl⟩
  | failed code detail status =>
    obtain ⟨text, retry, hread⟩ := readResult_early hstop s detail status none none
    have hrecord : recorded (readExchange ⟨[request], (Stop.failed code detail status).outcome, s⟩) =
        .unpaid text retry := hread
    rw [hrecord]
    exact .inl hnot

/-- **What is recorded of a job's execution is right.** -/
theorem soundRecord (x : Execution viem Wire N) :
    SoundRecord viem x.job x.exchange (recorded (paymentExecutor x)) := by
  have hcases : Ended x.codec x.texts x.config x.format x.target x.answers x.paymentIdentifier false x.exchange :=
    exchange_cases
  unfold paymentExecutor
  generalize x.exchange = e at hcases
  cases hcases with
  | early hstop => exact Stop.soundRecord (agreeOffer_early hstop) rfl
  | unsigned hagreed hstop => exact Stop.soundRecord (signLeaf_early hstop) rfl
  | @sent offer leaf denied paymentHeader hagreed hsigned hheader =>
    obtain ⟨hpayTo, hamount, rfl⟩ := scheduledProvider_ok (signLeaf_eq_ok hsigned)
    generalize x.answers.second.mapM (redactAnswer x.format (bearerSecrets x.format leaf paymentHeader)) = read
    cases read with
    | error escape => exact .inl ⟨⟨escape, rfl⟩, rfl⟩
    | ok second =>
      show SoundRecord viem x.job ⟨_, .ok (sentResult viem offer x.paymentIdentifier _), false⟩
        (recorded (readExchange ⟨_, .ok (sentResult viem offer x.paymentIdentifier _), false⟩))
      generalize resultOfAnswer x.codec viem (viem.getAddress leaf.delegator) x.answers.message second = answer
      cases answer with
      | ok transaction resource =>
        exact ⟨hamount, offer.field "amount", payToOf offer, resource, x.paymentIdentifier, rfl, rfl, hpayTo⟩
      | failed code detail status transaction =>
        have hread := readResult_late code.not_early detail status (some x.paymentIdentifier) transaction
        have hrecord : recorded (readExchange (⟨[⟨x.target, none⟩, ⟨x.target, some paymentHeader⟩],
              .ok (sentResult viem offer x.paymentIdentifier (.failed code detail status transaction)), false⟩ :
                Exchange Wire Bool)) =
            if code.code = .SELLER_UNAVAILABLE then .unpaid "SELLER_UNAVAILABLE" true
            else .unknown code.code.text := hread
        rw [hrecord]
        split
        · next hcode =>
          refine .inr ⟨rfl, detail, status, some x.paymentIdentifier, transaction, ?_⟩
          rw [← hcode]
          rfl
        · next hcode =>
          exact .inr ⟨headerSent_second .., code.code, detail, status, some x.paymentIdentifier, transaction, rfl,
            hcode, rfl⟩

/-- **The scheduler's reading of the payment client is sound.** A result that is returned, whatever the provider
and the seller do, tells whether the payment header has left. An exception does so, too, exactly when redaction
gets through the answer. Of a job's execution, `paid` is recorded within the job's bound and to its recipient,
`unpaid` only where the header has not left or the seller could not take the payment, and all else is
`unknown`. -/
theorem scheduled_payments_iff :
    (∀ (S : Type) (codec : HeaderCodec Wire) (texts : FailureTexts) (config : DelegatedPaymentConfig viem S)
      (format : AnswerFormat Wire N) (target : String) (answers : SellerAnswers Wire N)
      (paymentIdentifier : String) (s : S),
      let x := payForDelegatedResource codec texts config format target answers paymentIdentifier s
      (∀ result, x.outcome = .ok result → Told x result) ∧
        (TellsHeader x ↔ AnswerRedactable codec texts config format answers paymentIdentifier s)) ∧
    ∀ x : Execution viem Wire N, SoundRecord viem x.job x.exchange (recorded (paymentExecutor x)) :=
  ⟨fun _ _ _ _ _ _ _ _ _ => ⟨exchange_cases.told.1, exchange_cases.tellsHeader_iff⟩, soundRecord⟩

/-! ## An answer that redaction does not get through -/

def plainOffer : Json :=
  .object
    [("scheme", .string "exact"), ("network", .string GIWA_SEPOLIA_CAIP2),
      ("amount", .string "1000"), ("payTo", .string clientAddress),
      ("maxTimeoutSeconds", .number 60 0), ("asset", .string MOCK_USDC_ADDRESS),
      ("extra", .object
        [("assetTransferMethod", .string "erc7710"), ("facilitatorAddresses", .array [.string clientAddress])])]

def sampleLeaf : Leaf where
  delegationManager := clientAddress
  permissionContext := "0xaaaaaaaaaaaaaaaaaaaaaaaaaaaaaaaaaaaaaaaaaaaaaaaaaaaaaaaaaaaaaaaa"
  delegator := clientAddress

def sampleConfig : DelegatedPaymentConfig Viem.plain Unit where
  toOfferConfig := clientConfig
  preflight := none
  provider _ s := (.ok sampleLeaf, s)

def sampleFormat : AnswerFormat Json (Fin 10) where
  toNumberFormat := digitFormat
  decimal n := (n, 0)
  header _ := sampleSecrets.paymentHeader

/-- The paid answer is `nulAnswer`. -/
def sampleAnswers : SellerAnswers Json (Fin 10) where
  first := .ok ⟨402, none, .ok (.object [("x402Version", .number 2 0), ("accepts", .array [plainOffer])])⟩
  second := some ⟨200, none, none, fun _ => some nulAnswer⟩
  message := ""

/-- The header has left, and an exception says nothing of it. -/
theorem nul_answer_escapes :
    ¬ TellsHeader (payForDelegatedResource HeaderCodec.plain clientTexts sampleConfig sampleFormat "" sampleAnswers
      "pay_1" ()) := by
  rw [exchange_cases.tellsHeader_iff]
  intro h
  have hredacts := h plainOffer sampleLeaf () ⟨200, none, none, fun _ => some nulAnswer⟩ rfl rfl rfl (by decide)
  rcases hredacts.resource none nulAnswer rfl rfl with hsame | hparses
  · have hcleaned : sampleSecrets.list.foldl redactSecret (stringify digitFormat nulAnswer) ≠
        stringify digitFormat nulAnswer := by decide +kernel
    exact hcleaned hsame
  · have hthrows : (parseJson digitFormat
        (sampleSecrets.list.foldl redactSecret (stringify digitFormat nulAnswer))).isSome = false := by
      decide +kernel
    exact Bool.false_ne_true (hthrows.symm.trans hparses)

end Mapae.Delegation
