import Mapae.Delegation.PaymentClient
import Mapae.Seller.Ladder

/-!
# No broadcast is reported as not charged

An answer of `/settle` passes three readers before the buyer acts on it: the seller's outcome,
the seller's status and receipt, and the client's code. `buyerSees` is the three composed.

Read as evidence (`MayHaveBroadcast`), an answer leaves the payer possibly charged when

* it did not arrive, or is no object
* it says the settlement is pending, or failed unexpectedly
* it reports success without naming the verified payer
* it names a transaction and is not a confirmed success

The two words for a request that was not looked at are read before anything else in the body,
and they are the one place where the composition loses evidence: `in_doubt_reported_iff`.
-/

namespace Mapae.Seller

open Mapae.Infra Mapae.Shared Mapae.Delegation
open SellerRefusalCode DelegatedPaymentFailureCode

/-! ## The evidence in an answer -/

/-- The body says the request was refused unexamined. -/
def RefusesUnexamined (body : Json) : Prop :=
  body.textField "errorReason" = some RATE_LIMITED ∨
    body.textField "errorReason" = some FACILITATOR_NOT_READY

/-- The body says that a settlement is pending, or that it failed unexpectedly. -/
def SaysPending (body : Json) : Prop :=
  body.textField "errorReason" = some SETTLEMENT_PENDING ∨
    body.textField "errorReason" = some UNEXPECTED_SETTLE_ERROR

/-- The 32-byte hash the body names. -/
def namedTransaction (body : Json) : Option String := readTransaction (body.field "transaction")

/-- The body reports success for a payer other than the verified one. -/
def SucceedsForAnother (viem : Viem) (body : Json) (payer : String) : Prop :=
  body.trueField "success" = true ∧ namesPayer viem body payer = false

/-- The body reports success for the verified payer, and does not say it refused to look. -/
def ConfirmsSuccess (viem : Viem) (body : Json) (payer : String) : Prop :=
  body.trueField "success" = true ∧ namesPayer viem body payer = true ∧ ¬ RefusesUnexamined body

/-- The answer leaves the payer possibly charged. -/
def MayHaveBroadcast (viem : Viem) (response : FacilitatorAnswer) (payer : String) : Prop :=
  match response.readable with
  | none => True
  | some body =>
    SaysPending body ∨ SucceedsForAnother viem body payer ∨
      (namedTransaction body ≠ none ∧ ¬ ConfirmsSuccess viem body payer)

/-- The hash that the answer names. -/
def namedHash (response : FacilitatorAnswer) : Option String :=
  response.readable.bind namedTransaction

/-- The answer refuses unexamined, and yet names a transaction or another payer's success. -/
def ContradictsItself (viem : Viem) (response : FacilitatorAnswer) (payer : String) : Prop :=
  ∃ body, response.readable = some body ∧ RefusesUnexamined body ∧
    (namedTransaction body ≠ none ∨ SucceedsForAnother viem body payer)

/-- The buyer is told that the payer may be charged, with the hash when one was named. -/
def ReportedInDoubt (result : DelegatedPaymentResult) (hash : Option String) : Prop :=
  ∃ detail status transaction,
    result = .failed (refused SETTLEMENT_UNKNOWN) detail status transaction ∧
      ∀ named, hash = some named → transaction = some named

/-! ## The seller's outcome -/

variable (viem : Viem) {response : FacilitatorAnswer} {body : Json} (payer : String)

theorem decideSettlement_of_unreadable (h : response.readable = none) :
    decideSettlement viem response payer = .unknown none := by
  unfold decideSettlement
  rw [h]

/-- A body that refuses unexamined is taken at its word. -/
theorem decideSettlement_of_refusesUnexamined (hread : response.readable = some body)
    (h : RefusesUnexamined body) :
    ∃ word, (word = RATE_LIMITED ∨ word = FACILITATOR_NOT_READY) ∧
      decideSettlement viem response payer = .unavailable word := by
  unfold decideSettlement
  simp only [hread]
  by_cases hlimited : body.textField "errorReason" = some RATE_LIMITED
  · rw [if_pos hlimited]
    exact ⟨_, Or.inl rfl, rfl⟩
  · rw [if_neg hlimited, if_pos (h.resolve_left hlimited)]
    exact ⟨_, Or.inr rfl, rfl⟩

/-- **Evidence of a broadcast that was looked at is never lost by the outcome.** It is in
doubt with the hash that was named, or a failure that names one. -/
theorem decideSettlement_of_mayHaveBroadcast (hread : response.readable = some body)
    (hexamined : ¬ RefusesUnexamined body) (h : MayHaveBroadcast viem response payer) :
    decideSettlement viem response payer = .unknown (namedTransaction body) ∨
      ∃ reason hash, namedTransaction body = some hash ∧
        decideSettlement viem response payer = .failed reason (some hash) := by
  have hevidence : SaysPending body ∨ SucceedsForAnother viem body payer ∨
      (namedTransaction body ≠ none ∧ ¬ ConfirmsSuccess viem body payer) := by
    unfold MayHaveBroadcast at h
    rwa [hread] at h
  unfold decideSettlement
  simp only [hread]
  rw [if_neg fun hl => hexamined (Or.inl hl), if_neg fun hr => hexamined (Or.inr hr)]
  by_cases hpending : body.textField "errorReason" = some SETTLEMENT_PENDING ∨
      body.textField "errorReason" = some UNEXPECTED_SETTLE_ERROR
  · rw [if_pos hpending]
    exact Or.inl rfl
  rw [if_neg hpending]
  have hrest := hevidence.resolve_left hpending
  cases hsuccess : body.trueField "success" with
  | false =>
    -- No success: what remains of the evidence is a named hash.
    have hnamed : namedTransaction body ≠ none := by
      rcases hrest with hother | hnamed
      · exact absurd hother.1 (by rw [hsuccess]; exact Bool.false_ne_true)
      · exact hnamed.1
    obtain ⟨hash, hhash⟩ := Option.ne_none_iff_exists'.mp hnamed
    simp only [Bool.not_false, if_true]
    split
    · exact Or.inl rfl
    · exact Or.inr ⟨_, hash, hhash, congrArg (SettlementOutcome.failed _) hhash⟩
  | true =>
    -- A success that is in evidence names someone else.
    have hother : namesPayer viem body payer = false := by
      rcases hrest with hother | ⟨_, hunconfirmed⟩
      · exact hother.2
      · cases hpayer : namesPayer viem body payer with
        | false => rfl
        | true => exact absurd ⟨hsuccess, hpayer, hexamined⟩ hunconfirmed
    simp only [Bool.not_true, Bool.false_eq_true, if_false, hother, Bool.not_false, if_true]
    exact Or.inl rfl

theorem not_saysPending_of_refusesUnexamined (h : RefusesUnexamined body) :
    ¬ SaysPending body := by
  rintro (hpending | hpending) <;> rcases h with h | h <;>
    exact absurd (h.symm.trans hpending) (by decide)

/-! ## The receipt and its reading -/

section Answers

variable {Wire : Type} (codec : HeaderCodec Wire) (paywalled : Paywalled)
variable (delegator message : String)

/-- What the client reads of a failure receipt is the word and the hash it was written with. -/
theorem readSellerRefusal_writeFailureReceipt (errorReason : String) (payer : Option String)
    (transaction : String) :
    readSellerRefusal codec (some (writeFailureReceipt codec errorReason payer transaction)) =
      { code := SELLER_REFUSAL_CODES.lookup errorReason
        reason := if (SELLER_REFUSAL_CODES.lookup errorReason).isSome then some errorReason
          else none
        transaction := readTransaction (some (.string transaction)) } := by
  unfold readSellerRefusal writeFailureReceipt encodePaymentResponseHeader
  simp only [Option.bind_some, codec.decode_encode, SettleResponse.failure_errorReason,
    SettleResponse.failure_transaction]

theorem readTransaction_string {hash : String} (h : isTransactionHash hash = true) :
    readTransaction (some (.string hash)) = some hash :=
  Option.filter_eq_some_iff.mpr ⟨rfl, h⟩

theorem isTransactionHash_of_named {hash : String} (h : namedTransaction body = some hash) :
    isTransactionHash hash = true :=
  isTransactionHash_of_readTransaction h

/-- A failing answer that is read as a doubt is reported as one, with the hash of its receipt. -/
theorem reportedInDoubt_of_code {second : HttpResponse Wire} {transaction : Option String}
    (hfailing : second.ok = false)
    (hcode : codeOfRefusal second.status (readSellerRefusal codec second.paymentResponse)
      = SETTLEMENT_UNKNOWN)
    (hread : (readSellerRefusal codec second.paymentResponse).transaction = transaction) :
    ReportedInDoubt (resultOfAnswer codec viem delegator message (some second)) transaction := by
  rw [resultOfAnswer_failing codec viem delegator message hfailing hcode, if_pos rfl, hread]
  exact ⟨_, _, _, rfl, fun _ hnamed => hnamed⟩

/-- The hash of an outcome is the hash the client reads. -/
theorem transaction_of_writeFailureReceipt (errorReason : String) (payer : Option String)
    (transaction : Option String)
    (h : ∀ hash, transaction = some hash → isTransactionHash hash = true) :
    (readSellerRefusal codec
      (some (writeFailureReceipt codec errorReason payer (transaction.getD "")))).transaction
      = transaction := by
  rw [readSellerRefusal_writeFailureReceipt]
  cases transaction with
  | none => rfl
  | some hash => exact readTransaction_string (h hash rfl)

/-- The buyer's result of an outcome that the seller holds for unknown. -/
theorem reportedInDoubt_of_unknown {transaction : Option String}
    (h : ∀ hash, transaction = some hash → isTransactionHash hash = true) :
    ReportedInDoubt
      (resultOfAnswer codec viem delegator message
        (some (settlementAnswer codec paywalled payer (.unknown transaction)))) transaction :=
  reportedInDoubt_of_code viem codec delegator message rfl
    (codeOfRefusal_of_status _ (by decide : (504 : Nat) ∈ SETTLEMENT_UNKNOWN_STATUSES))
    (transaction_of_writeFailureReceipt codec SETTLEMENT_PENDING (some payer) _ h)

/-- The buyer's result of a failure that names a hash, whatever its word. -/
theorem reportedInDoubt_of_failed (reason : String) {hash : String}
    (h : isTransactionHash hash = true) :
    ReportedInDoubt
      (resultOfAnswer codec viem delegator message
        (some (settlementAnswer codec paywalled payer (.failed reason (some hash)))))
      (some hash) := by
  have hread := transaction_of_writeFailureReceipt codec reason (some payer)
    (some hash) fun _ heq => Option.some.inj heq ▸ h
  have hfailing :
      (settlementAnswer codec paywalled payer (.failed reason (some hash))).ok = false ∧
      (settlementAnswer codec paywalled payer (.failed reason (some hash))).paymentResponse =
        some (writeFailureReceipt codec reason (some payer) hash) := by
    simp only [settlementAnswer, settlementRefusal]
    split
    · exact ⟨rfl, rfl⟩
    · exact ⟨rfl, rfl⟩
  rw [Option.getD_some, ← hfailing.2] at hread
  exact reportedInDoubt_of_code viem codec delegator message hfailing.1
    (codeOfRefusal_of_transaction hread) hread

/-- An outcome that was not looked at reaches the buyer as nothing charged. -/
theorem result_of_unavailable {word : String}
    (h : word = RATE_LIMITED ∨ word = FACILITATOR_NOT_READY) :
    ∃ detail status transaction,
      resultOfAnswer codec viem delegator message
        (some (settlementAnswer codec paywalled payer (.unavailable word))) =
      .failed (refused SELLER_UNAVAILABLE) detail status transaction := by
  have hcode : codeOfRefusal 503
      (readSellerRefusal codec (some (writeFailureReceipt codec word (some payer) ""))) =
        SELLER_UNAVAILABLE := by
    rw [readSellerRefusal_writeFailureReceipt]
    rcases h with rfl | rfl <;> decide
  exact ⟨_, _, _, resultOfAnswer_failing codec viem delegator message rfl hcode⟩

/-! ## The composition -/

/-- What the buyer's client returns when the facilitator's `/settle` answered `answer`, for a
payment whose verified payer is `viem.getAddress delegator`. -/
def buyerSees (answer : FetchResult) : DelegatedPaymentResult :=
  let payer := viem.getAddress delegator
  resultOfAnswer codec viem delegator message
    (some (settlementAnswer codec paywalled payer
      (decideSettlement viem (FacilitatorClient.call answer) payer)))

/-- **Evidence of a broadcast reaches the buyer as a settlement in doubt, with its hash,
exactly when the answer does not also claim that it was refused unexamined.** -/
theorem in_doubt_reported_iff (answer : FetchResult) :
    (MayHaveBroadcast viem (FacilitatorClient.call answer) (viem.getAddress delegator) →
      ReportedInDoubt (buyerSees viem codec paywalled delegator message answer)
        (namedHash (FacilitatorClient.call answer))) ↔
    ¬ ContradictsItself viem (FacilitatorClient.call answer) (viem.getAddress delegator) := by
  generalize hresponse : FacilitatorClient.call answer = response
  generalize hpayer : viem.getAddress delegator = payer
  unfold buyerSees
  simp only [hresponse, hpayer]
  constructor
  · rintro hreported ⟨body, hread, hrefused, hcontradiction⟩
    have hevidence : MayHaveBroadcast viem response payer := by
      unfold MayHaveBroadcast
      rw [hread]
      rcases hcontradiction with hnamed | hother
      · exact Or.inr (Or.inr ⟨hnamed, fun hconfirmed => hconfirmed.2.2 hrefused⟩)
      · exact Or.inr (Or.inl hother)
    obtain ⟨word, hword, hdecided⟩ :=
      decideSettlement_of_refusesUnexamined viem payer hread hrefused
    obtain ⟨_, _, _, hunavailable⟩ :=
      result_of_unavailable viem payer codec paywalled delegator message hword
    obtain ⟨_, _, _, hunknown, _⟩ := hreported hevidence
    rw [hdecided, hunavailable] at hunknown
    cases hunknown
  · intro hconsistent hevidence
    cases hread : response.readable with
    | none =>
      rw [decideSettlement_of_unreadable viem payer hread]
      have hnone : namedHash response = none := by rw [namedHash, hread]; rfl
      rw [hnone]
      exact reportedInDoubt_of_unknown viem payer codec paywalled delegator message
        fun _ h => nomatch h
    | some body =>
      have hnamed : namedHash response = namedTransaction body := by rw [namedHash, hread]; rfl
      rw [hnamed]
      have hexamined : ¬ RefusesUnexamined body := by
        intro hrefused
        have hfree : MayHaveBroadcast viem response payer := hevidence
        unfold MayHaveBroadcast at hfree
        rw [hread] at hfree
        rcases hfree with hpending | hother | ⟨hhash, _⟩
        · exact absurd hpending (not_saysPending_of_refusesUnexamined hrefused)
        · exact hconsistent ⟨body, hread, hrefused, Or.inr hother⟩
        · exact hconsistent ⟨body, hread, hrefused, Or.inl hhash⟩
      rcases decideSettlement_of_mayHaveBroadcast viem payer hread hexamined hevidence with
        hunknown | ⟨reason, hash, hhash, hfailed⟩
      · rw [hunknown]
        exact reportedInDoubt_of_unknown viem payer codec paywalled delegator message
          fun _ h => isTransactionHash_of_named h
      · rw [hfailed, hhash]
        exact reportedInDoubt_of_failed viem payer codec paywalled delegator message reason
          (isTransactionHash_of_named hhash)

end Answers

/-! ### A refusal that names a transaction -/

/-- A facilitator's answer that its limiter fired, over a transaction it names. -/
def limitedWithTransaction : FetchResult :=
  .answered 200 (some (.object
    [("success", .bool false), ("errorReason", .string RATE_LIMITED),
      ("transaction", .string
        "0x533c5cb2000000000000000000000000000000000000000000000000000000aa")]))

/-- A reading of addresses that is good enough for lowercase ones. -/
def lowercaseViem : Viem where
  isAddress := Mapae.Store.isHexOf 20
  getAddress := id

/-- What the buyer of a paid note sees when the facilitator answers `limitedWithTransaction`. -/
def limitedBuyerSees : DelegatedPaymentResult :=
  buyerSees lowercaseViem HeaderCodec.plain
    { offer := .null, resource := (200, some (.string "note")) }
    "0x00000000000000000000000000000000000000b1" "" limitedWithTransaction

/-- The buyer of `limitedWithTransaction` is told that nothing was charged. -/
theorem limited_transaction_lost :
    ¬ (MayHaveBroadcast lowercaseViem (FacilitatorClient.call limitedWithTransaction)
        "0x00000000000000000000000000000000000000b1" →
      ReportedInDoubt limitedBuyerSees
        (namedHash (FacilitatorClient.call limitedWithTransaction))) := by
  intro hreported
  obtain ⟨_, _, _, hunknown, _⟩ := hreported
    (Or.inr (Or.inr ⟨by decide +kernel, fun hconfirmed => hconfirmed.2.2 (Or.inl rfl)⟩))
  obtain ⟨_, _, _, hunavailable⟩ := result_of_unavailable lowercaseViem
    "0x00000000000000000000000000000000000000b1" HeaderCodec.plain
    { offer := .null, resource := (200, some (.string "note")) }
    "0x00000000000000000000000000000000000000b1" "" (Or.inl rfl : RATE_LIMITED = _ ∨ _)
  rw [show limitedBuyerSees = _ from hunavailable] at hunknown
  cases hunknown

end Mapae.Seller
