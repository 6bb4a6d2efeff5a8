import Mapae.Facilitator.RecoveryRun

/-!
# At most one transaction for a payment, and one fresh answer

Two results about every world that the recovery reaches, whatever the order of calls, answers,
lost answers, crashes and restarts.

* `at_most_one_transaction`: what is sent for an intent is the transaction its journal row
  named before, distinct intents have distinct nonces, and what fails after the claim is
  reported as pending
* `replay_truthful`: of the successful answers for an intent at most one is not marked as a
  replay, it is the answer of the call that wrote the row, and all of them agree
-/

namespace Mapae.Facilitator

open Mapae.Infra Mapae.Store

variable {codec : Codec} {w : World} {intent : String}

/-! ## One transaction -/

/-- The bytes were prepared for a claim or handed to the node. -/
def Occurs (history : List Event) (bytes : String) : Prop :=
  (∃ flight record, .claimed flight bytes record ∈ history) ∨
    ∃ flight intent, .sent flight intent bytes ∈ history

/-- No two transactions of this history have the same hash. -/
def CollisionFree (codec : Codec) (history : List Event) : Prop :=
  ∀ bytes bytes', Occurs history bytes → Occurs history bytes' →
    toLowerCase (codec.keccak256 bytes) = toLowerCase (codec.keccak256 bytes') → bytes = bytes'

/-- What is true of the transactions of a world. -/
structure AtMostOneTransaction (codec : Codec) (w : World) : Prop where
  /-- What is sent hashes to the hash of a row that was written before. -/
  sent_committed : ∀ later flight intent bytes earlier,
    w.history = later ++ .sent flight intent bytes :: earlier →
      (∃ bytes' record, Claimed earlier intent bytes' record ∧
        codec.keccak256 bytes = record.txHash) ∧
      ∃ record, w.db.read intent = .ok (some record) ∧ codec.keccak256 bytes = record.txHash
  /-- One hash is ever sent for an intent. -/
  one_hash : ∀ flight flight' intent bytes bytes', .sent flight intent bytes ∈ w.history →
    .sent flight' intent bytes' ∈ w.history → codec.keccak256 bytes = codec.keccak256 bytes'
  /-- So one transaction is. -/
  one_transaction : CollisionFree codec w.history → ∀ flight flight' intent bytes bytes',
    .sent flight intent bytes ∈ w.history → .sent flight' intent bytes' ∈ w.history →
      bytes = bytes'
  /-- The rows of two intents on one signer and chain have two nonces. -/
  nonces : ∀ id id' record record', w.db.read id = .ok (some record) →
    w.db.read id' = .ok (some record') → record.paymentIntentId ≠ record'.paymentIntentId →
    record.signer = record'.signer → record.chainId = record'.chainId →
      record.nonce ≠ record'.nonce
  /-- And so have the transactions that are sent for them. -/
  sent_nonces : CollisionFree codec w.history → ∀ flight flight' id id' bytes bytes' record record',
    .sent flight id bytes ∈ w.history → .sent flight' id' bytes' ∈ w.history → id ≠ id' →
    w.db.read id = .ok (some record) → w.db.read id' = .ok (some record') →
    record.signer = record'.signer → record.chainId = record'.chainId →
      ∃ tx tx', codec.parseTransaction bytes = some tx ∧ codec.parseTransaction bytes' = some tx' ∧
        tx.nonce ≠ tx'.nonce
  /-- A failure after the flight's preparation is pending, with the hash of its row. -/
  pending : ∀ later flight intent error earlier,
    w.history = later ++ .failed flight intent error :: earlier →
      ∀ record, Holds earlier flight record → error = pendingError record ∧
        describeFailure error .settle = .error record.txHash
  /-- Once an intent has a row, a failure for it is that, or the journal could not be read. -/
  failed_after_claim : ∀ later flight intent error earlier,
    w.history = later ++ .failed flight intent error :: earlier →
      ∀ bytes record, Claimed earlier intent bytes record →
        describeFailure error .settle = .error record.txHash ∨
          describeFailure error .settle = .notReady
  /-- A refusal means that nothing of the intent was ever claimed or sent. -/
  rejected : ∀ later flight intent error earlier code,
    w.history = later ++ .failed flight intent error :: earlier →
      describeFailure error .settle = .rejected code →
        (∀ bytes record, ¬ Claimed earlier intent bytes record) ∧
          ∀ flight' bytes, .sent flight' intent bytes ∉ earlier
  /-- An error that a call is answered is one that a flight of its intent failed with. -/
  answered : ∀ later call flight intent error earlier,
    w.history = later ++ .answered call flight intent (.error error) :: earlier →
      ∃ flight', .failed flight' intent error ∈ earlier

namespace RecoveryInvariant

/-- What is sent, with the claim that was made for it and the row as it is now. -/
theorem sent_spec (hinv : RecoveryInvariant codec w) {flight : Nat} {bytes : String}
    (h : .sent flight intent bytes ∈ w.history) :
    ∃ f' bytes' record row, .claimed f' bytes' record ∈ w.history ∧
      record.paymentIntentId = intent ∧ codec.keccak256 bytes = record.txHash ∧
      row ∈ w.db.intents.table ∧ row.toSettlementInput = record.toSettlementInput := by
  obtain ⟨later, earlier, heq⟩ := List.append_of_mem h
  have hj := hinv.events
  rw [heq] at hj
  obtain ⟨bytes', record, ⟨f', hc, hid⟩, hk⟩ := hj.at
  have hc' : .claimed f' bytes' record ∈ w.history := by
    rw [heq]
    exact List.mem_append_right _ (List.mem_cons_of_mem _ hc)
  obtain ⟨row, hr, hinput⟩ := hinv.claim_row f' bytes' record hc'
  exact ⟨f', bytes', record, row, hc', hid, hk, hr, hinput⟩

/-- A claim, with what it was made of. -/
theorem claimed_spec (hinv : RecoveryInvariant codec w) {flight : Nat} {bytes : String}
    {record : SettlementRecord} (h : .claimed flight bytes record ∈ w.history) :
    record.txHash = toLowerCase (codec.keccak256 bytes) ∧
      ∃ tx, codec.parseTransaction bytes = some tx ∧ tx.chainId = some record.chainId ∧
        tx.nonce = some record.nonce := by
  obtain ⟨later, earlier, heq⟩ := List.append_of_mem h
  have hj := hinv.events
  rw [heq] at hj
  exact hj.at.2

/-- The row of an intent is read under it. -/
theorem read_of_row (hinv : RecoveryInvariant codec w) {row : IntentRow}
    (hr : row ∈ w.db.intents.table) :
    w.db.read row.paymentIntentId = .ok (some (w.db.record row)) := by
  have hwf := hinv.journal.row row hr
  exact SettlementJournal.read_eq_ok.mpr
    ⟨hwf.id_hex, by rw [hwf.id_lower, Table.get?_of_mem hr, Option.map_some]⟩

/-- Without collisions, what is sent is what the claim was made for. -/
theorem sent_eq_claimed (hinv : RecoveryInvariant codec w) (hfree : CollisionFree codec w.history)
    {flight f' : Nat} {bytes bytes' : String} {record : SettlementRecord}
    (hs : .sent flight intent bytes ∈ w.history) (hc : .claimed f' bytes' record ∈ w.history)
    (hk : codec.keccak256 bytes = record.txHash) : bytes = bytes' := by
  refine hfree bytes bytes' (Or.inr ⟨flight, intent, hs⟩) (Or.inl ⟨f', record, hc⟩) ?_
  rw [hk, (hinv.claimed_spec hc).1, toLowerCase_toLowerCase]

end RecoveryInvariant

/-- **At most one transaction is sent for a payment.** -/
theorem at_most_one_transaction (h : (settlementSystem codec).Reachable w) :
    AtMostOneTransaction codec w := by
  have hinv := recovery_invariant h
  have hat : ∀ {later e earlier}, w.history = later ++ e :: earlier → EventOk codec earlier e := by
    intro later e earlier heq
    have hj := hinv.events
    rw [heq] at hj
    exact hj.at
  refine
    { sent_committed := ?sent_committed
      one_hash := ?one_hash
      one_transaction := ?one_transaction
      nonces := ?nonces
      sent_nonces := ?sent_nonces
      pending := ?pending
      failed_after_claim := ?failed_after_claim
      rejected := ?rejected
      answered := fun _ _ _ _ _ _ heq => hat heq }
  case sent_committed =>
    intro later flight intent bytes earlier heq
    refine ⟨hat heq, ?_⟩
    obtain ⟨_, _, record, row, -, hid, hk, hr, hinput⟩ :=
      hinv.sent_spec (heq ▸ List.mem_append_right _ List.mem_cons_self)
    have hrow : row.paymentIntentId = intent := by rw [hinput, hid]
    refine ⟨w.db.record row, hrow ▸ hinv.read_of_row hr, ?_⟩
    show _ = row.txHash
    rw [hk, hinput]
  case one_hash =>
    intro flight flight' intent bytes bytes' hs hs'
    obtain ⟨_, _, record, row, -, hid, hk, hr, hinput⟩ := hinv.sent_spec hs
    obtain ⟨_, _, record', row', -, hid', hk', hr', hinput'⟩ := hinv.sent_spec hs'
    have hrow : row = row' := Table.eq_of_key hr hr' (by
      show row.paymentIntentId = row'.paymentIntentId
      rw [hinput, hinput', hid, hid'])
    rw [hk, hk', ← show row.txHash = record.txHash by rw [hinput],
      ← show row'.txHash = record'.txHash by rw [hinput'], hrow]
  case one_transaction =>
    intro hfree flight flight' intent bytes bytes' hs hs'
    obtain ⟨_, b, record, row, hc, hid, hk, hr, hinput⟩ := hinv.sent_spec hs
    obtain ⟨_, b', record', row', hc', hid', hk', hr', hinput'⟩ := hinv.sent_spec hs'
    have hrow : row = row' := Table.eq_of_key hr hr' (by
      show row.paymentIntentId = row'.paymentIntentId
      rw [hinput, hinput', hid, hid'])
    have hhash : codec.keccak256 bytes' = record.txHash := by
      rw [hk', ← show row'.txHash = record'.txHash by rw [hinput'], ← hrow, hinput]
    rw [hinv.sent_eq_claimed hfree hs hc hk, hinv.sent_eq_claimed hfree hs' hc hhash]
  case nonces =>
    intro id id' record record' hread hread' hne hsigner hchain hnonce
    obtain ⟨-, row, -, hr, rfl⟩ := JournalInvariant.row_of_read hread
    obtain ⟨-, row', -, hr', rfl⟩ := JournalInvariant.row_of_read hread'
    have hslot : row.slot = row'.slot := Prod.ext hchain (Prod.ext hsigner hnonce)
    exact hne (by rw [w.db.intents.slot_unique row hr row' hr' hslot])
  case sent_nonces =>
    intro hfree flight flight' id id' bytes bytes' record record' hs hs' hne hread hread' hsigner
      hchain
    obtain ⟨_, b, claim, row, hc, hid, hk, hr, hinput⟩ := hinv.sent_spec hs
    obtain ⟨_, b', claim', row', hc', hid', hk', hr', hinput'⟩ := hinv.sent_spec hs'
    obtain rfl := hinv.sent_eq_claimed hfree hs hc hk
    obtain rfl := hinv.sent_eq_claimed hfree hs' hc' hk'
    obtain ⟨-, tx, htx, -, hnonce⟩ := hinv.claimed_spec hc
    obtain ⟨-, tx', htx', -, hnonce'⟩ := hinv.claimed_spec hc'
    -- The records read now are those of the two claims' rows.
    have hrowid : row.paymentIntentId = id := by rw [hinput, hid]
    have hrowid' : row'.paymentIntentId = id' := by rw [hinput', hid']
    obtain rfl : w.db.record row = record := by
      have := (hinv.read_of_row hr).symm.trans (hrowid ▸ hread)
      simpa using this
    obtain rfl : w.db.record row' = record' := by
      have := (hinv.read_of_row hr').symm.trans (hrowid' ▸ hread')
      simpa using this
    refine ⟨tx, tx', htx, htx', fun heq => hne ?_⟩
    have hslot : row.slot = row'.slot := by
      refine Prod.ext hchain (Prod.ext hsigner ?_)
      show row.nonce = row'.nonce
      rw [hinput, hinput']
      exact Option.some.inj (hnonce.symm.trans (heq.trans hnonce'))
    rw [← hrowid, ← hrowid', w.db.intents.slot_unique row hr row' hr' hslot]
  case pending =>
    intro later flight intent error earlier heq record hr
    obtain rfl := (hat heq).1 record hr
    exact ⟨rfl, rfl⟩
  case failed_after_claim =>
    intro later flight intent error earlier heq bytes record hc
    rcases (hat heq).2 bytes record hc with rfl | rfl
    · exact Or.inl rfl
    · exact Or.inr rfl
  case rejected =>
    intro later flight intent error earlier code heq hcode
    have hclaim : ∀ bytes record, ¬ Claimed earlier intent bytes record := by
      intro bytes record hc
      rcases (hat heq).2 bytes record hc with rfl | rfl
      · cases hcode
      · cases hcode
    refine ⟨hclaim, fun flight' bytes hs => ?_⟩
    -- What was sent had been claimed.
    obtain ⟨later', earlier', hsplit⟩ := List.append_of_mem hs
    have hj := hinv.events
    rw [heq, hsplit, ← List.cons_append, ← List.append_assoc] at hj
    obtain ⟨bytes', record, ⟨f, hc, hid⟩, -⟩ := hj.at
    refine hclaim bytes' record ⟨f, ?_, hid⟩
    rw [hsplit]
    exact List.mem_append_right _ (List.mem_cons_of_mem _ hc)

/-! ## One fresh answer -/

/-- The calls that got a successful answer for the intent which is not marked as a replay. -/
def unmarkedAnswers (history : List Event) (intent : String) : List Nat :=
  history.filterMap fun
    | .answered call _ intent' (.ok result) =>
      if intent' = intent ∧ result.replayed = false then some call else none
    | _ => none

theorem mem_unmarkedAnswers {history : List Event} {call : Nat} :
    call ∈ unmarkedAnswers history intent ↔ ∃ flight result,
      .answered call flight intent (.ok result) ∈ history ∧ result.replayed = false := by
  unfold unmarkedAnswers
  rw [List.mem_filterMap]
  constructor
  · rintro ⟨e, he, hc⟩
    split at hc
    · split at hc
      · next h =>
        cases hc
        obtain ⟨rfl, hfresh⟩ := h
        exact ⟨_, _, he, hfresh⟩
      · cases hc
    · cases hc
  · rintro ⟨f, result, he, hfresh⟩
    exact ⟨_, he, if_pos ⟨rfl, hfresh⟩⟩

theorem unmarkedAnswers_sublist (history : List Event) (intent : String) :
    (unmarkedAnswers history intent).Sublist (answeredCalls history) := by
  induction history with
  | nil => exact .slnil
  | cons e history ih =>
    cases e with
    | answered call flight intent' result =>
      cases result with
      | error error => exact ih.cons call
      | ok result =>
        by_cases h : intent' = intent ∧ result.replayed = false
        · have : unmarkedAnswers (.answered call flight intent' (.ok result) :: history) intent =
              call :: unmarkedAnswers history intent := by
            simp [unmarkedAnswers, h]
          rw [this]
          exact ih.cons_cons call
        · have : unmarkedAnswers (.answered call flight intent' (.ok result) :: history) intent =
              unmarkedAnswers history intent := by
            simp only [unmarkedAnswers, List.filterMap_cons, if_neg h]
          rw [this]
          exact ih.cons call
    | _ => exact ih

/-- What is true of the successful answers of a world. -/
structure ReplayTruthful (w : World) : Prop where
  /-- At most one answer for an intent is not marked. -/
  unmarked_once : ∀ intent, (unmarkedAnswers w.history intent).length ≤ 1
  /-- It is the answer of the call that wrote the row. -/
  unmarked_created : ∀ call flight intent result,
    .answered call flight intent (.ok result) ∈ w.history → result.replayed = false →
      ∃ bytes record, .claimed call bytes record ∈ w.history ∧ record.paymentIntentId = intent
  /-- All successful answers for an intent are one record: one hash, one cost. -/
  same : ∀ call call' flight flight' intent result result',
    .answered call flight intent (.ok result) ∈ w.history →
    .answered call' flight' intent (.ok result') ∈ w.history →
      result.record = result'.record ∧ result.record.txHash = result'.record.txHash ∧
        result.record.actualCost = result'.record.actualCost
  /-- The wire's body says the same. -/
  body : ∀ call flight intent result, .answered call flight intent (.ok result) ∈ w.history →
    ∃ body, settlementResponse result.record result.replayed = .ok body ∧
      body.transaction = result.record.txHash ∧ body.replayed = result.replayed

/-- Two calls wrote no row for the same intent. -/
theorem RecoveryInvariant.claimed_unique (hinv : RecoveryInvariant codec w)
    {flight flight' : Nat} {bytes bytes' : String} {record record' : SettlementRecord}
    (h : .claimed flight bytes record ∈ w.history)
    (h' : .claimed flight' bytes' record' ∈ w.history)
    (hid : record.paymentIntentId = record'.paymentIntentId) : flight = flight' := by
  -- Of two different claims the later one would have found the earlier one's row.
  have hlate : ∀ {history : List Event} {f f' b b' r r'}, Justified (EventOk codec) history →
      .claimed f b r ∈ history → .claimed f' b' r' ∈ history →
      r.paymentIntentId = r'.paymentIntentId → f = f' := by
    intro history f f' b b' r r' hj hm hm' hr
    induction history with
    | nil => cases hm
    | cons e history ih =>
      rcases List.mem_cons.mp hm with rfl | hin
      · rcases List.mem_cons.mp hm' with he | hin'
        · cases he
          rfl
        · exact absurd ⟨f', hin', hr.symm⟩ (hj.1.1 b' r')
      · rcases List.mem_cons.mp hm' with rfl | hin'
        · exact absurd ⟨f, hin, hr⟩ (hj.1.1 b r)
        · exact ih hj.2 hin hin'
  exact hlate hinv.events h h' hid

/-- **Whether an answer is a replay is reported truthfully.** -/
theorem replay_truthful (h : (settlementSystem codec).Reachable w) : ReplayTruthful w := by
  have hinv := recovery_invariant h
  refine
    { unmarked_once := ?unmarked_once
      unmarked_created := fun call flight intent result ha hfresh =>
        (hinv.answers call flight intent result ha).own hfresh
      same := ?same
      body := ?body }
  case unmarked_once =>
    intro intent
    have hnodup := hinv.answered_once.sublist (unmarkedAnswers_sublist w.history intent)
    have hsame : ∀ c ∈ unmarkedAnswers w.history intent,
        ∀ c' ∈ unmarkedAnswers w.history intent, c = c' := by
      intro c hc c' hc'
      obtain ⟨f, result, ha, hfresh⟩ := mem_unmarkedAnswers.mp hc
      obtain ⟨f', result', ha', hfresh'⟩ := mem_unmarkedAnswers.mp hc'
      obtain ⟨_, record, hclaim, hid⟩ := (hinv.answers c f intent result ha).own hfresh
      obtain ⟨_, record', hclaim', hid'⟩ := (hinv.answers c' f' intent result' ha').own hfresh'
      exact hinv.claimed_unique hclaim hclaim' (hid.trans hid'.symm)
    match hl : unmarkedAnswers w.history intent, hnodup, hsame with
    | [], _, _ => exact Nat.zero_le 1
    | [_], _, _ => exact Nat.le_refl 1
    | a :: b :: _, hn, hs =>
      have hab : a = b := hs a (by simp) b (by simp)
      simp [hab] at hn
  case same =>
    intro call call' flight flight' intent result result' ha ha'
    obtain ⟨⟨row, hr, hid, hrecord⟩, -, -⟩ := hinv.answers call flight intent result ha
    obtain ⟨⟨row', hr', hid', hrecord'⟩, -, -⟩ := hinv.answers call' flight' intent result' ha'
    have hrow : row = row' := Table.eq_of_key hr hr' (hid.trans hid'.symm)
    have heq : result.record = result'.record := by rw [← hrecord, ← hrecord', hrow]
    exact ⟨heq, by rw [heq], by rw [heq]⟩
  case body =>
    intro call flight intent result ha
    have hterminal := (hinv.answers call flight intent result ha).terminal
    obtain ⟨event, hevent⟩ := Option.isSome_iff_exists.mp hterminal
    refine ⟨_, by unfold settlementResponse; rw [hevent], rfl, rfl⟩

/-! ## A run -/

/-- A serialized transaction of nonce 0. -/
def sampleBytes : String :=
  "0x02f863830164ce80010a6494222222222222222222222222222222222222222219" ++
    "80c001a01111111111111111111111111111111111111111111111111111111111111111" ++
    "a03333333333333333333333333333333333333333333333333333333333333333"

def sampleHash : String := "0xefe69f692a20f5f679ccfdab384d4b435f0409fa0d34070bf5e3b4e88fd9e86d"

/-- Hashing and parsing, as far as the run below needs them. -/
def sampleCodec : Codec where
  keccak256 bytes := if bytes = sampleBytes then sampleHash else "0x"
  parseTransaction bytes :=
    if bytes = sampleBytes then some ⟨"eip1559", some 91342, some 0, some 100, some 10, some 1⟩
    else none

def sampleConfig : Config where
  signer := "0x19E7E376E7C213B7E7e7e46cc70A5dD086DAff2A"
  chainId := 91342
  limits := ⟨10000, 5000⟩

def sampleIntent : String := "0xaaaaaaaaaaaaaaaaaaaaaaaaaaaaaaaaaaaaaaaaaaaaaaaaaaaaaaaaaaaaaaaa"

def samplePayment : RecoveryPayment where
  paymentIntentId := sampleIntent
  payer := "0x1111111111111111111111111111111111111111"
  payTo := "0x2222222222222222222222222222222222222222"
  amountBase := 25

def sampleMoment : Moment := ⟨1789343940000, true⟩

/-- Two calls at once, a lost answer to `send`, a restart, and a third call. -/
def sampleActions : List Action :=
  [.settle samplePayment, .settle samplePayment,
    .advance 0 .resume sampleMoment, .advance 0 .resume sampleMoment,
    .advance 0 (.nonce 0) sampleMoment, .advance 0 (.serialized sampleBytes) sampleMoment,
    .advance 0 .resume sampleMoment, .advance 0 (.receipt none none) sampleMoment,
    .advance 0 (.serialized sampleBytes) sampleMoment,
    .advance 0 (.threw (JsError.ofClass .other)) sampleMoment,
    .advance 0 (.receipt (some ⟨sampleHash, .bigint 50, .bigint 2, .text "0x3"⟩) none)
      sampleMoment,
    .cleanup 0, .answer 0, .answer 1, .restart sampleConfig, .settle samplePayment,
    .advance 2 .resume sampleMoment, .advance 2 .resume sampleMoment,
    .advance 2 .resume sampleMoment, .cleanup 2, .answer 2]

def sampleWorld : Option World :=
  System.performAll (World.act sampleCodec) (World.boot JournalDb.empty sampleConfig 0 []) sampleActions

/-- The transactions that were handed to the node. -/
def sentBytes (history : List Event) : List String :=
  history.filterMap fun
    | .sent _ _ bytes => some bytes
    | _ => none

theorem sampleWorld_spec : ∃ w, sampleWorld = some w ∧ sentBytes w.history = [sampleBytes] ∧
    answeredCalls w.history = [2, 1, 0] ∧ unmarkedAnswers w.history sampleIntent = [0] := by
  have h : (sampleWorld.map fun w => (sentBytes w.history, answeredCalls w.history,
      unmarkedAnswers w.history sampleIntent)) = some ([sampleBytes], [2, 1, 0], [0]) := by
    decide +kernel
  obtain ⟨w, hw, hfacts⟩ := Option.map_eq_some_iff.mp h
  simp only [Prod.mk.injEq] at hfacts
  exact ⟨w, hw, hfacts⟩

theorem sampleWorld_reachable (h : sampleWorld = some w) :
    (settlementSystem sampleCodec).Reachable w :=
  System.reachable_of_performAll (.init ⟨sampleConfig, rfl⟩) h

/-- The three calls of the run sent one transaction. -/
theorem at_most_one_transaction_sample : ∃ w, sampleWorld = some w ∧
    sentBytes w.history = [sampleBytes] ∧ AtMostOneTransaction sampleCodec w := by
  obtain ⟨w, hw, hsent, -⟩ := sampleWorld_spec
  exact ⟨w, hw, hsent, at_most_one_transaction (sampleWorld_reachable hw)⟩

/-- Of the run's three answers the first call's alone is fresh. -/
theorem replay_truthful_sample : ∃ w, sampleWorld = some w ∧
    answeredCalls w.history = [2, 1, 0] ∧ unmarkedAnswers w.history sampleIntent = [0] ∧
      ReplayTruthful w := by
  obtain ⟨w, hw, -, hanswers, hfresh⟩ := sampleWorld_spec
  exact ⟨w, hw, hanswers, hfresh, replay_truthful (sampleWorld_reachable hw)⟩

end Mapae.Facilitator
