import Mapae.Facilitator.Recovery

/-!
# The invariant of the recovery

`Stretch` lists the ways in which a flight gets from one await to the next, and
`stretch_of_advance` says that there are no others. Everything that holds of the recovery is
proved from the list, between any two stretches and over crashes and restarts.

* every row was written by one flight, for bytes that hash to the row's hash, before anything
  was sent (`EventOk`, `row_claim`, `claim_row`)
* a flight between the look-up and the claim is the only one, and its intent has no row
  (`QueueOk`, `PhaseOk.absent`)
* a flight that is past its preparation holds the claim of a row of its intent (`Held`)
* a successful answer is the row's final record (`AnswerOk`)
-/

namespace Mapae.Facilitator

open Mapae.Infra Mapae.Store

/-- The record a flight got from its preparation, while it resolves it. -/
def Phase.holding : Phase → Option SettlementResult
  | .prepared record replayed | .receipt record replayed | .restore record replayed
  | .send record replayed | .wait record replayed => some ⟨record, replayed⟩
  | _ => none

/-- It has seen that there is no row, and may write one. -/
def Phase.started : Phase → Bool
  | .pendingNonce | .prepare _ => true
  | _ => false

/-- It is in the chain of preparations. -/
def Phase.waiting : Phase → Bool
  | .queued | .pendingNonce | .prepare _ => true
  | _ => false

theorem Phase.preparing_of_waiting {p : Phase} (h : p.waiting = true) : p.preparing = true := by
  cases p <;> first | rfl | cases h

/-- All that a stretch can do. -/
inductive Stretch (codec : Codec) (config : Config) (db : JournalDb) (flight : Nat)
    (payment : RecoveryPayment) : Phase → Effect → Prop
  | enqueued : Stretch codec config db flight payment .registered (await db .queued)
  /-- There is no row. -/
  | unknown (h : db.read payment.paymentIntentId = .ok none) :
    Stretch codec config db flight payment .queued (await db .pendingNonce)
  /-- There is one: nothing will be claimed. -/
  | found {record : SettlementRecord} (h : db.read payment.paymentIntentId = .ok (some record)) :
    Stretch codec config db flight payment .queued
      ⟨.prepared record true, db, [.found flight record]⟩
  | allocated {nonce : Int} :
    Stretch codec config db flight payment .pendingNonce (await db (.prepare nonce))
  /-- The preparation throws. Before the row was looked for, only the journal can have. -/
  | refused {phase : Phase} {error : JsError} (hp : phase.waiting = true)
    (he : phase.started = false → error = storageUnavailable) :
    Stretch codec config db flight payment phase (fail flight payment db error)
  | claimed {nonce : Int} {bytes : String} {tx : ParsedTransaction} {envelope : Int × Int × Int}
    {moment : Moment} {record : SettlementRecord} {db' : JournalDb}
    (htx : codec.parseTransaction bytes = some tx)
    (henvelope : allocatedEnvelope config nonce tx = some envelope)
    (h : (SettlementJournal.claim (claimInput codec config moment payment nonce bytes envelope)
      config.limits).run db = .ok record db') :
    Stretch codec config db flight payment (.prepare nonce)
      ⟨.prepared record false, db', [.claimed flight bytes record]⟩
  /-- The row has its verdict. -/
  | terminal {record : SettlementRecord} {replayed : Bool} (h : record.terminal.isSome = true) :
    Stretch codec config db flight payment (.prepared record replayed)
      ⟨.settled (.ok ⟨record, replayed⟩), db, []⟩
  | onward {phase phase' : Phase} {result : SettlementResult} (h : phase.holding = some result)
    (h' : phase'.holding = some result) :
    Stretch codec config db flight payment phase (await db phase')
  | sent {record : SettlementRecord} {replayed : Bool} {bytes : String}
    (h : codec.keccak256 bytes = record.txHash) :
    Stretch codec config db flight payment (.restore record replayed)
      ⟨.send record replayed, db, [.sent flight record.paymentIntentId bytes]⟩
  /-- Something threw after the preparation. -/
  | pending {phase : Phase} {result : SettlementResult} (h : phase.holding = some result) :
    Stretch codec config db flight payment phase (fail flight payment db (pendingError result.record))
  | finished {phase : Phase} {record : SettlementRecord} {replayed : Bool}
    {outcome : SettlementOutcomeInput} {record' : SettlementRecord} {db' : JournalDb}
    (h : phase.holding = some ⟨record, replayed⟩)
    (hrun : (SettlementJournal.finish record.paymentIntentId outcome).run db = .ok record' db') :
    Stretch codec config db flight payment phase ⟨.settled (.ok ⟨record', replayed⟩), db', []⟩

section

variable {codec : Codec} {config : Config} {moment : Moment} {db db' : JournalDb} {flight : Nat}
  {payment : RecoveryPayment} {phase : Phase} {input : Input} {effect : Effect}

/-- The end of a preparation: the claim, or a throw that wrote nothing. -/
theorem claimPrepared_cases {nonce : Int} {bytes : String}
    {result : Except JsError SettlementRecord}
    (h : claimPrepared codec config moment db payment nonce bytes = (result, db')) :
    (∃ error, result = .error error ∧ db' = db) ∨
      ∃ tx envelope record, codec.parseTransaction bytes = some tx ∧
        allocatedEnvelope config nonce tx = some envelope ∧ result = .ok record ∧
          (SettlementJournal.claim (claimInput codec config moment payment nonce bytes envelope)
            config.limits).run db = .ok record db' := by
  unfold claimPrepared at h
  split at h
  · cases h
    exact Or.inl ⟨_, rfl, rfl⟩
  · next envelope henvelope =>
    obtain ⟨tx, htx, henvelope⟩ := Option.bind_eq_some_iff.mp henvelope
    split at h
    · split at h
      · next record db₁ hrun =>
        cases h
        exact Or.inr ⟨tx, envelope, record, htx, henvelope, rfl, hrun⟩
      · next hrun =>
        cases h
        exact Or.inl ⟨_, rfl, run_transaction_eq_error hrun⟩
      · next hrun =>
        cases h
        exact Or.inl ⟨_, rfl, run_transaction_eq_error hrun⟩
    · cases h
      exact Or.inl ⟨_, rfl, rfl⟩

/-- The end of a flight that has a receipt: the verdict, or a pending error that wrote nothing. -/
theorem conclude_cases {record : SettlementRecord} {receipt : RecoveryReceipt}
    {failure : Option String} {result : Except JsError SettlementRecord}
    (h : conclude moment db record receipt failure = (result, db')) :
    (result = .error (pendingError record) ∧ db' = db) ∨
      ∃ outcome finished, result = .ok finished ∧
        (SettlementJournal.finish record.paymentIntentId outcome).run db = .ok finished db' := by
  unfold conclude at h
  split at h
  · cases h
    exact Or.inl ⟨rfl, rfl⟩
  · split at h
    · split at h
      · next finished db₁ hrun =>
        cases h
        exact Or.inr ⟨_, finished, rfl, hrun⟩
      · next hrun =>
        cases h
        exact Or.inl ⟨rfl, run_transaction_eq_error hrun⟩
    · cases h
      exact Or.inl ⟨rfl, rfl⟩

theorem stretch_pending {record : SettlementRecord} {replayed : Bool}
    (h : phase.holding = some ⟨record, replayed⟩) :
    Stretch codec config db flight payment phase
      (fail flight payment db (pendingError record)) := .pending h

theorem stretch_finishFlight {record : SettlementRecord} {replayed : Bool}
    {receipt : RecoveryReceipt} {failure : Option String}
    (h : phase.holding = some ⟨record, replayed⟩) :
    Stretch codec config db flight payment phase
      (finishFlight moment db flight payment record replayed receipt failure) := by
  unfold finishFlight
  split
  · next finished db₁ hc =>
    rcases conclude_cases hc with ⟨he, -⟩ | ⟨outcome, finished', hok, hrun⟩
    · cases he
    · cases hok
      exact .finished h hrun
  · next error db₁ hc =>
    rcases conclude_cases hc with ⟨he, rfl⟩ | ⟨outcome, finished', hok, -⟩
    · cases he
      exact .pending h
    · cases hok

/-- **A flight that goes on does one of the things of `Stretch`.** -/
theorem stretch_of_advance
    (h : advance codec config moment db flight payment phase input = some effect) :
    Stretch codec config db flight payment phase effect := by
  unfold advance at h
  split at h
  -- registered
  · cases h
    exact .enqueued
  -- queued
  · cases h
    unfold known
    split
    · next error hknown =>
      refine .refused rfl fun _ => ?_
      split at hknown
      · split at hknown
        · cases hknown
        · exact (Except.error.inj hknown).symm
      · exact (Except.error.inj hknown).symm
    · next existing hknown =>
      split at hknown
      · split at hknown
        · next hread =>
          cases hknown
          exact .found hread
        · cases hknown
      · cases hknown
    · next hknown =>
      split at hknown
      · split at hknown
        · next hread =>
          cases hknown
          exact .unknown hread
        · cases hknown
      · cases hknown
  -- pendingNonce
  · cases h
    exact .refused rfl (fun h => nomatch h)
  · cases h
    split
    · exact .refused rfl (fun h => nomatch h)
    · exact .allocated
  -- prepare
  · cases h
    exact .refused rfl (fun h => nomatch h)
  · cases h
    split
    · next error db₁ hc =>
      rcases claimPrepared_cases hc with ⟨_, -, rfl⟩ | ⟨_, _, _, -, -, hok, -⟩
      · exact .refused rfl (fun h => nomatch h)
      · cases hok
    · next record db₁ hc =>
      rcases claimPrepared_cases hc with ⟨_, he, -⟩ | ⟨tx, envelope, _, htx, henv, hok, hrun⟩
      · cases he
      · cases hok
        exact .claimed htx henv hrun
  -- prepared
  · cases h
    split
    · next hterminal => exact .terminal hterminal
    · exact .onward rfl rfl
  -- receipt
  · cases h
    exact stretch_pending rfl
  · cases h
    exact stretch_finishFlight rfl
  · cases h
    exact .onward rfl rfl
  -- restore
  · cases h
    exact stretch_pending rfl
  · cases h
    split
    · exact stretch_pending rfl
    · next hk => exact .sent (not_not.mp hk)
  -- send
  · cases h
    exact .onward rfl rfl
  · cases h
    exact .onward rfl rfl
  -- wait
  · cases h
    exact stretch_pending rfl
  · cases h
    exact stretch_finishFlight rfl
  · cases h

end

/-! ## What makes a history possible -/

/-- The flight's preparation ended with this record. -/
def Holds (history : List Event) (flight : Nat) (record : SettlementRecord) : Prop :=
  .found flight record ∈ history ∨ ∃ bytes, .claimed flight bytes record ∈ history

/-- A row of this intent was written, for these bytes. -/
def Claimed (history : List Event) (intent bytes : String) (record : SettlementRecord) : Prop :=
  ∃ flight, .claimed flight bytes record ∈ history ∧ record.paymentIntentId = intent

/-- Why an event was in order, given what happened before it. -/
def EventOk (codec : Codec) (before : List Event) : Event → Prop
  | .found _ _ => True
  | .claimed _ bytes record =>
    (∀ bytes' record', ¬ Claimed before record.paymentIntentId bytes' record') ∧
      record.txHash = toLowerCase (codec.keccak256 bytes) ∧
      ∃ tx, codec.parseTransaction bytes = some tx ∧ tx.chainId = some record.chainId ∧
        tx.nonce = some record.nonce
  | .sent _ intent bytes =>
    ∃ bytes' record, Claimed before intent bytes' record ∧ codec.keccak256 bytes = record.txHash
  | .failed flight intent error =>
    (∀ record, Holds before flight record → error = pendingError record) ∧
      ∀ bytes record, Claimed before intent bytes record →
        error = pendingError record ∨ error = storageUnavailable
  | .answered _ _ intent (.error error) => ∃ flight, .failed flight intent error ∈ before
  | .answered _ _ _ (.ok _) => True

variable {codec : Codec} {w : World} {db db' : JournalDb} {history history' : List Event}
  {flight : Nat} {intent : String} {result : SettlementResult} {fl : Flight}

/-! ## Flights and answers -/

/-- The flight holds the claim of a row of its intent. -/
structure Held (db : JournalDb) (history : List Event) (flight : Nat) (intent : String)
    (result : SettlementResult) : Prop where
  row : ∃ row ∈ db.intents.table, row.paymentIntentId = intent ∧
    row.toSettlementInput = result.record.toSettlementInput ∧
      (result.record.terminal.isSome = true → db.record row = result.record)
  own : result.replayed = false → ∃ bytes record,
    .claimed flight bytes record ∈ history ∧ record.paymentIntentId = intent
  same : ∀ record, Holds history flight record → pendingError record = pendingError result.record

/-- What is known of a flight in its phase. -/
structure PhaseOk (db : JournalDb) (history : List Event) (flight : Nat) (fl : Flight) :
    Prop where
  fresh : fl.phase.preparing = true → ∀ record, ¬ Holds history flight record
  absent : fl.phase.started = true → isHexOf 32 fl.payment.paymentIntentId = true ∧
    db.intents.table.get? (toLowerCase fl.payment.paymentIntentId) = none
  held : ∀ result, fl.phase.holding = some result →
    Held db history flight (toLowerCase fl.payment.paymentIntentId) result
  ok : ∀ result, fl.phase = .settled (.ok result) →
    Held db history flight (toLowerCase fl.payment.paymentIntentId) result ∧
      result.record.terminal.isSome = true
  error : ∀ error, fl.phase = .settled (.error error) →
    .failed flight (toLowerCase fl.payment.paymentIntentId) error ∈ history

/-- A successful answer is the final record of its intent's row. -/
structure AnswerOk (db : JournalDb) (history : List Event) (call : Nat) (intent : String)
    (result : SettlementResult) : Prop where
  row : ∃ row ∈ db.intents.table, row.paymentIntentId = intent ∧ db.record row = result.record
  terminal : result.record.terminal.isSome = true
  own : result.replayed = false → ∃ bytes record,
    .claimed call bytes record ∈ history ∧ record.paymentIntentId = intent

theorem Held.frame (h : Held db history flight intent result) (hext : Extends db db')
    (hsub : ∀ e ∈ history, e ∈ history')
    (hholds : ∀ record, Holds history' flight record → Holds history flight record) :
    Held db' history' flight intent result where
  row := by
    obtain ⟨row, hr, hid, hinput, hterminal⟩ := h.row
    obtain ⟨row', hr', hsame, hrecord⟩ := hext row hr
    refine ⟨row', hr', by rw [hsame.input, hid], hsame.input.trans hinput, fun ht => ?_⟩
    have heq := hterminal ht
    rw [hrecord (heq ▸ ht), heq]
  own hown := by
    obtain ⟨bytes, record, hc, hid⟩ := h.own hown
    exact ⟨bytes, record, hsub _ hc, hid⟩
  same record hr := h.same record (hholds record hr)

/-- A flight that does nothing keeps what is known of it. -/
theorem PhaseOk.frame (h : PhaseOk db history flight fl) (hext : Extends db db')
    (hsub : ∀ e ∈ history, e ∈ history')
    (hholds : ∀ record, Holds history' flight record → Holds history flight record)
    (habsent : fl.phase.started = true →
      db.intents.table.get? (toLowerCase fl.payment.paymentIntentId) = none →
        db'.intents.table.get? (toLowerCase fl.payment.paymentIntentId) = none) :
    PhaseOk db' history' flight fl where
  fresh hp record hr := h.fresh hp record (hholds record hr)
  absent hs := ⟨(h.absent hs).1, habsent hs (h.absent hs).2⟩
  held result hr := (h.held result hr).frame hext hsub hholds
  ok result hr := ⟨(h.ok result hr).1.frame hext hsub hholds, (h.ok result hr).2⟩
  error error he := hsub _ (h.error error he)

theorem AnswerOk.frame {call : Nat} (h : AnswerOk db history call intent result)
    (hext : Extends db db') (hsub : ∀ e ∈ history, e ∈ history') :
    AnswerOk db' history' call intent result where
  row := by
    obtain ⟨row, hr, hid, heq⟩ := h.row
    obtain ⟨row', hr', hsame, hrecord⟩ := hext row hr
    exact ⟨row', hr', by rw [hsame.input, hid], by rw [hrecord (heq ▸ h.terminal), heq]⟩
  terminal := h.terminal
  own hown := by
    obtain ⟨bytes, record, hc, hid⟩ := h.own hown
    exact ⟨bytes, record, hsub _ hc, hid⟩

/-! ## The chain of preparations -/

/-- The chain holds the flights that wait for their claim, and only its head has begun. -/
structure QueueOk (queue : List Nat) (flights : Nat → Option Flight) : Prop where
  nodup : queue.Nodup
  mem : ∀ flight, flight ∈ queue ↔ ∃ fl, flights flight = some fl ∧ fl.phase.waiting = true
  head : ∀ flight fl, flights flight = some fl → fl.phase.started = true →
    queue.head? = some flight

/-- Only one flight is between the look-up and the claim. -/
theorem QueueOk.started_unique {queue : List Nat} {flights : Nat → Option Flight}
    (h : QueueOk queue flights) {f g : Nat} {fl gl : Flight} (hf : flights f = some fl)
    (hg : flights g = some gl) (hfs : fl.phase.started = true) (hgs : gl.phase.started = true) :
    f = g :=
  Option.some.inj ((h.head f fl hf hfs).symm.trans (h.head g gl hg hgs))

/-! ## The invariant -/

/-- The calls that were answered. -/
def answeredCalls (history : List Event) : List Nat :=
  history.filterMap fun
    | .answered call _ _ _ => some call
    | _ => none

theorem mem_answeredCalls {call : Nat} :
    call ∈ answeredCalls history ↔
      ∃ flight intent result, .answered call flight intent result ∈ history := by
  unfold answeredCalls
  rw [List.mem_filterMap]
  constructor
  · rintro ⟨e, he, hc⟩
    cases e with
    | answered c f i r =>
      cases hc
      exact ⟨f, i, r, he⟩
    | _ => cases hc
  · rintro ⟨f, i, r, he⟩
    exact ⟨_, he, rfl⟩

structure RecoveryInvariant (codec : Codec) (w : World) : Prop where
  journal : JournalInvariant w.db
  events : Justified (EventOk codec) w.history
  claim_row : ∀ flight bytes record, .claimed flight bytes record ∈ w.history →
    ∃ row ∈ w.db.intents.table, row.toSettlementInput = record.toSettlementInput
  row_claim : ∀ row ∈ w.db.intents.table, ∃ flight bytes record,
    .claimed flight bytes record ∈ w.history ∧
      record.toSettlementInput = row.toSettlementInput
  holds_lt : ∀ flight record, Holds w.history flight record → flight < w.next
  flight_lt : ∀ flight fl, w.flights flight = some fl → flight < w.next
  phase : ∀ flight fl, w.flights flight = some fl → PhaseOk w.db w.history flight fl
  queue : QueueOk w.queue w.flights
  call : ∀ call waiting, w.calls call = some waiting → call < w.next ∧
    ∃ fl, w.flights waiting.flight = some fl ∧
      waiting.intent = toLowerCase fl.payment.paymentIntentId
  inflight : ∀ id flight, w.inflight id = some flight →
    ∃ fl, w.flights flight = some fl ∧ fl.payment.paymentIntentId = id
  answers : ∀ call flight intent result, .answered call flight intent (.ok result) ∈ w.history →
    AnswerOk w.db w.history call intent result
  answered_once : (answeredCalls w.history).Nodup
  answered : ∀ call ∈ answeredCalls w.history, call < w.next ∧ w.calls call = none

namespace RecoveryInvariant

theorem boot (config : Config) : RecoveryInvariant codec (World.boot JournalDb.empty config 0 []) where
  journal := JournalInvariant.empty
  events := trivial
  claim_row _ _ _ h := nomatch h
  row_claim _ hr := absurd hr Table.not_mem_empty
  holds_lt _ _ h := by
    rcases h with h | ⟨_, h⟩
    · cases h
    · cases h
  flight_lt _ _ h := nomatch h
  phase _ _ h := nomatch h
  queue :=
    { nodup := List.nodup_nil
      mem := fun _ => iff_of_false List.not_mem_nil (fun ⟨_, h, _⟩ => nomatch h)
      head := fun _ _ h => nomatch h }
  call _ _ h := nomatch h
  inflight _ _ h := nomatch h
  answers _ _ _ _ h := nomatch h
  answered_once := List.nodup_nil
  answered _ h := nomatch h

/-- A row of an intent is the one that was claimed for it. -/
theorem claimed_of_row (hinv : RecoveryInvariant codec w) {row : IntentRow}
    (hr : row ∈ w.db.intents.table) : ∃ bytes record,
      Claimed w.history row.paymentIntentId bytes record ∧
        record.toSettlementInput = row.toSettlementInput := by
  obtain ⟨f, bytes, record, hc, hinput⟩ := hinv.row_claim row hr
  exact ⟨bytes, record, ⟨f, hc, by rw [hinput]⟩, hinput⟩

/-- An intent without a row was never claimed. -/
theorem not_claimed_of_absent (hinv : RecoveryInvariant codec w)
    (habsent : w.db.intents.table.get? intent = none) {bytes : String}
    {record : SettlementRecord} : ¬ Claimed w.history intent bytes record := by
  rintro ⟨f, hc, hid⟩
  obtain ⟨row, hr, hinput⟩ := hinv.claim_row f bytes record hc
  refine Table.get?_eq_none.mp habsent row hr ?_
  rw [hinput, hid]

/-- A claim of the flight's intent is the one the flight holds. -/
theorem pendingError_eq (hinv : RecoveryInvariant codec w)
    (hheld : Held w.db w.history flight intent result) {bytes : String}
    {record : SettlementRecord} (hc : Claimed w.history intent bytes record) :
    pendingError result.record = pendingError record := by
  obtain ⟨f, hc, hid⟩ := hc
  obtain ⟨row, hr, hinput⟩ := hinv.claim_row f bytes record hc
  obtain ⟨row', hr', hid', hinput', -⟩ := hheld.row
  have hrow : row = row' := Table.eq_of_key hr hr' (by
    show row.paymentIntentId = row'.paymentIntentId
    rw [hid', hinput, hid])
  have htx : result.record.txHash = record.txHash := by
    rw [← hinput', ← hrow, hinput]
  unfold pendingError
  rw [htx]

end RecoveryInvariant

end Mapae.Facilitator
