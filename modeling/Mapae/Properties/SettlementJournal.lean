import Mapae.Store.JournalRun

/-!
# The journal is exactly-once

What a store that some run led to answers now, and what it still answers after any further
run.

* a row stays, with the claim it was written for
* a row with a verdict stays as it is, verdict included
* the first finish of an intent writes its verdict, as one ledger event, and each event that is not
  a refusal is the verdict of one intent
* no two rows share a nonce of one signer on one chain

Everything about "later" is read off `Extends`.
-/

namespace Mapae.Store

open Mapae.Infra SettlementJournal

variable {db db' : JournalDb} {row row' : IntentRow} {record : SettlementRecord} {id : String}

namespace JournalInvariant

/-- An extension still reads every intent. -/
theorem read_extends (hread : db.read id = .ok (some record)) (h : Extends db db') :
    ∃ record', db'.read id = .ok (some record') ∧
      record'.toSettlementInput = record.toSettlementInput ∧
      record'.budgetDay = record.budgetDay ∧ record'.reservedWei = record.reservedWei ∧
      (record.terminal.isSome = true → record' = record) := by
  obtain ⟨hid, row, hget, hr, rfl⟩ := row_of_read hread
  obtain ⟨row', hr', hsame, hrecord⟩ := h row hr
  have hkey : row'.paymentIntentId = toLowerCase id := by
    rw [hsame.input]
    exact (Table.get?_eq_some.mp hget).2
  have hget' := hkey ▸ Table.get?_of_mem hr'
  exact ⟨db'.record row', read_eq_ok.mpr ⟨hid, by rw [hget', Option.map_some]⟩, hsame.input,
    hsame.budgetDay, hsame.reservedWei, hrecord⟩

/-! ## Verdicts and events -/

/-- Only one event is the verdict on a transaction. -/
theorem event_unique (hinv : JournalInvariant db) (hr : row ∈ db.intents.table)
    {e : SettlementEvent} (he : e ∈ db.events) (ho : e.outcome ≠ .rejected)
    (htx : e.txHash = some row.txHash) : row.terminalEventId = some e.id := by
  obtain ⟨row', hr', hid⟩ := hinv.intent e he ho
  obtain ⟨e', he', hid', hv⟩ := hinv.verdict row' hr' e.id hid
  obtain rfl := Table.eq_of_key he' he hid'
  have hhash : row'.txHash = row.txHash := Option.some.inj (hv.txHash.symm.trans htx)
  obtain rfl := db.intents.txHash_unique row' hr' row hr hhash
  exact hid

theorem terminal_of_eventId (hinv : JournalInvariant db) (hr : row ∈ db.intents.table)
    {eventId : Nat} (hid : row.terminalEventId = some eventId) :
    ∃ e ∈ db.events, e.id = eventId ∧ IsVerdict row e ∧ (db.record row).terminal = some e := by
  obtain ⟨e, he, rfl, hv⟩ := hinv.verdict row hr eventId hid
  refine ⟨e, he, rfl, hv, ?_⟩
  unfold JournalDb.record
  rw [hid]
  exact Table.get?_of_mem he

/-- A record shows `e` exactly when `e` is the verdict on its transaction. -/
theorem terminal_eq_some_iff (hinv : JournalInvariant db) (hr : row ∈ db.intents.table)
    {e : SettlementEvent} :
    (db.record row).terminal = some e ↔
      e ∈ db.events ∧ e.outcome ≠ .rejected ∧ e.txHash = some row.txHash := by
  constructor
  · intro hterminal
    have hsome := hinv.terminal_isSome hr
    rw [hterminal, Option.isSome_some] at hsome
    obtain ⟨eventId, hid⟩ := Option.isSome_iff_exists.mp hsome.symm
    obtain ⟨e', he', -, hv, hterminal'⟩ := hinv.terminal_of_eventId hr hid
    obtain rfl := Option.some.inj (hterminal.symm.trans hterminal')
    exact ⟨he', hv.not_rejected, hv.txHash⟩
  · rintro ⟨he, ho, htx⟩
    obtain ⟨e', he', hid', -, hterminal⟩ :=
      hinv.terminal_of_eventId hr (hinv.event_unique hr he ho htx)
    rw [hterminal, Table.eq_of_key he' he hid']

/-- The record of a row is read under its own id. -/
theorem read_row (hinv : JournalInvariant db) (hr : row ∈ db.intents.table) :
    db.read (db.record row).paymentIntentId = .ok (some (db.record row)) := by
  have hwf := hinv.row row hr
  refine read_eq_ok.mpr ⟨hwf.id_hex, ?_⟩
  show _ = (db.intents.table.get? (toLowerCase row.paymentIntentId)).map db.record
  rw [hwf.id_lower, Table.get?_of_mem hr]
  rfl

end JournalInvariant

/-! ## The two steps of an intent -/

namespace JournalInvariant

theorem read_claimed {input : SettlementInput} {limits : SettlementLimits}
    (hinv : JournalInvariant db) (hread : db.read input.paymentIntentId = .ok none)
    (h : (claim input limits).run db = .ok record db') :
    record.terminal = none ∧ db'.read input.paymentIntentId = .ok (some record) ∧
      db'.events = db.events := by
  obtain ⟨hid, hnone⟩ := read_eq_ok.mp hread
  rcases (claim_eq_ok h).2 with ⟨-, row, hget, -⟩ | ⟨row, hadmitted, rfl⟩
  · rw [hget] at hnone
    cases hnone
  have hr : row ∈ db'.intents.table :=
    (Table.mem_insert? (IntentTable.insert_eq_ok hadmitted.inserted)).mpr (Or.inr rfl)
  have hkey : row.paymentIntentId = toLowerCase input.paymentIntentId := by
    rw [hadmitted.row_eq]
    rfl
  have hopen : row.terminalEventId = none := by
    rw [hadmitted.row_eq]
    rfl
  refine ⟨((hinv.admitted hadmitted).terminal_eq_none hr).mpr hopen, ?_, hadmitted.events⟩
  exact read_eq_ok.mpr ⟨hid, by rw [← hkey, Table.get?_of_mem hr, Option.map_some]⟩

theorem read_finished {result : SettlementOutcomeInput} {record' : SettlementRecord}
    (hinv : JournalInvariant db) (hread : db.read id = .ok (some record))
    (hopen : record.terminal = none) (h : (finish id result).run db = .ok record' db') :
    db'.read id = .ok (some record') ∧ record'.toSettlementInput = record.toSettlementInput ∧
      ∃ e, record'.terminal = some e ∧ e.outcome ≠ .rejected ∧
        db'.events.rows = db.events.rows ++ [e] := by
  obtain ⟨-, row, hget, hr, rfl⟩ := row_of_read hread
  obtain ⟨hid, row', hget', h⟩ := finish_eq_ok.mp h
  obtain rfl := Option.some.inj (hget.symm.trans hget')
  rcases h with ⟨hterminal, -⟩ | ⟨-, -, hfinished, rfl⟩
  · rw [hopen] at hterminal
    cases hterminal
  have hinv' := hinv.finished hfinished hr ((hinv.terminal_eq_none hr).mp hopen)
  have hr' := (mem_finished hfinished hr).mpr (Or.inl rfl)
  obtain ⟨e, he, heid, hv, hterminal⟩ := hinv'.terminal_of_eventId hr' rfl
  -- The verdict is the one event that was written.
  have hmem : nextEvent db row result ∈ db'.events :=
    (Table.mem_insert? hfinished.recorded).mpr (Or.inr rfl)
  obtain rfl := Table.eq_of_key he hmem heid
  refine ⟨read_eq_ok.mpr ⟨hid, ?_⟩, rfl, _, hterminal, hv.not_rejected,
    (Table.insert?_eq_some.mp hfinished.recorded).2⟩
  rw [← (Table.get?_eq_some.mp hget).2]
  exact congrArg (Option.map db'.record) (Table.get?_of_mem hr').symm

end JournalInvariant

/-! ## The result -/

/-- What holds of the journal `db`, and of every store `db'` a further run leads to. -/
structure ExactlyOnce (db db' : JournalDb) : Prop where
  /-- A repeated claim answers the row that is there, and reserves nothing. -/
  claim_again : ∀ input limits record, db.read input.paymentIntentId = .ok (some record) →
    (claim input limits).run db = .ok record db
  /-- The row stays, with all that was claimed. -/
  claim_stays : ∀ id record, db.read id = .ok (some record) →
    ∃ record', db'.read id = .ok (some record') ∧
      record'.toSettlementInput = record.toSettlementInput ∧
      record'.budgetDay = record.budgetDay ∧ record'.reservedWei = record.reservedWei
  /-- A new claim opens its intent, and writes no event. -/
  claim_opens : ∀ input limits record db₁, db.read input.paymentIntentId = .ok none →
    (claim input limits).run db = .ok record db₁ →
      record.terminal = none ∧ db₁.read input.paymentIntentId = .ok (some record) ∧
        db₁.events = db.events
  /-- The first finish gives the intent its verdict, and writes that one event. -/
  finish_open : ∀ id result record record' db₁, db.read id = .ok (some record) →
    record.terminal = none → (finish id result).run db = .ok record' db₁ →
      db₁.read id = .ok (some record') ∧
        record'.toSettlementInput = record.toSettlementInput ∧
        ∃ e, record'.terminal = some e ∧ e.outcome ≠ .rejected ∧
          db₁.events.rows = db.events.rows ++ [e]
  /-- A second finish answers the first one's row and changes nothing. -/
  finish_again : ∀ id record result, db.read id = .ok (some record) →
    record.terminal.isSome = true → (finish id result).run db = .ok record db
  /-- A terminal row stays as it is, and its event stays in the ledger. -/
  terminal_stays : ∀ id record e, db.read id = .ok (some record) → record.terminal = some e →
    db'.read id = .ok (some record) ∧ e ∈ db'.events
  /-- A terminal intent has one event that is not a refusal: the one it shows. -/
  event_of_terminal : ∀ id record e, db.read id = .ok (some record) →
    (record.terminal = some e ↔
      e ∈ db.events ∧ e.outcome ≠ .rejected ∧ e.txHash = some record.txHash)
  /-- And each such event is the verdict of one intent. -/
  intent_of_event : ∀ e ∈ db.events, e.outcome ≠ .rejected →
    ∃! record, db.read record.paymentIntentId = .ok (some record) ∧ record.terminal = some e
  /-- An operation that throws leaves all three tables as they were. -/
  throw_unchanged : (∀ input limits error db₁,
      (claim input limits).run db = .error error db₁ → db₁ = db) ∧
    (∀ id result error db₁, (finish id result).run db = .error error db₁ → db₁ = db) ∧
    ∀ before keep error db₁, (prune before keep).run db = .error error db₁ → db₁ = db
  nonce_unique : ∀ id id' record record', db.read id = .ok (some record) →
    db.read id' = .ok (some record') → record.signer = record'.signer →
    record.chainId = record'.chainId → record.nonce = record'.nonce → record = record'
  /-- The next nonce is above every nonce that was claimed. -/
  nextNonce_gt : ∀ signer chainId pending nonce, db.nextNonce signer chainId pending = .ok nonce →
    pending ≤ nonce ∧ ∀ id record, db.read id = .ok (some record) →
      record.signer = toLowerCase signer → record.chainId = chainId → record.nonce < nonce

theorem lt_of_nextNonce {signer : String} {chainId pending nonce : Int}
    (h : db.nextNonce signer chainId pending = .ok nonce) :
    pending ≤ nonce ∧ ∀ r ∈ db.intents.table, r.signer = toLowerCase signer →
      r.chainId = chainId → r.nonce < nonce := by
  simp only [JournalDb.nextNonce, bind_eq_ok, hex_eq_ok, uint_eq_ok, and_assoc, exists_and_left,
    exists_eq_left] at h
  obtain ⟨-, -, -, -, -, -, -, hnonce⟩ := h
  refine ⟨by rw [hnonce]; exact Int.le_max_left .., fun r hr hsigner hchain => ?_⟩
  have hmem : r.nonce ∈ db.nonces (toLowerCase signer) chainId := by
    unfold JournalDb.nonces
    exact List.mem_map_of_mem (List.mem_filter.mpr ⟨hr, by simp [hsigner, hchain]⟩)
  cases hmax : (db.nonces (toLowerCase signer) chainId).max? with
  | none =>
    rw [List.max?_eq_none_iff] at hmax
    rw [hmax] at hmem
    cases hmem
  | some m =>
    have hle : r.nonce ≤ m := (List.max?_eq_some_iff.mp hmax).2 _ hmem
    rw [hmax] at hnonce
    have : m + 1 ≤ nonce := by
      rw [hnonce]
      exact Int.le_max_right ..
    omega

/-- **The journal settles each intent exactly once and never changes a verdict.** -/
theorem journal_exactly_once (ops later : List JournalOp) :
    ExactlyOnce (run JournalOp.exec JournalDb.empty ops)
      (run JournalOp.exec JournalDb.empty (ops ++ later)) := by
  have hinv := run_invariant_journal ops
  rw [run_append]
  generalize run JournalOp.exec JournalDb.empty ops = db at hinv
  have hextends := hinv.extends_run later
  refine
    { claim_again := ?claim_again
      claim_stays := ?claim_stays
      claim_opens := fun _ _ _ _ => hinv.read_claimed
      finish_open := fun _ _ _ _ _ => hinv.read_finished
      finish_again := ?finish_again
      terminal_stays := ?terminal_stays
      event_of_terminal := ?event_of_terminal
      intent_of_event := ?intent_of_event
      throw_unchanged := ⟨fun _ _ _ _ => run_transaction_eq_error,
        fun _ _ _ _ => run_transaction_eq_error, fun _ _ _ _ => run_transaction_eq_error⟩
      nonce_unique := ?nonce_unique
      nextNonce_gt := ?nextNonce_gt }
  case claim_again =>
    intro input limits record hread
    obtain ⟨hid, row, hget, -, rfl⟩ := JournalInvariant.row_of_read hread
    exact claim_of_get? hid hget
  case claim_stays =>
    intro id record hread
    obtain ⟨record', hread', hinput, hday, hreserved, -⟩ :=
      JournalInvariant.read_extends hread hextends
    exact ⟨record', hread', hinput, hday, hreserved⟩
  case finish_again =>
    intro id record result hread hterminal
    obtain ⟨hid, row, hget, -, rfl⟩ := JournalInvariant.row_of_read hread
    exact finish_eq_ok.mpr ⟨hid, row, hget, Or.inl ⟨hterminal, rfl, rfl⟩⟩
  case terminal_stays =>
    intro id record e hread hterminal
    obtain ⟨record', hread', -, -, -, heq⟩ := JournalInvariant.read_extends hread hextends
    obtain rfl := heq (by rw [hterminal]; rfl)
    refine ⟨hread', ?_⟩
    -- The later store reads the verdict, so the event is in its ledger.
    obtain ⟨-, row, -, -, rfl⟩ := JournalInvariant.row_of_read hread'
    obtain ⟨eventId, -, hevent⟩ := Option.bind_eq_some_iff.mp hterminal
    exact Table.mem_of_get? hevent
  case event_of_terminal =>
    intro id record e hread
    obtain ⟨-, row, -, hr, rfl⟩ := JournalInvariant.row_of_read hread
    exact hinv.terminal_eq_some_iff hr
  case intent_of_event =>
    intro e he ho
    obtain ⟨row, hr, hid⟩ := hinv.intent e he ho
    obtain ⟨e', he', hid', hv, hterminal⟩ := hinv.terminal_of_eventId hr hid
    obtain rfl := Table.eq_of_key he' he hid'
    refine ⟨db.record row, ⟨hinv.read_row hr, hterminal⟩, ?_⟩
    rintro record' ⟨hread', hterminal'⟩
    obtain ⟨-, row', -, hr', rfl⟩ := JournalInvariant.row_of_read hread'
    have htx := ((hinv.terminal_eq_some_iff hr').mp hterminal').2.2
    have hhash : row'.txHash = row.txHash := Option.some.inj (htx.symm.trans hv.txHash)
    rw [db.intents.txHash_unique row' hr' row hr hhash]
  case nonce_unique =>
    intro id id' record record' hread hread' hsigner hchain hnonce
    obtain ⟨-, row, -, hr, rfl⟩ := JournalInvariant.row_of_read hread
    obtain ⟨-, row', -, hr', rfl⟩ := JournalInvariant.row_of_read hread'
    have hslot : row.slot = row'.slot := by
      unfold IntentRow.slot
      exact Prod.ext hchain (Prod.ext hsigner hnonce)
    rw [db.intents.slot_unique row hr row' hr' hslot]
  case nextNonce_gt =>
    intro signer chainId pending nonce h
    refine ⟨(lt_of_nextNonce h).1, fun id record hread hsigner hchain => ?_⟩
    obtain ⟨-, row, -, hr, rfl⟩ := JournalInvariant.row_of_read hread
    exact (lt_of_nextNonce h).2 row hr hsigner hchain

end Mapae.Store
