import Mapae.Infra.Transition
import Mapae.Store.Settlement

/-!
# Runs of the settlement journal

The operations the facilitator performs on the journal's tables, one after the other, in any
order and number. An operation may be refused, it may be interrupted by a failing disk, and
the file may be closed and opened again in between.

* `Write` is everything that one operation can do to the tables (`exec_write`)
* `JournalInvariant` is what holds after every operation (`exec_preserves_invariant`)
* `Extends` relates a store to a later one: every row is still there, with the claim it was written for,
  and with its verdict if it had one. A run extends the journal it starts from (`extends_run`)
-/

namespace Mapae.Store

open Mapae.Infra

/-- One operation on the journal's tables. -/
inductive JournalOp where
  | claim (input : SettlementInput) (limits : SettlementLimits)
  | finish (id : String) (result : SettlementOutcomeInput)
  | prune (rejectedBefore keepRejected : Int)
  | recordRejection (event : SettlementEventInput)
  /-- The disk fails before the operation is committed. -/
  | interrupted (op : JournalOp)
  /-- The file is closed and opened again. -/
  | reopen

namespace JournalOp

open SettlementJournal

/-- The statements of an operation. -/
def perform : JournalOp → Statement Unit
  | .claim input limits => do let _ ← SettlementJournal.claim input limits
  | .finish id result => do let _ ← SettlementJournal.finish id result
  | .prune before keep => do let _ ← SettlementJournal.prune before keep
  | .recordRejection event => do let _ ← SettlementJournal.recordRejection event
  | .interrupted op => transaction do
    op.perform
    throw .storage
  | .reopen => pure ()

/-- The tables after an operation, however it ended. -/
def exec (db : JournalDb) (op : JournalOp) : JournalDb := after op.perform db

/-- All that one operation can write. -/
inductive Write (db : JournalDb) : JournalOp → JournalDb → Prop
  /-- It was refused, or there was nothing to do. -/
  | nothing {op : JournalOp} : Write db op db
  | admitted {input : SettlementInput} {limits : SettlementLimits} {row : IntentRow}
      {db' : JournalDb} (h : Admitted db input limits row db') :
      Write db (.claim input limits) db'
  | finished {id : String} {result : SettlementOutcomeInput} {row : IntentRow}
      {db' : JournalDb} (hget : db.intents.table.get? (toLowerCase id) = some row)
      (hterminal : (db.record row).terminal.isSome = false)
      (hcharge : Chargeable db row result.actualCost) (h : Finished db row result db') :
      Write db (.finish id result) db'
  | pruned {before keep : Int} {changes : Nat} {events : EventTable}
      (h : Ledger.prune db.events before keep = .ok (changes, events)) :
      Write db (.prune before keep) { db with events := events }
  | rejected {event : SettlementEventInput} {row : SettlementEvent} {events : EventTable}
      (h : Ledger.record db.events { event with outcome := .rejected } = .ok (row, events)) :
      Write db (.recordRejection event) { db with events := events }

/-- Dropping the answer of a statement keeps what it wrote. -/
theorem after_discard {α : Type} (x : Statement α) (db : JournalDb) :
    after (do let _ ← x; pure ()) db = after x db := by
  unfold after
  rw [EStateM.run_bind]
  cases x.run db with
  | ok a t => rfl
  | error e t => rfl

/-- **An operation writes one of these things, or nothing.** -/
theorem exec_write (db : JournalDb) (op : JournalOp) : Write db op (exec db op) := by
  have refused : ∀ {α : Type} (x : Statement α),
      (∀ a db', (transaction x).run db = .ok a db' → Write db op db') →
        Write db op (after (transaction x) db) := by
    intro α x hok
    rcases after_transaction_eq x db with ⟨h, -⟩ | ⟨a, h⟩
    · rw [h]
      exact .nothing
    · exact hok a _ h
  cases op with
  | claim input limits =>
    unfold exec perform
    rw [after_discard]
    refine refused _ fun record db' h => ?_
    rcases (claim_eq_ok h).2 with ⟨rfl, -⟩ | ⟨row, hrow, -⟩
    · exact .nothing
    · exact .admitted hrow
  | finish id result =>
    unfold exec perform
    rw [after_discard]
    refine refused _ fun record db' h => ?_
    obtain ⟨-, row, hget, h⟩ := finish_eq_ok.mp h
    rcases h with ⟨-, rfl, -⟩ | ⟨hterminal, hcharge, hfinished, -⟩
    · exact .nothing
    · exact .finished hget hterminal hcharge hfinished
  | prune before keep =>
    unfold exec perform
    rw [after_discard]
    refine refused _ fun changes db' h => ?_
    simp only [run_transaction_eq_ok, run_bind_eq_ok, run_get_eq_ok, run_lift_eq_ok,
      run_set_eq_ok, run_pure_eq_ok, and_assoc, exists_and_left, exists_eq_left, Prod.exists] at h
    obtain ⟨n, events, hprune, -, _, rfl⟩ := h
    exact .pruned hprune
  | recordRejection event =>
    unfold exec perform
    rw [after_discard]
    refine refused _ fun row db' h => ?_
    simp only [run_transaction_eq_ok, run_bind_eq_ok, run_get_eq_ok, run_lift_eq_ok,
      run_set_eq_ok, run_pure_eq_ok, and_assoc, exists_and_left, exists_eq_left, Prod.exists] at h
    obtain ⟨n, events, hrecord, -, _, rfl⟩ := h
    exact .rejected hrecord
  | interrupted op =>
    unfold exec perform
    refine refused _ fun _ db' h => ?_
    simp only [run_transaction_eq_ok, run_bind_eq_ok, run_throw_ne_ok, and_false,
      exists_false] at h
  | reopen => exact .nothing

end JournalOp

/-! ## The invariant -/

/-- `e` is the ledger's verdict on `r`. -/
structure IsVerdict (r : IntentRow) (e : SettlementEvent) : Prop where
  not_rejected : e.outcome ≠ .rejected
  kind : e.kind = "settle"
  txHash : e.txHash = some r.txHash
  payer : e.payer = r.payer
  payTo : e.payTo = r.payTo
  amountBase : e.amountBase = r.amountBase

/-- What every row of `settlement_intents` satisfies on its own. -/
structure WellFormedRow (r : IntentRow) : Prop where
  id_hex : isHexOf 32 r.paymentIntentId = true
  id_lower : toLowerCase r.paymentIntentId = r.paymentIntentId
  txHash_lower : toLowerCase r.txHash = r.txHash
  nonce_safe : isSafeInteger r.nonce = true ∧ 0 ≤ r.nonce
  amountBase_nonneg : 0 ≤ r.amountBase
  reserved_nonneg : 0 ≤ r.reservedWei
  day : utcDay r.createdAt = .ok r.budgetDay
  cost_nonneg : ∀ cost, r.actualCost = some cost → 0 ≤ cost
  cost_iff : r.actualCost.isSome = r.terminalEventId.isSome

/-- What the intent weighs in the budget of its day. -/
def IntentRow.charge (r : IntentRow) : Int := r.actualCost.getD r.reservedWei

/-- What the intents of a day weigh together, of those that satisfy `p`. -/
def IntentTable.charged (t : IntentTable) (day : String) (p : IntentRow → Bool) : Int :=
  t.table.sum (fun r => if r.budgetDay = day ∧ p r then r.charge else 0)

structure JournalInvariant (db : JournalDb) : Prop where
  row : ∀ r ∈ db.intents.table, WellFormedRow r
  verdict : ∀ r ∈ db.intents.table, ∀ id, r.terminalEventId = some id →
    ∃ e ∈ db.events, e.id = id ∧ IsVerdict r e
  intent : ∀ e ∈ db.events, e.outcome ≠ .rejected →
    ∃ r ∈ db.intents.table, r.terminalEventId = some e.id
  total : ∀ day, db.load totalScope day = db.intents.charged day (fun _ => true)
  payer : ∀ payer day,
    db.load (payerScope payer) day = db.intents.charged day (fun r => r.payer = payer)
  shares : ∀ day, db.load totalScope day = Budget.shares db.budget day
  scopes : Budget.Scoped db.budget

namespace JournalInvariant

open SettlementJournal JournalOp

variable {db db' : JournalDb} {input : SettlementInput} {limits : SettlementLimits}
  {result : SettlementOutcomeInput} {row : IntentRow}

theorem empty : JournalInvariant JournalDb.empty where
  row _ hr := absurd hr Table.not_mem_empty
  verdict _ hr := absurd hr Table.not_mem_empty
  intent _ he := absurd he Table.not_mem_empty
  total _ := rfl
  payer _ _ := rfl
  shares _ := rfl
  scopes _ hb := absurd hb Table.not_mem_empty

/-- A verdict that was given can be read back. -/
theorem terminal_isSome (h : JournalInvariant db) (hr : row ∈ db.intents.table) :
    (db.record row).terminal.isSome = row.terminalEventId.isSome := by
  unfold JournalDb.record
  cases ht : row.terminalEventId with
  | none => simp
  | some id =>
    obtain ⟨e, he, hid, -⟩ := h.verdict row hr id ht
    have hget : db.events.get? id = some e := hid ▸ Table.get?_of_mem he
    simp [hget]

theorem terminal_eq_none (h : JournalInvariant db) (hr : row ∈ db.intents.table) :
    (db.record row).terminal = none ↔ row.terminalEventId = none := by
  rw [← Option.isNone_iff_eq_none, ← Option.isNone_iff_eq_none, ← Option.not_isSome,
    ← Option.not_isSome, h.terminal_isSome hr]

/-- A record that was read is the record of a row. -/
theorem row_of_read {id : String} {record : SettlementRecord}
    (hread : db.read id = .ok (some record)) :
    isHexOf 32 id = true ∧ ∃ row, db.intents.table.get? (toLowerCase id) = some row ∧
      row ∈ db.intents.table ∧ record = db.record row := by
  obtain ⟨hid, hread⟩ := read_eq_ok.mp hread
  obtain ⟨row, hget, rfl⟩ := Option.map_eq_some_iff.mp hread.symm
  exact ⟨hid, row, hget, (Table.get?_eq_some.mp hget).1, rfl⟩

/-! ### Claims -/

theorem wellFormed_newRow (h : Admitted db input limits row db') : WellFormedRow row := by
  rw [h.row_eq]
  exact
    { id_hex := isHexOf_toLowerCase h.id_hex
      id_lower := toLowerCase_toLowerCase _
      txHash_lower := toLowerCase_toLowerCase _
      nonce_safe := h.nonce_safe
      amountBase_nonneg := h.amountBase_nonneg
      reserved_nonneg := by
        have := h.reserved_nonneg
        rw [h.row_eq] at this
        exact this
      day := by simpa [newRow] using h.day
      cost_nonneg := by simp [newRow]
      cost_iff := rfl }

theorem charged_admitted (h : Admitted db input limits row db') (day : String)
    (p : IntentRow → Bool) :
    db'.intents.charged day p =
      db.intents.charged day p + if row.budgetDay = day ∧ p row then row.reservedWei else 0 := by
  have hcharge : row.charge = row.reservedWei := by
    rw [h.row_eq]
    rfl
  unfold IntentTable.charged
  rw [Table.sum_insert? (IntentTable.insert_eq_ok h.inserted), hcharge]

theorem admitted (hinv : JournalInvariant db) (h : Admitted db input limits row db') :
    JournalInvariant db' := by
  have hmem : ∀ r, r ∈ db'.intents.table ↔ r ∈ db.intents.table ∨ r = row :=
    fun r => Table.mem_insert? (IntentTable.insert_eq_ok h.inserted)
  have hnone : row.terminalEventId = none := by
    rw [h.row_eq]
    rfl
  exact
    { row := by
        intro r hr
        rcases (hmem r).mp hr with hr | rfl
        · exact hinv.row r hr
        · exact wellFormed_newRow h
      verdict := by
        intro r hr id hid
        rw [h.events]
        rcases (hmem r).mp hr with hr | rfl
        · exact hinv.verdict r hr id hid
        · rw [hnone] at hid
          cases hid
      intent := by
        intro e he ho
        rw [h.events] at he
        obtain ⟨r, hr, ht⟩ := hinv.intent e he ho
        exact ⟨r, (hmem r).mpr (Or.inl hr), ht⟩
      total := by
        intro day
        rw [charged_admitted h, ← hinv.total, JournalDb.load, h.budget, Budget.load_book_total]
        simp [JournalDb.load]
      payer := by
        intro payer day
        rw [charged_admitted h, ← hinv.payer, JournalDb.load, h.budget, Budget.load_book_payer]
        simp [JournalDb.load, and_comm]
      shares := by
        intro day
        rw [JournalDb.load, h.budget, Budget.load_book_total, Budget.shares_book]
        exact congrArg (· + _) (hinv.shares day)
      scopes := by
        rw [h.budget]
        exact hinv.scopes.book }

/-! ### Verdicts -/

theorem isVerdict_nextEvent (db : JournalDb) (row : IntentRow) (result : SettlementOutcomeInput) :
    IsVerdict row (nextEvent db row result) where
  not_rejected := eventOf_not_rejected row result
  kind := rfl
  txHash := rfl
  payer := rfl
  payTo := rfl
  amountBase := rfl

/-- The rows after a verdict: the one it is about, and the others as they were. -/
theorem mem_finished (h : Finished db row result db') (hget : row ∈ db.intents.table)
    {r : IntentRow} :
    r ∈ db'.intents.table ↔
      r = row.withVerdict db.events.nextId result.actualCost ∨
        (r ∈ db.intents.table ∧ r.paymentIntentId ≠ row.paymentIntentId) := by
  rw [h.intents, IntentTable.setTerminal, Table.mem_update]
  constructor
  · rintro ⟨r, hr, rfl⟩
    by_cases hk : r.paymentIntentId = row.paymentIntentId
    · rw [if_pos hk, Table.eq_of_key hr hget hk]
      exact Or.inl rfl
    · rw [if_neg hk]
      exact Or.inr ⟨hr, hk⟩
  · rintro (rfl | ⟨hr, hk⟩)
    · exact ⟨row, hget, (if_pos rfl).symm⟩
    · exact ⟨r, hr, (if_neg hk).symm⟩

theorem charged_finished (h : Finished db row result db') (hget : row ∈ db.intents.table)
    (hcharge : row.charge = row.reservedWei) (day : String) {p : IntentRow → Bool}
    (hp : p (row.withVerdict db.events.nextId result.actualCost) = p row) :
    db'.intents.charged day p = db.intents.charged day p +
      if row.budgetDay = day ∧ p row then result.actualCost - row.reservedWei else 0 := by
  have hsum := IntentTable.sum_setTerminal db.events.nextId result.actualCost hget
    (fun r => if r.budgetDay = day ∧ p r then r.charge else 0)
  have hnew : (row.withVerdict db.events.nextId result.actualCost).charge = result.actualCost := rfl
  have hday : (row.withVerdict db.events.nextId result.actualCost).budgetDay = row.budgetDay := rfl
  rw [hnew, hday, hp, hcharge] at hsum
  rw [h.intents]
  unfold IntentTable.charged
  by_cases hd : row.budgetDay = day ∧ p row = true
  · rw [if_pos hd, if_pos hd] at hsum
    rw [if_pos hd]
    omega
  · rw [if_neg hd, if_neg hd] at hsum
    rw [if_neg hd]
    omega

/-- An intent without a verdict weighs its reservation. -/
theorem charge_of_open (hinv : JournalInvariant db) (hr : row ∈ db.intents.table)
    (hopen : row.terminalEventId = none) : row.charge = row.reservedWei := by
  have hcost := (hinv.row row hr).cost_iff
  rw [hopen, Option.isSome_none, Option.isSome_eq_false_iff, Option.isNone_iff_eq_none] at hcost
  rw [IntentRow.charge, hcost, Option.getD_none]

theorem finished (hinv : JournalInvariant db) (h : Finished db row result db')
    (hr : row ∈ db.intents.table) (hopen : row.terminalEventId = none) :
    JournalInvariant db' := by
  have hmem : ∀ e, e ∈ db'.events ↔ e ∈ db.events ∨ e = nextEvent db row result :=
    fun e => Table.mem_insert? h.recorded
  have hwf := hinv.row row hr
  have hcharge := charge_of_open hinv hr hopen
  exact
    { row := by
        intro r hr'
        rcases (mem_finished h hr).mp hr' with rfl | ⟨hr', -⟩
        · exact
            { id_hex := hwf.id_hex
              id_lower := hwf.id_lower
              txHash_lower := hwf.txHash_lower
              nonce_safe := hwf.nonce_safe
              amountBase_nonneg := hwf.amountBase_nonneg
              reserved_nonneg := hwf.reserved_nonneg
              day := hwf.day
              cost_nonneg := by
                intro cost hc
                cases hc
                exact h.actualCost_nonneg
              cost_iff := rfl }
        · exact hinv.row r hr'
      verdict := by
        intro r hr' id hid
        rcases (mem_finished h hr).mp hr' with rfl | ⟨hr', -⟩
        · cases hid
          exact ⟨nextEvent db row result, (hmem _).mpr (Or.inr rfl), rfl,
            { isVerdict_nextEvent db row result with }⟩
        · obtain ⟨e, he, hv⟩ := hinv.verdict r hr' id hid
          exact ⟨e, (hmem e).mpr (Or.inl he), hv⟩
      intent := by
        intro e he ho
        rcases (hmem e).mp he with he | rfl
        · obtain ⟨r, hr', ht⟩ := hinv.intent e he ho
          refine ⟨r, (mem_finished h hr).mpr (Or.inr ⟨hr', ?_⟩), ht⟩
          intro hk
          rw [Table.eq_of_key hr' hr hk, hopen] at ht
          cases ht
        · exact ⟨_, (mem_finished h hr).mpr (Or.inl rfl), rfl⟩
      total := by
        intro day
        rw [charged_finished h hr hcharge day rfl, ← hinv.total, JournalDb.load, h.budget,
          Budget.load_book_total]
        simp [JournalDb.load]
      payer := by
        intro payer day
        rw [charged_finished h hr hcharge day rfl, ← hinv.payer, JournalDb.load, h.budget,
          Budget.load_book_payer]
        simp [JournalDb.load, and_comm]
      shares := by
        intro day
        rw [JournalDb.load, h.budget, Budget.load_book_total, Budget.shares_book]
        exact congrArg (· + _) (hinv.shares day)
      scopes := by
        rw [h.budget]
        exact hinv.scopes.book }

/-! ### The ledger on its own -/

/-- Changing only refusals in the ledger keeps the invariant. -/
theorem withEvents {events : EventTable} (hinv : JournalInvariant db)
    (hkeep : ∀ e ∈ db.events, e.outcome ≠ .rejected → e ∈ events)
    (hnew : ∀ e ∈ events, e.outcome ≠ .rejected → e ∈ db.events) :
    JournalInvariant { db with events := events } where
  row := hinv.row
  verdict := by
    intro r hr id hid
    obtain ⟨e, he, hv⟩ := hinv.verdict r hr id hid
    exact ⟨e, hkeep e he hv.2.not_rejected, hv⟩
  intent e he ho := hinv.intent e (hnew e he ho) ho
  total := hinv.total
  payer := hinv.payer
  shares := hinv.shares
  scopes := hinv.scopes

theorem write {op : JournalOp} (hinv : JournalInvariant db) (h : Write db op db') :
    JournalInvariant db' := by
  cases h with
  | nothing => exact hinv
  | admitted h => exact hinv.admitted h
  | @finished _ _ row _ hget hterminal hcharge h =>
    have hr := (Table.get?_eq_some.mp hget).1
    rw [Option.isSome_eq_false_iff, Option.isNone_iff_eq_none] at hterminal
    exact hinv.finished h hr ((hinv.terminal_eq_none hr).mp hterminal)
  | pruned h =>
    exact hinv.withEvents (fun e he ho => Ledger.mem_prune_of_not_rejected h he ho)
      (fun e he _ => Ledger.mem_of_mem_prune h he)
  | rejected h =>
    obtain ⟨-, rfl, hinsert⟩ := Ledger.record_eq_ok.mp h
    refine hinv.withEvents (fun e he _ => (Table.mem_insert? hinsert).mpr (Or.inl he)) ?_
    intro e he ho
    rcases (Table.mem_insert? hinsert).mp he with he | rfl
    · exact he
    · exact absurd rfl ho

end JournalInvariant

/-- **Every operation keeps the invariant, refused or not.** -/
theorem exec_preserves_invariant (db : JournalDb) (op : JournalOp) (h : JournalInvariant db) :
    JournalInvariant (JournalOp.exec db op) := h.write (JournalOp.exec_write db op)

theorem run_invariant_journal (ops : List JournalOp) :
    JournalInvariant (run JournalOp.exec JournalDb.empty ops) :=
  run_invariant exec_preserves_invariant ops _ JournalInvariant.empty

/-! ## A later state of the journal -/

open SettlementJournal

variable {db db' : JournalDb} {row : IntentRow}

/-- The rows are of one claim: they differ in the verdict at most. -/
structure SameClaim (r r' : IntentRow) : Prop where
  input : r'.toSettlementInput = r.toSettlementInput
  budgetDay : r'.budgetDay = r.budgetDay
  reservedWei : r'.reservedWei = r.reservedWei

theorem SameClaim.refl (r : IntentRow) : SameClaim r r := ⟨rfl, rfl, rfl⟩

theorem SameClaim.trans {r r' r'' : IntentRow} (h : SameClaim r r') (h' : SameClaim r' r'') :
    SameClaim r r'' :=
  ⟨h'.input.trans h.input, h'.budgetDay.trans h.budgetDay, h'.reservedWei.trans h.reservedWei⟩

/-- Every row of `db` is in `db'`, and so is its verdict if it has one. -/
def Extends (db db' : JournalDb) : Prop :=
  ∀ r ∈ db.intents.table, ∃ r' ∈ db'.intents.table, SameClaim r r' ∧
    ((db.record r).terminal.isSome = true → db'.record r' = db.record r)

theorem Extends.refl (db : JournalDb) : Extends db db :=
  fun r hr => ⟨r, hr, SameClaim.refl r, fun _ => rfl⟩

theorem Extends.trans {db₁ db₂ db₃ : JournalDb} (h : Extends db₁ db₂) (h' : Extends db₂ db₃) :
    Extends db₁ db₃ := by
  intro r hr
  obtain ⟨r', hr', hsame, hrecord⟩ := h r hr
  obtain ⟨r'', hr'', hsame', hrecord'⟩ := h' r' hr'
  refine ⟨r'', hr'', hsame.trans hsame', fun hterminal => ?_⟩
  have heq := hrecord hterminal
  rw [hrecord' (heq ▸ hterminal), heq]

namespace JournalInvariant

/-- A record with a verdict reads the same as long as the ledger keeps its verdicts. -/
theorem record_eq (hinv : JournalInvariant db) (hr : row ∈ db.intents.table)
    (hterminal : (db.record row).terminal.isSome = true)
    (hkeep : ∀ e ∈ db.events, e.outcome ≠ .rejected → e ∈ db'.events) :
    db'.record row = db.record row := by
  rw [hinv.terminal_isSome hr] at hterminal
  obtain ⟨eventId, hid⟩ := Option.isSome_iff_exists.mp hterminal
  obtain ⟨e, he, rfl, hv⟩ := hinv.verdict row hr eventId hid
  have hget : db.events.get? e.id = some e := Table.get?_of_mem he
  have hget' : db'.events.get? e.id = some e := Table.get?_of_mem (hkeep e he hv.not_rejected)
  unfold JournalDb.record
  rw [hid, Option.bind_some, Option.bind_some, hget, hget']

/-- **One operation extends the journal.** -/
theorem extends_write {op : JournalOp} (hinv : JournalInvariant db)
    (hw : JournalOp.Write db op db') : Extends db db' := by
  cases hw with
  | nothing => exact Extends.refl db
  | admitted h =>
    intro r hr
    refine ⟨r, (Table.mem_insert? (IntentTable.insert_eq_ok h.inserted)).mpr (Or.inl hr),
      SameClaim.refl r, fun hterminal => hinv.record_eq hr hterminal fun e he _ => ?_⟩
    rw [h.events]
    exact he
  | @finished _ result row _ hget hterminal _ h =>
    have hrow := (Table.get?_eq_some.mp hget).1
    intro r hr
    by_cases hk : r.paymentIntentId = row.paymentIntentId
    · obtain rfl := Table.eq_of_key hr hrow hk
      refine ⟨_, (mem_finished h hr).mpr (Or.inl rfl), ⟨rfl, rfl, rfl⟩, fun ht => ?_⟩
      rw [hterminal] at ht
      cases ht
    · exact ⟨r, (mem_finished h hrow).mpr (Or.inr ⟨hr, hk⟩), SameClaim.refl r,
        fun ht => hinv.record_eq hr ht fun e he _ =>
          (Table.mem_insert? h.recorded).mpr (Or.inl he)⟩
  | pruned h =>
    exact fun r hr => ⟨r, hr, SameClaim.refl r, fun ht =>
      hinv.record_eq hr ht fun e he ho => Ledger.mem_prune_of_not_rejected h he ho⟩
  | rejected h =>
    obtain ⟨-, -, hinsert⟩ := Ledger.record_eq_ok.mp h
    exact fun r hr => ⟨r, hr, SameClaim.refl r, fun ht =>
      hinv.record_eq hr ht fun e he _ => (Table.mem_insert? hinsert).mpr (Or.inl he)⟩

/-- **A run extends the journal.** -/
theorem extends_run (hinv : JournalInvariant db) (ops : List JournalOp) :
    Extends db (run JournalOp.exec db ops) :=
  run_relation exec_preserves_invariant Extends.refl (fun _ _ _ h h' => h.trans h')
    (fun db op h => h.extends_write (JournalOp.exec_write db op)) ops db hinv

/-- An intent without a row has none after a verdict on another. -/
theorem get?_finished {result : SettlementOutcomeInput} (h : Finished db row result db')
    {id : String} (hnone : db.intents.table.get? id = none) :
    db'.intents.table.get? id = none := by
  rw [h.intents, IntentTable.get?_setTerminal]
  split
  · next hid => rw [← hid, hnone, Option.map_none]
  · exact hnone

/--
**What a successful `finish` leaves behind.**

The answer is the record of the intent's row, and it has a verdict; no row came or went.
-/
theorem finish_spec (hinv : JournalInvariant db) {id : String} {result : SettlementOutcomeInput}
    {record : SettlementRecord} (hrun : (finish id result).run db = .ok record db') :
    JournalInvariant db' ∧ Extends db db' ∧
      (∀ r ∈ db'.intents.table, ∃ r₀ ∈ db.intents.table,
        r.toSettlementInput = r₀.toSettlementInput) ∧
      (∀ id, db.intents.table.get? id = none → db'.intents.table.get? id = none) ∧
      ∃ r ∈ db'.intents.table, r.paymentIntentId = toLowerCase id ∧ db'.record r = record ∧
        record.terminal.isSome = true := by
  obtain ⟨-, row, hget, h⟩ := finish_eq_ok.mp hrun
  have hr := (Table.get?_eq_some.mp hget).1
  have hid := (Table.get?_eq_some.mp hget).2
  rcases h with ⟨hterminal, rfl, rfl⟩ | ⟨hterminal, hcharge, hfinished, rfl⟩
  · exact ⟨hinv, Extends.refl _, fun r hr => ⟨r, hr, rfl⟩, fun _ h => h, row, hr, hid, rfl,
      hterminal⟩
  · have hw : JournalOp.Write db (.finish id result) db' :=
      .finished hget hterminal hcharge hfinished
    have hinv' := hinv.write hw
    have hmem := (mem_finished hfinished hr).mpr (Or.inl rfl)
    refine ⟨hinv', hinv.extends_write hw, fun r hr' => ?_, fun _ => get?_finished hfinished,
      _, hmem, hid, rfl, ?_⟩
    · rcases (mem_finished hfinished hr).mp hr' with rfl | ⟨hr', -⟩
      · exact ⟨row, hr, rfl⟩
      · exact ⟨r, hr', rfl⟩
    · rw [hinv'.terminal_isSome hmem]
      rfl

end JournalInvariant

end Mapae.Store
