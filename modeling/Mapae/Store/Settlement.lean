import Mapae.Infra.Transaction
import Mapae.Store.Ledger

/-!
# The settlement journal

`settlement_intents` has a row for each payment intent that was ever claimed: the envelope of
its one transaction, the hash of that transaction, and what was reserved for it. `claim`
writes the row and adds the reservation to the day's budget; `finish` exchanges the
reservation for the actual cost and records the verdict in the ledger. Each is one
transaction.

* `IntentTable` carries the two `UNIQUE` constraints of the table as fields
* `claim_eq_ok` and `finish_eq_ok` say all that a successful call can have done
* `Admitted` and `Finished` name the two cases in which something was written
-/

namespace Mapae.Store

open Mapae.Infra

/-- Enough to sign the same transaction again, never its calldata or signature. -/
structure TransactionEnvelope where
  signer : String
  chainId : Int
  nonce : Int
  gas : Int
  maxFeePerGas : Int
  maxPriorityFeePerGas : Int

structure SettlementInput extends TransactionEnvelope where
  paymentIntentId : String
  txHash : String
  payer : String
  payTo : String
  amountBase : Int
  createdAt : Int

/-- A row as the journal shows it, with the ledger event of its verdict. -/
structure SettlementRecord extends SettlementInput where
  budgetDay : String
  reservedWei : Int
  actualCost : Option Int
  terminal : Option SettlementEvent

structure SettlementLimits where
  total : Int
  payer : Int

/-- What `finish` is told about the mined transaction. -/
structure SettlementOutcomeInput where
  atMs : Int
  gasUsed : Int
  actualCost : Int
  errorCode : Option String

/-! ## The tables -/

/-- A row of `settlement_intents`. -/
structure IntentRow extends SettlementInput where
  budgetDay : String
  reservedWei : Int
  terminalEventId : Option Nat
  actualCost : Option Int

/-- The columns of `settlement_nonce UNIQUE (chain_id, signer, nonce)`. -/
def IntentRow.slot (r : IntentRow) : Int × String × Int := (r.chainId, r.signer, r.nonce)

/-- The row once its verdict is in. -/
def IntentRow.withVerdict (r : IntentRow) (eventId : Nat) (actualCost : Int) : IntentRow :=
  { r with terminalEventId := some eventId, actualCost := some actualCost }

theorem IntentRow.withVerdict_id (r : IntentRow) (eventId : Nat) (actualCost : Int) :
    (r.withVerdict eventId actualCost).paymentIntentId = r.paymentIntentId := rfl

/-- `settlement_intents`, with its constraints. -/
structure IntentTable where
  table : Table (fun r : IntentRow => r.paymentIntentId)
  txHash_unique : table.Unique (fun r => r.txHash)
  slot_unique : table.Unique IntentRow.slot

namespace IntentTable

def empty : IntentTable := ⟨Table.empty, Table.unique_empty, Table.unique_empty⟩

/-- `INSERT INTO settlement_intents`. -/
def insert (t : IntentTable) (row : IntentRow) : Except StoreError IntentTable :=
  if hh : t.table.free (fun r => r.txHash) row.txHash = true then
    if hs : t.table.free IntentRow.slot row.slot = true then
      match hi : t.table.insert? row with
      | some table => .ok ⟨table, t.txHash_unique.insert? hi hh, t.slot_unique.insert? hi hs⟩
      | none => .error (.constraint "settlement_intents.payment_intent_id")
    else .error (.constraint "settlement_nonce")
  else .error (.constraint "settlement_intents.tx_hash")

/-- `UPDATE settlement_intents SET terminal_event_id, actual_cost`. -/
def setTerminal (t : IntentTable) (id : String) (eventId : Nat) (actualCost : Int) :
    IntentTable where
  table := t.table.update id (fun r => r.withVerdict eventId actualCost)
    (fun r => r.withVerdict_id eventId actualCost)
  txHash_unique := t.txHash_unique.update fun _ => rfl
  slot_unique := t.slot_unique.update fun _ => rfl

variable {t t' : IntentTable} {row : IntentRow}

theorem insert_eq_ok (h : t.insert row = .ok t') : t.table.insert? row = some t'.table := by
  unfold insert at h
  split at h
  · split at h
    · split at h
      · next table hi =>
        cases h
        exact hi
      · cases h
    · cases h
  · cases h

theorem get?_setTerminal {id : String} {eventId : Nat} {actualCost : Int} (id' : String) :
    (t.setTerminal id eventId actualCost).table.get? id' =
      if id' = id then (t.table.get? id).map (fun r => r.withVerdict eventId actualCost)
      else t.table.get? id' :=
  Table.get?_update (fun r => r.withVerdict_id eventId actualCost) id'

theorem sum_setTerminal (eventId : Nat) (actualCost : Int) (h : row ∈ t.table)
    (g : IntentRow → Int) :
    (t.setTerminal row.paymentIntentId eventId actualCost).table.sum g + g row =
      t.table.sum g + g (row.withVerdict eventId actualCost) :=
  Table.sum_update (fun r => r.withVerdict_id eventId actualCost) (Table.get?_of_mem h) g

end IntentTable

/-- The tables the journal reads and writes. -/
structure JournalDb where
  intents : IntentTable
  budget : BudgetTable
  events : EventTable

/-- A new store. -/
def JournalDb.empty : JournalDb := ⟨IntentTable.empty, Table.empty, Table.empty⟩

/-! ## Reading -/

namespace JournalDb

def load (db : JournalDb) (scope day : String) : Int := Budget.load db.budget scope day

/-- The record of a row: the verdict is looked up in the ledger. -/
def record (db : JournalDb) (r : IntentRow) : SettlementRecord where
  toSettlementInput := r.toSettlementInput
  budgetDay := r.budgetDay
  reservedWei := r.reservedWei
  actualCost := r.actualCost
  terminal := r.terminalEventId.bind db.events.get?

/-- `SettlementJournal.get`. -/
def read (db : JournalDb) (id : String) : Except StoreError (Option SettlementRecord) := do
  let id ← hex id 32
  pure ((db.intents.table.get? id).map db.record)

/-- The nonces of one signer on one chain. -/
def nonces (db : JournalDb) (signer : String) (chainId : Int) : List Int :=
  (db.intents.table.rows.filter (fun r => r.signer = signer ∧ r.chainId = chainId)).map
    (fun r => r.nonce)

/-- `SettlementJournal.nextNonce`: above the node's pending nonce and above every claim. -/
def nextNonce (db : JournalDb) (signer : String) (chainId pendingNonce : Int) :
    Except StoreError Int := do
  let signer ← hex signer 20
  let chainId ← uint chainId
  let pending ← uint pendingNonce
  let known := (db.nonces signer chainId).max?
  uint (max pending (match known with
    | some nonce => nonce + 1
    | none => 0))

end JournalDb

/-! ## Writing -/

namespace SettlementJournal

abbrev Statement := EStateM StoreError JournalDb

def save (scope day : String) (spentWei : Int) : Statement Unit := do
  let db ← get
  set { db with budget := Budget.save db.budget scope day spentWei }

/-- `read(id)!` of a row that this transaction wrote. -/
def reread (id : String) : Statement SettlementRecord := do
  let db ← get
  match ← db.read id with
  | some record => pure record
  | none => throw (.error "settlement intent not found")

/-- The part of `claim` for an intent that has no row. -/
def claimNew (id : String) (input : SettlementInput) (limits : SettlementLimits) :
    Statement SettlementRecord := do
  let signer ← hex input.signer 20
  let payer ← hex input.payer 20
  let payTo ← hex input.payTo 20
  let createdAt ← uint input.createdAt
  let day ← utcDay createdAt
  let gas ← amount input.gas
  let fee ← amount input.maxFeePerGas
  let priority ← amount input.maxPriorityFeePerGas
  throwIf (input.gas = 0 ∨ input.maxPriorityFeePerGas > input.maxFeePerGas)
    (StoreError.error "invalid gas envelope")
  let _ ← amount limits.total
  let _ ← amount limits.payer
  throwIf (limits.total = 0 ∨ limits.payer = 0 ∨ limits.payer > limits.total)
    (StoreError.error "invalid settlement limits")
  let reserved := input.gas * input.maxFeePerGas
  let scope := payerScope payer
  let db ← get
  throwIf (db.load scope day + reserved > limits.payer)
    (StoreError.budgetExceeded .payerBudgetExhausted)
  throwIf (db.load totalScope day + reserved > limits.total)
    (StoreError.budgetExceeded .budgetExhausted)
  let txHash ← hex input.txHash 32
  let chainId ← uint input.chainId
  let nonce ← uint input.nonce
  let amountBase ← amount input.amountBase
  let reservedWei ← amount reserved
  let intents ← db.intents.insert
    { signer := signer, chainId := chainId, nonce := nonce, gas := gas, maxFeePerGas := fee,
      maxPriorityFeePerGas := priority, paymentIntentId := id, txHash := txHash,
      payer := payer, payTo := payTo, amountBase := amountBase, createdAt := input.createdAt,
      budgetDay := day, reservedWei := reservedWei, terminalEventId := none,
      actualCost := none }
  set { db with intents := intents }
  let total ← amount ((← get).load totalScope day + reserved)
  save totalScope day total
  let own ← amount ((← get).load scope day + reserved)
  save scope day own
  reread id

/-- `SettlementJournal.claim`: the intent and both daily reservations, in one transaction. -/
def claim (input : SettlementInput) (limits : SettlementLimits) : Statement SettlementRecord :=
  transaction do
    let id ← hex input.paymentIntentId 32
    let db ← get
    match ← db.read id with
    | some existing => pure existing
    | none => claimNew id input limits

/-- One round of the loop in `finish`: the reservation gives way to the actual cost. -/
def charge (scope day : String) (reserved actual : Int) : Statement Unit := do
  let spent ← amount ((← get).load scope day - reserved + actual)
  save scope day spent

/-- The part of `finish` for a row that has no verdict yet. -/
def finishNew (record : SettlementRecord) (result : SettlementOutcomeInput) :
    Statement SettlementRecord := do
  let _ ← amount result.actualCost
  let _ ← amount result.gasUsed
  let _ ← uint result.atMs
  charge totalScope record.budgetDay record.reservedWei result.actualCost
  charge (payerScope record.payer) record.budgetDay record.reservedWei result.actualCost
  let db ← get
  -- An empty code is falsy: it counts as a settlement.
  let failed := result.errorCode.any (fun code => code ≠ "")
  let (event, events) ← Ledger.record db.events
    { atMs := result.atMs, kind := "settle", payer := record.payer, payTo := record.payTo,
      amountBase := record.amountBase, txHash := some record.txHash,
      gasUsed := some result.gasUsed, outcome := if failed then .error else .settled,
      errorCode := result.errorCode }
  let actualCost ← amount result.actualCost
  set { db with
    events := events
    intents := db.intents.setTerminal record.paymentIntentId event.id actualCost }
  reread record.paymentIntentId

/-- `SettlementJournal.finish`: actual cost, both totals and the verdict, in one transaction. -/
def finish (id : String) (result : SettlementOutcomeInput) : Statement SettlementRecord :=
  transaction do
    let db ← get
    match ← db.read id with
    | none => throw (.error "settlement intent not found")
    | some record =>
      if record.terminal.isSome then pure record
      else finishNew record result

/-- `Ledger.prune` on the journal's store. -/
def prune (rejectedBefore keepRejected : Int) : Statement Nat :=
  transaction do
    let db ← get
    let (changes, events) ← Ledger.prune db.events rejectedBefore keepRejected
    set { db with events := events }
    pure changes

/-- `Ledger.record` of a refusal, as the facilitator writes one. -/
def recordRejection (event : SettlementEventInput) : Statement SettlementEvent :=
  transaction do
    let db ← get
    let (row, events) ← Ledger.record db.events { event with outcome := .rejected }
    set { db with events := events }
    pure row

/-! ## What a successful call did -/

variable {db db' : JournalDb} {input : SettlementInput} {limits : SettlementLimits}
  {result : SettlementOutcomeInput} {record : SettlementRecord} {id : String}

theorem run_save {scope day : String} {spent : Int} {u : Unit} :
    (save scope day spent).run db = .ok u db' ↔
      db' = { db with budget := Budget.save db.budget scope day spent } := by
  constructor
  · intro h
    cases h
    rfl
  · rintro rfl
    rfl

theorem run_charge {scope day : String} {reserved actual : Int} {u : Unit} :
    (charge scope day reserved actual).run db = .ok u db' ↔
      0 ≤ db.load scope day - reserved + actual ∧
        db' = { db with budget := Budget.add db.budget scope day (actual - reserved) } := by
  have hsum : ∀ x : Int, x - reserved + actual = x + (actual - reserved) := fun x => by omega
  simp only [charge, run_bind_eq_ok, run_get_eq_ok, run_lift_eq_ok, run_save, amount_eq_ok,
    exists_and_left, exists_eq_left, and_assoc, JournalDb.load, Budget.add, hsum]

theorem read_eq_ok {o : Option SettlementRecord} :
    db.read id = .ok o ↔
      isHexOf 32 id = true ∧ o = (db.intents.table.get? (toLowerCase id)).map db.record := by
  simp only [JournalDb.read, bind_eq_ok, hex_eq_ok, and_assoc, exists_and_left, exists_eq_left,
    pure_eq_ok, eq_comm (a := o)]

/-- Rereading a row that is there answers its record and changes nothing. -/
theorem run_reread :
    (reread id).run db = .ok record db' ↔
      isHexOf 32 id = true ∧ db' = db ∧
        ∃ row, db.intents.table.get? (toLowerCase id) = some row ∧ record = db.record row := by
  simp only [reread, run_bind_eq_ok, run_get_eq_ok, run_lift_eq_ok, read_eq_ok, exists_and_left,
    exists_eq_left, and_assoc]
  cases h : db.intents.table.get? (toLowerCase id) with
  | none => simp [run_throw_ne_ok]
  | some row =>
    simp only [Option.map_some, run_pure_eq_ok, Option.some.injEq, exists_eq_left']
    exact and_congr_right fun _ => and_comm

/-! ### Claiming -/

/-- The row `claim` writes. -/
def newRow (input : SettlementInput) (day : String) : IntentRow where
  signer := toLowerCase input.signer
  chainId := input.chainId
  nonce := input.nonce
  gas := input.gas
  maxFeePerGas := input.maxFeePerGas
  maxPriorityFeePerGas := input.maxPriorityFeePerGas
  paymentIntentId := toLowerCase input.paymentIntentId
  txHash := toLowerCase input.txHash
  payer := toLowerCase input.payer
  payTo := toLowerCase input.payTo
  amountBase := input.amountBase
  createdAt := input.createdAt
  budgetDay := day
  reservedWei := input.gas * input.maxFeePerGas
  terminalEventId := none
  actualCost := none

/-- `row` was claimed: it is new, it fits both limits of its day, and both were charged. -/
structure Admitted (db : JournalDb) (input : SettlementInput) (limits : SettlementLimits)
    (row : IntentRow) (db' : JournalDb) : Prop where
  row_eq : row = newRow input row.budgetDay
  id_hex : isHexOf 32 input.paymentIntentId = true
  txHash_hex : isHexOf 32 input.txHash = true
  signer_hex : isHexOf 20 input.signer = true
  chainId_safe : isSafeInteger input.chainId = true ∧ 0 ≤ input.chainId
  nonce_safe : isSafeInteger input.nonce = true ∧ 0 ≤ input.nonce
  amountBase_nonneg : 0 ≤ input.amountBase
  gas_pos : 0 < input.gas
  fees : 0 ≤ input.maxPriorityFeePerGas ∧ input.maxPriorityFeePerGas ≤ input.maxFeePerGas
  day : utcDay input.createdAt = .ok row.budgetDay
  reserved_nonneg : 0 ≤ row.reservedWei
  limits_pos : 0 < limits.payer ∧ limits.payer ≤ limits.total
  within_payer : db.load (payerScope row.payer) row.budgetDay + row.reservedWei ≤ limits.payer
  within_total : db.load totalScope row.budgetDay + row.reservedWei ≤ limits.total
  inserted : db.intents.insert row = .ok db'.intents
  budget : db'.budget = Budget.book db.budget row.payer row.budgetDay row.reservedWei
  events : db'.events = db.events

theorem admitted_of_claimNew (hid : isHexOf 32 input.paymentIntentId = true)
    (h : (claimNew (toLowerCase input.paymentIntentId) input limits).run db = .ok record db') :
    ∃ row, Admitted db input limits row db' ∧ record = db'.record row := by
  simp only [claimNew, run_bind_eq_ok, run_lift_eq_ok, run_get_eq_ok, run_set_eq_ok, run_save,
    hex_eq_ok, uint_eq_ok, amount_eq_ok, throwIf_eq_ok, exists_and_left, exists_eq_left, and_assoc,
    exists_const, run_reread, toLowerCase_toLowerCase] at h
  obtain ⟨hsigner, -, -, -, -, day, hday, hgas, -, hpriority, hgasEnvelope, htotal, hpayer,
    hlimits, hwithinPayer, hwithinTotal, htx, hchain, hchain', hnonce, hnonce', hbase, hreserved,
    intents, hinsert, -, -, -, rfl, row, hrow, rfl⟩ := h
  have hrow' : row = newRow input day := by
    rw [Table.get?_insert? (IntentTable.insert_eq_ok hinsert), if_pos rfl] at hrow
    exact (Option.some.inj hrow).symm
  subst hrow'
  refine ⟨newRow input day, ?_, rfl⟩
  exact
    { row_eq := rfl
      id_hex := hid
      txHash_hex := htx
      signer_hex := hsigner
      chainId_safe := ⟨hchain, hchain'⟩
      nonce_safe := ⟨hnonce, hnonce'⟩
      amountBase_nonneg := hbase
      gas_pos := by omega
      fees := ⟨hpriority, by omega⟩
      day := hday
      reserved_nonneg := hreserved
      limits_pos := by omega
      within_payer := Int.not_lt.mp hwithinPayer
      within_total := Int.not_lt.mp hwithinTotal
      inserted := hinsert
      budget := rfl
      events := rfl }

/--
**What a successful `claim` did.**

Either the intent had a row, and the answer is that row and nothing was written; or it had
none, and one was admitted.
-/
theorem claim_eq_ok (h : (claim input limits).run db = .ok record db') :
    isHexOf 32 input.paymentIntentId = true ∧
      ((db' = db ∧ ∃ row, db.intents.table.get? (toLowerCase input.paymentIntentId) = some row ∧
          record = db.record row) ∨
        ∃ row, Admitted db input limits row db' ∧ record = db'.record row) := by
  simp only [claim, run_transaction_eq_ok, run_bind_eq_ok, run_lift_eq_ok, run_get_eq_ok,
    hex_eq_ok, read_eq_ok, exists_and_left, exists_eq_left, and_assoc, toLowerCase_toLowerCase]
    at h
  obtain ⟨hid, -, h⟩ := h
  refine ⟨hid, ?_⟩
  cases hget : db.intents.table.get? (toLowerCase input.paymentIntentId) with
  | none =>
    rw [hget] at h
    exact Or.inr (admitted_of_claimNew hid h)
  | some row =>
    rw [hget] at h
    obtain ⟨rfl, rfl⟩ := run_pure_eq_ok.mp h
    exact Or.inl ⟨rfl, row, rfl, rfl⟩

/-- **A repeated claim answers the row that is there, whatever else it says.** -/
theorem claim_of_get? {row : IntentRow} (hid : isHexOf 32 input.paymentIntentId = true)
    (hget : db.intents.table.get? (toLowerCase input.paymentIntentId) = some row) :
    (claim input limits).run db = .ok (db.record row) db := by
  simp only [claim, run_transaction_eq_ok, run_bind_eq_ok, run_lift_eq_ok, run_get_eq_ok,
    hex_eq_ok, read_eq_ok, exists_and_left, exists_eq_left, and_assoc, toLowerCase_toLowerCase,
    hget, Option.map_some, run_pure_eq_ok, hid, isHexOf_toLowerCase hid, true_and, and_self]

/-! ### Finishing -/

/-- The ledger event of a verdict, before it has an id. -/
def eventOf (row : IntentRow) (result : SettlementOutcomeInput) : SettlementEventInput where
  atMs := result.atMs
  kind := "settle"
  payer := row.payer
  payTo := row.payTo
  amountBase := row.amountBase
  txHash := some row.txHash
  outcome := if result.errorCode.any (fun code => code ≠ "") then .error else .settled
  gasUsed := some result.gasUsed
  errorCode := result.errorCode

theorem eventOf_not_rejected (row : IntentRow) (result : SettlementOutcomeInput) :
    (eventOf row result).outcome ≠ .rejected := by
  unfold eventOf
  simp only
  split
  · simp
  · simp

/-- The event of a verdict, as the ledger will number it. -/
def nextEvent (db : JournalDb) (row : IntentRow) (result : SettlementOutcomeInput) :
    SettlementEvent :=
  { eventOf row result with id := db.events.nextId }

/-- `row` got its verdict: the reservation gave way to the actual cost in both series. -/
structure Finished (db : JournalDb) (row : IntentRow) (result : SettlementOutcomeInput)
    (db' : JournalDb) : Prop where
  actualCost_nonneg : 0 ≤ result.actualCost
  recordable : Ledger.Recordable (eventOf row result)
  budget : db'.budget =
    Budget.book db.budget row.payer row.budgetDay (result.actualCost - row.reservedWei)
  recorded : db.events.insert? (nextEvent db row result) = some db'.events
  intents : db'.intents =
    db.intents.setTerminal row.paymentIntentId db.events.nextId result.actualCost

/-- Neither series would become negative. -/
def Chargeable (db : JournalDb) (row : IntentRow) (actualCost : Int) : Prop :=
  0 ≤ db.load totalScope row.budgetDay - row.reservedWei + actualCost ∧
    0 ≤ db.load (payerScope row.payer) row.budgetDay - row.reservedWei + actualCost

theorem run_finishNew {row : IntentRow}
    (hget : db.intents.table.get? row.paymentIntentId = some row)
    (hid : isHexOf 32 row.paymentIntentId = true)
    (hlower : toLowerCase row.paymentIntentId = row.paymentIntentId) :
    (finishNew (db.record row) result).run db = .ok record db' ↔
      Chargeable db row result.actualCost ∧ Finished db row result db' ∧
        record = db'.record (row.withVerdict db.events.nextId result.actualCost) := by
  have hown : Budget.load (Budget.add db.budget totalScope row.budgetDay
      (result.actualCost - row.reservedWei)) (payerScope row.payer) row.budgetDay =
      Budget.load db.budget (payerScope row.payer) row.budgetDay := by
    rw [Budget.load_add, if_neg (fun h => payerScope_ne_totalScope row.payer h.1.symm),
      Int.add_zero]
  simp only [finishNew, run_bind_eq_ok, run_lift_eq_ok, run_get_eq_ok, run_set_eq_ok, run_charge,
    uint_eq_ok, amount_eq_ok, exists_and_left, exists_eq_left, and_assoc, Prod.exists,
    Ledger.record_eq_ok, run_reread, exists_const, JournalDb.load, JournalDb.record, hown,
    IntentTable.get?_setTerminal, hlower, hget, if_true, Option.map_some, Option.some.injEq,
    exists_eq_left']
  constructor
  · rintro ⟨hcost, -, -, -, htotal, hpayer, hrecordable, events, hinsert, -, -, rfl, rfl⟩
    exact ⟨⟨htotal, hpayer⟩, ⟨hcost, hrecordable, rfl, hinsert, rfl⟩, rfl⟩
  · rintro ⟨⟨htotal, hpayer⟩, ⟨hcost, hrecordable, hbudget, hinsert, hintents⟩, rfl⟩
    obtain ⟨⟨hsafe, hat⟩, -, hgas⟩ := id hrecordable
    refine ⟨hcost, hgas _ rfl, hsafe, hat, htotal, hpayer, hrecordable, db'.events, hinsert, hcost,
      hid, ?_, rfl⟩
    cases db'
    simp only at hbudget hintents
    rw [hbudget, hintents]
    rfl

/-- The id of a row that was found is the one looked up. -/
theorem id_of_get? {row : IntentRow} (hid : isHexOf 32 id = true)
    (hget : db.intents.table.get? (toLowerCase id) = some row) :
    row.paymentIntentId = toLowerCase id ∧ isHexOf 32 row.paymentIntentId = true ∧
      toLowerCase row.paymentIntentId = row.paymentIntentId := by
  have hkey : row.paymentIntentId = toLowerCase id := (Table.get?_eq_some.mp hget).2
  rw [hkey]
  exact ⟨rfl, isHexOf_toLowerCase hid, toLowerCase_toLowerCase id⟩

/--
**What a successful `finish` did.**

Either the row had its verdict, and the answer is that row and nothing was written; or it had
none, and got it.
-/
theorem finish_eq_ok :
    (finish id result).run db = .ok record db' ↔
      isHexOf 32 id = true ∧
        ∃ row, db.intents.table.get? (toLowerCase id) = some row ∧
          (((db.record row).terminal.isSome = true ∧ db' = db ∧ record = db.record row) ∨
            ((db.record row).terminal.isSome = false ∧ Chargeable db row result.actualCost ∧
              Finished db row result db' ∧
                record = db'.record (row.withVerdict db.events.nextId result.actualCost))) := by
  simp only [finish, run_transaction_eq_ok, run_bind_eq_ok, run_lift_eq_ok, run_get_eq_ok,
    read_eq_ok, exists_and_left, exists_eq_left, and_assoc]
  refine and_congr_right fun hid => ?_
  cases hget : db.intents.table.get? (toLowerCase id) with
  | none => simp [run_throw_ne_ok]
  | some row =>
    obtain ⟨hkey, hhex, hlower⟩ := id_of_get? hid hget
    simp only [Option.map_some, Option.some.injEq, exists_eq_left']
    by_cases hterminal : (db.record row).terminal.isSome = true
    · rw [if_pos hterminal, run_pure_eq_ok]
      simp [hterminal, and_comm]
    · rw [if_neg hterminal, run_finishNew (hkey ▸ hget) hhex hlower]
      simp [hterminal]

end SettlementJournal

end Mapae.Store
