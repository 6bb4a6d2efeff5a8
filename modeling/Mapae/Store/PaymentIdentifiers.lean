import Mapae.Infra.Transaction
import Mapae.Infra.Transition
import Mapae.Shared.X402
import Mapae.Store.Retention

/-!
# Payment identifiers

`payment_identifiers`: one row for each identifier a buyer presented. It binds the identifier
to a request and to a payment before anything is settled, and keeps what the facilitator
confirmed afterwards.

* `bind_eq_ok` and `record_eq_ok` say what a successful call did; one that throws writes
  nothing
* `IdentifierStep` is all that one operation can do to the row of an identifier
-/

namespace Mapae.Store

open Mapae.Infra Mapae.Shared

/-- What the facilitator confirmed about a settled payment. -/
structure RecordedPayment where
  payer : String
  txHash : Option String

/-- The columns a settlement fills. `CHECK ((payer IS NULL) = (settled_at IS NULL))`: a row has
both or neither. -/
structure SettledColumns extends RecordedPayment where
  settledAt : Int

structure PaymentIdentifierRow where
  id : String
  fingerprint : String
  paymentIntentId : String
  boundAt : Int
  settled : Option SettledColumns

/-- What the identifier is bound to: a request, and the payment of that request. -/
def PaymentIdentifierRow.pair (r : PaymentIdentifierRow) : String × String :=
  (r.fingerprint, r.paymentIntentId)

def settledHalf (row : PaymentIdentifierRow) : Option RecordedPayment :=
  row.settled.map SettledColumns.toRecordedPayment

/-- `payment_identifiers`. -/
abbrev IdentifierTable := Table PaymentIdentifierRow.id

inductive PaymentIdentifierConflict where
  | fingerprint
  | paymentIntent
  deriving DecidableEq

inductive PaymentIdentifierBindResult where
  /-- The caller may settle. -/
  | new
  /-- This payment was settled before: the caller answers from what was recorded. -/
  | settled (settled : RecordedPayment)
  /-- The identifier is bound to another request or another payment. -/
  | conflict (reason : PaymentIdentifierConflict) (settled : Option RecordedPayment)

def identifierKey (value : String) : Except StoreError String :=
  if isPaymentIdentifier value then .ok value
  else .error (.typeError "id must be 16–128 characters of [A-Za-z0-9_-]")

/-- `/^[0-9a-f]{64}$/`. -/
def isSha256Hex (value : String) : Bool :=
  value.toList.length == 64 &&
    value.toList.all fun c => ('0' ≤ c ∧ c ≤ '9') ∨ ('a' ≤ c ∧ c ≤ 'f')

def fingerprintHex (value : String) : Except StoreError String :=
  if isSha256Hex value then .ok value
  else .error (.typeError "fingerprint must be 64 lowercase hex characters (sha256)")

namespace PaymentIdentifiers

abbrev Statement := EStateM StoreError IdentifierTable

/-- What `bind` answers for an identifier that is on file. -/
def judge (existing : PaymentIdentifierRow) (print paymentIntentId : String) :
    PaymentIdentifierBindResult :=
  if existing.fingerprint ≠ print then .conflict .fingerprint (settledHalf existing)
  else if existing.paymentIntentId ≠ paymentIntentId then
    .conflict .paymentIntent (settledHalf existing)
  else
    match settledHalf existing with
    | none => .new
    | some settled => .settled settled

/-- The row `bind` writes for an identifier that is free. -/
def boundRow (id fingerprint paymentIntentId : String) (atMs : Int) : PaymentIdentifierRow :=
  ⟨id, fingerprint, paymentIntentId, atMs, none⟩

/-- `PaymentIdentifiers.bind`. -/
def bind (id fingerprint paymentIntentId : String) (atMs : Int) :
    Statement PaymentIdentifierBindResult := do
  let key ← identifierKey id
  let print ← fingerprintHex fingerprint
  let atMs ← millis atMs "at"
  let rows ← get
  match rows.insert? (boundRow key print paymentIntentId atMs) with
  | some inserted =>
    set inserted
    pure .new
  | none =>
    match rows.get? key with
    | none => throw (.error "payment_identifiers: duplicate id vanished before read")
    | some existing => pure (judge existing print paymentIntentId)

/-- `SET payer = ?, tx_hash = ?, settled_at = ?`. -/
def settle (settled : SettledColumns) (row : PaymentIdentifierRow) : PaymentIdentifierRow :=
  { row with settled := some settled }

theorem settle_id (settled : SettledColumns) (row : PaymentIdentifierRow) :
    (settle settled row).id = row.id := rfl

/-- `PaymentIdentifiers.record`. -/
def record (id payer : String) (txHash : Option String) (atMs : Int) : Statement Unit := do
  let key ← identifierKey id
  let atMs ← millis atMs "at"
  let rows ← get
  -- `WHERE id = ? AND settled_at IS NULL`
  match (rows.get? key).filter fun row => row.settled.isNone with
  | some _ => set (rows.update key (settle ⟨⟨payer, txHash⟩, atMs⟩) (settle_id _))
  | none => throw (.error s!"payment_identifiers: {id} is not bound, or is already settled")

/-- Which rows `prune` may remove: the newest bindings are those that stay. -/
def unsettledRetention : Retention PaymentIdentifierRow where
  candidate row := row.settled.isNone
  time row := row.boundAt
  newer a b := decide (b.boundAt < a.boundAt ∨ (a.boundAt = b.boundAt ∧ b.id ≤ a.id))

/-- `PaymentIdentifiers.prune`. -/
def prune (unsettledBefore keepUnsettled : Int) : Statement Nat := do
  let before ← millis unsettledBefore "unsettledBefore"
  let keep ← positiveInteger keepUnsettled "keepUnsettled"
  let rows ← get
  let (kept, changes) := pruneRows unsettledRetention rows before keep.toNat
  set kept
  pure changes

/-! ## What a call did -/

variable {rows rows' : IdentifierTable} {id fingerprint paymentIntentId payer : String}
  {txHash : Option String} {atMs : Int} {row : PaymentIdentifierRow}

theorem identifierKey_eq_ok {value v : String} :
    identifierKey value = .ok v ↔ isPaymentIdentifier value = true ∧ v = value := by
  unfold identifierKey
  split
  · next h => simp [h, eq_comm]
  · next h => simp [h]

theorem fingerprintHex_eq_ok {value v : String} :
    fingerprintHex value = .ok v ↔ isSha256Hex value = true ∧ v = value := by
  unfold fingerprintHex
  split
  · next h => simp [h, eq_comm]
  · next h => simp [h]

theorem settledHalf_eq_none : settledHalf row = none ↔ row.settled = none := Option.map_eq_none_iff

/-- **A successful `bind` wrote the row of an identifier that was free, or read the row that is
there.** -/
theorem bind_eq_ok {result : PaymentIdentifierBindResult}
    (h : (bind id fingerprint paymentIntentId atMs).run rows = .ok result rows') :
    (result = .new ∧ rows.insert? (boundRow id fingerprint paymentIntentId atMs) = some rows') ∨
      ∃ row, rows.get? id = some row ∧ rows' = rows ∧
        result = judge row fingerprint paymentIntentId := by
  simp only [bind, run_bind_eq_ok, run_lift_eq_ok, run_get_eq_ok, identifierKey_eq_ok,
    fingerprintHex_eq_ok, millis_eq_ok, exists_and_left, exists_eq_left, and_assoc] at h
  obtain ⟨-, -, -, -, h⟩ := h
  cases hinsert : rows.insert? (boundRow id fingerprint paymentIntentId atMs) with
  | some inserted =>
    simp only [hinsert, run_bind_eq_ok, run_set_eq_ok, run_pure_eq_ok, exists_and_left,
      exists_eq_left, exists_const] at h
    exact Or.inl ⟨h.1, h.2 ▸ rfl⟩
  | none =>
    simp only [hinsert] at h
    cases hget : rows.get? id with
    | none =>
      rw [hget] at h
      exact absurd h run_throw_ne_ok
    | some row =>
      rw [hget] at h
      obtain ⟨hresult, hrows⟩ := run_pure_eq_ok.mp h
      exact Or.inr ⟨row, rfl, hrows, hresult⟩

theorem bind_eq_error {e : StoreError}
    (h : (bind id fingerprint paymentIntentId atMs).run rows = .error e rows') :
    rows' = rows := by
  simp only [bind, run_bind_eq_error, run_lift_eq_error, run_lift_eq_ok, run_get_eq_ok,
    run_get_ne_error, false_or, exists_and_left, exists_eq_left, and_assoc] at h
  rcases h with ⟨-, h⟩ | ⟨key, -, ⟨-, h⟩ | ⟨print, -, ⟨-, h⟩ | ⟨at', -, h⟩⟩⟩
  · exact h
  · exact h
  · exact h
  · split at h
    · simp only [run_bind_eq_error, run_set_ne_error, run_pure_ne_error, and_false, or_self,
        exists_false] at h
    · split at h
      · exact (run_throw_eq_error.mp h).2
      · exact absurd h run_pure_ne_error

/-- **A successful `record` filled the row of a bound identifier that was not settled.** -/
theorem record_eq_ok {u : Unit} (h : (record id payer txHash atMs).run rows = .ok u rows') :
    ∃ row, rows.get? id = some row ∧ row.settled = none ∧
      rows' = rows.update id (settle ⟨⟨payer, txHash⟩, atMs⟩) (settle_id _) := by
  simp only [record, run_bind_eq_ok, run_lift_eq_ok, run_get_eq_ok, identifierKey_eq_ok,
    millis_eq_ok, exists_and_left, exists_eq_left, and_assoc] at h
  obtain ⟨-, -, -, h⟩ := h
  cases hopen : (rows.get? id).filter fun row => row.settled.isNone with
  | none =>
    rw [hopen] at h
    exact absurd h run_throw_ne_ok
  | some row =>
    rw [hopen] at h
    obtain ⟨hget, hnone⟩ := Option.filter_eq_some_iff.mp hopen
    exact ⟨row, hget, Option.isNone_iff_eq_none.mp hnone, run_set_eq_ok.mp h⟩

theorem record_eq_error {e : StoreError}
    (h : (record id payer txHash atMs).run rows = .error e rows') : rows' = rows := by
  simp only [record, run_bind_eq_error, run_lift_eq_error, run_lift_eq_ok, run_get_eq_ok,
    run_get_ne_error, false_or, exists_and_left, exists_eq_left, and_assoc] at h
  rcases h with ⟨-, h⟩ | ⟨key, -, ⟨-, h⟩ | ⟨at', -, h⟩⟩
  · exact h
  · exact h
  · split at h
    · exact absurd h run_set_ne_error
    · exact (run_throw_eq_error.mp h).2

theorem unsettledRetention_ordered : unsettledRetention.Ordered PaymentIdentifierRow.id where
  total a b := by
    simp only [unsettledRetention, decide_eq_true_eq]
    rcases lt_trichotomy a.boundAt b.boundAt with h | h | h
    · exact .inr (.inl h)
    · refine (String.le_total b.id a.id).imp ?_ ?_
      · exact fun hid => .inr ⟨h, hid⟩
      · exact fun hid => .inr ⟨h.symm, hid⟩
    · exact .inl (.inl h)
  trans := by
    intro a b c hab hbc
    simp only [unsettledRetention, decide_eq_true_eq] at hab hbc ⊢
    rcases hab with hab | ⟨hab, hid⟩ <;> rcases hbc with hbc | ⟨hbc, hid'⟩
    · exact .inl (by omega)
    · exact .inl (by omega)
    · exact .inl (by omega)
    · exact .inr ⟨by omega, String.le_trans hid' hid⟩
  antisymm := by
    intro a b hab hba
    simp only [unsettledRetention, decide_eq_true_eq] at hab hba
    rcases hab with hab | ⟨hab, hid⟩ <;> rcases hba with hba | ⟨hba, hid'⟩
    · omega
    · omega
    · omega
    · exact String.le_antisymm hid' hid
  time_le := by
    intro a b hab
    simp only [unsettledRetention, decide_eq_true_eq] at hab ⊢
    rcases hab with hab | ⟨hab, -⟩ <;> omega

/-- `prune` refuses bounds that are no numbers of its kind, and makes one pass of retention. -/
theorem prune_eq_ok {before keep : Int} {changes : Nat} :
    (prune before keep).run rows = .ok changes rows' ↔
      ((isSafeInteger before = true ∧ 0 ≤ before) ∧ isSafeInteger keep = true ∧ 1 ≤ keep) ∧
        pruneRows unsettledRetention rows before keep.toNat = (rows', changes) := by
  simp only [prune, run_bind_eq_ok, run_lift_eq_ok, run_get_eq_ok, run_set_eq_ok, run_pure_eq_ok,
    millis_eq_ok, positiveInteger_eq_ok, exists_and_left, exists_eq_left, and_assoc,
    exists_const, Prod.ext_iff]
  grind

theorem prune_eq_error {before keep : Int} {e : StoreError}
    (h : (prune before keep).run rows = .error e rows') : rows' = rows := by
  simp only [prune, run_bind_eq_error, run_lift_eq_error, run_lift_eq_ok, run_get_eq_ok,
    run_get_ne_error, run_set_ne_error, run_pure_ne_error, and_false, or_false,
    exists_and_left, exists_eq_left, and_assoc, exists_false] at h
  rcases h with ⟨-, h⟩ | ⟨before', -, h⟩
  · exact h
  · exact h.2

/-! ### The verdict on a row -/

theorem judge_of_pair_ne (h : row.pair ≠ (fingerprint, paymentIntentId)) :
    ∃ reason, judge row fingerprint paymentIntentId = .conflict reason (settledHalf row) := by
  unfold judge
  by_cases hprint : row.fingerprint ≠ fingerprint
  · exact ⟨.fingerprint, if_pos hprint⟩
  · refine ⟨.paymentIntent, ?_⟩
    rw [if_neg hprint, if_pos]
    intro hintent
    exact h (Prod.ext (not_not.mp hprint) hintent)

/-- A verdict on the pair that is bound. -/
theorem judge_of_pair_eq (h : row.pair = (fingerprint, paymentIntentId)) :
    (row.settled = none ∧ judge row fingerprint paymentIntentId = .new) ∨
      ∃ settled, settledHalf row = some settled ∧
        judge row fingerprint paymentIntentId = .settled settled := by
  obtain ⟨hprint, hintent⟩ := Prod.mk.inj h
  unfold judge
  rw [if_neg (not_not.mpr hprint), if_neg (not_not.mpr hintent)]
  cases hsettled : settledHalf row with
  | none => exact Or.inl ⟨settledHalf_eq_none.mp hsettled, rfl⟩
  | some settled => exact Or.inr ⟨settled, rfl, rfl⟩

end PaymentIdentifiers

/-! ## Runs of operations -/

inductive IdentifierOp where
  | bind (id fingerprint paymentIntentId : String) (atMs : Int)
  | record (id payer : String) (txHash : Option String) (atMs : Int)
  | prune (unsettledBefore keepUnsettled : Int)

namespace IdentifierOp

open PaymentIdentifiers

/-- The table after an operation, however it ended. -/
def exec (rows : IdentifierTable) : IdentifierOp → IdentifierTable
  | .bind id fingerprint paymentIntentId atMs =>
    after (PaymentIdentifiers.bind id fingerprint paymentIntentId atMs) rows
  | .record id payer txHash atMs => after (PaymentIdentifiers.record id payer txHash atMs) rows
  | .prune before keep => after (PaymentIdentifiers.prune before keep) rows

/-- All that one operation can write. -/
inductive Write (rows : IdentifierTable) : IdentifierTable → Prop
  | nothing : Write rows rows
  | bound {id fingerprint paymentIntentId : String} {atMs : Int} {rows' : IdentifierTable}
      (h : rows.insert? (boundRow id fingerprint paymentIntentId atMs) = some rows') :
      Write rows rows'
  | recorded {row : PaymentIdentifierRow} {settled : SettledColumns} {id : String}
      (hget : rows.get? id = some row) (hopen : row.settled = none) :
      Write rows (rows.update id (settle settled) (settle_id settled))
  | pruned (before : Int) (keep : Nat) :
      Write rows (pruneRows unsettledRetention rows before keep).1

variable {rows rows' : IdentifierTable}

/-- **An operation writes one of these things, or nothing.** -/
theorem exec_write (rows : IdentifierTable) (op : IdentifierOp) : Write rows (exec rows op) := by
  cases op with
  | bind id fingerprint paymentIntentId atMs =>
    show Write rows (after (PaymentIdentifiers.bind id fingerprint paymentIntentId atMs) rows)
    rcases after_eq_or fun _ _ => bind_eq_error with h | ⟨result, h⟩
    · exact h.symm ▸ .nothing
    · rcases bind_eq_ok h with ⟨-, hinsert⟩ | ⟨-, -, h, -⟩
      · exact .bound hinsert
      · exact h.symm ▸ .nothing
  | record id payer txHash atMs =>
    show Write rows (after (PaymentIdentifiers.record id payer txHash atMs) rows)
    rcases after_eq_or fun _ _ => record_eq_error with h | ⟨u, h⟩
    · exact h.symm ▸ .nothing
    · obtain ⟨row, hget, hopen, h⟩ := record_eq_ok h
      exact h.symm ▸ .recorded hget hopen
  | prune before keep =>
    show Write rows (after (PaymentIdentifiers.prune before keep) rows)
    rcases after_eq_or fun _ _ => prune_eq_error with h | ⟨changes, h⟩
    · exact h.symm ▸ .nothing
    · rw [← (Prod.mk.inj (prune_eq_ok.mp h).2).1]
      exact .pruned before keep.toNat

namespace Write

/-- **No operation alters or removes a settled row.** -/
theorem mem_of_settled (h : Write rows rows') {row : PaymentIdentifierRow} (hr : row ∈ rows)
    (hsettled : row.settled ≠ none) : row ∈ rows' := by
  cases h with
  | nothing => exact hr
  | bound hinsert => exact (Table.mem_insert? hinsert).mpr (Or.inl hr)
  | @recorded x settled id hget hopen =>
    refine (Table.mem_update (settle_id settled)).mpr ⟨row, hr, (if_neg ?_).symm⟩
    rintro rfl
    rw [Table.get?_of_mem hr] at hget
    exact hsettled (Option.some.inj hget ▸ hopen)
  | pruned before keep =>
    refine mem_pruneRows_of_not_candidate hr ?_
    exact Option.isNone_eq_false_iff.mpr (Option.isSome_iff_ne_none.mpr hsettled)

/-- **What an identifier is bound to does not change while its row is there.** -/
theorem pair_eq (h : Write rows rows') {id : String} {row row' : PaymentIdentifierRow}
    (hget : rows.get? id = some row) (hget' : rows'.get? id = some row') :
    row'.pair = row.pair := by
  cases h with
  | nothing => rw [Option.some.inj (hget.symm.trans hget')]
  | bound hinsert =>
    rw [Table.get?_insert? hinsert] at hget'
    split at hget'
    · next hid =>
      -- The identifier was free.
      subst hid
      rw [(Table.insert?_eq_some.mp hinsert).1] at hget
      cases hget
    · rw [Option.some.inj (hget.symm.trans hget')]
  | @recorded x settled key hkey hopen =>
    rw [Table.get?_update (settle_id settled)] at hget'
    split at hget'
    · next hid =>
      subst hid
      rw [hget] at hget'
      exact Option.some.inj hget' ▸ rfl
    · rw [Option.some.inj (hget.symm.trans hget')]
  | pruned before keep =>
    have hmem := mem_of_mem_pruneRows (Table.mem_of_get? hget')
    have hsame := Table.get?_of_mem hmem
    rw [Table.key_of_get? hget', hget] at hsame
    rw [Option.some.inj hsame]

end Write

end IdentifierOp

end Mapae.Store
