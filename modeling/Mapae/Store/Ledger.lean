import Mapae.Store.Retention
import Mapae.Store.Values

/-!
# The settlement ledger

`settlement_events`: one row for each verdict on a payment. A row that records a refusal
charged nobody and may be pruned; a row that records a settlement, or a failure that was
mined, stays for good.

`budget_days` keeps one series of daily figures for each scope: `total`, and beside it
`payer:<address>` for each payer. `book` is what a change to one payer's spending does to
both series of that day.
-/

namespace Mapae.Store

open Mapae.Infra

inductive SettlementOutcome where
  | settled
  | rejected
  | error
  deriving DecidableEq

/-- What `Ledger.record` is given. -/
structure SettlementEventInput where
  atMs : Int
  kind : String
  payer : String
  payTo : String
  amountBase : Int
  txHash : Option String
  outcome : SettlementOutcome
  gasUsed : Option Int
  errorCode : Option String

/-- A row of the ledger. -/
structure SettlementEvent extends SettlementEventInput where
  id : Nat

/-- `settlement_events`. -/
abbrev EventTable := Table SettlementEvent.id

namespace Ledger

/-- `Ledger.record`: checks the numbers and appends the row. -/
def record (events : EventTable) (event : SettlementEventInput) :
    Except StoreError (SettlementEvent × EventTable) := do
  let atMs ← millis event.atMs "at"
  let amountBase ← amountText event.amountBase "amountBase"
  let gasUsed ← optionalAmountText event.gasUsed "gasUsed"
  let row (id : Nat) : SettlementEvent :=
    { event with atMs := atMs, amountBase := amountBase, gasUsed := gasUsed, id := id }
  pure (row events.nextId, events.insertNext row (fun _ => rfl))

/-- Which rows `prune` may remove, and the order `list` shows them in. -/
def rejectedRetention : Retention SettlementEvent where
  candidate e := decide (e.outcome = .rejected)
  time e := e.atMs
  newer a b := decide (b.atMs < a.atMs ∨ (a.atMs = b.atMs ∧ b.id ≤ a.id))

/-- `Ledger.prune`. -/
def prune (events : EventTable) (rejectedBefore keepRejected : Int) :
    Except StoreError (Nat × EventTable) := do
  let before ← millis rejectedBefore "rejectedBefore"
  let keep ← positiveInteger keepRejected "keepRejected"
  let (kept, changes) := pruneRows rejectedRetention events before keep.toNat
  pure (changes, kept)

variable {events events' : EventTable} {event : SettlementEventInput} {row : SettlementEvent}

/-- The numbers of the event pass the checks of `record`. -/
def Recordable (event : SettlementEventInput) : Prop :=
  (isSafeInteger event.atMs = true ∧ 0 ≤ event.atMs) ∧ 0 ≤ event.amountBase ∧
    ∀ gas, event.gasUsed = some gas → 0 ≤ gas

/-- A successful `record` writes the given event under the next id. -/
theorem record_eq_ok :
    record events event = .ok (row, events') ↔
      Recordable event ∧ row = { event with id := events.nextId } ∧
        events.insert? row = some events' := by
  have hnext := Table.insert?_nextId events (fun id => { event with id := id }) (fun _ => rfl)
  simp only [record, bind_eq_ok, millis_eq_ok, amountText_eq_ok, optionalAmountText_eq_ok,
    pure_eq_ok, Prod.mk.injEq, Recordable, and_assoc, exists_and_left, exists_eq_left]
  constructor
  · rintro ⟨hsafe, hat, hbase, hgas, rfl, rfl⟩
    exact ⟨hsafe, hat, hbase, hgas, rfl, hnext⟩
  · rintro ⟨hsafe, hat, hbase, hgas, rfl, hinsert⟩
    exact ⟨hsafe, hat, hbase, hgas, rfl, Option.some.inj (hnext.symm.trans hinsert)⟩

theorem rejectedRetention_ordered : rejectedRetention.Ordered SettlementEvent.id where
  total a b := by
    simp only [rejectedRetention, decide_eq_true_eq]
    omega
  trans := by
    intro a b c hab hbc
    simp only [rejectedRetention, decide_eq_true_eq] at hab hbc ⊢
    omega
  antisymm := by
    intro a b hab hba
    simp only [rejectedRetention, decide_eq_true_eq] at hab hba
    omega
  time_le := by
    intro a b hab
    simp only [rejectedRetention, decide_eq_true_eq] at hab ⊢
    omega

/-- `prune` refuses bounds that are no numbers of its kind, and makes one pass of retention. -/
theorem prune_eq_ok {before keep : Int} {changes : Nat} :
    prune events before keep = .ok (changes, events') ↔
      ((isSafeInteger before = true ∧ 0 ≤ before) ∧ isSafeInteger keep = true ∧ 1 ≤ keep) ∧
        pruneRows rejectedRetention events before keep.toNat = (events', changes) := by
  simp only [prune, bind_eq_ok, millis_eq_ok, positiveInteger_eq_ok, pure_eq_ok, and_assoc,
    exists_and_left, exists_eq_left, Prod.ext_iff]
  grind

theorem mem_of_mem_prune {before keep : Int} {changes : Nat}
    (h : prune events before keep = .ok (changes, events')) (hr : row ∈ events') :
    row ∈ events := by
  simp only [prune, bind_eq_ok, pure_eq_ok, Prod.mk.injEq] at h
  obtain ⟨_, -, _, -, -, rfl⟩ := h
  exact mem_of_mem_pruneRows hr

/-- **`prune` keeps every row that is not a refusal.** -/
theorem mem_prune_of_not_rejected {before keep : Int} {changes : Nat}
    (h : prune events before keep = .ok (changes, events')) (hr : row ∈ events)
    (ho : row.outcome ≠ .rejected) : row ∈ events' := by
  simp only [prune, bind_eq_ok, pure_eq_ok, Prod.mk.injEq] at h
  obtain ⟨_, -, _, -, -, rfl⟩ := h
  exact mem_pruneRows_of_not_candidate hr (by simp [rejectedRetention, ho])

end Ledger

/-! ## Daily figures -/

/-- A row of `budget_days`. -/
structure BudgetDay where
  scope : String
  day : String
  spentWei : Int

abbrev BudgetTable := Table (fun b : BudgetDay => (b.scope, b.day))

def totalScope : String := "total"

def payerScope (payer : String) : String := "payer:" ++ payer

theorem payerScope_injective {p q : String} (h : payerScope p = payerScope q) : p = q := by
  have := congrArg String.toList h
  simp only [payerScope, String.toList_append, List.append_cancel_left_eq] at this
  exact String.toList_inj.mp this

theorem payerScope_ne_totalScope (p : String) : payerScope p ≠ totalScope := by
  intro h
  have := congrArg (fun s => s.toList.head?) h
  simp [payerScope, totalScope, String.toList_append] at this

namespace Budget

/-- What was spent; a day without a row has spent nothing. -/
def load (budget : BudgetTable) (scope day : String) : Int :=
  match budget.get? (scope, day) with
  | some b => b.spentWei
  | none => 0

def save (budget : BudgetTable) (scope day : String) (spentWei : Int) : BudgetTable :=
  budget.upsert ⟨scope, day, spentWei⟩

/-- Saves what was loaded, changed by `delta`. -/
def add (budget : BudgetTable) (scope day : String) (delta : Int) : BudgetTable :=
  save budget scope day (load budget scope day + delta)

/-- Changes a day's total and the payer's share of it alike. -/
def book (budget : BudgetTable) (payer day : String) (delta : Int) : BudgetTable :=
  add (add budget totalScope day delta) (payerScope payer) day delta

variable {budget : BudgetTable} {payer scope day : String} {delta : Int}

@[simp] theorem load_empty : load Table.empty scope day = 0 := rfl

theorem load_save (scope' day' : String) (spent : Int) :
    load (save budget scope day spent) scope' day' =
      if scope = scope' ∧ day = day' then spent else load budget scope' day' := by
  unfold load save
  rw [Table.get?_upsert]
  by_cases h : scope = scope' ∧ day = day'
  · obtain ⟨rfl, rfl⟩ := h
    simp
  · rw [if_neg h, if_neg (fun he => h (Prod.mk.injEq .. ▸ he))]

theorem load_add (scope' day' : String) :
    load (add budget scope day delta) scope' day' =
      load budget scope' day' + if scope = scope' ∧ day = day' then delta else 0 := by
  unfold add
  rw [load_save]
  split
  · next h => rw [h.1, h.2]
  · exact (Int.add_zero _).symm

theorem load_book_total (day' : String) :
    load (book budget payer day delta) totalScope day' =
      load budget totalScope day' + if day = day' then delta else 0 := by
  unfold book
  rw [load_add, load_add]
  simp [payerScope_ne_totalScope]

theorem load_book_payer (payer' day' : String) :
    load (book budget payer day delta) (payerScope payer') day' =
      load budget (payerScope payer') day' +
        if payer = payer' ∧ day = day' then delta else 0 := by
  unfold book
  rw [load_add, load_add, if_neg (fun h => payerScope_ne_totalScope payer' h.1.symm),
    Int.add_zero]
  have hp : payerScope payer = payerScope payer' ↔ payer = payer' :=
    ⟨payerScope_injective, congrArg payerScope⟩
  simp only [hp]

/-! ## The payers' shares -/

/-- All that is filed for a day under a scope other than the total. -/
def shares (budget : BudgetTable) (day : String) : Int :=
  budget.sum (fun b => if b.day = day ∧ b.scope ≠ totalScope then b.spentWei else 0)

theorem shares_add (day' : String) :
    shares (add budget scope day delta) day' =
      shares budget day' + if day = day' ∧ scope ≠ totalScope then delta else 0 := by
  have hsum := Table.sum_upsert budget ⟨scope, day, load budget scope day + delta⟩
    (fun b => if b.day = day' ∧ b.scope ≠ totalScope then b.spentWei else 0)
  unfold shares add save
  unfold load at hsum ⊢
  by_cases hd : day = day' ∧ scope ≠ totalScope
  · cases hg : budget.get? (scope, day) with
    | none =>
      simp only [hg, Option.map_none, Option.getD_none, if_pos hd] at hsum ⊢
      omega
    | some b =>
      have hb := Table.key_of_get? hg
      obtain ⟨hbs, hbd⟩ := Prod.mk.inj hb
      simp only [hg, Option.map_some, Option.getD_some, hbs, hbd, if_pos hd] at hsum ⊢
      omega
  · cases hg : budget.get? (scope, day) with
    | none =>
      simp only [hg, Option.map_none, Option.getD_none, if_neg hd] at hsum ⊢
      omega
    | some b =>
      have hb := Table.key_of_get? hg
      obtain ⟨hbs, hbd⟩ := Prod.mk.inj hb
      simp only [hg, Option.map_some, Option.getD_some, hbs, hbd, if_neg hd] at hsum ⊢
      omega

theorem shares_book (day' : String) :
    shares (book budget payer day delta) day' =
      shares budget day' + if day = day' then delta else 0 := by
  unfold book
  rw [shares_add, shares_add]
  simp [payerScope_ne_totalScope]

/-- Every row is of the total or of some payer. -/
def Scoped (budget : BudgetTable) : Prop :=
  ∀ b ∈ budget, b.scope = totalScope ∨ ∃ payer, b.scope = payerScope payer

theorem Scoped.book (h : Scoped budget) : Scoped (book budget payer day delta) := by
  intro b hb
  unfold Budget.book add save at hb
  rcases Table.mem_upsert.mp hb with rfl | ⟨hb, -⟩
  · exact Or.inr ⟨payer, rfl⟩
  · rcases Table.mem_upsert.mp hb with rfl | ⟨hb, -⟩
    · exact Or.inl rfl
    · exact h b hb

end Budget

end Mapae.Store
