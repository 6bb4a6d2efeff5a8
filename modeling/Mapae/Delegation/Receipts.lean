import Mapae.Delegation.FacilitatorContract
import Mapae.Infra.Window

/-!
# Settlement receipts

The period enforcer logs the running total of a period at every transfer. `readSettlementReceipts`
reads the logs of one delegation back and takes differences.

* The reader sorts what the node returned, and shows the first log's total only where the window
  opens before its period
* `SpendHistory` is a history of transfers under one delegation. The enforcer keeps one counter for
  each sender, and the logs carry the counter of their own sender
-/

namespace Mapae.Delegation

open Mapae.Infra

/-- A `TransferredInPeriod` event, where and when it was emitted. -/
structure TransferLog where
  sender : String
  redeemer : String
  delegationHash : String
  token : String
  periodAmount : Nat
  periodDuration : Nat
  startDate : Nat
  transferredInCurrentPeriod : Nat
  transferTimestamp : Nat
  transactionHash : String
  blockNumber : Nat
  logIndex : Option Nat

structure SettlementReceipt where
  delegationHash : String
  redeemer : String
  token : String
  transferredInCurrentPeriod : Nat
  /-- What the settlement moved, where that can be told. -/
  amount : Option Nat
  period : Nat
  transferTimestamp : Nat
  transactionHash : String
  blockNumber : Nat
  deriving DecidableEq

namespace TransferLog

/-- `periodIndexOf`. -/
def periodIndexOf (log : TransferLog) : Nat :=
  if log.periodDuration = 0 ∨ log.transferTimestamp < log.startDate then 0
  else (log.transferTimestamp - log.startDate) / log.periodDuration

/-- The place of a log in the chain. -/
def place (log : TransferLog) : Nat ×ₗ Nat := toLex (log.blockNumber, log.logIndex.getD 0)

/-- What a log moved, after a log of `previous` period and total. -/
def amountAfter (windowOpensBeforePeriod : Bool) (previous : Option (Nat × Nat)) (log : TransferLog) :
    Option Nat :=
  match previous with
  | none => if windowOpensBeforePeriod then some log.transferredInCurrentPeriod else none
  | some (period, cumulative) =>
    if period ≠ log.periodIndexOf then some log.transferredInCurrentPeriod
    else if cumulative ≤ log.transferredInCurrentPeriod then
      some (log.transferredInCurrentPeriod - cumulative)
    else none -- contradictory ordering

def receipt (viem : Viem) (log : TransferLog) (amount : Option Nat) : SettlementReceipt where
  delegationHash := log.delegationHash
  redeemer := viem.getAddress log.redeemer
  token := viem.getAddress log.token
  transferredInCurrentPeriod := log.transferredInCurrentPeriod
  amount := amount
  period := log.periodIndexOf
  transferTimestamp := log.transferTimestamp
  transactionHash := log.transactionHash
  blockNumber := log.blockNumber

end TransferLog

/-- The receipts of ordered logs. -/
def receiptsAfter (viem : Viem) (windowOpensBeforePeriod : Bool) :
    Option (Nat × Nat) → List TransferLog → List SettlementReceipt
  | _, [] => []
  | previous, log :: logs =>
    log.receipt viem (log.amountAfter windowOpensBeforePeriod previous) ::
      receiptsAfter viem windowOpensBeforePeriod
        (some (log.periodIndexOf, log.transferredInCurrentPeriod)) logs

/-- `logs` is what the node returned from `fromBlock` on, and `opened` the timestamp of that block,
when the node has it. -/
def readSettlementReceipts (viem : Viem) (enforcer : Option String) (logs : List TransferLog)
    (opened : Option Nat) : List SettlementReceipt :=
  match enforcer with
  | none => []
  | some _ =>
    let ordered := orderBy TransferLog.place logs
    match ordered with
    | [] => []
    | first :: _ =>
      let firstPeriodStart := first.startDate + first.periodIndexOf * first.periodDuration
      receiptsAfter viem (opened.any (· ≤ firstPeriodStart)) none ordered

/-! ## The enforcer -/

/-- The terms of a period cap. -/
structure PeriodTerms where
  token : String
  periodAmount : Nat
  periodDuration : Nat
  startDate : Nat

/-- A transfer that the enforcer let through. -/
structure Spend where
  /-- Who called the enforcer. The delegation manager is one such. -/
  sender : String
  redeemer : String
  amount : Nat
  transactionHash : String
  blockNumber : Nat
  logIndex : Nat
  deriving DecidableEq

/-- The counter of one sender under the delegation. -/
structure Allowance where
  lastTransferPeriod : Nat
  transferredInCurrentPeriod : Nat

abbrev Allowances := String → Option Allowance

/-- What the counter holds in a period: it starts again when a period begins. -/
def Allowances.carried (allowances : Allowances) (sender : String) (period : Nat) : Nat :=
  match allowances sender with
  | none => 0
  | some allowance =>
    if allowance.lastTransferPeriod = period then allowance.transferredInCurrentPeriod else 0

/-- The transfers under one delegation, in the order of the chain. The terms are those of a sender's
first transfer. -/
structure SpendHistory where
  delegationHash : String
  /-- The timestamp of each block. -/
  clock : Nat → Nat
  terms : String → PeriodTerms
  transfers : List Spend
  clock_strictMono : StrictMono clock
  ordered : transfers.Pairwise fun a b =>
    toLex (a.blockNumber, a.logIndex) < toLex (b.blockNumber, b.logIndex)
  duration_pos : ∀ t ∈ transfers, 0 < (terms t.sender).periodDuration
  started : ∀ t ∈ transfers, (terms t.sender).startDate ≤ clock t.blockNumber

/-- A transfer, and what its sender's counter held before it. -/
structure Emission where
  transfer : Spend
  before : Nat
  deriving DecidableEq

/-- The running total that is logged. -/
def Emission.total (e : Emission) : Nat := e.before + e.transfer.amount

namespace SpendHistory

variable (h : SpendHistory)

def period (t : Spend) : Nat :=
  (h.clock t.blockNumber - (h.terms t.sender).startDate) / (h.terms t.sender).periodDuration

/-- One transfer: its sender's counter moves on. -/
def consume (allowances : Allowances) (e : Emission) : Allowances :=
  Function.update allowances e.transfer.sender (some ⟨h.period e.transfer, e.total⟩)

def emit (allowances : Allowances) (t : Spend) : Emission :=
  ⟨t, allowances.carried t.sender (h.period t)⟩

/-- The emissions of transfers, from the counters before them. -/
def emitAll : Allowances → List Spend → List Emission
  | _, [] => []
  | allowances, t :: transfers =>
    h.emit allowances t :: emitAll (h.consume allowances (h.emit allowances t)) transfers

def emissions : List Emission := h.emitAll (fun _ => none) h.transfers

/-- The event of an emission. -/
def log (e : Emission) : TransferLog where
  sender := e.transfer.sender
  redeemer := e.transfer.redeemer
  delegationHash := h.delegationHash
  token := (h.terms e.transfer.sender).token
  periodAmount := (h.terms e.transfer.sender).periodAmount
  periodDuration := (h.terms e.transfer.sender).periodDuration
  startDate := (h.terms e.transfer.sender).startDate
  transferredInCurrentPeriod := e.total
  transferTimestamp := h.clock e.transfer.blockNumber
  transactionHash := e.transfer.transactionHash
  blockNumber := e.transfer.blockNumber
  logIndex := some e.transfer.logIndex

/-- What lies between two blocks. Without `toBlock` the window ends with the chain. -/
def window (fromBlock : Nat) (toBlock : Option Nat) : List Emission :=
  h.emissions.filter fun e =>
    decide (fromBlock ≤ e.transfer.blockNumber) && toBlock.all (e.transfer.blockNumber ≤ ·)

end SpendHistory

/-! ## What the reader computes -/

section Reader

variable {viem : Viem} {opens : Bool} {logs : List TransferLog}

/-- What a log shows to the next. -/
def TransferLog.reading (log : TransferLog) : Nat × Nat :=
  (log.periodIndexOf, log.transferredInCurrentPeriod)

theorem map_receiptsAfter (previous : Option (Nat × Nat)) :
    (receiptsAfter viem opens previous logs).map SettlementReceipt.transactionHash
      = logs.map TransferLog.transactionHash := by
  induction logs generalizing previous with
  | nil => rfl
  | cons log logs ih => rw [receiptsAfter, List.map_cons, List.map_cons, ih]; rfl

/-- The first receipt is read after nothing. -/
theorem getElem?_zero_receiptsAfter (previous : Option (Nat × Nat)) {r : SettlementReceipt} :
    (receiptsAfter viem opens previous logs)[0]? = some r ↔
      ∃ log, logs[0]? = some log ∧ r = log.receipt viem (log.amountAfter opens previous) := by
  cases logs with
  | nil => simp [receiptsAfter]
  | cons log logs => simp [receiptsAfter, eq_comm]

/-- **Every other receipt is read after the log before it.** -/
theorem getElem?_succ_receiptsAfter {i : Nat} {r : SettlementReceipt} (previous : Option (Nat × Nat)) :
    (receiptsAfter viem opens previous logs)[i + 1]? = some r ↔
      ∃ before log, logs[i]? = some before ∧ logs[i + 1]? = some log ∧
        r = log.receipt viem (log.amountAfter opens (some before.reading)) := by
  induction i generalizing logs previous with
  | zero =>
    cases logs with
    | nil => simp [receiptsAfter]
    | cons before logs =>
      rw [receiptsAfter, List.getElem?_cons_succ, getElem?_zero_receiptsAfter]
      simp [TransferLog.reading]
  | succ i ih =>
    cases logs with
    | nil => simp [receiptsAfter]
    | cons first logs =>
      rw [receiptsAfter, List.getElem?_cons_succ, ih]
      simp

end Reader

/-! ## What a history emits -/

namespace SpendHistory

variable {h : SpendHistory} {allowances : Allowances} {fromBlock : Nat} {toBlock : Option Nat}

theorem map_emitAll (h : SpendHistory) (allowances : Allowances) (transfers : List Spend) :
    (h.emitAll allowances transfers).map Emission.transfer = transfers := by
  induction transfers generalizing allowances with
  | nil => rfl
  | cons t transfers ih => rw [emitAll, List.map_cons, ih]; rfl

theorem transfer_mem {e : Emission} (he : e ∈ h.emissions) : e.transfer ∈ h.transfers := by
  rw [← map_emitAll h (fun _ => none) h.transfers]
  exact List.mem_map_of_mem he

/-- The emissions lie in the order of the chain. -/
theorem emissions_ordered : h.emissions.Pairwise fun a b =>
    toLex (a.transfer.blockNumber, a.transfer.logIndex)
      < toLex (b.transfer.blockNumber, b.transfer.logIndex) := by
  have hordered := h.ordered
  rw [← map_emitAll h (fun _ => none) h.transfers, List.pairwise_map] at hordered
  exact hordered

/-- **The counters after some emissions**: each sender's last one. -/
theorem foldl_consume (sender : String) (before : List Emission) :
    before.foldl h.consume allowances sender =
      ((before.reverse.find? (·.transfer.sender = sender)).map fun e =>
        ⟨h.period e.transfer, e.total⟩).or (allowances sender) := by
  induction before using List.reverseRecOn with
  | nil => rfl
  | append_singleton before e ih =>
    rw [List.foldl_concat, consume, List.reverse_concat, List.find?_cons]
    by_cases hs : e.transfer.sender = sender
    · subst hs
      simp
    · rw [Function.update_of_ne (Ne.symm hs), ih]
      simp [hs]

/-- What an emission found in its sender's counter. -/
theorem before_eq_carried {transfers : List Spend} {before after : List Emission} {e : Emission}
    (hemit : h.emitAll allowances transfers = before ++ e :: after) :
    e.before = (before.foldl h.consume allowances).carried e.transfer.sender (h.period e.transfer) := by
  induction transfers generalizing allowances before with
  | nil => simp [emitAll] at hemit
  | cons t transfers ih =>
    cases before with
    | nil =>
      obtain ⟨rfl, -⟩ := List.cons.inj hemit
      rfl
    | cons b before =>
      obtain ⟨rfl, hrest⟩ := List.cons.inj hemit
      rw [List.foldl_cons]
      exact ih hrest

/-- **The counter before a transfer** is the total of its sender's last transfer, in the same
period. -/
theorem before_eq {before after : List Emission} {e : Emission}
    (hemit : h.emissions = before ++ e :: after) :
    e.before = match before.reverse.find? (·.transfer.sender = e.transfer.sender) with
      | none => 0
      | some last => if h.period last.transfer = h.period e.transfer then last.total else 0 := by
  rw [before_eq_carried hemit, Allowances.carried, foldl_consume]
  cases before.reverse.find? (·.transfer.sender = e.transfer.sender) with
  | none => rfl
  | some last => rfl

@[simp] theorem log_total (e : Emission) : (h.log e).transferredInCurrentPeriod = e.total := rfl

/-- The period of a log is the period of its transfer. -/
theorem periodIndexOf_log {e : Emission} (he : e ∈ h.emissions) :
    (h.log e).periodIndexOf = h.period e.transfer := by
  have hduration := h.duration_pos _ (transfer_mem he)
  have hstarted := h.started _ (transfer_mem he)
  rw [TransferLog.periodIndexOf, if_neg]
  · rfl
  · simp only [log]
    omega

/-- **The window is a part of the history**, and what comes before it is in earlier blocks. -/
theorem exists_append_window (fromBlock : Nat) (toBlock : Option Nat) :
    ∃ before after, h.emissions = before ++ h.window fromBlock toBlock ++ after ∧
      ∀ e ∈ before, e.transfer.blockNumber < fromBlock := by
  have hordered : h.emissions.Pairwise fun a b => a.transfer.blockNumber ≤ b.transfer.blockNumber := by
    refine emissions_ordered.imp fun {a b} hlt => ?_
    rcases Prod.Lex.toLex_lt_toLex.mp hlt with hlt | ⟨heq, -⟩
    · exact hlt.le
    · exact heq.le
  refine exists_append_filter _ (fun a b hle hb => ?_) hordered
  cases toBlock with
  | none => rfl
  | some toBlock =>
    simp only [Option.all_some, decide_eq_true_eq] at hb ⊢
    exact hle.trans hb

/-- Sorting the logs of a window, in whatever order they come, gives them in the chain's order. -/
theorem orderBy_logs {logs : List TransferLog}
    (hlogs : logs.Perm ((h.window fromBlock toBlock).map h.log)) :
    orderBy TransferLog.place logs = (h.window fromBlock toBlock).map h.log :=
  orderBy_of_perm (List.pairwise_map.mpr (emissions_ordered.filter _)) hlogs

end SpendHistory

end Mapae.Delegation
