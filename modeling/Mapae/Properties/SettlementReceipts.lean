import Mapae.Delegation.Receipts
import Mapae.Delegation.UserOperation

/-!
# When receipts show what was moved

The enforcer's counters are kept for each sender, and the reader takes differences between
neighbouring logs of one delegation, whoever sent them.

For every history, every window onto it and every order in which the node returns the logs, the
receipts show what was moved if and only if each log's neighbour shows the counter of the log's own
sender. So it is in every window that holds the logs of one sender only.
-/

namespace Mapae.Delegation

open Mapae.Infra

namespace SpendHistory

variable (h : SpendHistory) (window : List Emission)

/-- No earlier log of the window shows the running total the emission started from. -/
def NoTotalBefore (i : Nat) (e : Emission) : Prop :=
  ∀ j < i, ∀ p, window[j]? = some p → p.transfer.sender = e.transfer.sender →
    h.period p.transfer ≠ h.period e.transfer

/-- Each amount is what the transfer moved, or is left out where the running total before it is not
in the window. -/
def AmountsExact (receipts : List SettlementReceipt) : Prop :=
  ∀ i e r, window[i]? = some e → receipts[i]? = some r →
    r.amount = some e.transfer.amount ∨ r.amount = none ∧ h.NoTotalBefore window i e

/-- What a log shows to the next: its total where both are of one period, and else nothing. -/
def shown (p e : Emission) : Nat := if h.period p.transfer = h.period e.transfer then p.total else 0

/-- Each log's neighbour shows the counter of the log's sender, or shows more than the log's own
total where there is nothing to subtract. -/
def NeighboursShow : Prop :=
  ∀ i p e, window[i]? = some p → window[i + 1]? = some e →
    h.shown p e = e.before ∨ e.total < h.shown p e ∧ h.NoTotalBefore window (i + 1) e

variable {h window} {viem : Viem} {fromBlock : Nat} {toBlock opened : Option Nat}

/-- A log read after its neighbour. -/
theorem amountAfter_neighbour {opens : Bool} {p e : Emission} (hp : p ∈ h.emissions)
    (he : e ∈ h.emissions) :
    (h.log e).amountAfter opens (some (h.log p).reading) =
      if h.shown p e ≤ e.total then some (e.total - h.shown p e) else none := by
  simp only [TransferLog.amountAfter, TransferLog.reading, periodIndexOf_log hp, periodIndexOf_log he,
    shown, log_total]
  by_cases hperiod : h.period p.transfer = h.period e.transfer
  · simp [hperiod]
  · simp [hperiod]

/-- **The first log of a window** that opens before its period begins with an empty counter. -/
theorem first_before_eq_zero {e : Emission} {rest : List Emission}
    (hwindow : h.window fromBlock toBlock = e :: rest)
    (hopens : h.clock fromBlock ≤
      (h.terms e.transfer.sender).startDate
        + h.period e.transfer * (h.terms e.transfer.sender).periodDuration) : e.before = 0 := by
  obtain ⟨before, after, hemissions, hlow⟩ := h.exists_append_window fromBlock toBlock
  rw [hwindow, List.append_assoc, List.cons_append] at hemissions
  rw [before_eq hemissions]
  split
  · rfl
  · next last hlast =>
    have hmem : last ∈ before := List.mem_reverse.mp (List.mem_of_find?_eq_some hlast)
    have hsender : last.transfer.sender = e.transfer.sender := by
      simpa using List.find?_some hlast
    -- a transfer of this period is not older than the window
    refine if_neg fun hperiod => ?_
    have hin : last ∈ h.emissions := hemissions ▸ List.mem_append_left _ hmem
    have hstarted := h.started _ (transfer_mem hin)
    have hclock : h.clock last.transfer.blockNumber < h.clock fromBlock :=
      h.clock_strictMono (hlow last hmem)
    have hfloor := Nat.div_mul_le_self
      (h.clock last.transfer.blockNumber - (h.terms last.transfer.sender).startDate)
      (h.terms last.transfer.sender).periodDuration
    rw [← hperiod, period, ← hsender] at hopens
    omega

/-- **When the neighbours show the counters, and only then, the amounts are exact.** -/
theorem amountsExact_iff {opens : Bool} (hmem : ∀ e ∈ window, e ∈ h.emissions)
    (hfirst : ∀ e, window[0]? = some e → opens = true → e.before = 0) :
    h.AmountsExact window (receiptsAfter viem opens none (window.map h.log)) ↔
      h.NeighboursShow window := by
  constructor
  · intro hexact i p e hp he
    have hr : (receiptsAfter viem opens none (window.map h.log))[i + 1]?
        = some ((h.log e).receipt viem ((h.log e).amountAfter opens (some (h.log p).reading))) :=
      (getElem?_succ_receiptsAfter none).mpr
        ⟨h.log p, h.log e, by rw [List.getElem?_map, hp]; rfl,
          by rw [List.getElem?_map, he]; rfl, rfl⟩
    have hamount := hexact (i + 1) e _ he hr
    simp only [TransferLog.receipt] at hamount
    rw [amountAfter_neighbour (hmem p (List.mem_of_getElem? hp)) (hmem e (List.mem_of_getElem? he))]
      at hamount
    split at hamount
    · next hle =>
      rcases hamount with hamount | ⟨hnone, -⟩
      · have htotal : e.total = e.before + e.transfer.amount := rfl
        have := Option.some.inj hamount
        exact .inl (by omega)
      · cases hnone
    · next hlt =>
      rcases hamount with hnone | ⟨-, hno⟩
      · cases hnone
      · exact .inr ⟨by omega, hno⟩
  · intro hshow i e r he hr
    cases i with
    | zero =>
      obtain ⟨log, hlog, rfl⟩ := (getElem?_zero_receiptsAfter none).mp hr
      obtain rfl : h.log e = log := by
        rw [List.getElem?_map, he] at hlog
        exact Option.some.inj hlog
      simp only [TransferLog.receipt, TransferLog.amountAfter]
      split
      · next hopens =>
        refine .inl (congrArg some ?_)
        change e.before + e.transfer.amount = e.transfer.amount
        rw [hfirst e he hopens, Nat.zero_add]
      · exact .inr ⟨rfl, fun j hj => absurd hj (Nat.not_lt_zero j)⟩
    | succ i =>
      obtain ⟨logp, loge, hlogp, hloge, rfl⟩ := (getElem?_succ_receiptsAfter none).mp hr
      rw [List.getElem?_map] at hlogp hloge
      obtain ⟨p, hp, rfl⟩ := Option.map_eq_some_iff.mp hlogp
      rw [he] at hloge
      obtain rfl := Option.some.inj hloge
      simp only [TransferLog.receipt]
      rw [amountAfter_neighbour (hmem p (List.mem_of_getElem? hp))
        (hmem e (List.mem_of_getElem? he))]
      have htotal : e.total = e.before + e.transfer.amount := rfl
      rcases hshow i p e hp he with heq | ⟨hlt, hno⟩
      · refine .inl ?_
        rw [if_pos (by omega), heq, htotal, Nat.add_sub_cancel_left]
      · exact .inr ⟨if_neg (by omega), hno⟩

/-- **The logs of one sender are read well**: a log's neighbour is the last transfer of its
sender. -/
theorem neighboursShow_of_one_sender
    (hone : ∀ p ∈ h.window fromBlock toBlock, ∀ e ∈ h.window fromBlock toBlock,
      p.transfer.sender = e.transfer.sender) : h.NeighboursShow (h.window fromBlock toBlock) := by
  intro i p e hp he
  refine .inl ?_
  obtain ⟨before, after, hemissions, -⟩ := h.exists_append_window fromBlock toBlock
  have hsender := hone p (List.mem_of_getElem? hp) e (List.mem_of_getElem? he)
  -- the emissions up to the neighbour, then the log
  have hsplit : h.window fromBlock toBlock
      = ((h.window fromBlock toBlock).take i ++ [p]) ++
          e :: (h.window fromBlock toBlock).drop (i + 2) := by
    obtain ⟨hi, hpe⟩ := List.getElem?_eq_some_iff.mp hp
    obtain ⟨hi', hee⟩ := List.getElem?_eq_some_iff.mp he
    rw [List.append_assoc, List.singleton_append, ← hpe, ← hee, List.cons_getElem_drop_succ,
      List.cons_getElem_drop_succ, List.take_append_drop]
  rw [hsplit, ← List.append_assoc, List.append_assoc, List.cons_append, ← List.append_assoc]
    at hemissions
  rw [before_eq hemissions, List.reverse_concat, List.find?_cons_of_pos (by simpa using hsender)]
  rfl

/-- What the reader makes of a window, in whatever order the node returns it. -/
theorem readSettlementReceipts_eq (viem : Viem) (enforcer : String) {logs : List TransferLog}
    (hlogs : logs.Perm ((h.window fromBlock toBlock).map h.log))
    (hopened : ∀ timestamp, opened = some timestamp → timestamp = h.clock fromBlock) :
    ∃ opens, readSettlementReceipts viem (some enforcer) logs opened
        = receiptsAfter viem opens none ((h.window fromBlock toBlock).map h.log) ∧
      ∀ e, (h.window fromBlock toBlock)[0]? = some e → opens = true → e.before = 0 := by
  rw [readSettlementReceipts, orderBy_logs hlogs]
  cases hwindow : h.window fromBlock toBlock with
  | nil => exact ⟨false, rfl, nofun⟩
  | cons e rest =>
    refine ⟨_, rfl, fun e' he' hopens => ?_⟩
    obtain rfl := Option.some.inj he'
    have hin : e ∈ h.emissions :=
      List.mem_of_mem_filter (hwindow.symm ▸ List.mem_cons_self : e ∈ h.window fromBlock toBlock)
    cases hopen : opened with
    | none => rw [hopen] at hopens; cases hopens
    | some timestamp =>
      rw [hopen] at hopens
      refine first_before_eq_zero hwindow ?_
      rw [← hopened timestamp hopen, ← periodIndexOf_log hin]
      exact of_decide_eq_true hopens

end SpendHistory

open SpendHistory

/-- **When receipts show what was moved.** -/
theorem settlement_amounts_exact_iff (viem : Viem) (enforcer : String) (h : SpendHistory)
    (fromBlock : Nat) (toBlock opened : Option Nat) (logs : List TransferLog)
    (hlogs : logs.Perm ((h.window fromBlock toBlock).map h.log))
    (hopened : ∀ timestamp, opened = some timestamp → timestamp = h.clock fromBlock) :
    let receipts := readSettlementReceipts viem (some enforcer) logs opened
    receipts.map SettlementReceipt.transactionHash
        = (h.window fromBlock toBlock).map (·.transfer.transactionHash) ∧
      (h.AmountsExact (h.window fromBlock toBlock) receipts ↔
        h.NeighboursShow (h.window fromBlock toBlock)) ∧
      ((∀ p ∈ h.window fromBlock toBlock, ∀ e ∈ h.window fromBlock toBlock,
          p.transfer.sender = e.transfer.sender) →
        h.AmountsExact (h.window fromBlock toBlock) receipts) := by
  intro receipts
  have hmem : ∀ e ∈ h.window fromBlock toBlock, e ∈ h.emissions := fun e he => List.mem_of_mem_filter he
  obtain ⟨opens, hread, hfirst⟩ := readSettlementReceipts_eq viem enforcer hlogs hopened
  have hreceipts : receipts = receiptsAfter viem opens none _ := hread
  rw [hreceipts]
  refine ⟨?_, amountsExact_iff hmem hfirst, fun hone => ?_⟩
  · rw [map_receiptsAfter, List.map_map]
    rfl
  · exact (amountsExact_iff hmem hfirst).mpr (neighboursShow_of_one_sender hone)

/-! ## Two senders under one delegation -/

def managerAddress : String := "0x00000000000000000000000000000000000000dd"

/-- Anyone may call the enforcer, under any delegation hash. -/
def strangerAddress : String := "0x00000000000000000000000000000000000000bb"

/-- Periods of a hundred seconds, blocks every two. -/
def sampleTerms : PeriodTerms := ⟨"0x00000000000000000000000000000000000000cc", 1000, 100, 2000⟩

def sampleClock (block : Nat) : Nat := 1990 + 2 * block

theorem sampleClock_strictMono : StrictMono sampleClock := fun a b hab => by
  unfold sampleClock
  omega

/-- The manager's transfers: two in one period and one in the next. -/
def managerHistory : SpendHistory where
  delegationHash := "0x01"
  clock := sampleClock
  terms _ := sampleTerms
  transfers :=
    [⟨managerAddress, "0x0a", 100, "0x11", 10, 3⟩, ⟨managerAddress, "0x0a", 50, "0x12", 10, 7⟩,
      ⟨managerAddress, "0x0a", 30, "0x13", 60, 0⟩]
  clock_strictMono := sampleClock_strictMono
  ordered := by decide
  duration_pos := by decide
  started := by decide

theorem settlement_amounts_exact_reversed :
    managerHistory.AmountsExact (managerHistory.window 0 none)
      (readSettlementReceipts Viem.plain (some "0xee")
        ((managerHistory.window 0 none).map managerHistory.log).reverse (some 1990)) :=
  (settlement_amounts_exact_iff Viem.plain "0xee" managerHistory 0 none (some 1990) _
    (List.reverse_perm _) (fun _ h => (Option.some.inj h).symm)).2.2 (by decide)

/-- A stranger's transfer of 5 lies between two of the manager. -/
def mixedHistory : SpendHistory where
  delegationHash := "0x01"
  clock := sampleClock
  terms _ := sampleTerms
  transfers :=
    [⟨managerAddress, "0x0a", 100, "0x11", 10, 0⟩, ⟨strangerAddress, "0x0b", 5, "0x12", 11, 0⟩,
      ⟨managerAddress, "0x0a", 50, "0x13", 12, 0⟩]
  clock_strictMono := sampleClock_strictMono
  ordered := by decide
  duration_pos := by decide
  started := by decide

/-- The manager's second transfer moved 50, and its receipt shows 145. -/
theorem mixed_amounts_not_exact :
    ¬ mixedHistory.AmountsExact (mixedHistory.window 0 none)
      (readSettlementReceipts Viem.plain (some "0xee")
        ((mixedHistory.window 0 none).map mixedHistory.log) (some 1990)) := by
  intro hexact
  rcases hexact 2 ⟨⟨managerAddress, "0x0a", 50, "0x13", 12, 0⟩, 100⟩
    ⟨"0x01", "0x0a", "0x00000000000000000000000000000000000000cc", 150, some 145, 0, 2014, "0x13", 12⟩
    (by decide) (by decide) with hamount | ⟨hnone, -⟩
  · exact absurd hamount (by decide)
  · exact absurd hnone (by decide)

end Mapae.Delegation
