import Mapae.Store.Ledger
import Mapae.Store.PaymentIdentifiers

/-!
# What retention keeps

The ledger prunes its refusals and the identifiers prune the bindings that were never settled,
both by an age and by a count. For every content of the two tables and all bounds they accept:
of the candidates those survive that are not older than the cutoff and among the newest `keep`,
every other row is left, the answer is the number of rows removed, and the same call again
removes nothing.
-/

namespace Mapae.Store

open Mapae.Infra

/-- **What retention keeps**, of the ledger and of the payment identifiers. -/
theorem prune_keeps_newest (events : EventTable) (rows : IdentifierTable) (before keep : Int)
    (hbefore : isSafeInteger before = true ∧ 0 ≤ before)
    (hkeep : isSafeInteger keep = true ∧ 1 ≤ keep) :
    (∃ changes events',
      Ledger.prune events before keep = .ok (changes, events') ∧
        PrunedTo Ledger.rejectedRetention events before keep.toNat changes events' ∧
        Ledger.prune events' before keep = .ok (0, events')) ∧
    (∃ changes rows',
      (PaymentIdentifiers.prune before keep).run rows = .ok changes rows' ∧
        PrunedTo PaymentIdentifiers.unsettledRetention rows before keep.toNat changes rows' ∧
        (PaymentIdentifiers.prune before keep).run rows' = .ok 0 rows') := by
  refine ⟨⟨_, _, Ledger.prune_eq_ok.mpr ⟨⟨hbefore, hkeep⟩, rfl⟩, ?_, ?_⟩,
    ⟨_, _, PaymentIdentifiers.prune_eq_ok.mpr ⟨⟨hbefore, hkeep⟩, rfl⟩, ?_, ?_⟩⟩
  · exact pruneRows_prunedTo Ledger.rejectedRetention_ordered events before keep.toNat
  · refine Ledger.prune_eq_ok.mpr ⟨⟨hbefore, hkeep⟩, ?_⟩
    exact pruneRows_pruneRows Ledger.rejectedRetention_ordered events before keep.toNat
  · exact pruneRows_prunedTo PaymentIdentifiers.unsettledRetention_ordered rows before keep.toNat
  · refine PaymentIdentifiers.prune_eq_ok.mpr ⟨⟨hbefore, hkeep⟩, ?_⟩
    exact pruneRows_pruneRows PaymentIdentifiers.unsettledRetention_ordered rows before keep.toNat

/-- Three refusals, two of one millisecond, and a settlement as old as they are. -/
def sampleEvents : EventTable where
  rows :=
    [⟨⟨20, "settle", "0xa", "0xb", 5, none, .rejected, none, some "reverted"⟩, 1⟩,
      ⟨⟨20, "settle", "0xa", "0xb", 5, none, .settled, none, none⟩, 2⟩,
      ⟨⟨20, "settle", "0xa", "0xb", 5, none, .rejected, none, some "reverted"⟩, 3⟩,
      ⟨⟨10, "verify", "0xa", "0xb", 5, none, .rejected, none, some "reverted"⟩, 4⟩]
  nodup_keys := by decide

/-- Two bindings of one millisecond, one that is settled and an older one. -/
def sampleBindings : IdentifierTable where
  rows :=
    [⟨"a", "", "", 20, none⟩, ⟨"b", "", "", 20, none⟩, ⟨"c", "", "", 20, some ⟨⟨"0xa", none⟩, 21⟩⟩,
      ⟨"d", "", "", 10, none⟩]
  nodup_keys := by decide

theorem prune_keeps_newest_tied :
    (∃ changes events', Ledger.prune sampleEvents 15 1 = .ok (changes, events') ∧
      PrunedTo Ledger.rejectedRetention sampleEvents 15 1 changes events') ∧
    ∃ changes rows', (PaymentIdentifiers.prune 15 1).run sampleBindings = .ok changes rows' ∧
      PrunedTo PaymentIdentifiers.unsettledRetention sampleBindings 15 1 changes rows' := by
  obtain ⟨⟨changes, events', hevents, hkept, -⟩, changes', rows', hrows, hkept', -⟩ :=
    prune_keeps_newest sampleEvents sampleBindings 15 1 (by decide) (by decide)
  exact ⟨⟨changes, events', hevents, hkept⟩, changes', rows', hrows, hkept'⟩

/-- Of the two refusals of one millisecond the later one stays. -/
example : (Ledger.prune sampleEvents 15 1).toOption.map (fun result => (result.1, result.2.rows.map (·.id)))
    = some (2, [2, 3]) := by decide

end Mapae.Store
