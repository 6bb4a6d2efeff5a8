import Mapae.Properties.SpendBudget

/-!
# The room of a day

What the holds of a day take of its budget, when a charge may exceed its hold: an open hold takes its amount, and a
charge no more than the amount it was held for. A hold that was lost with its process takes nothing.

* `BudgetRun.cappedOn` is what they take
* `BudgetCapped` holds through every operation (`BudgetCapped.exec`), so no day is above its limit
-/

namespace Mapae.Delegation

open Mapae.Infra Calendar

namespace IssuedHold

variable {process : Nat} {day : String} {h : IssuedHold}

/-- What a hold takes of the room of `day`: it is open, or it was charged, up to its amount. A hold that was lost
with its process takes nothing. -/
def cappedOn (process : Nat) (day : String) (h : IssuedHold) : Int :=
  if h.hold.day = day then
    match h.charged with
    | some charged => min charged h.hold.amount
    | none => if h.process = process then h.hold.amount else 0
  else 0

theorem cappedOn_le : h.cappedOn process day ≤ h.chargedOn day + h.heldOn process day := by
  obtain ⟨id, process', hold, charged⟩ := h
  unfold cappedOn chargedOn heldOn held IsOpen
  split
  · cases charged with
    | none => simp
    | some charged => simp
  · simp

/-- A charge frees what it leaves of the hold. -/
theorem cappedOn_file (hopen : h.IsOpen process) (actual : Charge) (day : String) :
    (h.file actual).cappedOn process day ≤ h.cappedOn process day := by
  unfold cappedOn file
  rw [hopen.2, if_pos hopen.1]
  split
  · exact min_le_right _ _
  · exact Int.le_refl 0

/-- A restart loses the open holds. -/
theorem cappedOn_restart (hn : 0 ≤ h.hold.amount) (hle : h.process ≤ process) :
    h.cappedOn (process + 1) day ≤ h.cappedOn process day := by
  have hne : h.process ≠ process + 1 := by omega
  simp only [cappedOn, if_neg hne]
  split
  · cases h.charged with
    | some charged => exact Int.le_refl _
    | none =>
      show 0 ≤ if h.process = process then h.hold.amount else 0
      split
      · exact hn
      · exact Int.le_refl 0
  · exact Int.le_refl 0

end IssuedHold

/-- What the holds that `day` admitted take of its room. -/
def BudgetRun.cappedOn (r : BudgetRun) (day : String) : Int := r.holds.sum (IssuedHold.cappedOn r.process day)

section Exec

open BudgetRun

variable {r : BudgetRun} {limit amount : Int} {now : Instant} {hold : BudgetHold} {id : Nat} {h : IssuedHold}
  {actual : Charge}

theorem exec_reserve_none (hnone : (r.budget.reserve amount now).1 = none) :
    r.exec (.reserve amount now) = { r with budget := r.budget.roll now } := by
  by_cases hfull : (r.budget.roll now).spent + (r.budget.roll now).reserved + amount > (r.budget.roll now).dailyLimitWei
  · simp only [BudgetRun.exec, SpendBudget.reserve_full hfull]
  · rw [SpendBudget.reserve_fits hfull] at hnone
    cases hnone

theorem exec_reserve_some (hsome : (r.budget.reserve amount now).1 = some hold) :
    hold = ⟨budgetDay now, amount⟩ ∧
      (r.budget.roll now).spent + (r.budget.roll now).reserved + amount ≤ r.budget.dailyLimitWei ∧
      r.exec (.reserve amount now) = BudgetRun.issue
        { r with budget := { r.budget.roll now with reserved := (r.budget.roll now).reserved + amount } } hold := by
  by_cases hfull : (r.budget.roll now).spent + (r.budget.roll now).reserved + amount > (r.budget.roll now).dailyLimitWei
  · rw [SpendBudget.reserve_full hfull] at hsome
    cases hsome
  · rw [SpendBudget.reserve_fits hfull, Option.some.injEq, SpendBudget.roll_day] at hsome
    subst hsome
    rw [SpendBudget.roll_dailyLimitWei] at hfull
    refine ⟨rfl, Int.not_lt.mp hfull, ?_⟩
    simp only [BudgetRun.exec, SpendBudget.reserve_fits (Int.not_lt.mpr ((Int.not_lt.mp hfull).trans_eq
      (SpendBudget.roll_dailyLimitWei now).symm)), SpendBudget.roll_day]

theorem exec_settle (hget : r.holds.get? id = some h) (hopen : h.IsOpen r.process) :
    r.exec (.settle id actual now) =
      BudgetRun.record { r with budget := (r.budget.settle h.hold actual now).2 } id actual := by
  simp only [BudgetRun.exec, hget, if_pos hopen]

theorem process_exec (op : BudgetOp) (hop : ∀ now, op ≠ .restart now) : (r.exec op).process = r.process := by
  cases op with
  | reserve amount now =>
    simp only [BudgetRun.exec]
    split <;> rfl
  | settle id actual now =>
    simp only [BudgetRun.exec]
    split
    · rfl
    · split <;> rfl
  | spentToday now => rfl
  | remaining now => rfl
  | restart now => exact absurd rfl (hop now)

/-- What keeps every day within its limit, whatever a charge is. -/
structure BudgetCapped (limit : Int) (r : BudgetRun) : Prop where
  invariant : BudgetInvariant limit r
  amounts : r.HoldsNonneg
  charges : ∀ h ∈ r.holds, ∀ charged, h.charged = some charged → 0 ≤ charged
  capped : ∀ day, r.cappedOn day ≤ limit

/-- Amounts and charges are of wei. -/
def BudgetOp.Nonneg : BudgetOp → Prop
  | .reserve amount _ => 0 ≤ amount
  | .settle _ actual _ => ∃ n, actual = .bigint n ∧ 0 ≤ n
  | _ => True

namespace BudgetCapped

theorem replace (hr : BudgetCapped limit r) {b : SpendBudget} (hinv : BudgetInvariant limit { r with budget := b }) :
    BudgetCapped limit { r with budget := b } where
  invariant := hinv
  amounts := hr.amounts
  charges := hr.charges
  capped := hr.capped

theorem issue (hr : BudgetCapped limit r) (hn : 0 ≤ amount) (hsome : (r.budget.reserve amount now).1 = some hold) :
    BudgetCapped limit (r.exec (.reserve amount now)) := by
  have hinvariant := hr.invariant.exec (.reserve amount now)
  obtain ⟨rfl, hfits, hexec⟩ := exec_reserve_some hsome
  rw [hexec] at hinvariant ⊢
  refine ⟨hinvariant, fun h hmem => ?_, fun h hmem charged hcharged => ?_, fun day => ?_⟩
  · rcases BudgetInvariant.mem_issue.mp hmem with hmem | rfl
    · exact hr.amounts h hmem
    · exact hn
  · rcases BudgetInvariant.mem_issue.mp hmem with hmem | rfl
    · exact hr.charges h hmem charged hcharged
    · cases hcharged
  · refine (BudgetInvariant.sum_issue _ _ _).trans_le ?_
    simp only [IssuedHold.cappedOn]
    split
    · next hday =>
      -- What the holds of the day take is charged to it or reserved.
      have hle : r.cappedOn day ≤ r.chargedOn day + r.heldOn day := by
        refine (Table.sum_le_sum fun h _ => IssuedHold.cappedOn_le).trans_eq ?_
        exact Table.sum_add _ _
      have hheld := BudgetInvariant.heldOn_le hr.amounts day
      have hreserved := hr.invariant.reserved hr.amounts
      have hstored := hr.invariant.stored day
      have hspent := (hr.invariant.roll now).agrees.2
      have hlimit := hr.invariant.limit_eq
      rw [SpendBudget.roll_day, SpendBudget.roll_load, hday] at hspent
      rw [SpendBudget.roll_reserved, hspent] at hfits
      show r.cappedOn day + (if r.process = r.process then amount else 0) ≤ limit
      rw [if_pos rfl]
      omega
    · rw [Int.add_zero]
      exact hr.capped day

theorem record (hr : BudgetCapped limit r) (hget : r.holds.get? id = some h) (hopen : h.IsOpen r.process) {n : Int}
    (hn : 0 ≤ n) : BudgetCapped limit (r.exec (.settle id (.bigint n) now)) := by
  have hinvariant := hr.invariant.exec (.settle id (.bigint n) now)
  rw [exec_settle hget hopen] at hinvariant ⊢
  refine ⟨hinvariant, fun x hmem => ?_, fun x hmem charged hcharged => ?_, fun day => ?_⟩
  · obtain ⟨y, hy, rfl⟩ := BudgetInvariant.mem_record.mp hmem
    have hamount := hr.amounts y hy
    split <;> exact hamount
  · obtain ⟨y, hy, rfl⟩ := BudgetInvariant.mem_record.mp hmem
    split at hcharged
    · cases hcharged
      exact hn
    · exact hr.charges y hy charged hcharged
  · have hsum := BudgetInvariant.sum_record (r := { r with budget := (r.budget.settle h.hold (.bigint n) now).2 })
      (.bigint n) hget (IssuedHold.cappedOn r.process day)
    have hfile := IssuedHold.cappedOn_file hopen (.bigint n) day
    have hcapped : r.holds.sum (IssuedHold.cappedOn r.process day) ≤ limit := hr.capped day
    show Table.sum _ (IssuedHold.cappedOn r.process day) ≤ limit
    simp only at hsum
    omega

theorem restart (hr : BudgetCapped limit r) : BudgetCapped limit (r.exec (.restart now)) := by
  have hinvariant := hr.invariant.exec (.restart now)
  simp only [BudgetRun.exec] at hinvariant ⊢
  split
  · exact hr
  · next b hb =>
    refine ⟨by simpa only [hb] using hinvariant, hr.amounts, hr.charges, fun day => ?_⟩
    refine (Table.sum_le_sum fun h hmem => ?_).trans (hr.capped day)
    exact IssuedHold.cappedOn_restart (hr.amounts h hmem) (hr.invariant.process h hmem)

/-- **Every operation keeps each day within its limit.** -/
theorem exec (hr : BudgetCapped limit r) (op : BudgetOp) (hop : op.Nonneg) : BudgetCapped limit (r.exec op) := by
  cases op with
  | reserve amount now =>
    cases hreserve : (r.budget.reserve amount now).1 with
    | none =>
      rw [exec_reserve_none hreserve]
      exact hr.replace (hr.invariant.roll now)
    | some hold => exact hr.issue hop hreserve
  | settle id actual now =>
    obtain ⟨n, rfl, hn⟩ := hop
    cases hget : r.holds.get? id with
    | none =>
      simp only [BudgetRun.exec, hget]
      exact hr
    | some h =>
      by_cases hopen : h.IsOpen r.process
      · exact hr.record hget hopen hn
      · simp only [BudgetRun.exec, hget, if_neg hopen]
        exact hr
  | spentToday now => exact hr.replace (hr.invariant.roll now)
  | remaining now => exact hr.replace (hr.invariant.roll now)
  | restart now => exact hr.restart

end BudgetCapped

end Exec

end Mapae.Delegation
