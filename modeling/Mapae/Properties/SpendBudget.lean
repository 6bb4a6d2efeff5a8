import Mapae.Delegation.SpendBudget
import Mapae.Infra.Transition

/-!
# Conservation of the spend budget

A run reserves, settles each hold at most once, reads, and may restart the process over the
same store. Its clock is arbitrary: it may skip days and step backwards. The run remembers
every hold it was given and what the hold was charged.

* the store has for each day the sum of the charges of the holds admitted on that day
* what is reserved is the sum of the open holds, so no release is ever clamped
* no day is charged and held beyond the limit, unless some charge exceeded its hold
* a charge that cannot be read is the whole hold, and is reported

`spend_budget_conserved` is the result.
-/

namespace Mapae.Delegation

open Mapae.Infra Calendar

/-! ## Runs -/

/-- A hold that was given out, by which process, and what it was charged. -/
structure IssuedHold where
  id : Nat
  process : Nat
  hold : BudgetHold
  charged : Option Int

/-- The process and every hold it and its predecessors gave out. -/
structure BudgetRun where
  budget : SpendBudget
  /-- How often the process was restarted. -/
  process : Nat
  holds : Table IssuedHold.id

inductive BudgetOp
  | reserve (amount : Int) (now : Instant)
  | settle (id : Nat) (actual : Charge) (now : Instant)
  | spentToday (now : Instant)
  | remaining (now : Instant)
  | restart (now : Instant)

namespace IssuedHold

/-- A hold of this process that was not settled yet. -/
def IsOpen (process : Nat) (h : IssuedHold) : Prop := h.process = process ∧ h.charged = none

instance decidableIsOpen (process : Nat) (h : IssuedHold) : Decidable (h.IsOpen process) :=
  inferInstanceAs (Decidable (_ ∧ _))

/-- What a hold still keeps from being spent. -/
def held (process : Nat) (h : IssuedHold) : Int := if h.IsOpen process then h.hold.amount else 0

/-- What a hold keeps of the room of `day`. -/
def heldOn (process : Nat) (day : String) (h : IssuedHold) : Int :=
  if h.hold.day = day then h.held process else 0

/-- What a hold was charged to `day`. -/
def chargedOn (day : String) (h : IssuedHold) : Int :=
  if h.hold.day = day then h.charged.getD 0 else 0

/-- The hold with its charge. -/
def file (actual : Charge) (h : IssuedHold) : IssuedHold :=
  { h with charged := some (h.hold.cost actual) }

theorem file_id (actual : Charge) (h : IssuedHold) : (h.file actual).id = h.id := rfl

theorem held_of_isOpen {process : Nat} {h : IssuedHold} (ho : h.IsOpen process) :
    h.held process = h.hold.amount := if_pos ho

theorem held_of_not_isOpen {process : Nat} {h : IssuedHold} (ho : ¬ h.IsOpen process) :
    h.held process = 0 := if_neg ho

theorem held_new (id process : Nat) (hold : BudgetHold) :
    held process ⟨id, process, hold, none⟩ = hold.amount := held_of_isOpen ⟨rfl, rfl⟩

theorem held_file {process : Nat} {h : IssuedHold} {actual : Charge} :
    (h.file actual).held process = 0 := held_of_not_isOpen fun ho => nomatch ho.2

theorem held_nonneg {process : Nat} {h : IssuedHold} (hn : 0 ≤ h.hold.amount) :
    0 ≤ h.held process := by
  unfold held
  split
  · exact hn
  · exact Int.le_refl 0

end IssuedHold

namespace BudgetRun

/-- The charges of the holds that `day` admitted. -/
def chargedOn (r : BudgetRun) (day : String) : Int := r.holds.sum (IssuedHold.chargedOn day)

/-- The open holds. -/
def held (r : BudgetRun) : Int := r.holds.sum (IssuedHold.held r.process)

/-- The open holds that `day` admitted. -/
def heldOn (r : BudgetRun) (day : String) : Int := r.holds.sum (IssuedHold.heldOn r.process day)

/-- Gives out a hold. -/
def issue (r : BudgetRun) (hold : BudgetHold) : BudgetRun :=
  { r with holds := r.holds.insertNext (fun id => ⟨id, r.process, hold, none⟩) (fun _ => rfl) }

/-- Files what a hold is charged. -/
def record (r : BudgetRun) (id : Nat) (actual : Charge) : BudgetRun :=
  { r with holds := r.holds.update id (IssuedHold.file actual) (IssuedHold.file_id actual) }

def exec (r : BudgetRun) : BudgetOp → BudgetRun
  | .reserve amount now =>
    match r.budget.reserve amount now with
    | (none, b) => { r with budget := b }
    | (some hold, b) => { r with budget := b }.issue hold
  | .settle id actual now =>
    match r.holds.get? id with
    | none => r
    | some h =>
      if h.IsOpen r.process then
        { r with budget := (r.budget.settle h.hold actual now).2 }.record id actual
      else r
  | .spentToday now => { r with budget := (r.budget.spentToday now).2 }
  | .remaining now => { r with budget := (r.budget.remaining now).2 }
  | .restart now =>
    match SpendBudget.create r.budget.dailyLimitWei now r.budget.store with
    | .error _ => r
    | .ok b => { r with budget := b, process := r.process + 1 }

/-- Nobody holds a negative amount: callers hold gas times price, in wei. -/
def HoldsNonneg (r : BudgetRun) : Prop := ∀ h ∈ r.holds, 0 ≤ h.hold.amount

/-- No charge exceeded its hold. -/
def ChargesWithin (r : BudgetRun) : Prop :=
  ∀ h ∈ r.holds, ∀ c, h.charged = some c → c ≤ h.hold.amount

end BudgetRun

/-! ## The invariant -/

structure BudgetInvariant (limit : Int) (r : BudgetRun) : Prop where
  limit_pos : 0 < limit
  limit_eq : r.budget.dailyLimitWei = limit
  agrees : r.budget.Agrees
  process : ∀ h ∈ r.holds, h.process ≤ r.process
  stored : ∀ day, r.budget.load day = r.chargedOn day
  reserved : r.HoldsNonneg → r.budget.reserved = r.held
  within : r.HoldsNonneg → r.ChargesWithin → ∀ day, r.budget.load day + r.heldOn day ≤ limit

namespace BudgetInvariant

open BudgetRun

variable {limit : Int} {r : BudgetRun}

theorem held_nonneg (hn : r.HoldsNonneg) {h : IssuedHold} (hmem : h ∈ r.holds) :
    0 ≤ h.held r.process := IssuedHold.held_nonneg (hn h hmem)

/-- What one day's holds keep is part of what all of them keep. -/
theorem heldOn_le (hn : r.HoldsNonneg) (day : String) : r.heldOn day ≤ r.held :=
  Table.sum_le_sum fun h hmem => by
    unfold IssuedHold.heldOn
    split
    · exact Int.le_refl _
    · exact held_nonneg hn hmem

/-- **The invariant reads only the limit, the totals and the reservation of a budget.** -/
theorem replace (hinv : BudgetInvariant limit r) {b : SpendBudget}
    (hlimit : b.dailyLimitWei = r.budget.dailyLimitWei) (hagrees : b.Agrees)
    (hload : ∀ day, b.load day = r.budget.load day) (hreserved : b.reserved = r.budget.reserved) :
    BudgetInvariant limit { r with budget := b } where
  limit_pos := hinv.limit_pos
  limit_eq := hlimit.trans hinv.limit_eq
  agrees := hagrees
  process := hinv.process
  stored day := (hload day).trans (hinv.stored day)
  reserved hn := hreserved.trans (hinv.reserved hn)
  within hn hc day := by
    have hbefore := hinv.within hn hc day
    rw [← hload] at hbefore
    exact hbefore

/-- **Rolling the day over changes neither the totals nor what is reserved.** -/
theorem roll (hinv : BudgetInvariant limit r) (now : Instant) :
    BudgetInvariant limit { r with budget := r.budget.roll now } :=
  hinv.replace (SpendBudget.roll_dailyLimitWei now) (hinv.agrees.roll now)
    (SpendBudget.roll_load now) (SpendBudget.roll_reserved now)

/-! ### Reserving -/

theorem mem_issue {hold : BudgetHold} {h : IssuedHold} :
    h ∈ (r.issue hold).holds ↔ h ∈ r.holds ∨ h = ⟨r.holds.nextId, r.process, hold, none⟩ :=
  Table.mem_insert? (Table.insert?_nextId _ _ (fun _ => rfl))

theorem sum_issue (r : BudgetRun) (hold : BudgetHold) (g : IssuedHold → Int) :
    (r.issue hold).holds.sum g = r.holds.sum g + g ⟨r.holds.nextId, r.process, hold, none⟩ :=
  Table.sum_insert? (Table.insert?_nextId _ _ (fun _ => rfl)) g

theorem chargedOn_issue (r : BudgetRun) (hold : BudgetHold) (day : String) :
    (r.issue hold).chargedOn day = r.chargedOn day := by
  refine (sum_issue r hold _).trans ?_
  show r.chargedOn day + (if hold.day = day then 0 else 0) = r.chargedOn day
  rw [ite_self, Int.add_zero]

theorem held_issue (r : BudgetRun) (hold : BudgetHold) :
    (r.issue hold).held = r.held + hold.amount := by
  refine (sum_issue r hold _).trans ?_
  exact congrArg (r.held + ·) (IssuedHold.held_new _ _ hold)

theorem heldOn_issue (r : BudgetRun) (hold : BudgetHold) (day : String) :
    (r.issue hold).heldOn day = r.heldOn day + if hold.day = day then hold.amount else 0 := by
  refine (sum_issue r hold _).trans ?_
  exact congrArg (fun x => r.heldOn day + if hold.day = day then x else 0)
    (IssuedHold.held_new _ _ hold)

/-- **An admitted hold fits under the limit of its day.** -/
theorem issue (hinv : BudgetInvariant limit r) (hold : BudgetHold) {b : SpendBudget}
    (hb : b = { r.budget with reserved := r.budget.reserved + hold.amount })
    (hday : hold.day = r.budget.day)
    (hfits : r.budget.spent + r.budget.reserved + hold.amount ≤ limit) :
    BudgetInvariant limit (BudgetRun.issue { r with budget := b } hold) where
  limit_pos := hinv.limit_pos
  limit_eq := hb ▸ hinv.limit_eq
  agrees := hb ▸ hinv.agrees
  process h hmem := by
    rcases mem_issue.mp hmem with hmem | rfl
    · exact hinv.process h hmem
    · exact Nat.le_refl _
  stored day := by
    rw [chargedOn_issue]
    exact hb ▸ hinv.stored day
  reserved hn := by
    have hbefore := hinv.reserved fun h hmem => hn h (mem_issue.mpr (.inl hmem))
    rw [held_issue]
    show b.reserved = r.held + hold.amount
    rw [hb, ← hbefore]
  within hn hc day := by
    have hn' : r.HoldsNonneg := fun h hmem => hn h (mem_issue.mpr (.inl hmem))
    have hc' : r.ChargesWithin := fun h hmem => hc h (mem_issue.mpr (.inl hmem))
    have hbefore := hinv.within hn' hc' day
    have hle := heldOn_le hn' day
    have hreserved := hinv.reserved hn'
    have hspent := hinv.agrees.2
    have hload : b.load day = r.budget.load day := hb ▸ rfl
    rw [heldOn_issue]
    show b.load day + (r.heldOn day + if hold.day = day then hold.amount else 0) ≤ limit
    split
    · next hd =>
      rw [← hday, hd] at hspent
      omega
    · omega

theorem reserve (hinv : BudgetInvariant limit r) (amount : Int) (now : Instant) :
    BudgetInvariant limit (r.exec (.reserve amount now)) := by
  have hroll := hinv.roll now
  have hlimit : (r.budget.roll now).dailyLimitWei = limit := hroll.limit_eq
  unfold exec
  by_cases hfull : (r.budget.roll now).spent + (r.budget.roll now).reserved + amount >
      (r.budget.roll now).dailyLimitWei
  · simp only [SpendBudget.reserve_full hfull]
    exact hroll
  · simp only [SpendBudget.reserve_fits hfull]
    generalize r.budget.roll now = b at hroll hlimit hfull ⊢
    exact hroll.issue ⟨b.day, amount⟩ rfl rfl (by
      show b.spent + b.reserved + amount ≤ limit
      omega)

/-! ### Settling -/

variable {id : Nat} {h : IssuedHold} {actual : Charge}

theorem mem_record {x : IssuedHold} :
    x ∈ (r.record id actual).holds ↔
      ∃ y ∈ r.holds, x = if y.id = id then y.file actual else y :=
  Table.mem_update (IssuedHold.file_id actual)

theorem sum_record (actual : Charge) (hget : r.holds.get? id = some h) (g : IssuedHold → Int) :
    (r.record id actual).holds.sum g + g h =
      r.holds.sum g + g (h.file actual) :=
  Table.sum_update (IssuedHold.file_id actual) hget g

theorem chargedOn_record (hget : r.holds.get? id = some h) (hopen : h.charged = none)
    (day : String) :
    (r.record id actual).chargedOn day =
      r.chargedOn day + if day = h.hold.day then h.hold.cost actual else 0 := by
  have hsum := sum_record actual hget (IssuedHold.chargedOn day)
  unfold BudgetRun.chargedOn
  unfold IssuedHold.chargedOn at hsum ⊢
  simp only [IssuedHold.file, hopen, Option.getD_none, Option.getD_some, ite_self, Int.add_zero] at hsum
  rw [hsum]
  simp only [eq_comm]

theorem held_record (hget : r.holds.get? id = some h) (hopen : h.IsOpen r.process) :
    (r.record id actual).held = r.held - h.hold.amount := by
  have hsum := sum_record actual hget (IssuedHold.held r.process)
  rw [IssuedHold.held_of_isOpen hopen, IssuedHold.held_file] at hsum
  show (r.record id actual).holds.sum (IssuedHold.held r.process) = r.held - h.hold.amount
  unfold BudgetRun.held
  omega

theorem heldOn_record (hget : r.holds.get? id = some h) (hopen : h.IsOpen r.process)
    (day : String) :
    (r.record id actual).heldOn day =
      r.heldOn day - if day = h.hold.day then h.hold.amount else 0 := by
  have hsum := sum_record actual hget (IssuedHold.heldOn r.process day)
  unfold IssuedHold.heldOn at hsum
  rw [IssuedHold.held_of_isOpen hopen, IssuedHold.held_file, ite_self] at hsum
  show (r.record id actual).holds.sum (IssuedHold.heldOn r.process day) = _
  unfold BudgetRun.heldOn IssuedHold.heldOn
  simp only [eq_comm (a := day)]
  omega

theorem holdsNonneg_of_record (hn : (r.record id actual).HoldsNonneg) : r.HoldsNonneg := by
  intro y hy
  have hrow := hn _ (mem_record.mpr ⟨y, hy, rfl⟩)
  split at hrow <;> exact hrow

theorem chargesWithin_of_record (hget : r.holds.get? id = some h) (hopen : h.charged = none)
    (hc : (r.record id actual).ChargesWithin) :
    r.ChargesWithin ∧ h.hold.cost actual ≤ h.hold.amount := by
  obtain ⟨hmem, hid⟩ := Table.get?_eq_some.mp hget
  refine ⟨fun y hy c hcharged => ?_, ?_⟩
  · have hrow := hc _ (mem_record.mpr ⟨y, hy, rfl⟩)
    by_cases hyid : y.id = id
    · -- the settled hold itself had no charge before
      have hyh : y = h := Table.eq_of_key hy hmem (hyid.trans hid.symm)
      rw [hyh, hopen] at hcharged
      exact nomatch hcharged
    · rw [if_neg hyid] at hrow
      exact hrow c hcharged
  · have hrow := hc _ (mem_record.mpr ⟨h, hmem, rfl⟩)
    rw [if_pos hid] at hrow
    exact hrow _ rfl

/-- **No release is clamped: an open hold is part of what is reserved.** -/
theorem amount_le_reserved (hinv : BudgetInvariant limit r) (hn : r.HoldsNonneg)
    (hmem : h ∈ r.holds) (hopen : h.IsOpen r.process) : h.hold.amount ≤ r.budget.reserved := by
  have hle := Table.le_sum (g := IssuedHold.held r.process)
    (fun x hx => held_nonneg hn hx) hmem
  rw [IssuedHold.held_of_isOpen hopen] at hle
  rw [hinv.reserved hn]
  exact hle

/-- **Settling moves a hold from what is reserved to the total of the hold's day.** -/
theorem record (hinv : BudgetInvariant limit r) (hget : r.holds.get? id = some h)
    (hopen : h.IsOpen r.process) {b : SpendBudget} {now : Instant}
    (hb : b = (r.budget.release h.hold.amount).charge h.hold.day (h.hold.cost actual) now) :
    BudgetInvariant limit (BudgetRun.record { r with budget := b } id actual) := by
  have hagrees : b.Agrees := hb ▸ (hinv.agrees.release _).charge _ _ _
  have hload (day : String) : b.load day =
      r.budget.load day + if day = h.hold.day then h.hold.cost actual else 0 := by
    rw [hb, SpendBudget.charge_load (hinv.agrees.release _), SpendBudget.release_load]
  exact {
    limit_pos := hinv.limit_pos
    limit_eq := by
      show b.dailyLimitWei = limit
      rw [hb, SpendBudget.charge_dailyLimitWei, SpendBudget.release_dailyLimitWei, hinv.limit_eq]
    agrees := hagrees
    process x hx := by
      obtain ⟨y, hy, rfl⟩ := mem_record.mp hx
      have hle := hinv.process y hy
      split <;> exact hle
    stored day := by
      rw [chargedOn_record (r := { r with budget := b }) hget hopen.2]
      exact (hload day).trans (congrArg (· + _) (hinv.stored day))
    reserved hn := by
      have hn' : r.HoldsNonneg := holdsNonneg_of_record (r := { r with budget := b }) hn
      have hle := hinv.amount_le_reserved hn' (Table.mem_of_get? hget) hopen
      rw [held_record (r := { r with budget := b }) hget hopen]
      show b.reserved = r.held - h.hold.amount
      rw [hb, SpendBudget.charge_reserved, SpendBudget.release_reserved (by omega),
        hinv.reserved hn']
    within hn hc day := by
      have hn' : r.HoldsNonneg := holdsNonneg_of_record (r := { r with budget := b }) hn
      obtain ⟨hc', hcost⟩ :=
        chargesWithin_of_record (r := { r with budget := b }) hget hopen.2 hc
      have hbefore := hinv.within hn' hc' day
      rw [heldOn_record (r := { r with budget := b }) hget hopen]
      show b.load day + (r.heldOn day - if day = h.hold.day then h.hold.amount else 0) ≤ limit
      rw [hload]
      split
      · omega
      · omega }

/-! ### Restarting -/

/-- A new process over the same store has no open hold. -/
theorem held_restart (hinv : BudgetInvariant limit r) {h : IssuedHold} (hmem : h ∈ r.holds) :
    h.held (r.process + 1) = 0 := by
  refine IssuedHold.held_of_not_isOpen fun ho => ?_
  have hle := hinv.process h hmem
  rw [ho.1] at hle
  exact Nat.not_succ_le_self _ hle

theorem restart (hinv : BudgetInvariant limit r) {now : Instant} {b : SpendBudget}
    (hb : SpendBudget.create r.budget.dailyLimitWei now r.budget.store = .ok b) :
    BudgetInvariant limit { r with budget := b, process := r.process + 1 } := by
  obtain ⟨_, hlimit, hstore, hreserved, hspent⟩ := SpendBudget.create_eq_ok hb
  have hload (day : String) : b.load day = r.budget.load day := by
    unfold SpendBudget.load
    rw [hstore]
  have hzero {g : IssuedHold → Int} (hg : ∀ h ∈ r.holds, g h = 0) : r.holds.sum g = 0 :=
    List.sum_eq_zero fun x hx => by
      obtain ⟨h, hmem, rfl⟩ := List.mem_map.mp hx
      exact hg h hmem
  exact {
    limit_pos := hinv.limit_pos
    limit_eq := hlimit.trans hinv.limit_eq
    agrees := ⟨hstore ▸ hinv.agrees.1, hspent⟩
    process h hmem := Nat.le_succ_of_le (hinv.process h hmem)
    stored day := (hload day).trans (hinv.stored day)
    reserved _ := hreserved.trans (hzero fun h hmem => hinv.held_restart hmem).symm
    within hn hc day := by
      have hbefore := hinv.within hn hc day
      have hnone : Table.sum r.holds (IssuedHold.heldOn (r.process + 1) day) = 0 :=
        hzero fun h hmem => by
          unfold IssuedHold.heldOn
          rw [hinv.held_restart hmem, ite_self]
      have hnonneg : 0 ≤ r.heldOn day := Table.sum_nonneg fun h hmem => by
        unfold IssuedHold.heldOn
        split
        · exact held_nonneg (r := r) hn hmem
        · exact Int.le_refl 0
      show b.load day + Table.sum r.holds (IssuedHold.heldOn (r.process + 1) day) ≤ limit
      rw [hload, hnone]
      omega }

/-! ### Every operation -/

theorem exec (hinv : BudgetInvariant limit r) : ∀ op, BudgetInvariant limit (r.exec op)
  | .reserve amount now => hinv.reserve amount now
  | .settle id actual now => by
    simp only [BudgetRun.exec]
    split
    · exact hinv
    · next h hget =>
      split
      · next hopen => exact hinv.record hget hopen (SpendBudget.settle_snd _ _ _)
      · exact hinv
  | .spentToday now => hinv.roll now
  | .remaining now => hinv.roll now
  | .restart now => by
    simp only [BudgetRun.exec]
    split
    · exact hinv
    · next b hb => exact hinv.restart hb

end BudgetInvariant

/-! ## The result -/

/-- A new budget over an empty store, which has given out nothing. -/
def BudgetRun.start (b : SpendBudget) : BudgetRun := ⟨b, 0, Table.empty⟩

theorem budgetInvariant_start {limit : Int} {now : Instant} {b : SpendBudget}
    (hb : SpendBudget.create limit now (some fun _ => 0) = .ok b) :
    BudgetInvariant limit (.start b) := by
  obtain ⟨hpos, hlimit, hstore, hreserved, hspent⟩ := SpendBudget.create_eq_ok hb
  have hload (day : String) : b.load day = 0 := by
    unfold SpendBudget.load
    rw [hstore]
    rfl
  exact {
    limit_pos := hpos
    limit_eq := hlimit
    agrees := ⟨hstore ▸ rfl, hspent⟩
    process := fun _ h => absurd h Table.not_mem_empty
    stored := hload
    reserved := fun _ => hreserved
    within := fun _ _ day => by
      show b.load day + 0 ≤ limit
      rw [hload]
      omega }

/-- What holds of a budget after a run. -/
structure BudgetConserved (limit : Int) (r : BudgetRun) : Prop where
  /-- The stored total of a day is the sum of the charges of the holds admitted on that day. -/
  stored : ∀ day, r.budget.load day = r.chargedOn day
  /-- The outstanding reservation is the sum of the open holds. -/
  reserved : r.HoldsNonneg → r.budget.reserved = r.held
  /-- Whichever open hold is settled next, its release does not reach the clamp. -/
  unclamped : r.HoldsNonneg → ∀ h ∈ r.holds, h.IsOpen r.process →
    ¬ r.budget.reserved - h.hold.amount < 0
  /-- Spent and held together stay within the limit of the day. -/
  within : r.HoldsNonneg → r.ChargesWithin → ∀ day, r.budget.load day + r.heldOn day ≤ limit
  /-- A charge that cannot be read costs the whole hold, and is reported. -/
  unreadable : ∀ h ∈ r.holds, h.IsOpen r.process → ∀ now,
    (r.budget.settle h.hold .other now).1 = .error SpendBudget.unreadable ∧
      ∀ day, (r.budget.settle h.hold .other now).2.load day =
        r.budget.load day + if day = h.hold.day then h.hold.amount else 0

/-- **The spend budget is conserved over every run**, where holds are non-negative amounts of wei. -/
theorem spend_budget_conserved {limit : Int} {now : Instant} {b : SpendBudget}
    (hb : SpendBudget.create limit now (some fun _ => 0) = .ok b) (ops : List BudgetOp) :
    BudgetConserved limit (run BudgetRun.exec (.start b) ops) := by
  have hinv := run_invariant (P := BudgetInvariant limit) (fun _ op h => h.exec op) ops _
    (budgetInvariant_start hb)
  exact {
    stored := hinv.stored
    reserved := hinv.reserved
    unclamped := fun hn h hmem hopen => by
      have hle := hinv.amount_le_reserved hn hmem hopen
      omega
    within := hinv.within
    unreadable := fun h _ _ now => by
      refine ⟨rfl, fun day => ?_⟩
      rw [SpendBudget.settle_snd, SpendBudget.charge_load (hinv.agrees.release _),
        SpendBudget.release_load]
      rfl }

/-- One budget over midnight: the hold of the first day is settled on the second. -/
theorem spend_budget_conserved_midnight :
    BudgetConserved 10 (run BudgetRun.exec
      (.start ⟨10, some fun _ => 0, 0, 0, budgetDay ⟨86399000, by decide⟩⟩)
      [.reserve 4 ⟨86399000, by decide⟩, .settle 1 .other ⟨86401000, by decide⟩]) :=
  spend_budget_conserved (show SpendBudget.create 10 ⟨86399000, by decide⟩ _ = _ from rfl) _

end Mapae.Delegation
