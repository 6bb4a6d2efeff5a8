import Mapae.Infra.CivilDate
import Mapae.Infra.Table

/-!
# The daily spend budget

The wei a sponsor may spend in one UTC calendar day, counted in memory and written to a
store under the day's key.

* `reserve` holds an amount before the broadcast, or refuses it
* `settle` gives the hold back and charges what was spent to the day that admitted it
* every call first rolls the day in memory over to the day of its clock

The store is the only part that outlives the process. What is reserved is not written to it.
-/

namespace Mapae.Delegation

open Mapae.Infra Calendar

/-- The window key: the UTC calendar day the instant falls in. -/
def budgetDay (now : Instant) : String := now.isoDay

/-- What the store holds: the wei charged on each day. -/
abbrev BudgetStore := String → Int

/-- A live reservation, with the window that admitted it. -/
structure BudgetHold where
  day : String
  amount : Int

/-- A charge as it arrives: a `bigint`, or any other value that was cast to one. -/
inductive Charge
  | bigint (n : Int)
  | other

structure SpendBudget where
  dailyLimitWei : Int
  /-- The contents of the store, when there is one. -/
  store : Option BudgetStore
  spent : Int
  reserved : Int
  day : String

namespace SpendBudget

variable (b : SpendBudget)

/-- `store?.load(day) ?? 0n`. -/
def load (day : String) : Int := (b.store.map (fun s => s day)).getD 0

/-- `store?.save(day, wei)`. -/
def save (day : String) (wei : Int) : SpendBudget :=
  { b with store := b.store.map fun s => Function.update s day wei }

/-- The constructor. It resumes the total that the store has for the day. -/
def create (dailyLimitWei : Int) (now : Instant) (store : Option BudgetStore) :
    Except String SpendBudget :=
  if dailyLimitWei ≤ 0 then .error "dailyLimitWei must be positive"
  else
    let b : SpendBudget :=
      { dailyLimitWei, store, spent := 0, reserved := 0, day := budgetDay now }
    .ok { b with spent := b.load b.day }

def roll (now : Instant) : SpendBudget :=
  if budgetDay now = b.day then b
  else { b with day := budgetDay now, spent := b.load (budgetDay now) }

def persist : SpendBudget := b.save b.day b.spent

/-- Holds `amount` against the budget, or refuses when the day has no room left. -/
def reserve (amount : Int) (now : Instant) : Option BudgetHold × SpendBudget :=
  let b := b.roll now
  if b.spent + b.reserved + amount > b.dailyLimitWei then (none, b)
  else (some ⟨b.day, amount⟩, { b with reserved := b.reserved + amount })

def release (amount : Int) : SpendBudget :=
  let reserved := b.reserved - amount
  { b with reserved := if reserved < 0 then 0 else reserved }

/-- Adds `amount` to the total of `day`, which is in memory only when it is the current day. -/
def charge (day : String) (amount : Int) (now : Instant) : SpendBudget :=
  let b := b.roll now
  if day = b.day then { b with spent := b.spent + amount }.persist
  else b.save day (b.load day + amount)

/-- The message of a settle whose charge cannot be read. -/
def unreadable : String := "settle requires a bigint charge"

/-- Releases a hold and charges the day that admitted it. An unreadable charge is over-estimated
by the whole hold, and then reported. -/
def settle (hold : BudgetHold) (actual : Charge) (now : Instant) :
    Except String Unit × SpendBudget :=
  match actual with
  | .other => (.error unreadable, (b.release hold.amount).charge hold.day hold.amount now)
  | .bigint n => (.ok (), (b.release hold.amount).charge hold.day n now)

def spentToday (now : Instant) : Int × SpendBudget := ((b.roll now).spent, b.roll now)

def remaining (now : Instant) : Int × SpendBudget :=
  let b := b.roll now
  let left := b.dailyLimitWei - b.spent - b.reserved
  (if left > 0 then left else 0, b)

/-! ## What each part does -/

/-- The total in memory is the one the store has for the day. -/
def Agrees : Prop := b.store.isSome ∧ b.spent = b.load b.day

variable {b}

@[simp] theorem roll_reserved (now : Instant) : (b.roll now).reserved = b.reserved := by
  unfold roll
  split <;> rfl

@[simp] theorem roll_dailyLimitWei (now : Instant) :
    (b.roll now).dailyLimitWei = b.dailyLimitWei := by
  unfold roll
  split <;> rfl

@[simp] theorem roll_store (now : Instant) : (b.roll now).store = b.store := by
  unfold roll
  split <;> rfl

@[simp] theorem roll_load (now : Instant) (day : String) :
    (b.roll now).load day = b.load day := by
  unfold load
  rw [roll_store]

@[simp] theorem roll_day (now : Instant) : (b.roll now).day = budgetDay now := by
  unfold roll
  split
  · next h => exact h.symm
  · rfl

theorem Agrees.roll (h : b.Agrees) (now : Instant) : (b.roll now).Agrees := by
  refine ⟨by rw [roll_store]; exact h.1, ?_⟩
  unfold SpendBudget.roll
  split
  · exact h.2
  · rfl

theorem reserve_full {amount : Int} {now : Instant}
    (h : (b.roll now).spent + (b.roll now).reserved + amount > (b.roll now).dailyLimitWei) :
    b.reserve amount now = (none, b.roll now) := if_pos h

theorem reserve_fits {amount : Int} {now : Instant}
    (h : ¬ (b.roll now).spent + (b.roll now).reserved + amount > (b.roll now).dailyLimitWei) :
    b.reserve amount now = (some ⟨(b.roll now).day, amount⟩,
      { b.roll now with reserved := (b.roll now).reserved + amount }) := if_neg h

theorem load_save (h : b.store.isSome) (day : String) (wei : Int) (day' : String) :
    (b.save day wei).load day' = if day' = day then wei else b.load day' := by
  obtain ⟨s, hs⟩ := Option.isSome_iff_exists.mp h
  simp only [load, save, hs, Option.map_some, Option.getD_some, Function.update_apply]

variable (b) in
/-- A charge to the day in memory, which is written through at once. -/
def chargeToday (amount : Int) : SpendBudget := { b with spent := b.spent + amount }.persist

@[simp] theorem chargeToday_reserved (amount : Int) :
    (b.chargeToday amount).reserved = b.reserved := rfl

@[simp] theorem chargeToday_dailyLimitWei (amount : Int) :
    (b.chargeToday amount).dailyLimitWei = b.dailyLimitWei := rfl

@[simp] theorem chargeToday_day (amount : Int) : (b.chargeToday amount).day = b.day := rfl

@[simp] theorem chargeToday_spent (amount : Int) :
    (b.chargeToday amount).spent = b.spent + amount := rfl

theorem chargeToday_load (h : b.Agrees) (amount : Int) (day : String) :
    (b.chargeToday amount).load day = b.load day + if day = b.day then amount else 0 := by
  have hsave := load_save (b := { b with spent := b.spent + amount }) h.1 b.day
    (b.spent + amount) day
  refine hsave.trans ?_
  split
  · next hday => rw [h.2, hday]
  · exact (Int.add_zero _).symm

theorem Agrees.chargeToday (h : b.Agrees) (amount : Int) : (b.chargeToday amount).Agrees := by
  refine ⟨by simpa [SpendBudget.chargeToday, persist, save] using h.1, ?_⟩
  rw [chargeToday_load h, chargeToday_day, chargeToday_spent, if_pos rfl, h.2]

theorem Agrees.save (h : b.Agrees) {day : String} (hday : b.day ≠ day) (wei : Int) :
    (b.save day wei).Agrees := by
  refine ⟨by simpa [SpendBudget.save] using h.1, ?_⟩
  exact h.2.trans ((load_save h.1 _ _ _).trans (if_neg hday)).symm

@[simp] theorem save_reserved (day : String) (wei : Int) :
    (b.save day wei).reserved = b.reserved := rfl

@[simp] theorem save_dailyLimitWei (day : String) (wei : Int) :
    (b.save day wei).dailyLimitWei = b.dailyLimitWei := rfl

theorem charge_eq (day : String) (amount : Int) (now : Instant) :
    b.charge day amount now =
      if day = budgetDay now then (b.roll now).chargeToday amount
      else (b.roll now).save day (b.load day + amount) := by
  simp only [charge, roll_day, roll_load, chargeToday]

/-- **A charge adds to one day's total in the store and to no other.** -/
theorem charge_load (h : b.Agrees) (day : String) (amount : Int) (now : Instant) (day' : String) :
    (b.charge day amount now).load day' = b.load day' + if day' = day then amount else 0 := by
  have hroll := h.roll now
  rw [charge_eq]
  split
  · next hday => rw [chargeToday_load hroll, roll_load, roll_day, hday]
  · rw [load_save hroll.1, roll_load]
    split
    · next hd => rw [hd]
    · rw [Int.add_zero]

theorem Agrees.charge (h : b.Agrees) (day : String) (amount : Int) (now : Instant) :
    (b.charge day amount now).Agrees := by
  have hroll := h.roll now
  rw [charge_eq]
  split
  · exact hroll.chargeToday amount
  · next hday =>
    refine hroll.save ?_ _
    rw [roll_day]
    exact Ne.symm hday

@[simp] theorem charge_reserved (day : String) (amount : Int) (now : Instant) :
    (b.charge day amount now).reserved = b.reserved := by
  rw [charge_eq]
  split
  · rw [chargeToday_reserved, roll_reserved]
  · rw [save_reserved, roll_reserved]

@[simp] theorem charge_dailyLimitWei (day : String) (amount : Int) (now : Instant) :
    (b.charge day amount now).dailyLimitWei = b.dailyLimitWei := by
  rw [charge_eq]
  split
  · rw [chargeToday_dailyLimitWei, roll_dailyLimitWei]
  · rw [save_dailyLimitWei, roll_dailyLimitWei]

/-! ## Settling -/

@[simp] theorem release_load (amount : Int) (day : String) :
    (b.release amount).load day = b.load day := rfl

@[simp] theorem release_dailyLimitWei (amount : Int) :
    (b.release amount).dailyLimitWei = b.dailyLimitWei := rfl

theorem Agrees.release (h : b.Agrees) (amount : Int) : (b.release amount).Agrees := h

/-- A release that is not clamped. -/
theorem release_reserved {amount : Int} (h : 0 ≤ b.reserved - amount) :
    (b.release amount).reserved = b.reserved - amount := if_neg (Int.not_lt.mpr h)

end SpendBudget

/-- What a hold is charged for a value. -/
def BudgetHold.cost (hold : BudgetHold) : Charge → Int
  | .bigint n => n
  | .other => hold.amount

namespace SpendBudget

variable {b : SpendBudget}

/-- **Readable or not, a charge releases the hold and is written to the hold's day.** -/
theorem settle_snd (hold : BudgetHold) (actual : Charge) (now : Instant) :
    (b.settle hold actual now).2 =
      (b.release hold.amount).charge hold.day (hold.cost actual) now := by
  cases actual with
  | bigint n => rfl
  | other => rfl

theorem create_eq_ok {dailyLimitWei : Int} {now : Instant} {store : Option BudgetStore}
    {b : SpendBudget} (h : create dailyLimitWei now store = .ok b) :
    0 < dailyLimitWei ∧ b.dailyLimitWei = dailyLimitWei ∧ b.store = store ∧ b.reserved = 0 ∧
      b.spent = b.load b.day := by
  unfold create at h
  split at h
  · exact nomatch h
  · next hpos =>
    cases h
    exact ⟨Int.not_le.mp hpos, rfl, rfl, rfl, rfl⟩

end SpendBudget

end Mapae.Delegation
