import Mathlib.Data.Nat.Log
import Mathlib.Order.Bounds.Basic

/-!
# Binary search

The least number at which a property begins to hold, between a lower bound and a number that has it.

* `bisect` halves the interval and counts what it asks for
* `isLeast_bisect`: it finds the least number, when the property stays once it holds
* `asked_bisect_le`: it asks about no more numbers than the interval has binary digits
-/

namespace Mapae.Infra

variable {p q : Nat → Prop} [DecidablePred p] [DecidablePred q] {low high : Nat}

/-- What a search comes to. -/
structure Bisection where
  found : Nat
  asked : Nat

/-- Keeps `high` where the property holds. -/
def bisect (p : Nat → Prop) [DecidablePred p] (low high : Nat) : Bisection :=
  if low < high then
    let half := if p ((low + high) / 2) then bisect p low ((low + high) / 2)
      else bisect p ((low + high) / 2 + 1) high
    { half with asked := half.asked + 1 }
  else ⟨low, 0⟩
termination_by high - low

theorem bisect_of_le (h : high ≤ low) : bisect p low high = ⟨low, 0⟩ := by
  rw [bisect, if_neg (Nat.not_lt.mpr h)]

/-- The middle has the property. -/
theorem bisect_of_pos (h : low < high) (hmid : p ((low + high) / 2)) :
    bisect p low high =
      ⟨(bisect p low ((low + high) / 2)).found, (bisect p low ((low + high) / 2)).asked + 1⟩ := by
  rw [bisect, if_pos h, if_pos hmid]

/-- The middle does not have it. -/
theorem bisect_of_neg (h : low < high) (hmid : ¬ p ((low + high) / 2)) :
    bisect p low high =
      ⟨(bisect p ((low + high) / 2 + 1) high).found, (bisect p ((low + high) / 2 + 1) high).asked + 1⟩ := by
  rw [bisect, if_pos h, if_neg hmid]

/-- What is found lies in the interval. -/
theorem found_bisect_mem (h : low ≤ high) : low ≤ (bisect p low high).found ∧ (bisect p low high).found ≤ high := by
  induction low, high using bisect.induct p with
  | case1 low high hlt ihpos ihneg =>
    by_cases hmid : p ((low + high) / 2)
    · rw [bisect_of_pos hlt hmid]
      have := ihpos (by omega)
      exact ⟨this.1, by dsimp only; omega⟩
    · rw [bisect_of_neg hlt hmid]
      have := ihneg (by omega)
      exact ⟨by dsimp only; omega, this.2⟩
  | case2 low high hle =>
    rw [bisect_of_le (Nat.not_lt.mp hle)]
    exact ⟨Nat.le_refl _, h⟩

/-- **The least number with the property is found**, when the property stays once it holds. -/
theorem isLeast_bisect (hp : ∀ ⦃m n⦄, m ≤ n → p m → p n) (h : low ≤ high) (hhigh : p high) :
    IsLeast {n | low ≤ n ∧ p n} (bisect p low high).found := by
  induction low, high using bisect.induct p with
  | case1 low high hlt ihpos ihneg =>
    by_cases hmid : p ((low + high) / 2)
    · rw [bisect_of_pos hlt hmid]
      exact ihpos (by omega) hmid
    · rw [bisect_of_neg hlt hmid]
      obtain ⟨⟨hlow, hfound⟩, hleast⟩ := ihneg (by omega) hhigh
      refine ⟨⟨by dsimp only; omega, hfound⟩, fun n ⟨hn, hpn⟩ => hleast ⟨?_, hpn⟩⟩
      -- nothing up to the middle has the property
      by_contra hbelow
      exact hmid (hp (by omega) hpn)
  | case2 low high hle =>
    rw [bisect_of_le (Nat.not_lt.mp hle)]
    obtain rfl : low = high := by omega
    exact ⟨⟨Nat.le_refl _, hhigh⟩, fun n hn => hn.1⟩

/-- Half an interval has a digit less. -/
theorem clog_half {n : Nat} (h : 0 < n) : Nat.clog 2 (n / 2 + 1) + 1 = Nat.clog 2 (n + 1) := by
  rw [Nat.clog_of_one_lt (by decide : 1 < 2) (by omega : 1 < n + 1)]
  congr 2
  omega

/-- **Few numbers are asked about.** -/
theorem asked_bisect_le : (bisect p low high).asked ≤ Nat.clog 2 (high - low + 1) := by
  induction low, high using bisect.induct p with
  | case1 low high hlt ihpos ihneg =>
    have hhalf := clog_half (n := high - low) (by omega)
    by_cases hmid : p ((low + high) / 2)
    · rw [bisect_of_pos hlt hmid]
      have hle : Nat.clog 2 ((low + high) / 2 - low + 1) ≤ Nat.clog 2 ((high - low) / 2 + 1) :=
        Nat.clog_mono_right 2 (by omega)
      have := ihpos
      dsimp only
      omega
    · rw [bisect_of_neg hlt hmid]
      have hle : Nat.clog 2 (high - ((low + high) / 2 + 1) + 1) ≤ Nat.clog 2 ((high - low) / 2 + 1) :=
        Nat.clog_mono_right 2 (by omega)
      have := ihneg
      dsimp only
      omega
  | case2 low high hle =>
    rw [bisect_of_le (Nat.not_lt.mp hle)]
    exact Nat.zero_le _

end Mapae.Infra
