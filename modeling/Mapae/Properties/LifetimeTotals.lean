import Mapae.Delegation.Policy

/-!
# When a lifetime total means something

A lifetime total means something when it is no less than one period's amount and some legal
schedule of transfers would exceed it.

For every policy whose other numbers are valid, `assertPolicy` accepts the total if and only if it
means something, unless periods last one second, the start is not zero and the total is in the
last period's reach: the check counts the second of the start as a period, and the enforcer
leaves it out.
-/

namespace Mapae.Delegation

open Mapae.Infra

namespace PeriodPolicy

variable {policy : PeriodPolicy} {startDate total : Int}

/-- The total is no less than one period's amount, and some legal schedule exceeds it. -/
def Binds (policy : PeriodPolicy) (startDate total : Int) : Prop :=
  policy.periodAmount ≤ total ∧
    ∃ transfers, policy.LegalSchedule startDate transfers ∧ total < totalOf transfers

/-- The total lies in the amount of one period more than can be used. -/
structure LastPeriodOnly (policy : PeriodPolicy) (startDate total : Int) : Prop where
  secondly : policy.periodDurationSeconds = 1
  started : startDate ≠ 0
  amount_le : policy.periodAmount ≤ total
  usable_le : policy.periodAmount * (policy.expiresAfterSeconds - 1) ≤ total
  lt_counted : total < policy.periodAmount * policy.expiresAfterSeconds

theorem valid_of_others {u : Unit}
    (h : { policy with lifetimeTotalAmount := none }.assertPolicy startDate = .ok u) :
    policy.Valid startDate := by
  obtain ⟨hvalid, -⟩ := assertPolicy_eq_ok.mp h
  exact ⟨hvalid.amount_pos, hvalid.duration_safe, hvalid.duration_pos, hvalid.expiry_safe,
    hvalid.expiry_pos, hvalid.start_safe, hvalid.start_nonneg⟩

/-- The numbers the check compares the total with. -/
theorem accepts_iff (hvalid : policy.Valid startDate)
    (htotal : policy.lifetimeTotalAmount = some total) :
    policy.assertPolicy startDate = .ok () ↔
      policy.periodAmount ≤ total ∧ total < policy.windowCeiling := by
  have hamount := hvalid.amount_pos
  rw [assertPolicy_eq_ok, htotal]
  constructor
  · rintro ⟨-, h⟩
    exact (assertLifetimeTotal_eq_ok.mp (h total rfl)).2
  · rintro ⟨hle, hlt⟩
    refine ⟨hvalid, fun total' h => ?_⟩
    obtain rfl := Option.some.inj h
    exact assertLifetimeTotal_eq_ok.mpr ⟨by omega, hle, hlt⟩

/-- The ceiling is one period's amount too high where a period too many is counted. -/
theorem ceiling_eq (hvalid : policy.Valid startDate) :
    policy.windowCeiling = policy.periodAmount * policy.usablePeriods startDate +
      if startDate ≠ 0 ∧ (policy.periodDurationSeconds = 1 ∨ policy.expiresAfterSeconds = 1) then
        policy.periodAmount
      else 0 := by
  rw [windowCeiling, usablePeriods_eq hvalid]
  split
  · rw [mul_sub, mul_one]
    omega
  · rw [add_zero]

/-- **When a lifetime total is accepted.** -/
theorem lifetime_total_binds (policy : PeriodPolicy) (startDate total : Int)
    (hothers : { policy with lifetimeTotalAmount := none }.assertPolicy startDate = .ok ())
    (htotal : policy.lifetimeTotalAmount = some total) :
    (policy.assertPolicy startDate = .ok () ↔ policy.Binds startDate total) ↔
      ¬ policy.LastPeriodOnly startDate total := by
  have hvalid := valid_of_others hothers
  have hamount := hvalid.amount_pos
  have hexpiry := hvalid.expiry_pos
  rw [accepts_iff hvalid htotal, Binds, exists_schedule_iff hvalid, ceiling_eq hvalid]
  have hperiods := usablePeriods_eq hvalid
  have hwindow := windowPeriods_eq hvalid
  by_cases hstart : startDate = 0
  · rw [if_neg (by simp [hstart]), add_zero]
    exact iff_of_true Iff.rfl fun h => h.started hstart
  by_cases hsecond : policy.periodDurationSeconds = 1
  · rw [if_pos ⟨hstart, .inl hsecond⟩] at hperiods ⊢
    rw [hsecond, Int.ediv_one] at hwindow
    have husable : policy.usablePeriods startDate = policy.expiresAfterSeconds - 1 := by omega
    rw [husable]
    have hcounted : policy.periodAmount * (policy.expiresAfterSeconds - 1) + policy.periodAmount
        = policy.periodAmount * policy.expiresAfterSeconds := by
      rw [mul_sub, mul_one]
      omega
    constructor
    · rintro hiff ⟨-, -, hle, husable, hlt⟩
      have := (hiff.mp ⟨hle, hcounted ▸ hlt⟩).2
      omega
    · intro hnot
      refine and_congr_right fun hle => ⟨fun hlt => ?_, fun hlt => by omega⟩
      by_contra hge
      exact hnot ⟨hsecond, hstart, hle, not_lt.mp hge, hcounted ▸ hlt⟩
  by_cases hone : policy.expiresAfterSeconds = 1
  · -- There is no usable second at all, and the check refuses every total.
    rw [if_pos ⟨hstart, .inr hone⟩] at hperiods ⊢
    have hnone : (policy.expiresAfterSeconds - 1) / policy.periodDurationSeconds = 0 := by
      rw [hone, sub_self, Int.zero_ediv]
    rw [show policy.usablePeriods startDate = 0 by omega, mul_zero]
    refine iff_of_true ?_ fun h => hsecond h.secondly
    omega
  · rw [if_neg (by simp [hsecond, hone]), add_zero]
    exact iff_of_true Iff.rfl fun h => hsecond h.secondly

/-- Ten one-second periods are counted, and nine can be used. -/
def secondlyPolicy : PeriodPolicy := ⟨1, some 9, 1, 10, none⟩

theorem secondlyPolicy_valid : secondlyPolicy.Valid 1000 := by
  constructor <;> decide

theorem lifetime_total_binds_secondly :
    (secondlyPolicy.assertPolicy 1000 = .ok () ↔ secondlyPolicy.Binds 1000 9) ↔
      ¬ secondlyPolicy.LastPeriodOnly 1000 9 :=
  lifetime_total_binds secondlyPolicy 1000 9
    (assertPolicy_eq_ok.mpr ⟨by constructor <;> decide, nofun⟩) rfl

/-- A total that no legal schedule exceeds is accepted. -/
theorem unreachable_total_accepted :
    secondlyPolicy.assertPolicy 1000 = .ok () ∧ ¬ secondlyPolicy.Binds 1000 9 := by
  have hwindow := windowPeriods_eq secondlyPolicy_valid
  have hperiods := usablePeriods_eq secondlyPolicy_valid
  constructor
  · refine (accepts_iff secondlyPolicy_valid rfl).mpr ⟨by decide, ?_⟩
    rw [windowCeiling, hwindow]
    decide
  · rintro ⟨-, hschedule⟩
    have hlt := (exists_schedule_iff secondlyPolicy_valid).mp hschedule
    rw [hperiods, hwindow] at hlt
    exact absurd hlt (by decide)

end PeriodPolicy

end Mapae.Delegation
