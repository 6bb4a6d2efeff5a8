import Mapae.Infra.Binary64
import Mapae.Infra.Window
import Mapae.Store.Values

/-!
# The policy of a delegation

`assertPolicy` checks the numbers a delegation is made from: how much may be spent in a period,
how long a period and the delegation last, and how much may be spent in all.

* `judgeValidity` says when a delegation is usable; its enforcer compares strictly
* `LegalSchedule` is what the enforcers let through, transfer by transfer
* `exists_schedule_iff`: the greatest total of such a schedule is one period's amount for each
  period that has a usable second
-/

namespace Mapae.Delegation

open Mapae.Infra Mapae.Store

/-- `TimestampEnforcer` terms: when the delegation is usable at all. -/
structure ValidityWindow where
  notBefore : Int
  notAfter : Int

structure ValidityVerdict where
  expired : Bool
  notYetActive : Bool

/-- Whether the window is open, as the enforcer has it: both ends are out, and a bound of zero is
none. -/
def judgeValidity (validity : Option ValidityWindow) (now : Int) : ValidityVerdict :=
  match validity with
  | none => ⟨false, false⟩
  | some validity =>
    ⟨decide (0 < validity.notAfter ∧ validity.notAfter ≤ now),
      decide (0 < validity.notBefore ∧ now ≤ validity.notBefore)⟩

theorem judgeValidity_eq_open {validity : ValidityWindow} {now : Int} :
    judgeValidity (some validity) now = ⟨false, false⟩ ↔
      ¬ (0 < validity.notAfter ∧ validity.notAfter ≤ now) ∧
        ¬ (0 < validity.notBefore ∧ now ≤ validity.notBefore) := by
  rw [judgeValidity, ValidityVerdict.mk.injEq, decide_eq_false_iff_not, decide_eq_false_iff_not]

/-- The numbers of a policy, and whom it pays where it pays one recipient only. -/
structure PeriodPolicy where
  /-- What may be spent in one period. -/
  periodAmount : Int
  /-- What may be spent while the delegation lives. -/
  lifetimeTotalAmount : Option Int
  periodDurationSeconds : Int
  expiresAfterSeconds : Int
  recipient : Option String

namespace PeriodPolicy

/-- What the longest validity window could let out, as `assertPolicy` has it. -/
def windowPeriods (policy : PeriodPolicy) : Int :=
  Binary64.ceilDiv policy.expiresAfterSeconds policy.periodDurationSeconds

def windowCeiling (policy : PeriodPolicy) : Int := policy.periodAmount * policy.windowPeriods

/-- The check of the lifetime total. -/
def assertLifetimeTotal (policy : PeriodPolicy) (lifetimeTotalAmount : Int) :
    Except String Unit := do
  throwIf (lifetimeTotalAmount ≤ 0) "lifetimeTotalAmount must be positive"
  throwIf (lifetimeTotalAmount < policy.periodAmount)
    ("lifetimeTotalAmount must not be smaller than periodAmount; " ++
      "lower periodAmount instead of hiding it behind a smaller total")
  throwIf (policy.windowCeiling ≤ lifetimeTotalAmount)
    (s!"lifetimeTotalAmount {lifetimeTotalAmount} can never bind: this " ++
      s!"validity window holds at most {policy.windowPeriods} periods × " ++
      s!"{policy.periodAmount} = {policy.windowCeiling}; lower the total, or widen " ++
      "expiresAfterSeconds if the grant is meant to live that long")

def assertPolicy (policy : PeriodPolicy) (startDate : Int) : Except String Unit := do
  throwIf (policy.periodAmount ≤ 0) "periodAmount must be positive"
  throwIf (isSafeInteger policy.periodDurationSeconds = false ∨ policy.periodDurationSeconds ≤ 0)
    "periodDurationSeconds must be a positive safe integer"
  throwIf (isSafeInteger policy.expiresAfterSeconds = false ∨ policy.expiresAfterSeconds ≤ 0)
    "expiresAfterSeconds must be a positive safe integer"
  throwIf (isSafeInteger startDate = false ∨ startDate < 0)
    "startDate must be a non-negative Unix timestamp"
  match policy.lifetimeTotalAmount with
  | none => pure ()
  | some lifetimeTotalAmount => policy.assertLifetimeTotal lifetimeTotalAmount

/-- The window `preparePeriodDelegation` writes into the delegation. -/
def validity (policy : PeriodPolicy) (startDate : Int) : ValidityWindow :=
  ⟨startDate, startDate + policy.expiresAfterSeconds⟩

/-- What the checks say of a policy with valid numbers, its lifetime total aside. -/
structure Valid (policy : PeriodPolicy) (startDate : Int) : Prop where
  amount_pos : 0 < policy.periodAmount
  duration_safe : isSafeInteger policy.periodDurationSeconds = true
  duration_pos : 0 < policy.periodDurationSeconds
  expiry_safe : isSafeInteger policy.expiresAfterSeconds = true
  expiry_pos : 0 < policy.expiresAfterSeconds
  start_safe : isSafeInteger startDate = true
  start_nonneg : 0 ≤ startDate

variable {policy : PeriodPolicy} {startDate : Int}

theorem assertLifetimeTotal_eq_ok {total : Int} {u : Unit} :
    policy.assertLifetimeTotal total = .ok u ↔
      0 < total ∧ policy.periodAmount ≤ total ∧ total < policy.windowCeiling := by
  simp only [assertLifetimeTotal, bind_eq_ok, throwIf_eq_ok, not_le, not_lt, exists_const]

theorem assertPolicy_eq_ok {u : Unit} :
    policy.assertPolicy startDate = .ok u ↔
      policy.Valid startDate ∧ ∀ total, policy.lifetimeTotalAmount = some total →
        policy.assertLifetimeTotal total = .ok u := by
  simp only [assertPolicy, bind_eq_ok, throwIf_eq_ok, not_or, not_le, not_lt, Bool.not_eq_false,
    exists_const]
  constructor
  · rintro ⟨hamount, ⟨hsafe, hduration⟩, ⟨hsafe', hexpiry⟩, ⟨hsafe'', hstart⟩, htotal⟩
    refine ⟨⟨hamount, hsafe, hduration, hsafe', hexpiry, hsafe'', hstart⟩, fun total h => ?_⟩
    rwa [h] at htotal
  · rintro ⟨h, htotal⟩
    refine ⟨h.amount_pos, ⟨h.duration_safe, h.duration_pos⟩, ⟨h.expiry_safe, h.expiry_pos⟩,
      ⟨h.start_safe, h.start_nonneg⟩, ?_⟩
    cases hlifetime : policy.lifetimeTotalAmount with
    | none => rfl
    | some total => exact htotal total hlifetime

/-! ## Legal schedules -/

/-- A transfer that a delegation is redeemed for. -/
structure Transfer where
  time : Int
  amount : Nat

/-- The period of a time, counted from the start. -/
def periodOf (policy : PeriodPolicy) (startDate time : Int) : Int :=
  (time - startDate) / policy.periodDurationSeconds

/-- A second at which the delegation can be redeemed. -/
def Usable (policy : PeriodPolicy) (startDate time : Int) : Prop :=
  startDate ≤ time ∧ judgeValidity (some (policy.validity startDate)) time = ⟨false, false⟩

/-- Transfers at usable times, those of one period within its cap. -/
structure LegalSchedule (policy : PeriodPolicy) (startDate : Int) (transfers : List Transfer) :
    Prop where
  usable : ∀ x ∈ transfers, policy.Usable startDate x.time
  capped : ∀ period,
    (((partition (fun x => policy.periodOf startDate x.time) transfers period).map
      Transfer.amount).sum : Int) ≤ policy.periodAmount

def totalOf (transfers : List Transfer) : Nat := (transfers.map Transfer.amount).sum

/-- The first usable second comes so long after the start: the enforcer leaves the start itself
out, unless it is zero. -/
def lead (startDate : Int) : Int := if startDate = 0 then 0 else 1

/-- How many periods have a usable second. -/
def usablePeriods (policy : PeriodPolicy) (startDate : Int) : Int :=
  if policy.expiresAfterSeconds - 1 < lead startDate then 0
  else (policy.expiresAfterSeconds - 1) / policy.periodDurationSeconds
    - lead startDate / policy.periodDurationSeconds + 1

theorem usable_iff (h : policy.Valid startDate) {time : Int} :
    policy.Usable startDate time ↔
      startDate + lead startDate ≤ time ∧ time ≤ startDate + policy.expiresAfterSeconds - 1 := by
  have hexpiry := h.expiry_pos
  have hstart := h.start_nonneg
  rw [Usable, judgeValidity_eq_open]
  simp only [validity, lead]
  split <;> omega

/-- The period of a usable second is one of those that are counted. -/
theorem period_bounds (h : policy.Valid startDate) {time : Int}
    (husable : policy.Usable startDate time) :
    lead startDate / policy.periodDurationSeconds ≤ policy.periodOf startDate time ∧
      policy.periodOf startDate time
        < lead startDate / policy.periodDurationSeconds + policy.usablePeriods startDate := by
  obtain ⟨hlo, hhi⟩ := (usable_iff h).mp husable
  have hfirst : lead startDate / policy.periodDurationSeconds
      ≤ (time - startDate) / policy.periodDurationSeconds :=
    Int.ediv_le_ediv h.duration_pos (by omega)
  have hlast : (time - startDate) / policy.periodDurationSeconds
      ≤ (policy.expiresAfterSeconds - 1) / policy.periodDurationSeconds :=
    Int.ediv_le_ediv h.duration_pos (by omega)
  rw [usablePeriods, if_neg (by omega), periodOf]
  omega

/-- The periods with a usable second. -/
def periods (policy : PeriodPolicy) (startDate : Int) : List Int :=
  (List.range (policy.usablePeriods startDate).toNat).map fun i : Nat =>
    lead startDate / policy.periodDurationSeconds + (i : Int)

theorem mem_periods {period : Int} :
    period ∈ policy.periods startDate ↔
      lead startDate / policy.periodDurationSeconds ≤ period ∧
        period < lead startDate / policy.periodDurationSeconds + policy.usablePeriods startDate := by
  simp only [periods, List.mem_map, List.mem_range]
  constructor
  · rintro ⟨i, hi, rfl⟩
    omega
  · rintro ⟨hlo, hhi⟩
    exact ⟨(period - lead startDate / policy.periodDurationSeconds).toNat, by omega, by omega⟩

theorem nodup_periods : (policy.periods startDate).Nodup :=
  List.nodup_range.map fun i j h => by omega

theorem length_periods : (policy.periods startDate).length = (policy.usablePeriods startDate).toNat := by
  rw [periods, List.length_map, List.length_range]

theorem usablePeriods_nonneg (h : policy.Valid startDate) : 0 ≤ policy.usablePeriods startDate := by
  unfold usablePeriods
  split
  · exact le_refl 0
  · have := Int.ediv_le_ediv h.duration_pos (a := lead startDate)
      (b := policy.expiresAfterSeconds - 1) (by omega)
    omega

/-- **A legal schedule moves at most one cap for each period.** -/
theorem LegalSchedule.total_le (h : policy.Valid startDate) {transfers : List Transfer}
    (hlegal : policy.LegalSchedule startDate transfers) :
    (totalOf transfers : Int) ≤ policy.periodAmount * policy.usablePeriods startDate := by
  have hmem : ∀ x ∈ transfers, policy.periodOf startDate x.time ∈ policy.periods startDate :=
    fun x hx => mem_periods.mpr (period_bounds h (hlegal.usable x hx))
  have hcap : ∀ n ∈ (policy.periods startDate).map (fun period =>
      ((partition (fun x => policy.periodOf startDate x.time) transfers period).map
        Transfer.amount).sum), n ≤ policy.periodAmount.toNat := by
    intro n hn
    obtain ⟨period, -, rfl⟩ := List.mem_map.mp hn
    have := hlegal.capped period
    omega
  have hsum := List.sum_le_card_nsmul _ _ hcap
  rw [sum_partition nodup_periods Transfer.amount hmem, List.length_map, length_periods,
    nsmul_eq_mul] at hsum
  have hcount := usablePeriods_nonneg h
  have hamount := h.amount_pos
  calc (totalOf transfers : Int)
      ≤ ((policy.usablePeriods startDate).toNat * policy.periodAmount.toNat : Nat) := by
        exact_mod_cast hsum
    _ = policy.periodAmount * policy.usablePeriods startDate := by
        rw [Nat.cast_mul, Int.toNat_of_nonneg hcount, Int.toNat_of_nonneg hamount.le, mul_comm]

/-- The first usable second of a period. -/
def firstSecond (policy : PeriodPolicy) (startDate period : Int) : Int :=
  max (startDate + lead startDate) (startDate + period * policy.periodDurationSeconds)

/-- One transfer of the whole cap in each period. -/
def fullest (policy : PeriodPolicy) (startDate : Int) : List Transfer :=
  (policy.periods startDate).map fun period =>
    ⟨policy.firstSecond startDate period, policy.periodAmount.toNat⟩

/-- The second is usable, and lies in its period. -/
theorem firstSecond_spec (h : policy.Valid startDate) {period : Int}
    (hperiod : period ∈ policy.periods startDate) :
    policy.Usable startDate (policy.firstSecond startDate period) ∧
      policy.periodOf startDate (policy.firstSecond startDate period) = period := by
  obtain ⟨hlo, hhi⟩ := mem_periods.mp hperiod
  have hduration := h.duration_pos
  have hroom : ¬ policy.expiresAfterSeconds - 1 < lead startDate := by
    intro hshort
    rw [usablePeriods, if_pos hshort] at hhi
    omega
  rw [usablePeriods, if_neg hroom] at hhi
  have hend : period * policy.periodDurationSeconds ≤ policy.expiresAfterSeconds - 1 :=
    (Int.le_ediv_iff_mul_le hduration).mp (by omega)
  refine ⟨(usable_iff h).mpr ?_, ?_⟩
  · simp only [firstSecond]
    omega
  · by_cases hlead : lead startDate ≤ period * policy.periodDurationSeconds
    · rw [periodOf, firstSecond, max_eq_right (by omega), add_sub_cancel_left,
        Int.mul_ediv_cancel _ hduration.ne']
    · have hle : period ≤ lead startDate / policy.periodDurationSeconds :=
        (Int.le_ediv_iff_mul_le hduration).mpr (by omega)
      rw [periodOf, firstSecond, max_eq_left (by omega), add_sub_cancel_left]
      omega

/-- **The fullest schedule is legal.** -/
theorem legal_fullest (h : policy.Valid startDate) :
    policy.LegalSchedule startDate (policy.fullest startDate) := by
  have hperiods : (policy.fullest startDate).map (fun x => policy.periodOf startDate x.time)
      = policy.periods startDate := by
    rw [fullest, List.map_map]
    refine (List.map_congr_left fun period hperiod => ?_).trans (List.map_id _)
    exact (firstSecond_spec h hperiod).2
  have hamount := h.amount_pos
  constructor
  · intro x hx
    obtain ⟨period, hperiod, rfl⟩ := List.mem_map.mp hx
    exact (firstSecond_spec h hperiod).1
  · intro period
    rw [sum_partition_of_nodup (hperiods ▸ nodup_periods)]
    cases hfind : (policy.fullest startDate).find? fun x =>
        policy.periodOf startDate x.time = period with
    | none => exact hamount.le
    | some x =>
      obtain ⟨period', -, rfl⟩ := List.mem_map.mp (List.mem_of_find?_eq_some hfind)
      exact (Int.toNat_of_nonneg hamount.le).le

theorem total_fullest (h : policy.Valid startDate) :
    (totalOf (policy.fullest startDate) : Int)
      = policy.periodAmount * policy.usablePeriods startDate := by
  have hcount := usablePeriods_nonneg h
  have hamount := h.amount_pos
  have hmap : (policy.fullest startDate).map Transfer.amount
      = (policy.periods startDate).map fun _ => policy.periodAmount.toNat := by
    rw [fullest, List.map_map]
    rfl
  rw [totalOf, hmap, List.map_const', List.sum_replicate, length_periods, nsmul_eq_mul, Nat.cast_id,
    Nat.cast_mul, Int.toNat_of_nonneg hcount, Int.toNat_of_nonneg hamount.le, mul_comm]

/-- **The greatest total of a legal schedule.** -/
theorem exists_schedule_iff (h : policy.Valid startDate) {total : Int} :
    (∃ transfers, policy.LegalSchedule startDate transfers ∧ total < totalOf transfers) ↔
      total < policy.periodAmount * policy.usablePeriods startDate := by
  constructor
  · rintro ⟨transfers, hlegal, htotal⟩
    exact lt_of_lt_of_le htotal (hlegal.total_le h)
  · intro htotal
    exact ⟨policy.fullest startDate, legal_fullest h, (total_fullest h).symm ▸ htotal⟩

/-! ## The ceiling of the check -/

/-- The check counts the periods of all seconds from the start. -/
theorem windowPeriods_eq (h : policy.Valid startDate) :
    policy.windowPeriods = (policy.expiresAfterSeconds - 1) / policy.periodDurationSeconds + 1 := by
  have hsafe : policy.expiresAfterSeconds ≤ maxSafeInteger := (of_decide_eq_true h.expiry_safe).2
  have hexpiry := h.expiry_pos
  have hsmall : |policy.expiresAfterSeconds| < 2 ^ 53 := by
    rw [abs_of_pos hexpiry]
    exact lt_of_le_of_lt hsafe (by decide)
  rw [windowPeriods, Binary64.ceilDiv_eq hsmall h.duration_pos,
    show policy.expiresAfterSeconds + policy.periodDurationSeconds - 1
      = policy.expiresAfterSeconds - 1 + 1 * policy.periodDurationSeconds by omega,
    Int.add_mul_ediv_right _ _ h.duration_pos.ne']

/-- **One period too many is counted** where the second that the enforcer leaves out is a period
of its own, or is all there is. -/
theorem usablePeriods_eq (h : policy.Valid startDate) :
    policy.usablePeriods startDate =
      if startDate ≠ 0 ∧ (policy.periodDurationSeconds = 1 ∨ policy.expiresAfterSeconds = 1) then
        policy.windowPeriods - 1
      else policy.windowPeriods := by
  have hduration := h.duration_pos
  have hexpiry := h.expiry_pos
  rw [windowPeriods_eq h, usablePeriods, lead]
  by_cases hstart : startDate = 0
  · simp only [hstart, ne_eq, not_true_eq_false, false_and, if_true, if_false, Int.zero_ediv]
    rw [if_neg (by omega)]
    omega
  · by_cases hone : policy.expiresAfterSeconds = 1
    · simp [hstart, hone]
    · rw [if_neg hstart, if_neg (by omega)]
      by_cases hsecond : policy.periodDurationSeconds = 1
      · simp [hstart, hsecond]
      · have hlead : 1 / policy.periodDurationSeconds = 0 := Int.ediv_eq_zero_of_lt (by omega) (by omega)
        simp [hstart, hsecond, hone, hlead]

end PeriodPolicy

end Mapae.Delegation
