import Mapae.Properties.Schedule
import Mathlib.Data.Set.Finite.Lattice

/-!
# Runs keep to distinct slots

The time of a job is cut into slots of its interval, from its start on. Under a clock that does
not go back, no two runs of a job that may have been paid were claimed in one slot, and every
claim lies between the start and the end of its job.

* `nextSlot_eq` and `le_nextSlot` say what double precision makes of the next boundary: it is
  exact up to `2 ^ 53`, and not below `2 ^ 53` beyond
* `TimedJob` is what a clock adds to the invariant of a job
-/

namespace Mapae.Store

open Mapae.Infra Scheduler
open ScheduleOp (exec Write exec_write)

/-! ## Slots -/

/-- Where slot `k` of the job begins. -/
def boundary (j : PaymentSchedule) (k : Int) : Int := j.startsAt + k * j.intervalMs

/-- `t` lies in slot `k` of the job. -/
def InSlot (j : PaymentSchedule) (k t : Int) : Prop := boundary j k ≤ t ∧ t < boundary j (k + 1)

/-- `b` is the first slot boundary after `t`. -/
structure IsNextBoundary (j : PaymentSchedule) (t b : Int) : Prop where
  is_boundary : ∃ k, b = boundary j k
  after : t < b
  least : ∀ k, t < boundary j k → b ≤ boundary j k

/-- The index of the first slot that begins after `t`. -/
def nextIndex (j : PaymentSchedule) (t : Int) : Int := (t - j.startsAt) / j.intervalMs + 1

variable {j : PaymentSchedule} {t : Int}

theorem boundary_lt_boundary (hj : Valid j) {k l : Int} : boundary j k < boundary j l ↔ k < l := by
  have hpos : 0 < j.intervalMs := by
    have := hj.intervalMs
    omega
  unfold boundary
  constructor
  · intro h
    exact lt_of_mul_lt_mul_right (by omega) hpos.le
  · intro h
    have := mul_lt_mul_of_pos_right h hpos
    omega

theorem boundary_le_boundary (hj : Valid j) {k l : Int} : boundary j k ≤ boundary j l ↔ k ≤ l := by
  rw [← not_lt, boundary_lt_boundary hj, not_lt]

/-- The boundary after `t` begins after it, and the one before does not. -/
theorem nextIndex_spec (hj : Valid j) (t : Int) :
    boundary j (nextIndex j t - 1) ≤ t ∧ t < boundary j (nextIndex j t) := by
  have hpos : 0 < j.intervalMs := by
    have := hj.intervalMs
    omega
  have hdivision := Int.emod_add_mul_ediv (t - j.startsAt) j.intervalMs
  have hlt := Int.emod_lt_of_pos (t - j.startsAt) hpos
  have hnonneg := Int.emod_nonneg (t - j.startsAt) hpos.ne'
  have hnext : boundary j (nextIndex j t) =
      j.startsAt + (j.intervalMs * ((t - j.startsAt) / j.intervalMs) + j.intervalMs) := by
    unfold boundary nextIndex
    ring
  have hprevious : boundary j (nextIndex j t - 1) =
      j.startsAt + j.intervalMs * ((t - j.startsAt) / j.intervalMs) := by
    unfold boundary nextIndex
    ring
  omega

theorem isNextBoundary_nextIndex (hj : Valid j) (t : Int) :
    IsNextBoundary j t (boundary j (nextIndex j t)) where
  is_boundary := ⟨_, rfl⟩
  after := (nextIndex_spec hj t).2
  least k hk := by
    have hlt := lt_of_le_of_lt (nextIndex_spec hj t).1 hk
    rw [boundary_lt_boundary hj] at hlt
    rw [boundary_le_boundary hj]
    omega

/-- The slot of an earlier instant ends no later than the next boundary. -/
theorem IsNextBoundary.of_inSlot (hj : Valid j) {b k s : Int} (h : IsNextBoundary j t b)
    (hk : InSlot j k s) (hs : s ≤ t) : boundary j (k + 1) ≤ b := by
  obtain ⟨l, rfl⟩ := h.is_boundary
  have hlt := lt_of_le_of_lt (hk.1.trans hs) h.after
  rw [boundary_lt_boundary hj] at hlt
  rw [boundary_le_boundary hj]
  omega

/-! ### The boundary in double precision -/

/-- `nextSlot` for a finish between the start and the last instant: every step before the
product is exact. -/
theorem nextSlot_of_time (hj : Valid j) (hstart : j.startsAt ≤ t) (hlast : t ≤ lastInstant) :
    nextSlot j.startsAt j.intervalMs t =
      Binary64.add j.startsAt (Binary64.mul (nextIndex j t) j.intervalMs) := by
  have h0 := hj.startsAt
  have hinterval := hj.intervalMs
  unfold lastInstant at *
  have hsub : Binary64.sub t j.startsAt = t - j.startsAt :=
    Binary64.ofInt_eq (by rw [abs_of_nonneg (by omega)]; omega)
  have hdiv : Binary64.floorDiv (t - j.startsAt) j.intervalMs = (t - j.startsAt) / j.intervalMs :=
    Binary64.floorDiv_eq (by rw [abs_of_nonneg (by omega)]; omega) (by omega)
  have hindex : Binary64.add ((t - j.startsAt) / j.intervalMs) 1 = nextIndex j t := by
    have hpos : 0 ≤ (t - j.startsAt) / j.intervalMs := Int.ediv_nonneg (by omega) (by omega)
    have hle : (t - j.startsAt) / j.intervalMs ≤ t - j.startsAt := Int.ediv_le_self _ (by omega)
    exact Binary64.ofInt_eq (by rw [abs_of_nonneg (by omega)]; omega)
  rw [nextSlot, hsub, hdiv, hindex]

/-- **Up to `2 ^ 53` the next boundary is exact.** -/
theorem nextSlot_eq (hj : Valid j) (hstart : j.startsAt ≤ t) (hlast : t ≤ lastInstant)
    (hsmall : boundary j (nextIndex j t) ≤ 2 ^ 53) :
    nextSlot j.startsAt j.intervalMs t = boundary j (nextIndex j t) := by
  have h0 := hj.startsAt
  have hafter := (nextIndex_spec hj t).2
  unfold boundary at hsmall hafter
  have hmul : Binary64.mul (nextIndex j t) j.intervalMs = nextIndex j t * j.intervalMs :=
    Binary64.ofInt_eq (by rw [abs_of_nonneg (by omega)]; omega)
  rw [nextSlot_of_time hj hstart hlast, hmul]
  exact Binary64.ofInt_eq (by rw [abs_of_nonneg (by omega)]; omega)

/-- Beyond, it is rounded, and stays beyond the end of every job. -/
theorem le_nextSlot (hj : Valid j) (hstart : j.startsAt ≤ t) (hlast : t ≤ lastInstant)
    (hlarge : 2 ^ 53 < boundary j (nextIndex j t)) :
    2 ^ 53 ≤ nextSlot j.startsAt j.intervalMs t := by
  have h0 := hj.startsAt
  unfold boundary at hlarge
  rw [nextSlot_of_time hj hstart hlast]
  refine Binary64.le_ofInt ?_
  by_cases hproduct : nextIndex j t * j.intervalMs ≤ 2 ^ 53
  · have hmul : Binary64.mul (nextIndex j t) j.intervalMs = nextIndex j t * j.intervalMs := by
      have := (nextIndex_spec hj t).2
      unfold boundary at this
      exact Binary64.ofInt_eq (by rw [abs_of_nonneg (by omega)]; omega)
    rw [hmul]
    omega
  · have := Binary64.le_ofInt (not_le.mp hproduct).le
    unfold Binary64.mul
    omega

/-! ## The clock -/

/-- The clock an operation is told. -/
def ScheduleOp.now? : ScheduleOp → Option Int
  | .claim _ now => some now
  | .finish _ _ now => some now
  | .add _ => none
  | .cancel _ => none

/-- What a clock that does not go back adds to the invariant of a job. -/
structure TimedJob (clock : Int) (j : ScheduledJob) (runs : RunTable) : Prop where
  within : ∀ r ∈ runs, j.startsAt ≤ r.atMs ∧ r.atMs < j.endsAt
  past : ∀ r ∈ runs, r.atMs ≤ clock
  out : ∀ r ∈ runs, r.finished = false → j.status = .paused ∨ j.status = .cancelled
  /-- A job that waits for a result was due when it was claimed. -/
  late : j.status = .paused → j.nextAt ≤ clock
  /-- The next claim is past the slot of every run that was paid. -/
  next : j.status = .active ∨ j.status = .paused → ∀ r ∈ runs, r.outcome = .paid →
    ∀ k, InSlot j.toPaymentSchedule k r.atMs → boundary j.toPaymentSchedule (k + 1) ≤ j.nextAt
  ordered : runs.rows.Pairwise fun a b => a.outcome ≠ .unpaid → b.outcome ≠ .unpaid →
    ∀ k, InSlot j.toPaymentSchedule k a.atMs → boundary j.toPaymentSchedule (k + 1) ≤ b.atMs

namespace TimedJob

variable {clock now : Int} {j j' : ScheduledJob} {runs runs' : RunTable}

/-- A job without runs. -/
theorem new (clock : Int) (input : PaymentSchedule) :
    TimedJob clock (newJob input) Table.empty where
  within _ hr := absurd hr Table.not_mem_empty
  past _ hr := absurd hr Table.not_mem_empty
  out _ hr := absurd hr Table.not_mem_empty
  late h := nomatch h
  next _ _ hr := absurd hr Table.not_mem_empty
  ordered := List.Pairwise.nil

/-- Time passes. -/
theorem mono (h : TimedJob clock j runs) (hle : clock ≤ now) : TimedJob now j runs :=
  { h with
    past := fun r hr => (h.past r hr).trans hle
    late := fun hstatus => (h.late hstatus).trans hle }

/-- The job leaves the schedule while nothing of it is out, or it is cancelled. -/
theorem withStatus (h : TimedJob clock j runs) {status : JobStatus}
    (hstatus : status = .cancelled ∨
      status = .completed ∧ ∀ r ∈ runs, ¬ r.finished = false) :
    TimedJob clock (setStatus status j) runs where
  within := h.within
  past := h.past
  out r hr hout := by
    rcases hstatus with rfl | ⟨-, hfinished⟩
    · exact Or.inr rfl
    · exact absurd hout (hfinished r hr)
  late hpaused := by
    rcases hstatus with rfl | ⟨rfl, -⟩ <;> exact nomatch hpaused
  next hopen := by
    rcases hstatus with rfl | ⟨rfl, -⟩ <;> rcases hopen with h | h <;> exact nomatch h
  ordered := h.ordered

/-- A run of the job goes out. -/
theorem claimed (hj : JobInvariant j runs) (h : TimedJob clock j runs) (hle : clock ≤ now)
    (hdue : j.status = .active ∧ j.nextAt ≤ now ∧ j.startsAt ≤ now) (hspare : ¬ Spent j now)
    {runId : Nat} (hrows : runs'.rows = runs.rows ++ [claimedRun j now runId]) :
    TimedJob now (claimedJob j) runs' := by
  have hmem : ∀ r, r ∈ runs' ↔ r ∈ runs ∨ r = claimedRun j now runId := by
    intro r
    rw [Table.mem_def, hrows, List.mem_append, List.mem_singleton, Table.mem_def]
  obtain ⟨hknown, -⟩ := hj.ready hdue.1
  have hend : now < j.endsAt := not_le.mp fun hend => hspare (Or.inl hend)
  exact
    { within := by
        intro r hr
        rcases (hmem r).mp hr with hr | rfl
        · exact h.within r hr
        · exact ⟨hdue.2.2, hend⟩
      past := by
        intro r hr
        rcases (hmem r).mp hr with hr | rfl
        · exact (h.past r hr).trans hle
        · exact le_refl _
      out := fun _ _ _ => Or.inl rfl
      late := fun _ => hdue.2.1
      next := by
        intro _ r hr hpaid k hk
        rcases (hmem r).mp hr with hr | rfl
        · exact h.next (Or.inl hdue.1) r hr hpaid k hk
        · cases hpaid
      ordered := by
        rw [hrows, List.pairwise_append]
        refine ⟨h.ordered, List.pairwise_singleton _ _, ?_⟩
        intro a ha b hb hpaid _ k hk
        -- What came before is known, so it was paid, and its slot is over.
        rw [List.mem_singleton.mp hb]
        have hoverdue : a.outcome = .paid := by
          cases hout : a.outcome with
          | paid => rfl
          | unpaid => exact absurd hout hpaid
          | unknown => exact absurd hout (hknown a ha)
        exact (h.next (Or.inl hdue.1) a ha hoverdue k hk).trans hdue.2.1 }

/-- A result that leaves the job active leaves it due before its end. -/
theorem next_lt_endsAt {v : Verdict} (h : (finishedJob v j).status = .active) :
    v.next < j.endsAt :=
  not_le.mp fun hend => (JobInvariant.statusAfter_eq_active h).2 (Or.inl hend)

/-- **After a paid run the job that stays active is due at the next boundary.** -/
theorem isNextBoundary_of_paid (hj : Valid j.toPaymentSchedule) (hstart : j.startsAt ≤ now)
    (hlast : now ≤ lastInstant) {r : RunRow} {amountBase : Int}
    (hactive : (finishedJob (paidVerdict j r now amountBase) j).status = .active) :
    IsNextBoundary j.toPaymentSchedule now (paidVerdict j r now amountBase).next := by
  have hend := next_lt_endsAt hactive
  have hbound := hj.endsAt
  show IsNextBoundary _ now (nextSlot j.startsAt j.intervalMs now)
  by_cases hsmall : boundary j.toPaymentSchedule (nextIndex j.toPaymentSchedule now) ≤ 2 ^ 53
  · rw [nextSlot_eq hj hstart hlast hsmall]
    exact isNextBoundary_nextIndex hj now
  · -- A boundary too large to be exact is past the end, and the job is not active.
    have hlarge := le_nextSlot hj hstart hlast (not_le.mp hsmall)
    have hnext : nextSlot j.startsAt j.intervalMs now < j.endsAt := hend
    unfold lastInstant at hbound
    omega

/-- The clock of another attempt is not before the clock of the last one. -/
theorem le_add_of_time (delay : Int) (hlast : now ≤ lastInstant) (hdelay : 0 ≤ delay)
    (hnow : 0 ≤ now) : now ≤ Binary64.add now delay := by
  unfold lastInstant at hlast
  by_cases hsmall : now + delay ≤ 2 ^ 53
  · rw [Binary64.add, Binary64.ofInt_eq (by rw [abs_of_nonneg (by omega)]; exact hsmall)]
    omega
  · have := Binary64.le_ofInt (not_le.mp hsmall).le
    unfold Binary64.add
    omega

/-- What a result that keeps the job on the schedule makes of its next claim: it does not come
earlier, and it is past the slot of a run that was paid. -/
theorem next_of_verdict (hj : JobInvariant j runs) (h : TimedJob clock j runs)
    (hle : clock ≤ now) (hlast : now ≤ lastInstant) {r : RunRow} {result : ScheduledResult}
    {v : Verdict} (hr : r ∈ runs) (hv : weigh j r now result = .ok v)
    (hpaused : j.status = .paused)
    (hopen : (finishedJob v j).status = .active ∨ (finishedJob v j).status = .paused) :
    j.nextAt ≤ v.next ∧ (result.outcome = .paid →
      ∀ k, InSlot j.toPaymentSchedule k r.atMs → boundary j.toPaymentSchedule (k + 1) ≤ v.next) := by
  have hat : j.startsAt ≤ r.atMs := (h.within r hr).1
  have hpast : r.atMs ≤ clock := h.past r hr
  have hlate := h.late hpaused
  have hstart0 := hj.valid.startsAt
  rcases weigh_eq_ok hv with ⟨amount, _, rfl, -, -, rfl⟩ | ⟨_, _, again, rfl, -, rfl⟩ | ⟨_, rfl, rfl⟩
  · have hactive : (finishedJob (paidVerdict j r now amount) j).status = .active := by
      rcases hopen with hopen | hopen
      · exact hopen
      · exfalso
        have hstatus : statusAfter j (paidVerdict j r now amount) = .paused := hopen
        unfold statusAfter at hstatus
        rw [if_neg (by rw [hpaused]; exact fun h => nomatch h)] at hstatus
        split at hstatus <;> exact nomatch hstatus
    have hnext := isNextBoundary_of_paid hj.valid (by omega) hlast hactive
    have hafter := hnext.after
    exact ⟨by omega, fun _ k hk => hnext.of_inSlot hj.valid hk (by omega)⟩
  · refine ⟨?_, fun h => nomatch h⟩
    cases again with
    | false => exact le_refl _
    | true =>
      have hdelay := hj.valid.retryDelayMs
      have := le_add_of_time j.retryDelayMs hlast (by omega) (by omega)
      show j.nextAt ≤ Binary64.add now j.retryDelayMs
      omega
  · exact ⟨le_refl _, fun h => nomatch h⟩

/-- A result that leaves the job waiting leaves its next claim alone. -/
theorem next_of_paused {r : RunRow} {result : ScheduledResult} {v : Verdict}
    (hv : weigh j r now result = .ok v) (hstatus : (finishedJob v j).status = .paused) :
    v.next = j.nextAt := by
  have hpaused : v.status = .paused := by
    have hafter : statusAfter j v = .paused := hstatus
    unfold statusAfter at hafter
    split at hafter
    · exact nomatch hafter
    · split at hafter
      · exact nomatch hafter
      · exact hafter
  rcases weigh_eq_ok hv with ⟨_, _, -, -, -, rfl⟩ | ⟨_, _, again, -, -, rfl⟩ | ⟨_, -, rfl⟩
  · exact nomatch hpaused
  · cases again with
    | false => rfl
    | true => exact nomatch hpaused
  · rfl

/-- The result of a run of the job comes in. -/
theorem finished (hj : JobInvariant j runs) (h : TimedJob clock j runs) (hle : clock ≤ now)
    (hlast : now ≤ lastInstant) {r : RunRow} {result : ScheduledResult} {v : Verdict}
    (hr : r ∈ runs) (hout : r.finished = false) (hv : weigh j r now result = .ok v) :
    TimedJob now (finishedJob v j)
      (runs.update r.id (finishedRun result v) (finishedRun_id result v)) := by
  have hunknown := hj.unknown_of_out r hr hout
  have hmem : ∀ x ∈ runs.update r.id (finishedRun result v) (finishedRun_id result v),
      x = finishedRun result v r ∨ x ∈ runs ∧ x.outcome ≠ .unknown := by
    intro x hx
    exact hj.mem_finished hr hunknown hx
  -- A cancelled job stays cancelled; otherwise the job was waiting for this result.
  have hpaused : (finishedJob v j).status ≠ .cancelled → j.status = .paused := by
    intro hstatus
    refine (h.out r hr hout).resolve_right fun hcancelled => hstatus ?_
    exact if_pos hcancelled
  exact
    { within := by
        intro x hx
        rcases hmem x hx with rfl | ⟨hx, -⟩
        · exact h.within r hr
        · exact h.within x hx
      past := by
        intro x hx
        rcases hmem x hx with rfl | ⟨hx, -⟩
        · exact (h.past r hr).trans hle
        · exact (h.past x hx).trans hle
      out := by
        intro x hx hxout
        rcases hmem x hx with rfl | ⟨hx, hxknown⟩
        · exact nomatch hxout
        · exact absurd (hj.unknown_of_out x hx hxout) hxknown
      late := by
        intro hstatus
        have hwaiting := hpaused (by rw [hstatus]; exact fun h => nomatch h)
        rw [show (finishedJob v j).nextAt = v.next from rfl, next_of_paused hv hstatus]
        exact (h.late hwaiting).trans hle
      next := by
        intro hopen x hx hpaid k hk
        have hwaiting := hpaused (by rcases hopen with h | h <;> rw [h] <;> exact fun h => nomatch h)
        obtain ⟨hnext, hown⟩ := next_of_verdict hj h hle hlast hr hv hwaiting hopen
        rcases hmem x hx with rfl | ⟨hx, -⟩
        · exact hown hpaid k hk
        · exact (h.next (Or.inr hwaiting) x hx hpaid k hk).trans hnext
      ordered := by
        -- A result moves no run, and takes at most the run that was out from those that count.
        have hcounts : ∀ x ∈ runs,
            (if x.id = r.id then finishedRun result v x else x).atMs = x.atMs ∧
              ((if x.id = r.id then finishedRun result v x else x).outcome ≠ .unpaid →
                x.outcome ≠ .unpaid) := by
          intro x hx
          by_cases hid : x.id = r.id
          · rw [if_pos hid, Table.eq_of_key hx hr hid]
            exact ⟨rfl, fun _ hunpaid => nomatch hunknown.symm.trans hunpaid⟩
          · rw [if_neg hid]
            exact ⟨rfl, fun hcount => hcount⟩
        show (runs.rows.map _).Pairwise _
        rw [List.pairwise_map]
        refine h.ordered.imp_of_mem ?_
        intro a b ha hb hab hpa hpb k hk
        rw [(hcounts a ha).1] at hk
        rw [(hcounts b hb).1]
        exact hab ((hcounts a ha).2 hpa) ((hcounts b hb).2 hpb) k hk }

/-- **Every step of a job under a clock that does not go back keeps it timed.** -/
theorem step {op : ScheduleOp} (hj : JobInvariant j runs) (h : TimedJob clock j runs)
    (hclock : ∀ now, op.now? = some now → clock ≤ now) (hstep : JobStep op j runs j' runs') :
    TimedJob (op.now?.getD clock) j' runs' := by
  have hmono : clock ≤ op.now?.getD clock := by
    cases hnow : op.now? with
    | none => exact le_refl _
    | some now => exact hclock now hnow
  cases hstep with
  | same => exact h.mono hmono
  | completed hactive =>
    refine (h.mono hmono).withStatus (Or.inr ⟨rfl, fun r hr hout => ?_⟩)
    exact (hj.ready hactive).1 r hr (hj.unknown_of_out r hr hout)
  | cancelled => exact (h.mono hmono).withStatus (Or.inl rfl)
  | claimed hop hdue hspare hrows =>
    subst hop
    exact claimed hj h (hclock _ rfl) hdue hspare hrows
  | finished hop hlast hr hout hv =>
    subst hop
    exact finished hj h (hclock _ rfl) hlast hr hout hv

end TimedJob

/-! ## Runs under a clock -/

/-- The tables, and what a clock that stands at `clock` adds. -/
structure Timed (clock : Int) (db : ScheduleDb) : Prop where
  invariant : ScheduleInvariant db
  job : ∀ j ∈ db.jobs, TimedJob clock j (db.runsOf j.id)

theorem Timed.exec {clock : Int} {db : ScheduleDb} {op : ScheduleOp} (h : Timed clock db)
    (hclock : ∀ now, op.now? = some now → clock ≤ now) :
    Timed (op.now?.getD clock) (exec db op) where
  invariant := exec_preserves_schedule db op h.invariant
  job j' hj' := by
    rcases jobStep_of_write h.invariant.owned (exec_write db op) hj' with
      ⟨input, -, rfl, hruns⟩ | ⟨j, hj, hstep⟩
    · rw [hruns]
      exact TimedJob.new _ input
    · exact (h.job j hj).step (h.invariant.job j hj) hclock hstep

/-- Time passes. -/
theorem Timed.mono {clock now : Int} {db : ScheduleDb} (h : Timed clock db) (hle : clock ≤ now) :
    Timed now db where
  invariant := h.invariant
  job j hj := (h.job j hj).mono hle

/-- **A run whose operations are told a clock that does not go back stays timed.** -/
theorem Timed.run : ∀ (ops : List ScheduleOp) {clock later : Int} {db : ScheduleDb},
    Timed clock db → (ops.filterMap ScheduleOp.now?).Pairwise (· ≤ ·) →
    (∀ now ∈ ops.filterMap ScheduleOp.now?, clock ≤ now ∧ now ≤ later) → clock ≤ later →
    Timed later (Infra.run ScheduleOp.exec db ops)
  | [], _, _, _, h, _, _, hlater => h.mono hlater
  | op :: ops, clock, later, db, h, hpairwise, hnows, hlater => by
    rw [run_cons]
    cases hop : op.now? with
    | none =>
      rw [List.filterMap_cons_none hop] at hpairwise hnows
      have hexec : Timed (op.now?.getD clock) (ScheduleOp.exec db op) :=
        h.exec fun now hnow => nomatch hop.symm.trans hnow
      rw [hop] at hexec
      exact Timed.run ops hexec hpairwise hnows hlater
    | some now =>
      rw [List.filterMap_cons_some hop] at hpairwise hnows
      obtain ⟨hfirst, hpairwise⟩ := List.pairwise_cons.mp hpairwise
      have hnow := hnows now List.mem_cons_self
      have hexec : Timed (op.now?.getD clock) (ScheduleOp.exec db op) :=
        h.exec fun now' hnow' => Option.some.inj (hop.symm.trans hnow') ▸ hnow.1
      rw [hop] at hexec
      exact Timed.run ops hexec hpairwise
        (fun t ht => ⟨hfirst t ht, (hnows t (List.mem_cons_of_mem _ ht)).2⟩) hnow.2

/-- From the empty tables any clock will do to start with. -/
theorem Timed.run_empty {ops : List ScheduleOp} {later : Int}
    (hpairwise : (ops.filterMap ScheduleOp.now?).Pairwise (· ≤ ·))
    (hlater : ∀ now ∈ ops.filterMap ScheduleOp.now?, now ≤ later) :
    Timed later (Infra.run ScheduleOp.exec ScheduleDb.empty ops) := by
  have hempty : ∀ clock, Timed clock ScheduleDb.empty := fun clock =>
    ⟨run_invariant_schedule [], fun j hj => absurd hj Table.not_mem_empty⟩
  cases hnows : ops.filterMap ScheduleOp.now? with
  | nil =>
    exact Timed.run ops (hempty later) hpairwise (by rw [hnows]; exact fun _ h => nomatch h)
      (le_refl _)
  | cons first rest =>
    have hfirst := hlater first (by rw [hnows]; exact List.mem_cons_self)
    refine Timed.run ops (hempty first) hpairwise (fun now hnow => ⟨?_, hlater now hnow⟩) hfirst
    rw [hnows] at hpairwise hnow
    rcases List.mem_cons.mp hnow with rfl | hnow
    · exact le_refl _
    · exact (List.pairwise_cons.mp hpairwise).1 now hnow

/-! ## The slots of a run of operations -/

/-- What holds of the tables that operations under a clock led to; `nows` are the clocks they
were told. -/
structure SlotsKept (nows : List Int) (db : ScheduleDb) : Prop where
  /-- Two runs of a job that may have been paid were claimed in different slots. -/
  distinct : ∀ j ∈ db.jobs, ∀ r ∈ db.runsOf j.id, ∀ r' ∈ db.runsOf j.id, r ≠ r' →
    r.outcome ≠ .unpaid → r'.outcome ≠ .unpaid →
      ∀ k, InSlot j.toPaymentSchedule k r.atMs → ¬ InSlot j.toPaymentSchedule k r'.atMs
  within : ∀ j ∈ db.jobs, ∀ r ∈ db.runsOf j.id, j.startsAt ≤ r.atMs ∧ r.atMs < j.endsAt
  claim_within : ∀ id now j r, answer (claim id now) db = .ok (some (j, r)) →
    r.atMs = now ∧ j.startsAt ≤ now ∧ now < j.endsAt
  /-- After a paid run the next claim is due at the next boundary, where it is below `2 ^ 53`; a
  later boundary is rounded, and the job has nothing left to claim. -/
  next_after_paid : ∀ r ∈ db.runs, r.finished = false → ∀ amountBase transaction now db',
    (∀ t ∈ nows, t ≤ now) → (finish r.id (.paid amountBase transaction) now).run db = .ok ⟨⟩ db' →
      ∃ j, db'.jobs.get? r.jobId = some j ∧
        ∀ b, IsNextBoundary j.toPaymentSchedule now b →
          (b ≤ 2 ^ 53 → j.nextAt = b) ∧
            (2 ^ 53 < b → j.endsAt < b ∧ j.endsAt < j.nextAt ∧ j.status ≠ .active)

/-- There is one next boundary. -/
theorem IsNextBoundary.eq (hj : Valid j) {b : Int} (h : IsNextBoundary j t b) :
    b = boundary j (nextIndex j t) := by
  obtain ⟨k, rfl⟩ := h.is_boundary
  exact le_antisymm (h.least _ (nextIndex_spec hj t).2)
    ((isNextBoundary_nextIndex hj t).least k h.after)

/-- Where both may have been paid, not both runs were claimed in slot `k`. -/
def Apart (j : PaymentSchedule) (k : Int) (a b : RunRow) : Prop :=
  a.outcome ≠ .unpaid → b.outcome ≠ .unpaid → ¬ (InSlot j k a.atMs ∧ InSlot j k b.atMs)

instance Apart.symm (j : PaymentSchedule) (k : Int) : Std.Symm (Apart j k) where
  symm _ _ h ha hb hboth := h hb ha hboth.symm

/-- **Every run of operations under a clock that does not go back keeps the slots apart.** -/
theorem slots_kept (ops : List ScheduleOp)
    (hclock : (ops.filterMap ScheduleOp.now?).Pairwise (· ≤ ·)) :
    SlotsKept (ops.filterMap ScheduleOp.now?) (Infra.run exec ScheduleDb.empty ops) := by
  obtain ⟨last, hlast⟩ := (List.finite_toSet (ops.filterMap ScheduleOp.now?)).bddAbove
  have htimed := Timed.run_empty hclock fun now hnow => hlast hnow
  refine
    { distinct := ?distinct
      within := fun j hj r hr => (htimed.job j hj).within r hr
      claim_within := ?claim_within
      next_after_paid := ?next_after_paid }
  case distinct =>
    intro j hj r hr r' hr' hne hpaid hpaid' k hk hk'
    have hapart : ((Infra.run exec ScheduleDb.empty ops).runsOf j.id).rows.Pairwise
        (Apart j.toPaymentSchedule k) := by
      refine (htimed.job j hj).ordered.imp fun h ha hb hboth => ?_
      exact absurd hboth.2.2 (not_lt.mpr (h ha hb k hboth.1))
    exact hapart.forall hr hr' hne hpaid hpaid' ⟨hk, hk'⟩
  case claim_within =>
    intro id now j r h
    rcases claim_eq_ok (answer_eq_ok.mp h) with
      ⟨hnone, -⟩ | ⟨i, hdue, ⟨-, hnone, -⟩ | ⟨hspare, hsome, -⟩⟩
    · exact nomatch hnone
    · exact nomatch hnone
    · obtain ⟨rfl, rfl⟩ := Prod.mk.inj (Option.some.inj hsome)
      exact ⟨rfl, hdue.startsAt, not_le.mp fun hend => hspare (Or.inl hend)⟩
  case next_after_paid =>
    intro r hr hout amountBase transaction now db' hnow h
    have htimed := Timed.run_empty hclock hnow
    generalize Infra.run exec ScheduleDb.empty ops = db at htimed hr h
    have hget : db.runs.get? r.id = some r := Table.get?_of_mem hr
    rcases finish_eq_ok h with ⟨x, hx, hfinished, -⟩ | ⟨x, j, v, hfinishing, rfl⟩
    · obtain rfl := Option.some.inj (hget.symm.trans hx)
      exact nomatch hout.symm.trans hfinished
    obtain rfl := Option.some.inj (hget.symm.trans hfinishing.run)
    obtain ⟨hj, hid⟩ := Table.get?_eq_some.mp hfinishing.job
    have hjob := htimed.job j hj
    have hvalid := (htimed.invariant.job j hj).valid
    have hmem : r ∈ db.runsOf j.id := mem_runsOf.mpr ⟨hr, hid.symm⟩
    have hstart : j.startsAt ≤ now := (hjob.within r hmem).1.trans (hjob.past r hmem)
    refine ⟨finishedJob v j, ?_, fun b hb => ?_⟩
    · show (db.jobs.update r.jobId _ (finishedJob_id v)).get? r.jobId = _
      rw [Table.get?_update, if_pos rfl, hfinishing.job]
      rfl
    obtain ⟨_, _, hresult, -, -, rfl⟩ | ⟨_, _, _, hresult, -, -⟩ | ⟨_, hresult, -⟩ :=
      weigh_eq_ok hfinishing.weighed
    · have hend := hvalid.endsAt
      unfold lastInstant at hend
      rw [hb.eq hvalid]
      refine ⟨nextSlot_eq hvalid hstart hfinishing.time.2, fun hlarge => ?_⟩
      have hnext : 2 ^ 53 ≤ nextSlot j.startsAt j.intervalMs now :=
        le_nextSlot hvalid hstart hfinishing.time.2 hlarge
      refine ⟨show j.endsAt < _ by omega, show j.endsAt < nextSlot _ _ _ by omega, fun hactive => ?_⟩
      have hearly : nextSlot j.startsAt j.intervalMs now < j.endsAt :=
        TimedJob.next_lt_endsAt hactive
      omega
    · exact nomatch hresult
    · exact nomatch hresult

/-! ### A schedule beyond `2 ^ 53` -/

/-- Its slots are as long as a third of `2 ^ 53`. -/
def wideSchedule : PaymentSchedule where
  id := "wide"
  resourcePath := "/report"
  payTo := "0x00000000000000000000000000000000000000a1"
  maxAmountBase := 1
  maxTotalBase := 10
  maxRuns := 10
  startsAt := 0
  endsAt := 8640000000000000
  intervalMs := 3002399751580331
  maxAttempts := 1
  retryDelayMs := 1000

/-- It is claimed, and paid for, where its third slot begins. -/
def wideOps : List ScheduleOp :=
  [.add wideSchedule, .claim "wide" 6004799503160662,
    .finish 1 (.paid 1 none) 6004799503160662]

/-- The fourth slot begins at an odd number above `2 ^ 53`: what is stored is its neighbour. -/
theorem wide_boundary_rounded :
    (wideOps.filterMap ScheduleOp.now?).Pairwise (· ≤ ·) ∧
      ∃ j, (Infra.run exec ScheduleDb.empty wideOps).jobs.get? "wide" = some j ∧
        ((Infra.run exec ScheduleDb.empty wideOps).runs.get? 1).map RunRow.outcome = some .paid ∧
          ¬ IsNextBoundary j.toPaymentSchedule 6004799503160662 j.nextAt := by
  have hjob : (Infra.run exec ScheduleDb.empty wideOps).jobs.get? "wide" =
      some
        { newJob wideSchedule with
          status := .completed
          nextAt := 9007199254740992
          runCount := 1
          committedBase := 1 } := by
    decide +kernel
  refine ⟨by decide, _, hjob, by decide +kernel, fun h => ?_⟩
  obtain ⟨k, hk⟩ := h.is_boundary
  change (9007199254740992 : Int) = 0 + k * 3002399751580331 at hk
  omega

/-- The slots of that schedule are kept apart all the same. -/
theorem slots_kept_wide :
    SlotsKept (wideOps.filterMap ScheduleOp.now?) (Infra.run exec ScheduleDb.empty wideOps) :=
  slots_kept wideOps (by decide)

end Mapae.Store
