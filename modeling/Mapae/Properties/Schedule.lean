import Mapae.Store.ScheduleInvariant

/-!
# The schedule store keeps its books

For every sequence of operations on the schedule store, whatever they are told: what a job has
committed is what its runs count for, it never exceeds the job's total, runs and attempts
stay within their bounds, a job with a run out is not claimed, and a cancelled job is never
claimed again.
-/

namespace Mapae.Store

open Mapae.Infra Scheduler
open ScheduleOp (exec Write exec_write)

/-! ## Jobs that cannot be claimed -/

/-- No `claim` of the job writes anything or answers a run. -/
def NotClaimable (db : ScheduleDb) (id : String) : Prop :=
  ∀ now, after (claim id now) db = db ∧ ∀ run, answer (claim id now) db = .ok run → run = none

theorem notClaimable_of_status {db : ScheduleDb} {id : String} {j : ScheduledJob}
    (hget : db.jobs.get? id = some j) (hstatus : j.status ≠ .active) : NotClaimable db id := by
  intro now
  -- A job that is due is active.
  have hdue : ∀ i, ¬ Due db id now i := by
    intro i hdue
    obtain rfl := Option.some.inj (hget.symm.trans hdue.get)
    exact hstatus hdue.active
  constructor
  · rcases after_eq_or fun _ _ => run_transaction_eq_error with h | ⟨run, h⟩
    · exact h
    · rcases claim_eq_ok h with ⟨-, h⟩ | ⟨i, hi, -⟩
      · exact h
      · exact absurd hi (hdue i)
  · intro run h
    rcases claim_eq_ok (answer_eq_ok.mp h) with ⟨hnone, -⟩ | ⟨i, hi, -⟩
    · exact hnone
    · exact absurd hi (hdue i)

/-! ## Cancelled jobs -/

/-- What is cancelled in `db` is cancelled in `db'`. -/
def KeepsCancelled (db db' : ScheduleDb) : Prop :=
  ∀ id j, db.jobs.get? id = some j → j.status = .cancelled →
    ∃ j', db'.jobs.get? id = some j' ∧ j'.status = .cancelled

theorem KeepsCancelled.refl (db : ScheduleDb) : KeepsCancelled db db :=
  fun _ j hget hstatus => ⟨j, hget, hstatus⟩

theorem KeepsCancelled.trans {a b c : ScheduleDb} (hab : KeepsCancelled a b)
    (hbc : KeepsCancelled b c) : KeepsCancelled a c := by
  intro id j hget hstatus
  obtain ⟨j', hget', hstatus'⟩ := hab id j hget hstatus
  exact hbc id j' hget' hstatus'

/-- A rewriting of one job that leaves a cancellation alone. -/
theorem keepsCancelled_update {db db' : ScheduleDb} {id : String}
    {f : ScheduledJob → ScheduledJob} (hf : ∀ j, (f j).id = j.id)
    (hjobs : db'.jobs = db.jobs.update id f hf)
    (hkeep : ∀ j, db.jobs.get? id = some j → j.status = .cancelled → (f j).status = .cancelled) :
    KeepsCancelled db db' := by
  intro id' j hget hstatus
  rw [hjobs, Table.get?_update]
  by_cases hid : id' = id
  · subst hid
    rw [if_pos rfl, hget]
    exact ⟨f j, rfl, hkeep j hget hstatus⟩
  · rw [if_neg hid]
    exact ⟨j, hget, hstatus⟩

/-- **No operation takes a cancellation back**, the end of a run included. -/
theorem keepsCancelled_write {db db' : ScheduleDb} {op : ScheduleOp} (h : Write db op db') :
    KeepsCancelled db db' := by
  cases h with
  | nothing => exact KeepsCancelled.refl db
  | added _ hinsert =>
    intro id j hget hstatus
    refine ⟨j, ?_, hstatus⟩
    rw [Table.get?_insert? hinsert, if_neg, hget]
    rintro rfl
    rw [(Table.insert?_eq_some.mp hinsert).1] at hget
    cases hget
  | completed hdue =>
    refine keepsCancelled_update (setStatus_id _) rfl fun j hget hstatus => ?_
    rw [Option.some.inj (hget.symm.trans hdue.get), hdue.active] at hstatus
    cases hstatus
  | @claimed _ _ i hdue _ =>
    have hid : i.id = _ := (Table.get?_eq_some.mp hdue.get).2
    refine keepsCancelled_update claimedJob_id rfl fun j hget hstatus => ?_
    rw [hid] at hget
    rw [Option.some.inj (hget.symm.trans hdue.get), hdue.active] at hstatus
    cases hstatus
  | @finished _ _ _ _ _ v _ =>
    exact keepsCancelled_update (finishedJob_id v) rfl fun j _ hstatus => if_pos hstatus
  | cancelled _ => exact keepsCancelled_update (setStatus_id _) rfl fun _ _ _ => rfl

/-- What one run of operations cancelled, no further run revives. -/
theorem keepsCancelled_run (db : ScheduleDb) (ops : List ScheduleOp) :
    KeepsCancelled db (run exec db ops) :=
  run_relation (P := fun _ => True) (fun _ _ _ => trivial) KeepsCancelled.refl
    (fun _ _ _ => KeepsCancelled.trans) (fun db op _ => keepsCancelled_write (exec_write db op))
    ops db trivial

/-! ## The books -/

/-- What holds of the tables that a run of operations led to. -/
structure ScheduleKept (db : ScheduleDb) : Prop where
  /-- A job has committed what its runs count for, and no more than its total. -/
  committed : ∀ j ∈ db.jobs,
    j.committedBase = (db.runsOf j.id).sum (RunRow.share j.maxAmountBase) ∧
      j.committedBase ≤ j.maxTotalBase
  /-- The runs that are counted are the first attempts. -/
  runCount : ∀ j ∈ db.jobs,
    j.runCount = ((db.runsOf j.id).rows.map RunRow.attempt).count 1 ∧ j.runCount ≤ j.maxRuns
  /-- A slot starts with a first attempt and has no more attempts than the job allows. -/
  slots : ∀ j ∈ db.jobs, ∀ slot ∈ slots ((db.runsOf j.id).rows.map RunRow.attempt),
    slot.getLast? = some 1 ∧ (slot.length : Int) ≤ j.maxAttempts
  /-- Every run is a run of a job. -/
  owned : ∀ r ∈ db.runs, ∃ j ∈ db.jobs, j.id = r.jobId
  one_out : ∀ r ∈ db.runs, ∀ r' ∈ db.runs, r.jobId = r'.jobId →
    r.finished = false → r'.finished = false → r = r'
  not_claimable_while_out : ∀ r ∈ db.runs, r.finished = false → NotClaimable db r.jobId
  /-- Whatever happens later, the end of a run that was out included. -/
  cancelled_for_good : ∀ j ∈ db.jobs, j.status = .cancelled →
    ∀ later, NotClaimable (run exec db later) j.id
  finish_again : ∀ r ∈ db.runs, r.finished = true →
    ∀ result now, after (finish r.id result now) db = db
  finish_throws : ∀ runId result now e, answer (finish runId result now) db = .error e →
    after (finish runId result now) db = db
  /-- A result is recorded as it was told: a paid run with the amount that was paid. -/
  finish_records : ∀ runId result now db' r, db.runs.get? runId = some r → r.finished = false →
    (finish runId result now).run db = .ok ⟨⟩ db' →
      ∃ r', db'.runs.get? runId = some r' ∧ r'.finished = true ∧ r'.outcome = result.outcome ∧
        ∀ amount transaction, result = .paid amount transaction → r'.amountBase = amount

/-- **Every run of operations keeps the books of every job.** -/
theorem schedule_kept (ops : List ScheduleOp) :
    ScheduleKept (run exec ScheduleDb.empty ops) := by
  have hinv := run_invariant_schedule ops
  generalize run exec ScheduleDb.empty ops = db at hinv
  -- The job of a run, and what holds between them.
  have hjob : ∀ r ∈ db.runs, ∃ j, db.jobs.get? r.jobId = some j ∧
      JobInvariant j (db.runsOf r.jobId) ∧ r ∈ db.runsOf r.jobId := by
    intro r hr
    obtain ⟨j, hj, hid⟩ := hinv.owned r hr
    exact ⟨j, Table.get?_eq_some.mpr ⟨hj, hid⟩, hid ▸ hinv.job j hj,
      mem_runsOf.mpr ⟨hr, rfl⟩⟩
  refine
    { committed := fun j hj => ⟨(hinv.job j hj).committed, (hinv.job j hj).within⟩
      runCount := fun j hj => ⟨(hinv.job j hj).runCount, (hinv.job j hj).runCount_le⟩
      slots := fun j hj => (hinv.job j hj).slots.slot
      owned := hinv.owned
      one_out := ?one_out
      not_claimable_while_out := ?not_claimable_while_out
      cancelled_for_good := ?cancelled_for_good
      finish_again := ?finish_again
      finish_throws := ?finish_throws
      finish_records := ?finish_records }
  case one_out =>
    intro r hr r' hr' hid hout hout'
    obtain ⟨j, -, hj, hmem⟩ := hjob r hr
    have hmem' : r' ∈ db.runsOf r.jobId := mem_runsOf.mpr ⟨hr', hid.symm⟩
    exact hj.one_unknown r hmem r' hmem' (hj.unknown_of_out r hmem hout)
      (hj.unknown_of_out r' hmem' hout')
  case not_claimable_while_out =>
    intro r hr hout
    obtain ⟨j, hget, hj, hmem⟩ := hjob r hr
    exact notClaimable_of_status hget fun hactive =>
      (hj.ready hactive).1 r hmem (hj.unknown_of_out r hmem hout)
  case cancelled_for_good =>
    intro j hj hstatus later
    obtain ⟨j', hget, hstatus'⟩ := keepsCancelled_run db later j.id j
      (Table.get?_eq_some.mpr ⟨hj, rfl⟩) hstatus
    exact notClaimable_of_status hget fun hactive => nomatch hstatus'.symm.trans hactive
  case finish_again =>
    intro r hr hfinished result now
    rcases after_eq_or fun _ _ => run_transaction_eq_error with h | ⟨u, h⟩
    · exact h
    · rcases finish_eq_ok h with ⟨-, -, -, h⟩ | ⟨r', j, v, hfinishing, -⟩
      · exact h
      · have hget : db.runs.get? r.id = some r := Table.get?_of_mem hr
        obtain rfl := Option.some.inj (hfinishing.run.symm.trans hget)
        exact absurd hfinished (by rw [hfinishing.out]; exact Bool.false_ne_true)
  case finish_throws =>
    intro runId result now e h
    exact run_transaction_eq_error (answer_eq_error.mp h)
  case finish_records =>
    intro runId result now db' r hget hout h
    rcases finish_eq_ok h with ⟨r', hget', hfinished, -⟩ | ⟨r', j, v, hfinishing, rfl⟩
    · obtain rfl := Option.some.inj (hget.symm.trans hget')
      exact absurd hfinished (by rw [hout]; exact Bool.false_ne_true)
    · obtain rfl := Option.some.inj (hget.symm.trans hfinishing.run)
      have hid : r.id = runId := (Table.get?_eq_some.mp hget).2
      refine ⟨finishedRun result v r, ?_, rfl, rfl, fun amount transaction hpaid => ?_⟩
      · have hrow := Table.get?_update (t := db.runs) (k := r.id) (finishedRun_id result v) runId
        rw [hid, if_pos rfl, hget] at hrow
        exact hid ▸ hrow
      · rcases weigh_eq_ok hfinishing.weighed with ⟨_, _, hresult, -, -, rfl⟩ |
          ⟨_, _, _, hresult, -, -⟩ | ⟨_, hresult, -⟩
        · rw [hpaid] at hresult
          cases hresult
          rfl
        · rw [hpaid] at hresult
          cases hresult
        · rw [hpaid] at hresult
          cases hresult

end Mapae.Store
