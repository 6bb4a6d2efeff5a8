import Mapae.Infra.Transition
import Mapae.Store.Scheduler

/-!
# The invariant of the schedule store

The four operations on the two tables, in any order and with any arguments. An operation that
throws writes nothing.

* `Write` is everything that one operation can do to the tables (`exec_write`)
* `JobStep` is what that does to one job and its runs (`jobStep_of_write`)
* `JobInvariant` is what holds between a job and its runs after every operation
  (`exec_preserves_schedule`)

A run slot is a first attempt and the retries that follow it. `slots` reads the slots off the
attempt numbers of a job's runs.
-/

namespace Mapae.Store

open Mapae.Infra

inductive ScheduleOp where
  | add (input : PaymentSchedule)
  | claim (id : String) (now : Int)
  | finish (runId : Nat) (result : ScheduledResult) (now : Int)
  | cancel (id : String)

namespace ScheduleOp

open Scheduler

/-- The tables after an operation, however it ended. -/
def exec (db : ScheduleDb) : ScheduleOp → ScheduleDb
  | .add input => after (Scheduler.add input) db
  | .claim id now => after (Scheduler.claim id now) db
  | .finish runId result now => after (Scheduler.finish runId result now) db
  | .cancel id => after (Scheduler.cancel id) db

/-- All that one operation can write. -/
inductive Write (db : ScheduleDb) : ScheduleOp → ScheduleDb → Prop
  /-- It was refused, or there was nothing to do. -/
  | nothing {op : ScheduleOp} : Write db op db
  | added {input : PaymentSchedule} {jobs : Table fun j : ScheduledJob => j.id}
      (hvalid : Valid input) (hinsert : db.jobs.insert? (newJob input) = some jobs) :
      Write db (.add input) { db with jobs := jobs }
  | completed {id : String} {now : Int} {j : ScheduledJob} (h : Due db id now j) :
      Write db (.claim id now) { db with
        jobs := db.jobs.update id (setStatus .completed) (setStatus_id _) }
  | claimed {id : String} {now : Int} {j : ScheduledJob} (h : Due db id now j)
      (hspare : ¬ Spent j now) : Write db (.claim id now) (withRun db j now)
  | finished {runId : Nat} {result : ScheduledResult} {now : Int} {r : RunRow}
      {j : ScheduledJob} {v : Verdict} (h : Finishing db runId result now r j v) :
      Write db (.finish runId result now) (withResult db r result v)
  | cancelled {id : String} {j : ScheduledJob} (hget : db.jobs.get? id = some j) :
      Write db (.cancel id) { db with
        jobs := db.jobs.update id (setStatus .cancelled) (setStatus_id _) }

/-- **An operation writes one of these things, or nothing.** -/
theorem exec_write (db : ScheduleDb) (op : ScheduleOp) : Write db op (exec db op) := by
  cases op with
  | add input =>
    show Write db _ (after (Scheduler.add input) db)
    rcases after_eq_or fun _ _ => add_eq_error with h | ⟨j, h⟩
    · exact h.symm ▸ .nothing
    · obtain ⟨hvalid, -, jobs, hinsert, h⟩ := add_eq_ok h
      exact h.symm ▸ .added hvalid hinsert
  | claim id now =>
    show Write db _ (after (Scheduler.claim id now) db)
    rcases after_eq_or fun _ _ => run_transaction_eq_error with h | ⟨answer, h⟩
    · exact h.symm ▸ .nothing
    · rcases claim_eq_ok h with ⟨-, h⟩ | ⟨j, hdue, ⟨-, -, h⟩ | ⟨hspare, -, h⟩⟩
      · exact h.symm ▸ .nothing
      · exact h.symm ▸ .completed hdue
      · exact h.symm ▸ .claimed hdue hspare
  | finish runId result now =>
    show Write db _ (after (Scheduler.finish runId result now) db)
    rcases after_eq_or fun _ _ => run_transaction_eq_error with h | ⟨u, h⟩
    · exact h.symm ▸ .nothing
    · rcases finish_eq_ok h with ⟨-, -, -, h⟩ | ⟨r, j, v, hfinishing, h⟩
      · exact h.symm ▸ .nothing
      · exact h.symm ▸ .finished hfinishing
  | cancel id =>
    show Write db _ (after (Scheduler.cancel id) db)
    rcases after_eq_or fun _ _ => cancel_eq_error with h | ⟨u, h⟩
    · exact h.symm ▸ .nothing
    · obtain ⟨j, hget, h⟩ := cancel_eq_ok h
      exact h.symm ▸ .cancelled hget

end ScheduleOp

/-! ## One job and its runs -/

open Scheduler ScheduleOp

abbrev RunTable := Table fun r : RunRow => r.id

/-- What one operation can do to a job and its runs. -/
inductive JobStep (op : ScheduleOp) (j : ScheduledJob) (runs : RunTable) :
    ScheduledJob → RunTable → Prop
  | same : JobStep op j runs j runs
  | completed (hactive : j.status = .active) : JobStep op j runs (setStatus .completed j) runs
  | cancelled : JobStep op j runs (setStatus .cancelled j) runs
  | claimed {now : Int} {runId : Nat} {runs' : RunTable} (hop : op = .claim j.id now)
      (hdue : j.status = .active ∧ j.nextAt ≤ now ∧ j.startsAt ≤ now) (hspare : ¬ Spent j now)
      (hrows : runs'.rows = runs.rows ++ [claimedRun j now runId]) :
      JobStep op j runs (claimedJob j) runs'
  | finished {r : RunRow} {result : ScheduledResult} {now : Int} {v : Verdict}
      (hop : op = .finish r.id result now) (htime : now ≤ lastInstant) (hr : r ∈ runs)
      (hout : r.finished = false) (hv : weigh j r now result = .ok v) :
      JobStep op j runs (finishedJob v j)
        (runs.update r.id (finishedRun result v) (finishedRun_id result v))

section Runs

variable {db db' : ScheduleDb} {op : ScheduleOp}

theorem mem_runsOf {r : RunRow} {id : String} : r ∈ db.runsOf id ↔ r ∈ db.runs ∧ r.jobId = id := by
  unfold ScheduleDb.runsOf
  rw [Table.mem_filter, decide_eq_true_eq]

theorem runsOf_withRun {j : ScheduledJob} {now : Int} (id : String) :
    ((withRun db j now).runsOf id).rows =
      (db.runsOf id).rows ++ if j.id = id then [claimedRun j now db.runs.nextId] else [] := by
  show List.filter _ (db.runs.rows ++ [claimedRun j now db.runs.nextId]) = _
  rw [List.filter_append, List.filter_singleton, cond_eq_ite]
  have hjobId : (claimedRun j now db.runs.nextId).jobId = j.id := rfl
  simp only [hjobId, decide_eq_true_eq]
  rfl

theorem runsOf_withResult {r : RunRow} {result : ScheduledResult} {v : Verdict} (id : String) :
    (withResult db r result v).runsOf id =
      (db.runsOf id).update r.id (finishedRun result v) (finishedRun_id result v) :=
  Table.filter_update _ fun _ => rfl

/-- Every run names a job: `job_id REFERENCES payment_jobs (id)`. -/
def Owned (db : ScheduleDb) : Prop := ∀ r ∈ db.runs, ∃ j ∈ db.jobs, j.id = r.jobId

theorem owned_write (h : Owned db) (hw : Write db op db') : Owned db' := by
  cases hw with
  | nothing => exact h
  | added _ hinsert =>
    intro r hr
    obtain ⟨j, hj, hid⟩ := h r hr
    exact ⟨j, (Table.mem_insert? hinsert).mpr (Or.inl hj), hid⟩
  | completed _ => exact fun r hr => Table.exists_key_update (setStatus_id _) (h r hr)
  | cancelled _ => exact fun r hr => Table.exists_key_update (setStatus_id _) (h r hr)
  | @claimed _ _ j hdue _ =>
    intro r hr
    rcases List.mem_append.mp hr with hr | hr
    · exact Table.exists_key_update claimedJob_id (h r hr)
    · rw [List.mem_singleton.mp hr]
      exact Table.exists_key_update claimedJob_id ⟨j, (Table.get?_eq_some.mp hdue.get).1, rfl⟩
  | @finished _ result _ r _ v _ =>
    intro x hx
    obtain ⟨y, hy, rfl⟩ := (Table.mem_update (finishedRun_id result v)).mp hx
    have hjobId : (if y.id = r.id then finishedRun result v y else y).jobId = y.jobId := by
      split <;> rfl
    rw [hjobId]
    exact Table.exists_key_update (finishedJob_id v) (h y hy)

/-- A rewriting of one job is a step of that job, and nothing to the others. -/
theorem jobStep_of_update {id : String} {f : ScheduledJob → ScheduledJob}
    (hf : ∀ j, (f j).id = j.id)
    (hstep : ∀ j ∈ db.jobs, j.id = id → JobStep op j (db.runsOf j.id) (f j) (db.runsOf j.id))
    {j' : ScheduledJob} (hj' : j' ∈ db.jobs.update id f hf) :
    ∃ j ∈ db.jobs, JobStep op j (db.runsOf j.id) j' (db.runsOf j'.id) := by
  obtain ⟨j, hj, rfl⟩ := (Table.mem_update hf).mp hj'
  refine ⟨j, hj, ?_⟩
  by_cases hk : j.id = id
  · rw [if_pos hk, hf]
    exact hstep j hj hk
  · rw [if_neg hk]
    exact .same

/-- **An operation adds a job without runs, or does one of these things to each job.** -/
theorem jobStep_of_write (h : Owned db) (hw : Write db op db') {j' : ScheduledJob}
    (hj' : j' ∈ db'.jobs) :
    (∃ input, Valid input ∧ j' = newJob input ∧ db'.runsOf j'.id = Table.empty) ∨
      ∃ j ∈ db.jobs, JobStep op j (db.runsOf j.id) j' (db'.runsOf j'.id) := by
  cases hw with
  | nothing => exact Or.inr ⟨j', hj', .same⟩
  | @added input jobs hvalid hinsert =>
    rcases (Table.mem_insert? hinsert).mp hj' with hj | rfl
    · exact Or.inr ⟨j', hj, .same⟩
    · -- A run names a job that exists, and the new id was free.
      refine Or.inl ⟨input, hvalid, rfl, Table.ext (List.eq_nil_iff_forall_not_mem.mpr ?_)⟩
      intro r hr
      obtain ⟨hr, hid⟩ := mem_runsOf.mp hr
      obtain ⟨j, hj, hjid⟩ := h r hr
      exact Table.get?_eq_none.mp (Table.insert?_eq_some.mp hinsert).1 j hj (hjid.trans hid)
  | @completed id now i hdue =>
    refine Or.inr (jobStep_of_update (setStatus_id _) (fun j hj hid => .completed ?_) hj')
    have hget : db.jobs.get? id = some j := Table.get?_eq_some.mpr ⟨hj, hid⟩
    rw [Option.some.inj (hget.symm.trans hdue.get)]
    exact hdue.active
  | cancelled _ =>
    exact Or.inr (jobStep_of_update (setStatus_id _) (fun _ _ _ => .cancelled) hj')
  | @claimed id now i hdue hspare =>
    obtain ⟨hi, hid⟩ := Table.get?_eq_some.mp hdue.get
    obtain ⟨j, hj, rfl⟩ := (Table.mem_update claimedJob_id).mp hj'
    refine Or.inr ⟨j, hj, ?_⟩
    by_cases hk : j.id = i.id
    · obtain rfl := Table.eq_of_key hj hi hk
      rw [if_pos rfl]
      have hrows : ((withRun db j now).runsOf j.id).rows =
          (db.runsOf j.id).rows ++ [claimedRun j now db.runs.nextId] := by
        rw [runsOf_withRun, if_pos rfl]
      exact .claimed (by rw [← hid]) ⟨hdue.active, hdue.nextAt, hdue.startsAt⟩ hspare hrows
    · rw [if_neg hk]
      have hruns : (withRun db i now).runsOf j.id = db.runsOf j.id := by
        refine Table.ext ?_
        rw [runsOf_withRun, if_neg (Ne.symm hk), List.append_nil]
      rw [hruns]
      exact .same
  | @finished runId result now r i v hfinishing =>
    obtain ⟨hr, hrid⟩ := Table.get?_eq_some.mp hfinishing.run
    obtain ⟨hi, hid⟩ := Table.get?_eq_some.mp hfinishing.job
    obtain ⟨j, hj, rfl⟩ := (Table.mem_update (finishedJob_id v)).mp hj'
    refine Or.inr ⟨j, hj, ?_⟩
    by_cases hk : j.id = r.jobId
    · obtain rfl := Table.eq_of_key hj hi (hk.trans hid.symm)
      rw [if_pos hk, show (finishedJob v j).id = j.id from rfl, runsOf_withResult]
      exact .finished (by rw [← hrid]) hfinishing.time.2 (mem_runsOf.mpr ⟨hr, hk.symm⟩)
        hfinishing.out hfinishing.weighed
    · rw [if_neg hk, runsOf_withResult]
      have hother : (db.runsOf j.id).get? r.id = none := by
        refine Table.get?_eq_none.mpr fun x hx hxid => hk ?_
        obtain ⟨hx, hxjob⟩ := mem_runsOf.mp hx
        rw [← hxjob, Table.eq_of_key hx hr hxid]
      rw [Table.update_of_get?_eq_none (finishedRun_id result v) hother]
      exact .same

end Runs

/-! ## Run slots -/

/-- Adds an attempt to the slots so far, the newest slot and attempt first. -/
def addAttempt (slots : List (List Int)) (attempt : Int) : List (List Int) :=
  if attempt = 1 then [attempt] :: slots
  else
    match slots with
    | [] => [[attempt]]
    | slot :: earlier => (attempt :: slot) :: earlier

/-- The slots of a job whose runs have the attempt numbers `attempts`, newest first. -/
def slots (attempts : List Int) : List (List Int) := attempts.foldl addAttempt []

theorem slots_append_singleton (attempts : List Int) (attempt : Int) :
    slots (attempts ++ [attempt]) = addAttempt (slots attempts) attempt :=
  List.foldl_append ..

/-- Every slot starts with a first attempt and has at most `limit` attempts, and the newest has
`attempts` of them while it is being retried. -/
structure SlotsWithin (limit attempts : Int) (slots : List (List Int)) : Prop where
  slot : ∀ slot ∈ slots, slot.getLast? = some 1 ∧ (slot.length : Int) ≤ limit
  current : attempts ≠ 0 → ∃ slot earlier, slots = slot :: earlier ∧ (slot.length : Int) = attempts

theorem SlotsWithin.nil (limit : Int) : SlotsWithin limit 0 [] :=
  ⟨fun _ h => absurd h List.not_mem_nil, fun h => absurd rfl h⟩

/-- The next attempt may start a slot. -/
theorem SlotsWithin.reset {limit attempts : Int} {slots : List (List Int)}
    (h : SlotsWithin limit attempts slots) : SlotsWithin limit 0 slots :=
  ⟨h.slot, fun hne => absurd rfl hne⟩

theorem SlotsWithin.addAttempt {limit attempts : Int} {slots : List (List Int)}
    (h : SlotsWithin limit attempts slots) (hpos : 0 ≤ attempts) (hlt : attempts < limit) :
    SlotsWithin limit (attempts + 1) (addAttempt slots (attempts + 1)) := by
  unfold Store.addAttempt
  by_cases hfirst : attempts = 0
  · subst hfirst
    rw [if_pos (Int.zero_add 1)]
    refine ⟨fun slot hslot => ?_, fun _ => ⟨_, _, rfl, rfl⟩⟩
    rcases List.mem_cons.mp hslot with rfl | hslot
    · exact ⟨rfl, hlt⟩
    · exact h.slot slot hslot
  · rw [if_neg (by omega)]
    obtain ⟨current, earlier, rfl, hlength⟩ := h.current hfirst
    have hgrown : (((attempts + 1) :: current).length : Int) = attempts + 1 := by
      rw [List.length_cons]
      push_cast
      omega
    refine ⟨fun slot hslot => ?_, fun _ => ⟨_, _, rfl, hgrown⟩⟩
    rcases List.mem_cons.mp hslot with rfl | hslot
    · refine ⟨?_, by omega⟩
      have hlast := (h.slot current List.mem_cons_self).1
      rw [List.getLast?_cons, hlast]
      rfl
    · exact h.slot slot (List.mem_cons_of_mem _ hslot)

/-! ## The invariant -/

/-- What a run counts for in the commitment of a job that pays at most `maxAmount` a run. -/
def RunRow.share (maxAmount : Int) (r : RunRow) : Int :=
  if r.finished = false ∨ r.outcome = .unknown then maxAmount
  else if r.outcome = .paid then r.amountBase
  else 0

/-- What holds between a job and its runs. -/
structure JobInvariant (j : ScheduledJob) (runs : RunTable) : Prop where
  valid : Scheduler.Valid j.toPaymentSchedule
  committed : j.committedBase = runs.sum (RunRow.share j.maxAmountBase)
  within : j.committedBase ≤ j.maxTotalBase
  runCount : j.runCount = (runs.rows.map RunRow.attempt).count 1
  runCount_le : j.runCount ≤ j.maxRuns
  attempts : 0 ≤ j.attempts ∧ j.attempts ≤ j.maxAttempts
  slots : SlotsWithin j.maxAttempts j.attempts (slots (runs.rows.map RunRow.attempt))
  unknown_of_out : ∀ r ∈ runs, r.finished = false → r.outcome = .unknown
  amount_unknown : ∀ r ∈ runs, r.outcome = .unknown → r.amountBase = j.maxAmountBase
  one_unknown : ∀ r ∈ runs, ∀ r' ∈ runs, r.outcome = .unknown → r'.outcome = .unknown → r = r'
  /-- A job that may be claimed has its last result, and an attempt left. -/
  ready : j.status = .active →
    (∀ r ∈ runs, r.outcome ≠ .unknown) ∧ j.attempts < j.maxAttempts

structure ScheduleInvariant (db : ScheduleDb) : Prop where
  owned : Owned db
  job : ∀ j ∈ db.jobs, JobInvariant j (db.runsOf j.id)

namespace JobInvariant

open Scheduler

variable {j : ScheduledJob} {runs runs' : RunTable}

/-- A job without runs. -/
theorem new {input : PaymentSchedule} (hvalid : Valid input) :
    JobInvariant (newJob input) Table.empty where
  valid := { hvalid with }
  committed := rfl
  within := by
    have := hvalid.caps
    show (0 : Int) ≤ input.maxTotalBase
    omega
  runCount := rfl
  runCount_le := by
    have := hvalid.maxRuns
    show (0 : Int) ≤ input.maxRuns
    omega
  attempts := by
    have := hvalid.maxAttempts
    show (0 : Int) ≤ 0 ∧ 0 ≤ input.maxAttempts
    omega
  slots := SlotsWithin.nil _
  unknown_of_out _ hr := absurd hr Table.not_mem_empty
  amount_unknown _ hr := absurd hr Table.not_mem_empty
  one_unknown _ hr := absurd hr Table.not_mem_empty
  ready _ := ⟨fun _ hr => absurd hr Table.not_mem_empty, by
    have := hvalid.maxAttempts
    show (0 : Int) < input.maxAttempts
    omega⟩

/-- A job that is taken off the schedule. -/
theorem withStatus (h : JobInvariant j runs) {status : JobStatus} (hstatus : status ≠ .active) :
    JobInvariant (setStatus status j) runs :=
  { h with
    valid := h.valid
    ready := fun hactive => absurd hactive hstatus }

/-! ### Claims -/

/-- A job with a run out. -/
theorem claimed (h : JobInvariant j runs) {now : Int} {id : Nat} (hactive : j.status = .active)
    (hspare : ¬ Spent j now) (hrows : runs'.rows = runs.rows ++ [claimedRun j now id]) :
    JobInvariant (claimedJob j) runs' := by
  obtain ⟨hknown, hattempts⟩ := h.ready hactive
  obtain ⟨-, hruns, htotal⟩ : ¬ now ≥ j.endsAt ∧ ¬ (j.attempts = 0 ∧ j.runCount ≥ j.maxRuns) ∧
      ¬ j.committedBase + j.maxAmountBase > j.maxTotalBase := by
    unfold Spent at hspare
    tauto
  have hmem : ∀ r, r ∈ runs' ↔ r ∈ runs ∨ r = claimedRun j now id := by
    intro r
    rw [Table.mem_def, hrows, List.mem_append, List.mem_singleton, Table.mem_def]
  exact
    { valid := h.valid
      committed := by
        show j.committedBase + j.maxAmountBase = _
        rw [h.committed, Table.sum, Table.sum, hrows, List.map_append, List.sum_append,
          List.map_singleton, List.sum_singleton]
        rfl
      within := by
        show j.committedBase + j.maxAmountBase ≤ j.maxTotalBase
        omega
      runCount := by
        show j.runCount + (if j.attempts = 0 then 1 else 0) = _
        rw [hrows, List.map_append, List.count_append, List.map_singleton, h.runCount]
        by_cases hfirst : j.attempts = 0
        · simp [claimedRun, hfirst]
        · simp [claimedRun, hfirst]
      runCount_le := by
        have := h.runCount_le
        show j.runCount + (if j.attempts = 0 then 1 else 0) ≤ j.maxRuns
        split <;> omega
      attempts := by
        have := h.attempts
        show (0 : Int) ≤ j.attempts + 1 ∧ j.attempts + 1 ≤ j.maxAttempts
        omega
      slots := by
        rw [hrows, List.map_append, List.map_singleton, slots_append_singleton]
        exact h.slots.addAttempt h.attempts.1 hattempts
      unknown_of_out := by
        intro r hr hout
        rcases (hmem r).mp hr with hr | rfl
        · exact h.unknown_of_out r hr hout
        · rfl
      amount_unknown := by
        intro r hr hout
        rcases (hmem r).mp hr with hr | rfl
        · exact h.amount_unknown r hr hout
        · rfl
      one_unknown := by
        intro r hr r' hr' hu hu'
        rcases (hmem r).mp hr with hr | rfl
        · exact absurd hu (hknown r hr)
        · rcases (hmem r').mp hr' with hr' | rfl
          · exact absurd hu' (hknown r' hr')
          · rfl
      ready := fun hactive => nomatch hactive }

/-! ### Results -/

/-- What a verdict does to the columns of the job and to the run's share. -/
structure Settles (j : ScheduledJob) (result : ScheduledResult) (v : Verdict) : Prop where
  committed : ∀ r, v.committed + j.maxAmountBase =
    j.committedBase + (finishedRun result v r).share j.maxAmountBase
  share_le : ∀ r, (finishedRun result v r).share j.maxAmountBase ≤ j.maxAmountBase
  attempts : v.attempts = 0 ∨ v.attempts = j.attempts
  amount_unknown : result.outcome = .unknown → v.amount = j.maxAmountBase
  again : v.status = .active →
    result.outcome ≠ .unknown ∧ (v.attempts = 0 ∨ j.attempts < j.maxAttempts)

theorem settles_of_weigh (hcaps : 0 < j.maxAmountBase) {r : RunRow} {now : Int}
    {result : ScheduledResult} {v : Verdict} (hamount : r.amountBase = j.maxAmountBase)
    (h : weigh j r now result = .ok v) : Settles j result v := by
  rcases weigh_eq_ok h with ⟨amount, _, rfl, hpos, hle, rfl⟩ | ⟨_, _, again, rfl, hagain, rfl⟩ |
    ⟨_, rfl, rfl⟩
  · exact
      { committed := fun x => by
          show j.committedBase + (amount - r.amountBase) + j.maxAmountBase =
            j.committedBase + amount
          omega
        share_le := fun x => hle
        attempts := Or.inl rfl
        amount_unknown := fun h => nomatch h
        again := fun _ => ⟨(fun h => nomatch h), Or.inl rfl⟩ }
  · exact
      { committed := fun x => by
          show j.committedBase - r.amountBase + j.maxAmountBase = j.committedBase + 0
          omega
        share_le := fun x => hcaps.le
        attempts := Or.inr rfl
        amount_unknown := fun h => nomatch h
        again := fun hactive => by
          refine ⟨fun h => (nomatch h), Or.inr (hagain ?_).2⟩
          cases again with
          | true => rfl
          | false => exact nomatch hactive }
  · exact
      { committed := fun x => rfl
        share_le := fun x => le_refl _
        attempts := Or.inr rfl
        amount_unknown := fun _ => hamount
        again := fun hactive => nomatch hactive }

theorem statusAfter_eq_active {v : Verdict} (h : statusAfter j v = .active) :
    v.status = .active ∧ ¬ Spent (weighedJob j v) v.next := by
  unfold statusAfter at h
  split at h
  · cases h
  · split at h
    · cases h
    · next hspent => exact ⟨h, fun hs => hspent ⟨h, hs⟩⟩

/-- The runs after a result: the one that was out has it, and the others were known. -/
theorem mem_finished (h : JobInvariant j runs) {r x : RunRow} {result : ScheduledResult}
    {v : Verdict} (hr : r ∈ runs) (hunknown : r.outcome = .unknown)
    (hx : x ∈ runs.update r.id (finishedRun result v) (finishedRun_id result v)) :
    x = finishedRun result v r ∨ x ∈ runs ∧ x.outcome ≠ .unknown := by
  obtain ⟨y, hy, rfl⟩ := (Table.mem_update (finishedRun_id result v)).mp hx
  by_cases hid : y.id = r.id
  · rw [if_pos hid, Table.eq_of_key hy hr hid]
    exact Or.inl rfl
  · rw [if_neg hid]
    refine Or.inr ⟨hy, fun hyu => hid ?_⟩
    rw [h.one_unknown y hy r hr hyu hunknown]

/-- A job with a result in. -/
theorem finished (h : JobInvariant j runs) {r : RunRow} {now : Int} {result : ScheduledResult}
    {v : Verdict} (hr : r ∈ runs) (hout : r.finished = false)
    (hv : weigh j r now result = .ok v) :
    JobInvariant (finishedJob v j)
      (runs.update r.id (finishedRun result v) (finishedRun_id result v)) := by
  have hunknown := h.unknown_of_out r hr hout
  have hs := settles_of_weigh h.valid.caps.1 (h.amount_unknown r hr hunknown) hv
  have hshare : r.share j.maxAmountBase = j.maxAmountBase := if_pos (Or.inl hout)
  have hattempts : (runs.update r.id (finishedRun result v) (finishedRun_id result v)).rows.map RunRow.attempt
      = runs.rows.map RunRow.attempt :=
    Table.map_update _ fun _ => rfl
  have hmem : ∀ x ∈ runs.update r.id (finishedRun result v) (finishedRun_id result v),
      x = finishedRun result v r ∨ (x ∈ runs ∧ x.outcome ≠ .unknown) :=
    fun x hx => h.mem_finished hr hunknown hx
  exact
    { valid := h.valid
      committed := by
        show v.committed = Table.sum _ (RunRow.share j.maxAmountBase)
        have hsum := Table.sum_update (f := finishedRun result v) (fun _ => rfl)
          (Table.get?_of_mem hr) (RunRow.share j.maxAmountBase)
        have := hs.committed r
        rw [← h.committed, hshare] at hsum
        omega
      within := by
        have := hs.committed r
        have := hs.share_le r
        have := h.within
        show v.committed ≤ j.maxTotalBase
        omega
      runCount := by
        rw [hattempts]
        exact h.runCount
      runCount_le := h.runCount_le
      attempts := by
        have := h.attempts
        have := hs.attempts
        show 0 ≤ v.attempts ∧ v.attempts ≤ j.maxAttempts
        omega
      slots := by
        rw [hattempts]
        show SlotsWithin j.maxAttempts v.attempts _
        rcases hs.attempts with hzero | hsame
        · rw [hzero]
          exact h.slots.reset
        · rw [hsame]
          exact h.slots
      unknown_of_out := by
        intro x hx hxout
        rcases hmem x hx with rfl | ⟨hx, -⟩
        · cases hxout
        · exact h.unknown_of_out x hx hxout
      amount_unknown := by
        intro x hx hxu
        rcases hmem x hx with rfl | ⟨hx, -⟩
        · exact hs.amount_unknown hxu
        · exact h.amount_unknown x hx hxu
      one_unknown := by
        intro x hx y hy hxu hyu
        rcases hmem x hx with rfl | ⟨-, hx⟩
        · rcases hmem y hy with rfl | ⟨-, hy⟩
          · rfl
          · exact absurd hyu hy
        · exact absurd hxu hx
      ready := by
        intro hactive
        obtain ⟨hvactive, hspare⟩ := statusAfter_eq_active hactive
        obtain ⟨hknown, hleft⟩ := hs.again hvactive
        refine ⟨fun x hx => ?_, ?_⟩
        · rcases hmem x hx with rfl | ⟨-, hx⟩
          · exact hknown
          · exact hx
        · have := hs.attempts
          have := h.valid.maxAttempts
          show v.attempts < j.maxAttempts
          omega }

/-- **Every step of a job keeps its invariant.** -/
theorem step {op : ScheduleOp} {j' : ScheduledJob} (h : JobInvariant j runs)
    (hstep : JobStep op j runs j' runs') : JobInvariant j' runs' := by
  cases hstep with
  | same => exact h
  | completed _ => exact h.withStatus fun h => nomatch h
  | cancelled => exact h.withStatus fun h => nomatch h
  | claimed _ hdue hspare hrows => exact h.claimed hdue.1 hspare hrows
  | finished _ _ hr hout hv => exact h.finished hr hout hv

end JobInvariant

/-! ## The invariant in a store -/

theorem ScheduleInvariant.empty : ScheduleInvariant ScheduleDb.empty where
  owned _ hr := absurd hr Table.not_mem_empty
  job _ hj := absurd hj Table.not_mem_empty

theorem ScheduleInvariant.write {db db' : ScheduleDb} {op : ScheduleOp} (h : ScheduleInvariant db)
    (hw : ScheduleOp.Write db op db') : ScheduleInvariant db' where
  owned := owned_write h.owned hw
  job j' hj' := by
    rcases jobStep_of_write h.owned hw hj' with ⟨input, hvalid, rfl, hruns⟩ | ⟨j, hj, hstep⟩
    · rw [hruns]
      exact JobInvariant.new hvalid
    · exact (h.job j hj).step hstep

/-- **Every operation keeps the invariant, refused or not.** -/
theorem exec_preserves_schedule (db : ScheduleDb) (op : ScheduleOp) (h : ScheduleInvariant db) :
    ScheduleInvariant (ScheduleOp.exec db op) := h.write (ScheduleOp.exec_write db op)

theorem run_invariant_schedule (ops : List ScheduleOp) :
    ScheduleInvariant (run ScheduleOp.exec ScheduleDb.empty ops) :=
  run_invariant exec_preserves_schedule ops _ ScheduleInvariant.empty

end Mapae.Store
