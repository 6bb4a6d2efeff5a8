import Mapae.Infra.Binary64
import Mapae.Infra.Table
import Mapae.Infra.Transaction
import Mapae.Store.Values

/-!
# The schedule store

`payment_jobs` has a row for each standing order, and `payment_runs` a row for each attempt to
pay one. `claim` commits the worst case and writes an unfinished run before anything is paid;
`finish` puts the actual amount in its place and decides when, and whether, the job runs
again. Each is one transaction.

* `claim_eq_ok` and `finish_eq_ok` say all that a successful call can have done
* `Claimed` and `Finishing` name the cases in which a run was written
-/

namespace Mapae.Store

open Mapae.Infra

structure PaymentSchedule where
  id : String
  resourcePath : String
  payTo : String
  maxAmountBase : Int
  maxTotalBase : Int
  maxRuns : Int
  startsAt : Int
  endsAt : Int
  intervalMs : Int
  maxAttempts : Int
  retryDelayMs : Int
  deriving DecidableEq

inductive JobStatus where
  | active
  | paused
  | cancelled
  | completed
  deriving DecidableEq

structure ScheduledJob extends PaymentSchedule where
  status : JobStatus
  nextAt : Int
  runCount : Int
  attempts : Int
  committedBase : Int
  deriving DecidableEq

inductive RunOutcome where
  | unknown
  | paid
  | unpaid
  deriving DecidableEq

/-- A row of `payment_runs`. -/
structure RunRow where
  id : Nat
  jobId : String
  atMs : Int
  attempt : Int
  outcome : RunOutcome
  amountBase : Int
  code : String
  transaction : Option String
  finished : Bool

inductive ScheduledResult where
  | paid (amountBase : Int) (transaction : Option String)
  | unpaid (code : String) (retry : Bool)
  | unknown (code : String)

namespace ScheduledResult

def outcome : ScheduledResult → RunOutcome
  | paid .. => .paid
  | unpaid .. => .unpaid
  | unknown _ => .unknown

def code : ScheduledResult → String
  | paid .. => "PAID"
  | unpaid code _ => code
  | unknown code => code

/-- The hash that is stored with the run. -/
def transaction : ScheduledResult → Option String
  | paid _ transaction => transaction
  | unpaid .. => none
  | unknown _ => none

end ScheduledResult

/-- The tables the scheduler reads and writes. -/
structure ScheduleDb where
  jobs : Table (fun j : ScheduledJob => j.id)
  runs : Table (fun r : RunRow => r.id)

def ScheduleDb.empty : ScheduleDb := ⟨Table.empty, Table.empty⟩

/-- `WHERE job_id = ? ORDER BY id`: rows are numbered as they are written. -/
def ScheduleDb.runsOf (db : ScheduleDb) (id : String) : Table (fun r : RunRow => r.id) :=
  db.runs.filter fun r => r.jobId = id

/-! ## The checks -/

/-- The last instant a `Date` can name. -/
def lastInstant : Int := 8640000000000000

def safeTime (n : Int) : Except StoreError Unit :=
  throwIf (isSafeInteger n = false ∨ n < 0 ∨ n > lastInstant)
    (StoreError.error "invalid schedule time")

/-- `/^[a-zA-Z0-9_-]{1,64}$/`. -/
def isJobId (text : String) : Bool :=
  1 ≤ text.toList.length && text.toList.length ≤ 64 &&
    text.toList.all fun c => isLetterOrDigit c || c == '_' || c == '-'

/-- `/^\/(?!\/)[a-zA-Z0-9/_-]*$/`, and at most 512 characters. -/
def isResourcePath (text : String) : Bool :=
  match text.toList with
  | '/' :: rest =>
    rest.head? != some '/' &&
      (rest.all fun c => isLetterOrDigit c || c == '/' || c == '_' || c == '-') &&
      rest.length < 512
  | _ => false

/-- `/^[A-Z_]{1,64}$/`. -/
def isOutcomeCode (text : String) : Bool :=
  1 ≤ text.toList.length && text.toList.length ≤ 64 &&
    text.toList.all fun c => ('A' ≤ c ∧ c ≤ 'Z') ∨ c = '_'

/-- `/^0x0{40}$/`. -/
def isZeroAddress (text : String) : Bool := text == "0x0000000000000000000000000000000000000000"

/-- What `add` asks of a schedule, in the order it asks. -/
def checkSchedule (j : PaymentSchedule) : Except StoreError Unit := do
  throwIf (isJobId j.id = false ∨ isHexOf 20 j.payTo = false ∨ isZeroAddress j.payTo = true)
    (StoreError.error "invalid schedule identity")
  throwIf (isResourcePath j.resourcePath = false)
    (StoreError.error "resource must be a plain seller path without credentials or query")
  safeTime j.startsAt
  safeTime j.endsAt
  safeTime j.intervalMs
  safeTime j.retryDelayMs
  throwIf (j.endsAt ≤ j.startsAt ∨ j.intervalMs < 1000 ∨ j.retryDelayMs < 1000 ∨
      isSafeInteger j.maxRuns = false ∨ j.maxRuns < 1 ∨ j.maxRuns > 100000 ∨
      j.maxAttempts < 1 ∨ j.maxAttempts > 10)
    (StoreError.error "invalid schedule bounds")
  throwIf (j.maxAmountBase ≤ 0 ∨ j.maxTotalBase < j.maxAmountBase)
    (StoreError.error "invalid payment caps")

/-! ## Writing -/

namespace Scheduler

abbrev Statement := EStateM StoreError ScheduleDb

/-- The row `add` writes. -/
def newJob (j : PaymentSchedule) : ScheduledJob :=
  { j with
    payTo := toLowerCase j.payTo
    status := .active
    nextAt := j.startsAt
    runCount := 0
    attempts := 0
    committedBase := 0 }

/-- `ScheduleStore.add`. -/
def add (input : PaymentSchedule) : Statement ScheduledJob := do
  checkSchedule input
  let db ← get
  match db.jobs.insert? (newJob input) with
  | none => throw (.constraint "payment_jobs.id")
  | some jobs =>
    set { db with jobs := jobs }
    pure (newJob input)

/-- `UPDATE payment_jobs ... WHERE id = ?`. -/
def setJob (id : String) (f : ScheduledJob → ScheduledJob) (hf : ∀ j, (f j).id = j.id) :
    Statement Unit := do
  let db ← get
  set { db with jobs := db.jobs.update id f hf }

/-- `SET status = ?`. -/
def setStatus (status : JobStatus) (j : ScheduledJob) : ScheduledJob := { j with status := status }

theorem setStatus_id (status : JobStatus) (j : ScheduledJob) : (setStatus status j).id = j.id := rfl

/-- `ScheduleStore.cancel`. -/
def cancel (id : String) : Statement Unit := do
  match (← get).jobs.get? id with
  | none => throw (.error "job not found")
  | some _ => setJob id (setStatus .cancelled) (setStatus_id _)

/-- The job has nothing left to claim: its time, its runs or its total is used up. -/
def Spent (j : ScheduledJob) (now : Int) : Prop :=
  now ≥ j.endsAt ∨ (j.attempts = 0 ∧ j.runCount ≥ j.maxRuns) ∨
    j.committedBase + j.maxAmountBase > j.maxTotalBase

instance Spent.decidable (j : ScheduledJob) (now : Int) : Decidable (Spent j now) := by
  unfold Spent
  infer_instance

/-- The job while its next run is out. -/
def claimedJob (j : ScheduledJob) : ScheduledJob :=
  { j with
    status := .paused
    committedBase := j.committedBase + j.maxAmountBase
    runCount := j.runCount + (if j.attempts = 0 then 1 else 0)
    attempts := j.attempts + 1 }

theorem claimedJob_id (j : ScheduledJob) : (claimedJob j).id = j.id := rfl

/-- The row of a run that is out. -/
def claimedRun (j : ScheduledJob) (now : Int) (id : Nat) : RunRow where
  id := id
  jobId := j.id
  atMs := now
  attempt := j.attempts + 1
  outcome := .unknown
  amountBase := j.maxAmountBase
  code := "IN_PROGRESS_OR_INTERRUPTED"
  transaction := none
  finished := false

/-- `ScheduleStore.claim`. The run is unknown and the job paused from here on: a crash at any
later point cannot make another worker pay for the slot again. -/
def claim (id : String) (now : Int) : Statement (Option (ScheduledJob × RunRow)) :=
  transaction do
    safeTime now
    let db ← get
    match db.jobs.get? id with
    | none => pure none
    | some j =>
      if j.status ≠ .active ∨ now < j.nextAt ∨ now < j.startsAt then pure none
      else if Spent j now then
        setJob id (setStatus .completed) (setStatus_id _)
        pure none
      else
        setJob id claimedJob claimedJob_id
        let run := claimedRun j now db.runs.nextId
        let db ← get
        set { db with runs := db.runs.insertNext (claimedRun j now) fun _ => rfl }
        pure (some (claimedJob j, run))

/-- The first slot boundary after `now`, in double precision. -/
def nextSlot (startsAt intervalMs now : Int) : Int :=
  Binary64.add startsAt
    (Binary64.mul
      (Binary64.add (Binary64.floorDiv (Binary64.sub now startsAt) intervalMs) 1) intervalMs)

/-- What `finish` made of a result: the run's amount and the job's new columns. -/
structure Verdict where
  amount : Int
  committed : Int
  status : JobStatus
  next : Int
  attempts : Int

/-- The branches of `finish` on the result. -/
def weigh (j : ScheduledJob) (r : RunRow) (now : Int) :
    ScheduledResult → Except StoreError Verdict
  | .paid amountBase transaction => do
    throwIf (amountBase ≤ 0 ∨ amountBase > j.maxAmountBase)
      (StoreError.error "paid amount outside reservation")
    throwIf (transaction.any (fun hash => hash ≠ "" ∧ isHexOf 32 hash = false) = true)
      (StoreError.error "invalid transaction")
    -- Missed intervals are skipped: no burst of payments catches up.
    pure
      { amount := amountBase
        committed := j.committedBase + (amountBase - r.amountBase)
        status := .active
        next := nextSlot j.startsAt j.intervalMs now
        attempts := 0 }
  | .unpaid _ retry =>
    if retry ∧ j.attempts < j.maxAttempts then
      pure
        { amount := 0
          committed := j.committedBase - r.amountBase
          status := .active
          next := Binary64.add now j.retryDelayMs
          attempts := j.attempts }
    else
      pure
        { amount := 0
          committed := j.committedBase - r.amountBase
          status := .paused
          next := j.nextAt
          attempts := j.attempts }
  | .unknown _ =>
    pure
      { amount := r.amountBase
        committed := j.committedBase
        status := .paused
        next := j.nextAt
        attempts := j.attempts }

/-- The job once its run is in, before a cancellation is looked at. -/
def weighedJob (j : ScheduledJob) (v : Verdict) : ScheduledJob :=
  { j with
    status := v.status
    committedBase := v.committed
    nextAt := v.next
    attempts := v.attempts }

/-- The status of a job after a run: what is spent is completed, what is cancelled stays so. -/
def statusAfter (j : ScheduledJob) (v : Verdict) : JobStatus :=
  if j.status = .cancelled then .cancelled
  else if v.status = .active ∧ Spent (weighedJob j v) v.next then .completed
  else v.status

/-- The job once its run is in. -/
def finishedJob (v : Verdict) (j : ScheduledJob) : ScheduledJob :=
  { weighedJob j v with status := statusAfter j v }

theorem finishedJob_id (v : Verdict) (j : ScheduledJob) : (finishedJob v j).id = j.id := rfl

/-- The run once its result is in. -/
def finishedRun (result : ScheduledResult) (v : Verdict) (r : RunRow) : RunRow :=
  { r with
    outcome := result.outcome
    amountBase := v.amount
    code := result.code
    transaction := result.transaction
    finished := true }

theorem finishedRun_id (result : ScheduledResult) (v : Verdict) (r : RunRow) :
    (finishedRun result v r).id = r.id := rfl

/-- `ScheduleStore.finish`. -/
def finish (runId : Nat) (result : ScheduledResult) (now : Int) : Statement Unit :=
  transaction do
    safeTime now
    let db ← get
    match db.runs.get? runId with
    | none => throw (.error "run not found")
    | some r =>
      if r.finished then pure ()
      else
        match db.jobs.get? r.jobId with
        | none => throw (.typeError "null is not an object")
        | some j =>
          throwIf (isOutcomeCode result.code = false) (StoreError.error "invalid outcome code")
          let v ← weigh j r now result
          set { db with
            jobs := db.jobs.update j.id (finishedJob v) (finishedJob_id v)
            runs := db.runs.update runId (finishedRun result v) (finishedRun_id result v) }

/-! ## What a successful call did -/

variable {db db' : ScheduleDb} {id : String} {now : Int} {j : ScheduledJob}

theorem safeTime_eq_ok {n : Int} {u : Unit} :
    safeTime n = .ok u ↔ isSafeInteger n = true ∧ 0 ≤ n ∧ n ≤ lastInstant := by
  unfold safeTime
  rw [throwIf_eq_ok]
  cases isSafeInteger n <;> simp

/-- What a schedule that `add` accepts satisfies. -/
structure Valid (j : PaymentSchedule) : Prop where
  startsAt : 0 ≤ j.startsAt
  endsAt : j.endsAt ≤ lastInstant
  within : j.startsAt < j.endsAt
  intervalMs : 1000 ≤ j.intervalMs ∧ j.intervalMs ≤ lastInstant
  retryDelayMs : 1000 ≤ j.retryDelayMs ∧ j.retryDelayMs ≤ lastInstant
  maxRuns : 1 ≤ j.maxRuns
  maxAttempts : 1 ≤ j.maxAttempts
  caps : 0 < j.maxAmountBase ∧ j.maxAmountBase ≤ j.maxTotalBase

theorem valid_of_checkSchedule {j : PaymentSchedule} {u : Unit} (h : checkSchedule j = .ok u) :
    Valid j := by
  simp only [checkSchedule, bind_eq_ok, throwIf_eq_ok, safeTime_eq_ok, exists_and_left,
    exists_const] at h
  obtain ⟨-, -, hstart, hend, hinterval, hretry, hbounds, hcaps⟩ := h
  exact
    { startsAt := hstart.2.1
      endsAt := hend.2.2
      within := by omega
      intervalMs := ⟨by omega, hinterval.2.2⟩
      retryDelayMs := ⟨by omega, hretry.2.2⟩
      maxRuns := by omega
      maxAttempts := by omega
      caps := by omega }

theorem add_eq_ok {input : PaymentSchedule} (h : (add input).run db = .ok j db') :
    Valid input ∧ j = newJob input ∧
      ∃ jobs, db.jobs.insert? (newJob input) = some jobs ∧ db' = { db with jobs := jobs } := by
  simp only [add, run_bind_eq_ok, run_lift_eq_ok, run_get_eq_ok, exists_and_left, exists_eq_left,
    and_assoc] at h
  obtain ⟨u, hcheck, h⟩ := h
  refine ⟨valid_of_checkSchedule hcheck, ?_⟩
  cases hinsert : db.jobs.insert? (newJob input) with
  | none =>
    rw [hinsert] at h
    exact absurd h run_throw_ne_ok
  | some jobs =>
    simp only [hinsert, run_bind_eq_ok, run_set_eq_ok, run_pure_eq_ok, exists_eq_left,
      exists_const] at h
    exact ⟨h.1, jobs, rfl, h.2⟩

theorem cancel_eq_ok {u : Unit} (h : (cancel id).run db = .ok u db') :
    ∃ j, db.jobs.get? id = some j ∧
      db' = { db with
        jobs := db.jobs.update id (setStatus .cancelled) (setStatus_id _) } := by
  simp only [cancel, run_bind_eq_ok, run_get_eq_ok, exists_and_left, exists_eq_left,
    and_assoc] at h
  cases hget : db.jobs.get? id with
  | none =>
    rw [hget] at h
    exact absurd h run_throw_ne_ok
  | some j =>
    rw [hget] at h
    simp only [setJob, run_bind_eq_ok, run_get_eq_ok, run_set_eq_ok, exists_and_left,
      exists_eq_left, and_assoc] at h
    exact ⟨j, rfl, h⟩

/-- `add` and `cancel` are single statements: what throws has written nothing. -/
theorem add_eq_error {input : PaymentSchedule} {e : StoreError}
    (h : (add input).run db = .error e db') : db' = db := by
  simp only [add, run_bind_eq_error, run_lift_eq_error, run_lift_eq_ok, run_get_eq_ok,
    run_get_ne_error, false_or, exists_and_left, exists_eq_left, and_assoc] at h
  rcases h with ⟨-, h⟩ | ⟨u, -, h⟩
  · exact h
  · split at h
    · exact (run_throw_eq_error.mp h).2
    · simp only [run_bind_eq_error, run_set_ne_error, run_pure_ne_error, and_false, false_or,
        exists_false] at h

theorem cancel_eq_error {e : StoreError} (h : (cancel id).run db = .error e db') : db' = db := by
  simp only [cancel, run_bind_eq_error, run_get_eq_ok, run_get_ne_error, false_or,
    exists_and_left, exists_eq_left, and_assoc] at h
  split at h
  · exact (run_throw_eq_error.mp h).2
  · simp only [setJob, run_bind_eq_error, run_get_ne_error, run_set_ne_error, and_false, or_self,
      exists_false] at h

/-- `claim` may act on the job at `now`. -/
structure Due (db : ScheduleDb) (id : String) (now : Int) (j : ScheduledJob) : Prop where
  time : 0 ≤ now ∧ now ≤ lastInstant
  get : db.jobs.get? id = some j
  active : j.status = .active
  nextAt : j.nextAt ≤ now
  startsAt : j.startsAt ≤ now

/-- The tables with a run of `j` out. -/
def withRun (db : ScheduleDb) (j : ScheduledJob) (now : Int) : ScheduleDb where
  jobs := db.jobs.update j.id claimedJob claimedJob_id
  runs := db.runs.insertNext (claimedRun j now) fun _ => rfl

/--
**What a successful `claim` did.**

Nothing; or it completed a job that was spent; or it wrote a run of a job that was not.
-/
theorem claim_eq_ok {answer : Option (ScheduledJob × RunRow)}
    (h : (claim id now).run db = .ok answer db') :
    (answer = none ∧ db' = db) ∨
      ∃ j, Due db id now j ∧
        ((Spent j now ∧ answer = none ∧
            db' = { db with
              jobs := db.jobs.update id (setStatus .completed) (setStatus_id _) })
        ∨ (¬ Spent j now ∧ answer = some (claimedJob j, claimedRun j now db.runs.nextId) ∧
            db' = withRun db j now)) := by
  simp only [claim, run_transaction_eq_ok, run_bind_eq_ok, run_lift_eq_ok, run_get_eq_ok,
    safeTime_eq_ok, exists_and_left, exists_eq_left, and_assoc, exists_const] at h
  obtain ⟨-, hpos, hlast, h⟩ := h
  cases hget : db.jobs.get? id with
  | none =>
    rw [hget] at h
    exact Or.inl (run_pure_eq_ok.mp h)
  | some j =>
    simp only [hget] at h
    by_cases hwait : j.status ≠ .active ∨ now < j.nextAt ∨ now < j.startsAt
    · rw [if_pos hwait] at h
      exact Or.inl (run_pure_eq_ok.mp h)
    rw [if_neg hwait] at h
    have hid : j.id = id := (Table.get?_eq_some.mp hget).2
    have hdue : Due db id now j :=
      { time := ⟨hpos, hlast⟩
        get := hget
        active := not_not.mp fun h => hwait (Or.inl h)
        nextAt := not_lt.mp fun h => hwait (Or.inr (Or.inl h))
        startsAt := not_lt.mp fun h => hwait (Or.inr (Or.inr h)) }
    refine Or.inr ⟨j, hdue, ?_⟩
    by_cases hspent : Spent j now
    · rw [if_pos hspent] at h
      simp only [setJob, run_bind_eq_ok, run_get_eq_ok, run_set_eq_ok, run_pure_eq_ok,
        exists_and_left, exists_eq_left, and_assoc, exists_const] at h
      exact Or.inl ⟨hspent, h.1, h.2⟩
    · rw [if_neg hspent] at h
      simp only [setJob, run_bind_eq_ok, run_get_eq_ok, run_set_eq_ok, run_pure_eq_ok,
        exists_and_left, exists_eq_left, and_assoc, exists_const] at h
      obtain ⟨hanswer, rfl⟩ := h
      refine Or.inr ⟨hspent, hanswer, ?_⟩
      rw [withRun, hid]

/-- What a paid run leaves behind. -/
def paidVerdict (j : ScheduledJob) (r : RunRow) (now amountBase : Int) : Verdict where
  amount := amountBase
  committed := j.committedBase + (amountBase - r.amountBase)
  status := .active
  next := nextSlot j.startsAt j.intervalMs now
  attempts := 0

/-- What an unpaid run leaves behind, with or without another attempt. -/
def unpaidVerdict (j : ScheduledJob) (r : RunRow) (now : Int) (again : Bool) : Verdict where
  amount := 0
  committed := j.committedBase - r.amountBase
  status := if again then .active else .paused
  next := if again then Binary64.add now j.retryDelayMs else j.nextAt
  attempts := j.attempts

/-- What a run with an unknown result leaves behind. -/
def unknownVerdict (j : ScheduledJob) (r : RunRow) : Verdict where
  amount := r.amountBase
  committed := j.committedBase
  status := .paused
  next := j.nextAt
  attempts := j.attempts

/-- **The results a run can have, and what each leaves behind.** -/
theorem weigh_eq_ok {r : RunRow} {result : ScheduledResult} {v : Verdict}
    (h : weigh j r now result = .ok v) :
    (∃ amountBase transaction, result = .paid amountBase transaction ∧
        0 < amountBase ∧ amountBase ≤ j.maxAmountBase ∧ v = paidVerdict j r now amountBase) ∨
      (∃ code retry again, result = .unpaid code retry ∧
        (again = true → retry = true ∧ j.attempts < j.maxAttempts) ∧
          v = unpaidVerdict j r now again) ∨
      ∃ code, result = .unknown code ∧ v = unknownVerdict j r := by
  cases result with
  | paid amountBase transaction =>
    simp only [weigh, bind_eq_ok, throwIf_eq_ok, pure_eq_ok, exists_const] at h
    obtain ⟨hamount, -, rfl⟩ := h
    exact Or.inl ⟨amountBase, transaction, rfl, by omega, by omega, rfl⟩
  | unpaid code retry =>
    refine Or.inr (Or.inl ⟨code, retry, ?_⟩)
    simp only [weigh] at h
    by_cases hagain : retry = true ∧ j.attempts < j.maxAttempts
    · rw [if_pos hagain, pure_eq_ok] at h
      exact ⟨true, rfl, fun _ => hagain, h.symm⟩
    · rw [if_neg hagain, pure_eq_ok] at h
      exact ⟨false, rfl, fun hfalse => absurd hfalse Bool.false_ne_true, h.symm⟩
  | unknown code =>
    simp only [weigh, pure_eq_ok] at h
    exact Or.inr (Or.inr ⟨code, rfl, h.symm⟩)

/-- `finish` may act on run `r` of job `j`, and decided `v`. -/
structure Finishing (db : ScheduleDb) (runId : Nat) (result : ScheduledResult) (now : Int)
    (r : RunRow) (j : ScheduledJob) (v : Verdict) : Prop where
  time : 0 ≤ now ∧ now ≤ lastInstant
  run : db.runs.get? runId = some r
  out : r.finished = false
  job : db.jobs.get? r.jobId = some j
  weighed : weigh j r now result = .ok v

/-- The tables with the result of `r` in. -/
def withResult (db : ScheduleDb) (r : RunRow) (result : ScheduledResult) (v : Verdict) :
    ScheduleDb where
  jobs := db.jobs.update r.jobId (finishedJob v) (finishedJob_id v)
  runs := db.runs.update r.id (finishedRun result v) (finishedRun_id result v)

/--
**What a successful `finish` did.**

Nothing, when the run was finished before; or it put the result in.
-/
theorem finish_eq_ok {runId : Nat} {result : ScheduledResult} {u : Unit}
    (h : (finish runId result now).run db = .ok u db') :
    (∃ r, db.runs.get? runId = some r ∧ r.finished = true ∧ db' = db) ∨
      ∃ r j v, Finishing db runId result now r j v ∧ db' = withResult db r result v := by
  simp only [finish, run_transaction_eq_ok, run_bind_eq_ok, run_lift_eq_ok, run_get_eq_ok,
    safeTime_eq_ok, exists_and_left, exists_eq_left, and_assoc, exists_const] at h
  obtain ⟨-, hpos, hlast, h⟩ := h
  cases hrun : db.runs.get? runId with
  | none =>
    rw [hrun] at h
    exact absurd h run_throw_ne_ok
  | some r =>
    simp only [hrun] at h
    cases hout : r.finished with
    | true =>
      rw [if_pos hout] at h
      exact Or.inl ⟨r, rfl, hout, (run_pure_eq_ok.mp h).2⟩
    | false =>
      rw [if_neg (by rw [hout]; exact Bool.false_ne_true)] at h
      cases hjob : db.jobs.get? r.jobId with
      | none =>
        rw [hjob] at h
        exact absurd h run_throw_ne_ok
      | some j =>
        simp only [hjob, run_bind_eq_ok, run_lift_eq_ok, run_set_eq_ok, exists_and_left,
          exists_eq_left, and_assoc] at h
        obtain ⟨-, -, v, hv, rfl⟩ := h
        refine Or.inr ⟨r, j, v, ⟨⟨hpos, hlast⟩, hrun, hout, hjob, hv⟩, ?_⟩
        have hjobId : j.id = r.jobId := (Table.get?_eq_some.mp hjob).2
        have hrunId : r.id = runId := (Table.get?_eq_some.mp hrun).2
        rw [withResult, hjobId, hrunId]

end Scheduler

end Mapae.Store
