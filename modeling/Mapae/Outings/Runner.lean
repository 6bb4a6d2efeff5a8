import Mapae.Outings.Store

/-!
# The outing runner

One worker takes an outing at a time. A tick runs without a break up to its next `await`: while it
waits for the guardian or for the payment, requests start, stop and resume outings. The process may
stop at any point; another one then finds the store as it was left.

* `RunnerState` is where the tick stands, with the copy of the outing it holds
* `World.go` continues a tick up to the next write, `World.act` is everything that can happen
-/

namespace Mapae.Outings

open Mapae.Infra Mapae.Store Mapae.Guardians Mapae.Ranking

/-! ## What the runner writes -/

namespace Job

/-- The owner stops the outing. -/
def stop (job : Job) : Job :=
  if job.status = .running then { job with stopRequested := true }
  else if job.unsubmitted then { job with stopRequested := true, status := .stopped, context := "0x" }
  else { job with stopRequested := true, status := .queued }

/-- The owner resumes the outing. -/
def resume (job : Job) : Job :=
  if job.status = .paused then { job with status := .queued, error := none } else job

/-- `pause`, for an outing that has not ended. -/
def pause (error : String) (now : Int) (job : Job) : Job :=
  if job.stopRequested && job.unsubmitted then
    { job with
      status := .stopped
      context := "0x"
      pending := none
      error := some error
      updatedAt := now }
  else { job with status := .paused, error := some error, updatedAt := now }

/-- An outing that ends without a round. -/
def finish (error : Option String) (now : Int) (job : Job) : Job :=
  { job with
    status := .stopped
    context := "0x"
    pending := none
    error := error
    updatedAt := now }

end Job

namespace OutingStore

/-- `pause`. -/
def pause (s : OutingStore) (id : String) (error : String) (now : Int) : OutingStore :=
  match s.get id with
  | none => s
  | some current => if current.status.isTerminal then s else s.save (current.pause error now)

inductive ControlAction where
  | stop
  | resume

/-- `control`. -/
def control (s : OutingStore) (agent owner : Address) (id : String) (action : ControlAction)
    (clock : Nat → Int) : Except OutingError OutingStore :=
  match s.get id with
  | none => .error .notFound
  | some job =>
    if job.owner ≠ owner then .error .notFound
    else if job.status.isTerminal then .ok s
    else match action with
      | .stop => .ok (s.save { job.stop with updatedAt := clock 0 })
      | .resume =>
        if job.agent ≠ agent ∧ job.transaction.isNone then .error .invalidPermission
        else if job.unsubmitted ∧ job.expiresAt ≤ clock 0 then .error .invalidPermission
        else .ok (s.save { job.resume with updatedAt := clock 1 })

/-- The next admission: a ranked attempt of today while any remain, otherwise a random round. -/
def admission (kit : OutingKit) (s : OutingStore) (job : Job) (now : Int) (random : Nat) : Pending :=
  let game := chooseOutingGame job.profile job.choice (job.results.map OutingResult.game)
  let day := kstDay now
  let taken := s.rankedAttemptsTaken (toLowerCase job.guardian.collection) job.guardian.tokenId day
    job.id game
  match (List.range' 1 RANKED_ATTEMPTS).find? fun n => n ∉ taken with
  | some attempt =>
    { game := game
      seed := kit.rankedSeed game day attempt job.guardian.tokenId ARCADE_RULESET_VERSION
      header := none
      transaction := none
      ranked := some ⟨day, attempt⟩ }
  | none =>
    { game := game
      seed := random % 2 ^ 32
      header := none
      transaction := none
      ranked := none }

/-- `persist`; nothing where it throws. The lease is renewed in any case. -/
def persist (s : OutingStore) (worker : String) (agent : Address) (id header : String)
    (clock : Nat → Int) : Bool × OutingStore :=
  let (leased, s) := s.takeLease worker (clock 0)
  match s.get id with
  | none => (false, s)
  | some current =>
    if leased = false ∨ current.status ≠ .running ∨ current.agent ≠ agent ∨
        current.stopRequested = true ∨ current.expiresAt ≤ clock 1 then (false, s)
    else match current.pending with
      | none => (false, s)
      | some p =>
        if p.header.any fun stored => stored ≠ header then (false, s)
        else (true, s.save
          { current with pending := some { p with header := some header }, updatedAt := clock 2 })

/-- The round that a paid ticket comes to; nothing where something throws. -/
def play (kit : OutingKit) (latest : Job) (now : Int) : Option OutingResult := do
  let p ← latest.pending
  let transaction ← p.transaction
  let outcome ← kit.simulate p.game p.seed latest.profile latest.locale latest.shopMemory
  if kit.byteLength outcome > 16384 then none
  else return ⟨resultId kit latest, p.game, p.seed, now, transaction, outcome, p.ranked⟩

/-- The `catch` of the tick. -/
def recover (s : OutingStore) (id : String) (clock : Nat → Int) : OutingStore :=
  match s.get id with
  | none => s
  | some current =>
    if current.status.isTerminal then s
    else if current.unsubmitted ∧ (current.stopRequested ∨ current.expiresAt ≤ clock 0) then
      s.save (current.finish (if current.expiresAt ≤ clock 2 then some "permission_expired" else none)
        (clock 1))
    else s.pause id (if current.transaction.isSome then "simulation_failed" else "payment_unresolved")
      (clock 1)

end OutingStore

/-! ## Ticks -/

/-- Where a tick stands. A tick that holds an outing holds the copy it read or wrote last. -/
inductive RunnerState where
  | idle
  /-- It has the lease. -/
  | leased
  /-- It has swept. -/
  | swept
  /-- It waits for the guardian. -/
  | inspecting (job : Job)
  /-- The guardian is the owner's still. -/
  | checked (job : Job)
  /-- It has marked the outing as running. -/
  | running (job : Job)
  /-- It waits for the payment. -/
  | paying (job : Job)
  /-- It has stored the transaction. -/
  | charged (id : String)
  /-- It is in the `catch`. -/
  | failed (id : String)
  /-- It is in the `finally`. -/
  | ending
  deriving DecidableEq

/-- Whether other code can run now: no tick, or one that waits. -/
def RunnerState.waits : RunnerState → Bool
  | idle | inspecting _ | paying _ => true
  | _ => false

/-- The store, and the process: its worker, its agent and its tick. `headers` are the payments that
were ever signed. -/
structure World where
  store : OutingStore
  worker : String
  agent : Address
  runner : RunnerState
  headers : List String

namespace World

variable (kit : OutingKit)

/-- The tick goes on with the outing that it found. -/
def choose (clock : Nat → Int) (w : World) (job : Job) : World :=
  if job.unsubmitted ∧ job.expiresAt ≤ clock 0 then
    { w with
      store := w.store.save (job.finish (some "permission_expired") (clock 1))
      runner := .ending }
  else if job.status = .running then
    { w with store := w.store.pause job.id "payment_unresolved" (clock 1), runner := .ending }
  else if job.agent ≠ w.agent ∧ job.transaction.isNone then
    { w with store := w.store.pause job.id "key_changed" (clock 1), runner := .ending }
  else if job.stopRequested ∧ job.unsubmitted then
    { w with
      store := w.store.save { job with status := .stopped, context := "0x", updatedAt := clock 1 }
      runner := .ending }
  else if job.unsubmitted then { w with runner := .inspecting job }
  else { w with runner := .checked job }

/-- The outing with its ticket, as it is marked. -/
def marked (clock : Nat → Int) (random : Nat) (w : World) (job : Job) : Job :=
  { job with
    pending := some (job.pending.getD (w.store.admission kit job (clock 0) random))
    status := .running
    updatedAt := clock 1 }

/-- The tick goes on up to its next write or `await`. -/
def go (clock : Nat → Int) (random : Nat) (w : World) : Option World :=
  match w.runner with
  | .leased => some { w with store := w.store.expireUnsubmitted (clock 0), runner := .swept }
  | .swept =>
    match w.store.next with
    | none => some { w with runner := .ending }
    | some job => some (w.choose clock job)
  | .checked job =>
    if job.unsubmitted ∧ (w.store.get job.id).any Job.stopRequested then
      some { w with runner := .ending }
    else if job.guardian.ruleset ≠ ARCADE_RULESET_VERSION then
      some { w with store := w.store.pause job.id "ruleset_changed" (clock 0), runner := .ending }
    else some
      { w with
        store := w.store.save (w.marked kit clock random job)
        runner := .running (w.marked kit clock random job) }
  | .running job =>
    if job.transaction.isSome then some { w with runner := .charged job.id }
    else
      let (leased, store) := w.store.takeLease w.worker (clock 0)
      some { w with store := store, runner := if leased then .paying job else .ending }
  | .charged id =>
    match (w.store.get id).bind (OutingStore.play kit · (clock 0)) with
    | none => some { w with runner := .failed id }
    | some r =>
      match w.store.result kit id r (clock 1) with
      | .ok store => some { w with store := store, runner := .ending }
      | .error _ => some { w with runner := .failed id }
  | .failed id => some { w with store := w.store.recover id clock, runner := .ending }
  | .ending => some { w with store := w.store.release w.worker, runner := .idle }
  | .idle | .inspecting _ | .paying _ => none

/-- `guardians.inspect` answers, or throws. -/
def inspected (answer : Option GuardianSnapshot) (now : Int) (w : World) (job : Job) : World :=
  match answer with
  | none =>
    { w with store := w.store.pause job.id "guardian_unavailable" now, runner := .ending }
  | some current =>
    if current.owner ≠ job.owner ∨ current.ownershipEpoch ≠ job.guardian.ownershipEpoch ∨
        toLowerCase current.collection ≠ toLowerCase job.guardian.collection ∨
        current.seed ≠ job.guardian.seed then
      { w with store := w.store.save (job.finish (some "owner_changed") now), runner := .ending }
    else { w with runner := .checked job }

/-- What can happen. -/
inductive Action where
  /-- `POST /`: an outing is started. -/
  | insert (owner : Address) (start : OutingStart) (permission : ValidatedPermission) (now : Int)
    (guardian : GuardianSnapshot)
  | control (owner : Address) (id : String) (action : OutingStore.ControlAction) (clock : Nat → Int)
  /-- The timer starts a tick. -/
  | tick (now : Int)
  | heartbeat (now : Int)
  /-- The tick goes on, with the readings of its clock and a random number. -/
  | go (clock : Nat → Int) (random : Nat)
  | inspected (answer : Option GuardianSnapshot) (now : Int)
  /-- The payment has been signed and is about to be sent. -/
  | persist (header : String) (clock : Nat → Int)
  /-- The payment has been settled. -/
  | paid (now : Int)
  /-- The payment has failed, or nobody knows. -/
  | unpaid
  /-- The process stops, and another one starts. -/
  | restart (worker : String) (agent : Address)

/--
What an action does.

A payment is signed anew for each ticket, so its header has never been seen, unless the ticket has it
already. It succeeds only once its header is stored, and answers the transaction that settles it.
-/
def act (w : World) : Action → Option World
  | .insert owner start permission now guardian =>
    if w.runner.waits then
      match w.store.insert kit owner start permission w.agent now guardian with
      | .ok (store, _) => some { w with store := store }
      | .error _ => some w
    else none
  | .control owner id action clock =>
    if w.runner.waits then
      match w.store.control w.agent owner id action clock with
      | .ok store => some { w with store := store }
      | .error _ => some w
    else none
  | .tick now =>
    if w.runner = .idle then
      let (leased, store) := w.store.takeLease w.worker now
      some { w with store := store, runner := if leased then .leased else .ending }
    else some w
  | .heartbeat now =>
    if w.runner.waits ∧ w.runner ≠ .idle then
      some { w with store := (w.store.takeLease w.worker now).2 }
    else none
  | .go clock random => w.go kit clock random
  | .inspected answer now =>
    match w.runner with
    | .inspecting job => some (w.inspected answer now job)
    | _ => none
  | .persist header clock =>
    match w.runner with
    | .paying job =>
      if header ∉ w.headers ∨ (w.store.get job.id).any fun current => current.header = some header then
        let (stored, store) := w.store.persist w.worker w.agent job.id header clock
        some { w with store := store, headers := if stored then header :: w.headers else w.headers }
      else none
    | _ => none
  | .paid now =>
    match w.runner with
    | .paying job =>
      match w.store.get job.id with
      | none => none
      | some current =>
        match current.pending with
        | none => none
        | some p =>
          match p.header with
          | none => none
          | some header => some
            { w with
              store := w.store.save
                { current with
                  pending := some { p with transaction := some (kit.settlement header) }
                  updatedAt := now }
              runner := .charged job.id }
    | _ => none
  | .unpaid =>
    match w.runner with
    | .paying job => some { w with runner := .failed job.id }
    | _ => none
  | .restart worker agent => some { w with worker := worker, agent := agent, runner := .idle }

/-- A new database, and a process. -/
def Start (w : World) : Prop := w.store = .empty ∧ w.runner = .idle ∧ w.headers = []

end World

end Mapae.Outings
