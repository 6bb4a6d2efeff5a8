import Mapae.Infra.Transition
import Mapae.Outings.Recording
import Mapae.Outings.Requests

/-!
# Runs of the outing runner

* `RunnerOk` is what holds of the copy of the outing that the tick has
* `World.Revives` is the one step that goes wrong: the tick has waited for the guardian, and what it
  marks as running has been swept meanwhile
* `WorldOk.act` is about every other step
-/

namespace Mapae.Outings

open Mapae.Infra Mapae.Store Mapae.Guardians Mapae.Ranking

variable {kit : OutingKit} {s s' : OutingStore} {job cur : Job} {w w' : World}

/-- What the tick knows of the store. -/
def RunnerOk (s : OutingStore) : RunnerState → Prop
  | .inspecting job =>
    job.status = .queued ∧ job.unsubmitted = true ∧ ∃ cur ∈ s.outings, Resembles job cur
  | .checked job =>
    job.status = .queued ∧
      (job ∈ s.outings ∨ job.unsubmitted = true ∧ ∃ cur ∈ s.outings, Resembles job cur)
  | .running job => job ∈ s.outings
  | .charged id => ∃ cur ∈ s.outings, cur.id = id ∧ cur.transaction.isSome = true
  | .idle | .leased | .swept | .paying _ | .failed _ | .ending => True

/-- What holds in every state of a run. -/
structure WorldOk (kit : OutingKit) (w : World) : Prop where
  store : StoreOk kit w.headers w.store
  runner : RunnerOk w.store w.runner

namespace World

/-- The tick marks an outing as running that has ended meanwhile, and not by a request to stop. -/
def Revives (w : World) (a : Action) : Prop :=
  ∃ clock random job, a = .go clock random ∧ w.runner = .checked job ∧
    ∃ row ∈ w.store.outings, row.id = job.id ∧ row.status.isTerminal = true ∧
      row.stopRequested = false

variable (kit) in
/-- The runs in which no step revives an outing. -/
def careful : System World where
  init := Start
  step w w' := ∃ a, ¬ w.Revives a ∧ w.act kit a = some w'

end World

/-! ## Requests -/

/-- While the tick waits, what it knows stays true. -/
theorem RunnerOk.outside {runner : RunnerState} (h : RunnerOk s runner) (hwaits : runner.waits = true)
    (houtside : Outside s s') : RunnerOk s' runner := by
  cases runner with
  | inspecting job =>
    obtain ⟨hqueued, hunsubmitted, cur, hcur, hresembles⟩ := h
    obtain ⟨x, hx, hresembles'⟩ := houtside cur hcur
      (hresembles.resting (Or.inl ⟨hqueued, hunsubmitted⟩))
    exact ⟨hqueued, hunsubmitted, x, hx, hresembles.trans hresembles'⟩
  | idle => trivial
  | paying job => trivial
  | leased => cases hwaits
  | swept => cases hwaits
  | checked job => cases hwaits
  | running job => cases hwaits
  | charged id => cases hwaits
  | failed id => cases hwaits
  | ending => cases hwaits

/-! ## Steps of the tick -/

/-- A tick without the lease ends. -/
theorem runnerOk_of_lease {runner : RunnerState} {leased : Bool} (h : RunnerOk s runner) :
    RunnerOk s (if leased then runner else .ending) := by
  split
  · exact h
  · trivial

/-- **The tick goes on with an outing.** -/
theorem StoreOk.choose (h : StoreOk kit w.headers w.store) (hjob : job ∈ w.store.outings)
    (hstatus : job.status = .running ∨ job.status = .queued) (clock : Nat → Int) :
    WorldOk kit (w.choose clock job) ∧ Later w.store (w.choose clock job).store := by
  have hactive : job.status.isActive = true := by
    rcases hstatus with hstatus | hstatus
    · rw [hstatus]
      rfl
    · rw [hstatus]
      rfl
  have hsaved {x : Job} (hx : Alters job x) :
      WorldOk kit { w with store := w.store.save x, runner := .ending } ∧
        Later w.store (w.store.save x) :=
    ⟨⟨(h.saveAltered hjob hx).1, trivial⟩, (h.saveAltered hjob hx).2⟩
  have hpaused (error : String) :
      WorldOk kit { w with store := w.store.pause job.id error (clock 1), runner := .ending } ∧
        Later w.store (w.store.pause job.id error (clock 1)) :=
    ⟨⟨(h.pause _ _ _).1, trivial⟩, (h.pause _ _ _).2⟩
  unfold World.choose
  split
  · exact hsaved (alters_finish _ _ hactive)
  · split
    · exact hpaused "payment_unresolved"
    · next hrunning =>
      have hqueued : job.status = .queued := hstatus.resolve_left hrunning
      split
      · exact hpaused "key_changed"
      · split
        · next hstopped =>
          exact hsaved (alters_of_stopped hactive rfl rfl rfl rfl rfl (Or.inl rfl) rfl rfl hstopped.2)
        · split
          · next hunsubmitted =>
            exact ⟨⟨h, hqueued, hunsubmitted, job, hjob, .refl job⟩, .refl w.store⟩
          · exact ⟨⟨h, hqueued, Or.inl hjob⟩, .refl w.store⟩

theorem mem_of_next (h : s.next = some job) :
    job ∈ s.outings ∧ (job.status = .running ∨ job.status = .queued) := by
  have hmem := mem_orderBy.mp (List.mem_of_mem_head? (Option.mem_def.mpr h))
  obtain ⟨hrow, hstatus⟩ := List.mem_filter.mp hmem
  exact ⟨hrow, by simpa using hstatus⟩

/-- What the tick holds is the row, or the row is stopped. -/
theorem exists_row (h : RunnerOk s (.checked job)) : ∃ cur ∈ s.outings, Resembles job cur := by
  obtain ⟨-, hjob | ⟨-, hcur⟩⟩ := h
  · exact ⟨job, hjob, .refl job⟩
  · exact hcur

/-- **The tick marks its outing as running**, unless that revives it. -/
theorem WorldOk.check (h : WorldOk kit w) (hrunner : w.runner = .checked job) {clock : Nat → Int}
    {random : Nat} (hcareful : ¬ w.Revives (.go clock random)) (hgo : w.go kit clock random = some w') :
    WorldOk kit w' ∧ Later w.store w'.store := by
  have hok := h.runner
  rw [hrunner] at hok
  rw [World.go, hrunner] at hgo
  dsimp only at hgo
  split at hgo
  · cases hgo
    exact ⟨⟨h.store, trivial⟩, .refl w.store⟩
  · next hopen =>
    split at hgo
    · cases hgo
      exact ⟨⟨(h.store.pause _ _ _).1, trivial⟩, (h.store.pause _ _ _).2⟩
    · cases hgo
      obtain ⟨cur, hcur, hresembles⟩ := exists_row hok
      cases hresembles with
      | same t =>
        obtain ⟨hstore, hlater⟩ := h.store.mark hcur (t := job.updatedAt) rfl hok.1 clock random
        exact ⟨⟨hstore, mem_save_self hcur rfl⟩, hlater⟩
      | stopped status id guardian results spent admissions =>
        exfalso
        have hget : w.store.get job.id = some cur := id ▸ get_of_mem hcur
        rw [hget, Option.any_some] at hopen
        obtain ⟨hqueued, hjob | ⟨hunsubmitted, -⟩⟩ := hok
        · obtain rfl := Table.eq_of_key hcur hjob id
          rw [hqueued] at status
          cases status
        · refine hcareful ⟨clock, random, job, rfl, hrunner, cur, hcur, id, ?_, ?_⟩
          · rw [status]
            rfl
          · exact Bool.eq_false_iff.mpr fun hstop => hopen ⟨hunsubmitted, hstop⟩

/-- **A paid round is recorded**, if it can be played. -/
theorem WorldOk.settle (h : WorldOk kit w) (hhonest : kit.Honest) {id : String}
    (hrunner : w.runner = .charged id) {r : OutingResult} {now : Int}
    (hplay : (w.store.get id).bind (OutingStore.play kit · now) = some r) (t : Int) :
    ∃ s', w.store.result kit id r t = .ok s' ∧ StoreOk kit w.headers s' ∧ Later w.store s' ∧
      Records w.store s' id r := by
  have hok := h.runner
  rw [hrunner] at hok
  obtain ⟨cur, hcur, rfl, htransaction⟩ := hok
  rw [get_of_mem hcur, Option.bind_some] at hplay
  refine h.store.result hhonest (get_of_mem hcur) (isActive_of_not_terminal fun hterminal => ?_) hplay t
  obtain ⟨p, hp, tx, htx, -⟩ := play_eq_some.mp hplay
  have hunsubmitted := ((h.store.jobs cur hcur).erased hterminal).2
  rw [Job.unsubmitted, hp, Option.all_some, htx, Bool.and_eq_true] at hunsubmitted
  cases hunsubmitted.2

/-- **A tick goes on.** -/
theorem WorldOk.go (h : WorldOk kit w) (hhonest : kit.Honest) {clock : Nat → Int} {random : Nat}
    (hcareful : ¬ w.Revives (.go clock random)) (hgo : w.go kit clock random = some w') :
    WorldOk kit w' ∧ Later w.store w'.store := by
  have hok := h.runner
  cases hrunner : w.runner with
  | idle | inspecting job | paying job =>
    rw [World.go, hrunner] at hgo
    cases hgo
  | leased =>
    rw [World.go, hrunner] at hgo
    cases hgo
    obtain ⟨hstore, hlater⟩ := h.store.expireUnsubmitted (clock 0)
    exact ⟨⟨hstore, trivial⟩, hlater⟩
  | swept =>
    rw [World.go, hrunner] at hgo
    dsimp only at hgo
    split at hgo
    · cases hgo
      exact ⟨⟨h.store, trivial⟩, .refl w.store⟩
    · next job hnext =>
      cases hgo
      exact h.store.choose (mem_of_next hnext).1 (mem_of_next hnext).2 clock
  -- the only stretch that may bring an ended outing back
  | checked job => exact h.check hrunner hcareful hgo
  | running job =>
    rw [hrunner] at hok
    rw [World.go, hrunner] at hgo
    dsimp only at hgo
    split at hgo
    · next htransaction =>
      cases hgo
      exact ⟨⟨h.store, job, hok, rfl, htransaction⟩, .refl w.store⟩
    · cases hgo
      obtain ⟨hstore, hlater⟩ := h.store.takeLease w.worker (clock 0)
      exact ⟨⟨hstore, runnerOk_of_lease trivial⟩, hlater⟩
  | charged id =>
    rw [World.go, hrunner] at hgo
    dsimp only at hgo
    split at hgo
    · cases hgo
      exact ⟨⟨h.store, trivial⟩, .refl w.store⟩
    · next r hplay =>
      obtain ⟨s', hresult, hstore, hlater, -⟩ := h.settle hhonest hrunner hplay (clock 1)
      rw [hresult] at hgo
      cases hgo
      exact ⟨⟨hstore, trivial⟩, hlater⟩
  | failed id =>
    rw [World.go, hrunner] at hgo
    cases hgo
    obtain ⟨hstore, hlater⟩ := h.store.recover id clock
    exact ⟨⟨hstore, trivial⟩, hlater⟩
  | ending =>
    rw [World.go, hrunner] at hgo
    cases hgo
    exact ⟨⟨h.store.congr rfl rfl, trivial⟩, later_of_outings rfl⟩

/-! ## Answers -/

/-- The copy of an outing that has to end ends its row. -/
theorem alters_of_resembles (h : Resembles job cur) (hqueued : job.status = .queued)
    (error : Option String) (now : Int) : Alters cur (job.finish error now) := by
  cases h with
  | same t =>
    have hactive : ({ job with updatedAt := t } : Job).status.isActive = true := by
      rw [hqueued]
      rfl
    exact alters_of_stopped hactive rfl rfl rfl rfl rfl (Or.inr rfl) rfl rfl rfl
  | stopped status id guardian results spent admissions =>
    exact
      { id := id.symm, guardian := guardian.symm, results := results.symm, spent := spent.symm,
        admissions := admissions.symm, pending := Or.inr rfl, active := nofun,
        ends := fun _ => status.symm, erased := fun _ => ⟨rfl, rfl⟩, ticket := nofun }

/-- **The guardian is inspected.** -/
theorem WorldOk.inspected (h : WorldOk kit w) (hrunner : w.runner = .inspecting job)
    (answer : Option GuardianSnapshot) (now : Int) :
    WorldOk kit (w.inspected answer now job) ∧ Later w.store (w.inspected answer now job).store := by
  have hok := h.runner
  rw [hrunner] at hok
  obtain ⟨hqueued, hunsubmitted, cur, hcur, hresembles⟩ := hok
  unfold World.inspected
  cases answer with
  | none => exact ⟨⟨(h.store.pause _ _ _).1, trivial⟩, (h.store.pause _ _ _).2⟩
  | some current =>
    dsimp only
    split
    · obtain ⟨hstore, hlater⟩ := h.store.saveAltered hcur
        (alters_of_resembles hresembles hqueued (some "owner_changed") now)
      exact ⟨⟨hstore, trivial⟩, hlater⟩
    · exact ⟨⟨h.store, hqueued, Or.inr ⟨hunsubmitted, cur, hcur, hresembles⟩⟩, .refl w.store⟩

/-! ## Steps -/

/-- **Every step that revives nothing keeps what holds**, and ends no outing that had ended. -/
theorem WorldOk.act (h : WorldOk kit w) (hhonest : kit.Honest) {a : World.Action}
    (hcareful : ¬ w.Revives a) (ha : w.act kit a = some w') :
    WorldOk kit w' ∧ Later w.store w'.store := by
  cases a with
  | insert owner start permission now guardian =>
    rw [World.act] at ha
    split at ha
    · next hwaits =>
      split at ha
      · next hinsert =>
        cases ha
        obtain ⟨hstore, hlater, houtside⟩ := h.store.insert hinsert
        exact ⟨⟨hstore, h.runner.outside hwaits houtside⟩, hlater⟩
      · cases ha
        exact ⟨h, .refl w.store⟩
    · cases ha
  | control owner id action clock =>
    rw [World.act] at ha
    split at ha
    · next hwaits =>
      split at ha
      · next hcontrol =>
        cases ha
        obtain ⟨hstore, hlater, houtside⟩ := h.store.control hcontrol
        exact ⟨⟨hstore, h.runner.outside hwaits houtside⟩, hlater⟩
      · cases ha
        exact ⟨h, .refl w.store⟩
    · cases ha
  | tick now =>
    rw [World.act] at ha
    split at ha
    · cases ha
      obtain ⟨hstore, hlater⟩ := h.store.takeLease w.worker now
      exact ⟨⟨hstore, runnerOk_of_lease trivial⟩, hlater⟩
    · cases ha
      exact ⟨h, .refl w.store⟩
  | heartbeat now =>
    rw [World.act] at ha
    split at ha
    · next hwaits =>
      cases ha
      obtain ⟨hstore, hlater⟩ := h.store.takeLease w.worker now
      exact ⟨⟨hstore, h.runner.outside hwaits.1 (outside_of_outings rfl)⟩, hlater⟩
    · cases ha
  | go clock random => exact h.go hhonest hcareful ha
  | inspected answer now =>
    rw [World.act] at ha
    split at ha
    · next job hrunner =>
      cases ha
      exact h.inspected hrunner answer now
    · cases ha
  | persist header clock =>
    rw [World.act] at ha
    split at ha
    · next job hrunner =>
      split at ha
      · next hfresh =>
        cases ha
        obtain ⟨hstore, hlater⟩ := h.store.persist w.worker w.agent clock hfresh
        refine ⟨⟨hstore, ?_⟩, hlater⟩
        dsimp only
        rw [hrunner]
        trivial
      · cases ha
    · cases ha
  | paid now =>
    rw [World.act] at ha
    split at ha
    · next job hrunner =>
      split at ha
      · cases ha
      · next current hget =>
        split at ha
        · cases ha
        · next p hp =>
          split at ha
          · cases ha
          · next header hheader =>
            cases ha
            obtain ⟨hcur, hid⟩ := mem_of_get hget
            obtain ⟨hstore, hlater⟩ := h.store.pay hcur hp hheader now
            exact ⟨⟨hstore, _, mem_save_self hcur rfl, hid, rfl⟩, hlater⟩
    · cases ha
  | unpaid =>
    rw [World.act] at ha
    split at ha
    · cases ha
      exact ⟨⟨h.store, trivial⟩, .refl w.store⟩
    · cases ha
  | restart worker agent =>
    cases ha
    exact ⟨⟨h.store, trivial⟩, .refl w.store⟩

end Mapae.Outings
