import Mapae.Outings.Operations

/-!
# Requests

A request runs while no tick does, or while one waits. It may start an outing, stop one or resume
one.

* `Resembles` is what a request may do to an outing that has signed nothing and is not being played
* `StoreOk.insert` and `StoreOk.control` say that requests keep what holds, and what resembles what
-/

namespace Mapae.Outings

open Mapae.Infra Mapae.Store Mapae.Guardians Mapae.Ranking

variable {kit : OutingKit} {headers : List String} {s s' s'' : OutingStore} {job cur x y : Job}

/-- Queued without a signed payment, or stopped. -/
def Job.Resting (job : Job) : Prop :=
  job.status = .queued ∧ job.unsubmitted = true ∨ job.status = .stopped

/-- The same outing at another time, or the outing after it was stopped. -/
inductive Resembles (job : Job) : Job → Prop where
  | same (t : Int) : Resembles job { job with updatedAt := t }
  | stopped {x : Job} (status : x.status = .stopped) (id : x.id = job.id)
    (guardian : x.guardian = job.guardian) (results : x.results = job.results)
    (spent : x.spent = job.spent) (admissions : x.admissions = job.admissions) : Resembles job x

namespace Resembles

theorem refl (job : Job) : Resembles job job := .same job.updatedAt

theorem trans (h : Resembles job x) (h' : Resembles x y) : Resembles job y := by
  cases h' with
  | same t =>
    cases h with
    | same t' => exact .same t
    | stopped status id guardian results spent admissions =>
      exact .stopped status id guardian results spent admissions
  | stopped status' id' guardian' results' spent' admissions' =>
    cases h with
    | same t => exact .stopped status' id' guardian' results' spent' admissions'
    | stopped status id guardian results spent admissions =>
      exact .stopped status' (id'.trans id) (guardian'.trans guardian) (results'.trans results)
        (spent'.trans spent) (admissions'.trans admissions)

theorem resting (h : Resembles job x) (hjob : job.Resting) : x.Resting := by
  cases h with
  | same t => exact hjob
  | stopped status id guardian results spent admissions => exact Or.inr status

end Resembles

/-- What was resting has something that resembles it. -/
def Outside (s s' : OutingStore) : Prop :=
  ∀ job ∈ s.outings, job.Resting → ∃ x ∈ s'.outings, Resembles job x

theorem Outside.trans (h : Outside s s') (h' : Outside s' s'') : Outside s s'' := by
  intro job hjob hresting
  obtain ⟨x, hx, hresembles⟩ := h job hjob hresting
  obtain ⟨y, hy, hresembles'⟩ := h' x hx (hresembles.resting hresting)
  exact ⟨y, hy, hresembles.trans hresembles'⟩

theorem outside_of_outings (h : s'.outings = s.outings) : Outside s s' := fun job hjob _ =>
  ⟨job, h ▸ hjob, .refl job⟩

theorem outside_alterAll {f : Job → Job} {hf : ∀ job, (f job).id = job.id}
    (h : ∀ job, job.Resting → Resembles job (f job)) :
    Outside s { s with outings := s.outings.updateAll f hf } := fun job hjob hresting =>
  ⟨f job, (Table.mem_updateAll hf).mpr ⟨job, hjob, rfl⟩, h job hresting⟩

theorem outside_expireUnsubmitted (s : OutingStore) (now : Int) :
    Outside s (s.expireUnsubmitted now) := by
  refine outside_alterAll fun job _ => ?_
  split
  · exact .stopped rfl rfl rfl rfl rfl rfl
  · exact .refl job

theorem outside_handOver (s : OutingStore) (guardian : GuardianSnapshot) (now : Int) :
    Outside s (s.handOver guardian now) := by
  refine outside_alterAll fun job hresting => ?_
  split
  · next hof =>
    rcases hresting with ⟨-, hunsubmitted⟩ | hstopped
    · rw [Job.handOver, if_pos hunsubmitted]
      exact .stopped rfl rfl rfl rfl rfl rfl
    · have hactive := (isOf_iff.mp hof).1
      rw [hstopped] at hactive
      cases hactive
  · exact .refl job

theorem outside_save (hcur : cur ∈ s.outings) (hid : job.id = cur.id)
    (h : cur.Resting → Resembles cur job) : Outside s (s.save job) := by
  intro a ha hresting
  rcases exists_mem_save hcur hid.symm ha with ha | rfl
  · exact ⟨a, ha, .refl a⟩
  · exact ⟨job, mem_save_self hcur hid.symm, h hresting⟩

/-! ## Starting an outing -/

theorem mem_insertJob (h : s.insertJob job = .ok (s', x)) :
    (∀ a, a ∈ s'.outings ↔ a ∈ s.outings ∨ a = job) ∧ s'.ledger = s.ledger := by
  unfold OutingStore.insertJob at h
  split at h
  · cases h
  · next hinsert =>
    cases h
    exact ⟨fun a => Table.mem_insert? hinsert, rfl⟩

/-- **A new outing**, of an ownership that has no open one. -/
theorem StoreOk.insertJob (h : StoreOk kit headers s) (hok : JobOk kit job)
    (hpending : job.pending = none) (hresults : job.results = [])
    (hfresh : ∀ a ∈ s.outings, a.status.isActive = true → a.holding ≠ job.holding)
    (hinsert : s.insertJob job = .ok (s', x)) :
    StoreOk kit headers s' ∧ Later s s' ∧ Outside s s' := by
  obtain ⟨hmem, hledger⟩ := mem_insertJob hinsert
  have hslot : ∀ v, job.slot ≠ some v := by
    intro v hv
    rw [Job.slot, hpending] at hv
    cases hv
  have hheader : ∀ v, job.header ≠ some v := by
    intro v hv
    rw [Job.header, hpending] at hv
    cases hv
  have hlater : Later s s' := fun a ha => ⟨a, (hmem a).mpr (Or.inl ha), rfl, fun _ => rfl⟩
  have houtside : Outside s s' := fun a ha _ => ⟨a, (hmem a).mpr (Or.inl ha), .refl a⟩
  suffices hstore : StoreOk kit headers s' from ⟨hstore, hlater, houtside⟩
  refine
    { jobs := ?jobs, epochs := ?epochs, slots := ?slots, unsettled := ?unsettled, attempts := ?attempts,
      rankedIds := ?rankedIds, signed := ?signed, apart := ?apart, payments := ?payments,
      rounds := ?rounds, recorded := ?recorded }
  case jobs =>
    intro a ha
    rcases (hmem a).mp ha with ha | rfl
    · exact h.jobs a ha
    · exact hok
  case epochs =>
    intro a ha b hb hactive hactive' heq
    rcases (hmem a).mp ha with ha | rfl
    · rcases (hmem b).mp hb with hb | rfl
      · exact h.epochs a ha b hb hactive hactive' heq
      · exact absurd heq (hfresh a ha hactive)
    · rcases (hmem b).mp hb with hb | rfl
      · exact absurd heq.symm (hfresh b hb hactive')
      · rfl
  case slots =>
    intro a ha b hb hactive hactive' v hv hv'
    rcases (hmem a).mp ha with ha | rfl
    · rcases (hmem b).mp hb with hb | rfl
      · exact h.slots a ha b hb hactive hactive' v hv hv'
      · exact absurd hv' (hslot v)
    · exact absurd hv (hslot v)
  case unsettled =>
    intro a ha hactive v hv
    rw [hledger]
    rcases (hmem a).mp ha with ha | rfl
    · exact h.unsettled a ha hactive v hv
    · exact absurd hv (hslot v)
  case attempts =>
    rw [hledger]
    exact h.attempts
  case rankedIds =>
    rw [hledger]
    exact h.rankedIds
  case signed =>
    intro a ha v hv
    rcases (hmem a).mp ha with ha | rfl
    · exact h.signed a ha v hv
    · exact absurd hv (hheader v)
  case apart =>
    intro a ha b hb v hv hv'
    rcases (hmem a).mp ha with ha | rfl
    · rcases (hmem b).mp hb with hb | rfl
      · exact h.apart a ha b hb v hv hv'
      · exact absurd hv' (hheader v)
    · exact absurd hv (hheader v)
  case payments =>
    intro row hrow
    rw [hledger] at hrow
    obtain ⟨v, hv, heq, hfree⟩ := h.payments row hrow
    refine ⟨v, hv, heq, fun a ha => ?_⟩
    rcases (hmem a).mp ha with ha | rfl
    · exact hfree a ha
    · exact hheader v
  case rounds =>
    intro row hrow
    rw [hledger] at hrow
    obtain ⟨hid, a, ha, hrest⟩ := h.rounds row hrow
    exact ⟨hid, a, (hmem a).mpr (Or.inl ha), hrest⟩
  case recorded =>
    intro a ha k r hr
    rw [hledger]
    rcases (hmem a).mp ha with ha | rfl
    · exact h.recorded a ha k r hr
    · rw [hresults] at hr
      cases hr

/-- What has been checked before a new outing is written. -/
theorem insertNew_eq_ok {owner : Address} {start : OutingStart} {permission : ValidatedPermission}
    {agent : Address} {now : Int} {guardian : GuardianSnapshot}
    (h : s.insertNew kit owner start permission agent now guardian = .ok (s', x)) :
    guardian.ruleset = ARCADE_RULESET_VERSION ∧
      (∀ previous ∈ (s.expireUnsubmitted now).tokenJobs guardian,
        previous.guardian.ownershipEpoch ≠ guardian.ownershipEpoch) ∧
      ∃ name shopMemory, ((s.expireUnsubmitted now).handOver guardian now).insertJob
        (OutingStore.newJob kit owner start permission agent now guardian name shopMemory) =
          .ok (s', x) := by
  simp only [OutingStore.insertNew, bind_eq_ok, throwIf_eq_ok] at h
  obtain ⟨-, -, -, hruleset, name, -, -, -, -, hepochs, -, -, -, -, hinsert⟩ := h
  rw [not_or, not_not] at hruleset
  exact ⟨hruleset.1, fun previous hprevious heq => hepochs ⟨previous, hprevious, heq⟩, name, _, hinsert⟩

/-- **A new outing is as it should be.** -/
theorem newJob_ok {owner : Address} {start : OutingStart} {permission : ValidatedPermission}
    {agent : Address} {now : Int} {guardian : GuardianSnapshot} {name : String}
    {shopMemory : Option ShopMemory} (hruleset : guardian.ruleset = ARCADE_RULESET_VERSION) :
    JobOk kit
      (OutingStore.newJob kit owner start permission agent now guardian name shopMemory) where
  spent := rfl
  spent_le := Nat.zero_le _
  spent_lt _ := start.admissions_pos
  erased := nofun
  ticket := nofun
  ruleset := hruleset
  attempt := nofun
  settled := nofun
  ids k r hr := by
    rw [OutingStore.newJob] at hr
    cases hr

theorem handOver_guardian (job : Job) (now : Int) : (job.handOver now).guardian = job.guardian := by
  unfold Job.handOver
  split
  · rfl
  · rfl

theorem mem_handOver {guardian : GuardianSnapshot} {now : Int} :
    x ∈ (s.handOver guardian now).outings ↔ ∃ previous ∈ s.outings,
      (if previous.isOf (toLowerCase guardian.collection) guardian.tokenId then previous.handOver now
        else previous) = x := by
  rw [OutingStore.handOver, Table.mem_updateAll]

/-- **Starting an outing keeps what holds.** -/
theorem StoreOk.insert (h : StoreOk kit headers s) {owner : Address} {start : OutingStart}
    {permission : ValidatedPermission} {agent : Address} {now : Int} {guardian : GuardianSnapshot}
    (hinsert : s.insert kit owner start permission agent now guardian = .ok (s', x)) :
    StoreOk kit headers s' ∧ Later s s' ∧ Outside s s' := by
  unfold OutingStore.insert at hinsert
  split at hinsert
  · split at hinsert
    · cases hinsert
    · cases hinsert
      exact ⟨h, .refl s, outside_of_outings rfl⟩
  · obtain ⟨hruleset, hepochs, name, shopMemory, hnew⟩ := insertNew_eq_ok hinsert
    obtain ⟨hswept, hlater⟩ := h.expireUnsubmitted now
    obtain ⟨hhanded, hlater'⟩ := hswept.handOver guardian now
    have hfresh : ∀ a ∈ ((s.expireUnsubmitted now).handOver guardian now).outings,
        a.status.isActive = true → a.holding ≠ (OutingStore.newJob kit owner start permission agent now
          guardian name shopMemory).holding := by
      intro a ha hactive heq
      obtain ⟨previous, hprevious, rfl⟩ := mem_handOver.mp ha
      rw [Job.holding, Job.holding, Prod.mk.injEq, Prod.mk.injEq] at heq
      by_cases hof : previous.isOf (toLowerCase guardian.collection) guardian.tokenId = true
      · rw [if_pos hof, handOver_guardian] at heq
        exact hepochs previous (List.mem_filter.mpr ⟨hprevious, hof⟩) heq.2.2
      · rw [if_neg hof] at heq hactive
        exact hof (isOf_iff.mpr ⟨hactive, heq.1, heq.2.1⟩)
    obtain ⟨hok, hlast, houtside⟩ := hhanded.insertJob (newJob_ok hruleset) rfl rfl hfresh hnew
    exact ⟨hok, (hlater.trans hlater').trans hlast,
      ((outside_expireUnsubmitted s now).trans (outside_handOver _ guardian now)).trans houtside⟩

/-! ## Stopping and resuming -/

theorem resembles_stop (h : cur.Resting) (hopen : ¬ cur.status.isTerminal = true) (now : Int) :
    Resembles cur { cur.stop with updatedAt := now } := by
  rcases h with ⟨hqueued, hunsubmitted⟩ | hstopped
  · rw [Job.stop, if_neg (by rw [hqueued]; exact nofun), if_pos hunsubmitted]
    exact .stopped rfl rfl rfl rfl rfl rfl
  · rw [hstopped] at hopen
    exact absurd rfl hopen

theorem resembles_resume (h : cur.Resting) (now : Int) :
    Resembles cur { cur.resume with updatedAt := now } := by
  have hpaused : cur.status ≠ .paused := by
    rcases h with ⟨hqueued, -⟩ | hstopped
    · rw [hqueued]
      exact nofun
    · rw [hstopped]
      exact nofun
  rw [Job.resume, if_neg hpaused]
  exact .same now

/-- **Stopping or resuming an outing keeps what holds.** -/
theorem StoreOk.control (h : StoreOk kit headers s) {agent owner : Address} {id : String}
    {action : OutingStore.ControlAction} {clock : Nat → Int}
    (hcontrol : s.control agent owner id action clock = .ok s') :
    StoreOk kit headers s' ∧ Later s s' ∧ Outside s s' := by
  unfold OutingStore.control at hcontrol
  split at hcontrol
  · cases hcontrol
  · next job hget =>
    have hmem := (mem_of_get hget).1
    split at hcontrol
    · cases hcontrol
    · split at hcontrol
      · cases hcontrol
        exact ⟨h, .refl s, outside_of_outings rfl⟩
      · next hopen =>
        have hactive := isActive_of_not_terminal hopen
        cases action with
        | stop =>
          cases hcontrol
          have halters := alters_stop (h.jobs job hmem) (clock 0) hactive
          obtain ⟨hok, hlater⟩ := h.saveAltered hmem halters
          exact ⟨hok, hlater, outside_save hmem halters.id fun hresting =>
            resembles_stop hresting hopen (clock 0)⟩
        | resume =>
          dsimp only at hcontrol
          split at hcontrol
          · cases hcontrol
          · split at hcontrol
            · cases hcontrol
            · cases hcontrol
              have halters := alters_resume (h.jobs job hmem) (clock 1) hactive
              obtain ⟨hok, hlater⟩ := h.saveAltered hmem halters
              exact ⟨hok, hlater, outside_save hmem halters.id fun hresting =>
                resembles_resume hresting (clock 1)⟩

end Mapae.Outings
