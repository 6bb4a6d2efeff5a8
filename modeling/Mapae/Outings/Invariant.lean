import Mapae.Outings.Runner

/-!
# What holds of the outing store

* `JobOk` is what holds of every outing, `StoreOk` what holds between the outings and the ledger
* `Calm` is what a write does that neither signs nor records anything; such writes keep all of it
  (`StoreOk.calm`)
* the other writes draw a ranked attempt, sign a payment, record a round or start an outing
-/

namespace Mapae.Outings

open Mapae.Infra Mapae.Store Mapae.Guardians Mapae.Ranking

/-- The guardian's ranked attempt that the outing's ticket is for. -/
def Job.slot (job : Job) : Option (String × Nat × GameId × Int × Nat) :=
  job.pending.bind fun p => p.ranked.map fun r =>
    (job.collection, job.guardian.tokenId, p.game, r.day, r.attempt)

/-- The collection, the token and the ownership epoch. -/
def Job.holding (job : Job) : String × Nat × Nat :=
  (job.collection, job.guardian.tokenId, job.guardian.ownershipEpoch)

/-- What holds of every outing. -/
structure JobOk (kit : OutingKit) (job : Job) : Prop where
  spent : job.spent = job.results.length
  spent_le : job.spent ≤ job.admissions
  spent_lt : job.status.isActive = true → job.spent < job.admissions
  erased : job.status.isTerminal = true → job.context = "0x" ∧ job.unsubmitted = true
  ticket : job.status = .running → job.pending.isSome = true
  ruleset : job.guardian.ruleset = ARCADE_RULESET_VERSION
  attempt : ∀ p ∈ job.pending, ∀ r ∈ p.ranked, 1 ≤ r.attempt ∧ r.attempt ≤ RANKED_ATTEMPTS ∧
    p.seed = kit.rankedSeed p.game r.day r.attempt job.guardian.tokenId ARCADE_RULESET_VERSION
  settled : ∀ p ∈ job.pending, ∀ t ∈ p.transaction, ∃ h ∈ p.header, t = kit.settlement h
  ids : ∀ k r, job.results[k]? = some r →
    r.id = kit.resultHash job.guardian.chainId job.collection job.id (k + 1)

/-- What holds between the outings and the ledger. -/
structure StoreOk (kit : OutingKit) (headers : List String) (s : OutingStore) : Prop where
  jobs : ∀ job ∈ s.outings, JobOk kit job
  /-- An ownership of a token has one open outing. -/
  epochs : ∀ job ∈ s.outings, ∀ other ∈ s.outings, job.status.isActive = true →
    other.status.isActive = true → job.holding = other.holding → job.id = other.id
  /-- A ranked attempt is pending in one open outing. -/
  slots : ∀ job ∈ s.outings, ∀ other ∈ s.outings, job.status.isActive = true →
    other.status.isActive = true → ∀ x, job.slot = some x → other.slot = some x → job.id = other.id
  /-- A pending attempt is not settled. -/
  unsettled : ∀ job ∈ s.outings, job.status.isActive = true → ∀ x, job.slot = some x →
    ∀ row ∈ s.ledger.ranked.rows, row.slot ≠ x
  attempts : ∀ row ∈ s.ledger.ranked.rows, 1 ≤ row.attempt ∧ row.attempt ≤ RANKED_ATTEMPTS
  rankedIds : ∀ row ∈ s.ledger.ranked.rows, ∃ r ∈ s.ledger.results,
    row.resultId = GuardianLedger.hashText r.resultId
  signed : ∀ job ∈ s.outings, ∀ h, job.header = some h → h ∈ headers
  apart : ∀ job ∈ s.outings, ∀ other ∈ s.outings, ∀ h, job.header = some h →
    other.header = some h → job.id = other.id
  /-- A recorded payment is not pending. -/
  payments : ∀ row ∈ s.ledger.results, ∃ h ∈ headers, row.paymentTx = kit.settlement h ∧
    ∀ job ∈ s.outings, job.header ≠ some h
  /-- Every row is a round of its outing. -/
  rounds : ∀ row ∈ s.ledger.results, row.resultId = row.outcome.id ∧
    ∃ job ∈ s.outings, job.id = row.outingId ∧ ∃ k, row.admission = k + 1 ∧
      job.results[k]? = some row.outcome
  /-- Every round of an outing has its row. -/
  recorded : ∀ job ∈ s.outings, ∀ k r, job.results[k]? = some r →
    ∃ row ∈ s.ledger.results, row.outingId = job.id ∧ row.admission = k + 1

/-! ## Calm writes -/

/-- What a write does to an outing that neither signs nor records anything. -/
structure Calm (job job' : Job) : Prop where
  id : job'.id = job.id
  guardian : job'.guardian = job.guardian
  results : job'.results = job.results
  active : job'.status.isActive = true → job.status.isActive = true
  ends : job.status.isTerminal = true → job'.status = job.status
  slot : ∀ x, job'.slot = some x → job.slot = some x
  header : ∀ h, job'.header = some h → job.header = some h

theorem Calm.refl (job : Job) : Calm job job :=
  ⟨rfl, rfl, rfl, fun h => h, fun _ => rfl, fun _ h => h, fun _ h => h⟩

theorem Calm.holding {job job' : Job} (h : Calm job job') : job'.holding = job.holding := by
  rw [Job.holding, Job.holding, Job.collection, Job.collection, h.guardian]

variable {kit : OutingKit} {headers : List String} {s s' : OutingStore} {job job' cur : Job}

/-- **Calm writes keep all that holds.** -/
theorem StoreOk.calm (h : StoreOk kit headers s) (hledger : s'.ledger = s.ledger)
    (hto : ∀ x ∈ s'.outings, JobOk kit x ∧ ∃ job ∈ s.outings, Calm job x)
    (hfrom : ∀ job ∈ s.outings, ∃ x ∈ s'.outings, Calm job x) : StoreOk kit headers s' where
  jobs x hx := (hto x hx).1
  epochs x hx y hy hax hay heq := by
    obtain ⟨-, a, ha, hca⟩ := hto x hx
    obtain ⟨-, b, hb, hcb⟩ := hto y hy
    rw [hca.holding, hcb.holding] at heq
    rw [hca.id, hcb.id]
    exact h.epochs a ha b hb (hca.active hax) (hcb.active hay) heq
  slots x hx y hy hax hay v hxv hyv := by
    obtain ⟨-, a, ha, hca⟩ := hto x hx
    obtain ⟨-, b, hb, hcb⟩ := hto y hy
    rw [hca.id, hcb.id]
    exact h.slots a ha b hb (hca.active hax) (hcb.active hay) v (hca.slot v hxv) (hcb.slot v hyv)
  unsettled x hx hax v hxv := by
    obtain ⟨-, a, ha, hca⟩ := hto x hx
    rw [hledger]
    exact h.unsettled a ha (hca.active hax) v (hca.slot v hxv)
  attempts := by
    rw [hledger]
    exact h.attempts
  rankedIds := by
    rw [hledger]
    exact h.rankedIds
  signed x hx v hxv := by
    obtain ⟨-, a, ha, hca⟩ := hto x hx
    exact h.signed a ha v (hca.header v hxv)
  apart x hx y hy v hxv hyv := by
    obtain ⟨-, a, ha, hca⟩ := hto x hx
    obtain ⟨-, b, hb, hcb⟩ := hto y hy
    rw [hca.id, hcb.id]
    exact h.apart a ha b hb v (hca.header v hxv) (hcb.header v hyv)
  payments row hrow := by
    rw [hledger] at hrow
    obtain ⟨v, hv, heq, hfree⟩ := h.payments row hrow
    refine ⟨v, hv, heq, fun x hx hxv => ?_⟩
    obtain ⟨-, a, ha, hca⟩ := hto x hx
    exact hfree a ha (hca.header v hxv)
  rounds row hrow := by
    rw [hledger] at hrow
    obtain ⟨hid, a, ha, heq, k, hk, hr⟩ := h.rounds row hrow
    obtain ⟨x, hx, hca⟩ := hfrom a ha
    refine ⟨hid, x, hx, hca.id.trans heq, k, hk, ?_⟩
    rw [hca.results]
    exact hr
  recorded x hx k r hr := by
    obtain ⟨-, a, ha, hca⟩ := hto x hx
    rw [hca.results] at hr
    rw [hledger, hca.id]
    exact h.recorded a ha k r hr

/-! ## Saving -/

theorem mem_save {x : Job} : x ∈ (s.save job).outings ↔
    x ∈ s.outings ∧ x.id ≠ job.id ∨ x = job ∧ ∃ cur ∈ s.outings, cur.id = job.id := by
  rw [OutingStore.save, Table.mem_update]
  constructor
  · rintro ⟨r, hr, rfl⟩
    split
    · next hid => exact Or.inr ⟨by rw [hid], r, hr, hid⟩
    · next hid => exact Or.inl ⟨hr, hid⟩
  · rintro (⟨hx, hid⟩ | ⟨rfl, cur, hcur, hid⟩)
    · exact ⟨x, hx, (if_neg hid).symm⟩
    · exact ⟨cur, hcur, by rw [if_pos hid, hid]⟩

theorem mem_save_self (hcur : cur ∈ s.outings) (hid : cur.id = job.id) :
    job ∈ (s.save job).outings := mem_save.mpr (Or.inr ⟨rfl, cur, hcur, hid⟩)

theorem get_save_of_ne {id : String} (h : id ≠ job.id) : (s.save job).get id = s.get id := by
  unfold OutingStore.get OutingStore.save
  rw [Table.get?_update, if_neg h]

/-- Another outing is untouched, the saved one is replaced. -/
theorem exists_mem_save {a : Job} (hcur : cur ∈ s.outings) (hid : cur.id = job.id)
    (ha : a ∈ s.outings) : a ∈ (s.save job).outings ∨ a = cur := by
  by_cases h : a.id = job.id
  · exact Or.inr (Table.eq_of_key ha hcur (h.trans hid.symm))
  · exact Or.inl (mem_save.mpr (Or.inl ⟨ha, h⟩))

/--
**Saving one outing.**

Its ticket is that of before, or its ranked attempt is free and its payment has never been signed.
-/
theorem StoreOk.replace {headers' : List String} (h : StoreOk kit headers s) (hcur : cur ∈ s.outings)
    (hid : job.id = cur.id) (hguardian : job.guardian = cur.guardian)
    (hresults : job.results = cur.results)
    (hactive : job.status.isActive = true → cur.status.isActive = true) (hok : JobOk kit job)
    (hslot : ∀ x, job.slot = some x → cur.slot = some x ∨
      (∀ other ∈ s.outings, other.id ≠ cur.id → other.status.isActive = true →
        other.slot ≠ some x) ∧ ∀ row ∈ s.ledger.ranked.rows, row.slot ≠ x)
    (hsub : ∀ v ∈ headers, v ∈ headers')
    (hheader : ∀ v, job.header = some v → v ∈ headers' ∧ (cur.header = some v ∨ v ∉ headers)) :
    StoreOk kit headers' (s.save job) := by
  have hother {x : Job} (hx : x ∈ s.outings ∧ x.id ≠ job.id) : x.id ≠ cur.id := by
    rw [← hid]
    exact hx.2
  have hholding : job.holding = cur.holding := by
    rw [Job.holding, Job.holding, Job.collection, Job.collection, hguardian]
  have hapart : ∀ x ∈ s.outings, x.id ≠ cur.id → ∀ v, job.header = some v → x.header ≠ some v := by
    intro x hx hne v hv hxv
    rcases (hheader v hv).2 with hold | hnew
    · exact hne (h.apart x hx cur hcur v hxv hold)
    · exact hnew (h.signed x hx v hxv)
  have hslots : ∀ x ∈ s.outings, x.id ≠ cur.id → x.status.isActive = true →
      job.status.isActive = true → ∀ v, job.slot = some v → x.slot ≠ some v := by
    intro x hx hne hax haj v hv hxv
    rcases hslot v hv with hold | ⟨hfree, -⟩
    · exact hne (h.slots x hx cur hcur hax (hactive haj) v hxv hold)
    · exact hfree x hx hne hax hxv
  refine
    { jobs := ?jobs, epochs := ?epochs, slots := ?slots, unsettled := ?unsettled,
      attempts := h.attempts, rankedIds := h.rankedIds, signed := ?signed, apart := ?apart,
      payments := ?payments, rounds := ?rounds, recorded := ?recorded }
  case jobs =>
    intro x hx
    rcases mem_save.mp hx with hx | ⟨rfl, -⟩
    · exact h.jobs x hx.1
    · exact hok
  case epochs =>
    intro x hx y hy hax hay heq
    rcases mem_save.mp hx with hx | ⟨rfl, -⟩
    · rcases mem_save.mp hy with hy | ⟨rfl, -⟩
      · exact h.epochs x hx.1 y hy.1 hax hay heq
      · rw [hid]
        exact h.epochs x hx.1 cur hcur hax (hactive hay) (heq.trans hholding)
    · rcases mem_save.mp hy with hy | ⟨rfl, -⟩
      · rw [hid]
        exact h.epochs cur hcur y hy.1 (hactive hax) hay (hholding.symm.trans heq)
      · rfl
  case slots =>
    intro x hx y hy hax hay v hxv hyv
    rcases mem_save.mp hx with hx | ⟨rfl, -⟩
    · rcases mem_save.mp hy with hy | ⟨rfl, -⟩
      · exact h.slots x hx.1 y hy.1 hax hay v hxv hyv
      · exact absurd hxv (hslots x hx.1 (hother hx) hax hay v hyv)
    · rcases mem_save.mp hy with hy | ⟨rfl, -⟩
      · exact absurd hyv (hslots y hy.1 (hother hy) hay hax v hxv)
      · rfl
  case unsettled =>
    intro x hx hax v hxv
    rcases mem_save.mp hx with hx | ⟨rfl, -⟩
    · exact h.unsettled x hx.1 hax v hxv
    · rcases hslot v hxv with hold | ⟨-, hfree⟩
      · exact h.unsettled cur hcur (hactive hax) v hold
      · exact hfree
  case signed =>
    intro x hx v hxv
    rcases mem_save.mp hx with hx | ⟨rfl, -⟩
    · exact hsub v (h.signed x hx.1 v hxv)
    · exact (hheader v hxv).1
  case apart =>
    intro x hx y hy v hxv hyv
    rcases mem_save.mp hx with hx | ⟨rfl, -⟩
    · rcases mem_save.mp hy with hy | ⟨rfl, -⟩
      · exact h.apart x hx.1 y hy.1 v hxv hyv
      · exact absurd hxv (hapart x hx.1 (hother hx) v hyv)
    · rcases mem_save.mp hy with hy | ⟨rfl, -⟩
      · exact absurd hyv (hapart y hy.1 (hother hy) v hxv)
      · rfl
  case payments =>
    intro row hrow
    obtain ⟨v, hv, heq, hfree⟩ := h.payments row hrow
    refine ⟨v, hsub v hv, heq, fun x hx hxv => ?_⟩
    rcases mem_save.mp hx with hx | ⟨rfl, -⟩
    · exact hfree x hx.1 hxv
    · rcases (hheader v hxv).2 with hold | hnew
      · exact hfree cur hcur hold
      · exact hnew hv
  case rounds =>
    intro row hrow
    obtain ⟨hrid, a, ha, heq, k, hk, hr⟩ := h.rounds row hrow
    refine ⟨hrid, ?_⟩
    rcases exists_mem_save hcur hid.symm ha with hmem | rfl
    · exact ⟨a, hmem, heq, k, hk, hr⟩
    · exact ⟨job, mem_save_self hcur hid.symm, hid.trans heq, k, hk, hresults ▸ hr⟩
  case recorded =>
    intro x hx k r hr
    rcases mem_save.mp hx with hx | ⟨rfl, -⟩
    · exact h.recorded x hx.1 k r hr
    · rw [hresults] at hr
      rw [hid]
      exact h.recorded cur hcur k r hr

/-- **Saving a calm change.** -/
theorem StoreOk.save (h : StoreOk kit headers s) (hcur : cur ∈ s.outings) (hcalm : Calm cur job)
    (hok : JobOk kit job) : StoreOk kit headers (s.save job) :=
  h.replace hcur hcalm.id hcalm.guardian hcalm.results hcalm.active hok
    (fun x hx => Or.inl (hcalm.slot x hx)) (fun _ hv => hv) fun v hv =>
      ⟨h.signed cur hcur v (hcalm.header v hv), Or.inl (hcalm.header v hv)⟩

/-! ## Changes of one outing -/

/-- A change that keeps the ticket or drops it. -/
structure Alters (job job' : Job) : Prop where
  id : job'.id = job.id
  guardian : job'.guardian = job.guardian
  results : job'.results = job.results
  spent : job'.spent = job.spent
  admissions : job'.admissions = job.admissions
  pending : job'.pending = job.pending ∨ job'.pending = none
  active : job'.status.isActive = true → job.status.isActive = true
  ends : job.status.isTerminal = true → job'.status = job.status
  erased : job'.status.isTerminal = true → job'.context = "0x" ∧ job'.unsubmitted = true
  ticket : job'.status = .running → job'.pending.isSome = true

theorem Alters.calm (h : Alters job job') : Calm job job' where
  id := h.id
  guardian := h.guardian
  results := h.results
  active := h.active
  ends := h.ends
  slot x hx := by
    rcases h.pending with hp | hp
    · rwa [Job.slot, Job.collection, hp, h.guardian] at hx
    · rw [Job.slot, hp] at hx
      cases hx
  header v hv := by
    rcases h.pending with hp | hp
    · rwa [Job.header, hp] at hv
    · rw [Job.header, hp] at hv
      cases hv

theorem Alters.ok (h : Alters job job') (hok : JobOk kit job) : JobOk kit job' where
  spent := by rw [h.spent, h.results, hok.spent]
  spent_le := by rw [h.spent, h.admissions]; exact hok.spent_le
  spent_lt ha := by rw [h.spent, h.admissions]; exact hok.spent_lt (h.active ha)
  erased := h.erased
  ticket := h.ticket
  ruleset := by rw [h.guardian, hok.ruleset]
  attempt p hp := by
    rcases h.pending with he | he
    · rw [he] at hp
      rw [h.guardian]
      exact hok.attempt p hp
    · rw [he] at hp
      cases hp
  settled p hp := by
    rcases h.pending with he | he
    · rw [he] at hp
      exact hok.settled p hp
    · rw [he] at hp
      cases hp
  ids k r hr := by
    rw [h.results] at hr
    rw [h.guardian, Job.collection, h.guardian, h.id]
    exact hok.ids k r hr

theorem isTerminal_iff {status : OutingStatus} : status.isTerminal = true ↔ status.isActive = false := by
  rw [OutingStatus.isTerminal, Bool.not_eq_true']

/-- An open outing that is stopped, with its ticket dropped. -/
theorem alters_of_stopped (hactive : job.status.isActive = true) (hid : job'.id = job.id)
    (hguardian : job'.guardian = job.guardian) (hresults : job'.results = job.results)
    (hspent : job'.spent = job.spent) (hadmissions : job'.admissions = job.admissions)
    (hpending : job'.pending = job.pending ∨ job'.pending = none) (hstatus : job'.status = .stopped)
    (hcontext : job'.context = "0x") (hunsubmitted : job'.unsubmitted = true) : Alters job job' where
  id := hid
  guardian := hguardian
  results := hresults
  spent := hspent
  admissions := hadmissions
  pending := hpending
  active h := by
    rw [hstatus] at h
    cases h
  ends h := by
    rw [isTerminal_iff, hactive] at h
    cases h
  erased _ := ⟨hcontext, hunsubmitted⟩
  ticket h := by
    rw [hstatus] at h
    cases h

/-- An open outing that stays open. -/
theorem alters_of_active (hactive : job.status.isActive = true) (hid : job'.id = job.id)
    (hguardian : job'.guardian = job.guardian) (hresults : job'.results = job.results)
    (hspent : job'.spent = job.spent) (hadmissions : job'.admissions = job.admissions)
    (hpending : job'.pending = job.pending) (hstatus : job'.status.isActive = true)
    (hticket : job'.status = .running → job'.pending.isSome = true) : Alters job job' where
  id := hid
  guardian := hguardian
  results := hresults
  spent := hspent
  admissions := hadmissions
  pending := Or.inl hpending
  active _ := hactive
  ends h := by
    rw [isTerminal_iff, hactive] at h
    cases h
  erased h := by
    rw [isTerminal_iff, hstatus] at h
    cases h
  ticket := hticket

theorem expired_iff {now : Int} : job.expired now = true ↔
    (job.status = .queued ∨ job.status = .paused) ∧ job.expiresAt ≤ now ∧ job.unsubmitted = true := by
  simp [Job.expired, and_assoc]

theorem alters_expire {now : Int} (h : job.expired now = true) : Alters job (job.expire now) := by
  obtain ⟨hstatus, -, -⟩ := expired_iff.mp h
  have hactive : job.status.isActive = true := by rcases hstatus with h | h <;> rw [h] <;> rfl
  exact alters_of_stopped hactive rfl rfl rfl rfl rfl (Or.inr rfl) rfl rfl rfl

theorem alters_finish (error : Option String) (now : Int) (h : job.status.isActive = true) :
    Alters job (job.finish error now) :=
  alters_of_stopped h rfl rfl rfl rfl rfl (Or.inr rfl) rfl rfl rfl

theorem alters_pause (error : String) (now : Int)
    (h : job.status.isActive = true) : Alters job (job.pause error now) := by
  unfold Job.pause
  split
  · exact alters_of_stopped h rfl rfl rfl rfl rfl (Or.inr rfl) rfl rfl rfl
  · exact alters_of_active h rfl rfl rfl rfl rfl rfl rfl nofun

theorem alters_handOver (hok : JobOk kit job) (now : Int) (h : job.status.isActive = true) :
    Alters job (job.handOver now) := by
  unfold Job.handOver
  split
  · exact alters_of_stopped h rfl rfl rfl rfl rfl (Or.inr rfl) rfl rfl rfl
  · exact alters_of_active h rfl rfl rfl rfl rfl rfl h hok.ticket

theorem alters_stop (hok : JobOk kit job) (now : Int) (h : job.status.isActive = true) :
    Alters job { job.stop with updatedAt := now } := by
  unfold Job.stop
  split
  · exact alters_of_active h rfl rfl rfl rfl rfl rfl h hok.ticket
  · split
    · next hunsubmitted =>
      exact alters_of_stopped h rfl rfl rfl rfl rfl (Or.inl rfl) rfl rfl hunsubmitted
    · exact alters_of_active h rfl rfl rfl rfl rfl rfl rfl nofun

theorem alters_resume (hok : JobOk kit job) (now : Int) (h : job.status.isActive = true) :
    Alters job { job.resume with updatedAt := now } := by
  unfold Job.resume
  split
  · exact alters_of_active h rfl rfl rfl rfl rfl rfl rfl nofun
  · exact alters_of_active h rfl rfl rfl rfl rfl rfl h hok.ticket

end Mapae.Outings
