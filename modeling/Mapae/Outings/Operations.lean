import Mapae.Outings.Invariant

/-!
# The operations of the store keep what holds

* `Later` is the order of the stores of a run: no outing is lost, and one that has ended stays so
* `Outside` is what the requests do to an outing while a tick waits
* `insert_spec` and `result_spec` say what starting an outing and recording a round do
-/

namespace Mapae.Outings

open Mapae.Infra Mapae.Store Mapae.Guardians Mapae.Ranking

variable {kit : OutingKit} {headers : List String} {s s' s'' : OutingStore} {job cur : Job}

/-- No outing is lost, and one that has ended keeps its state. -/
def Later (s s' : OutingStore) : Prop :=
  ∀ job ∈ s.outings, ∃ x ∈ s'.outings, x.id = job.id ∧
    (job.status.isTerminal = true → x.status = job.status)

theorem Later.refl (s : OutingStore) : Later s s := fun job h => ⟨job, h, rfl, fun _ => rfl⟩

theorem Later.trans (h : Later s s') (h' : Later s' s'') : Later s s'' := by
  intro job hjob
  obtain ⟨x, hx, hid, hends⟩ := h job hjob
  obtain ⟨y, hy, hid', hends'⟩ := h' x hx
  refine ⟨y, hy, hid'.trans hid, fun hterminal => ?_⟩
  have hstatus := hends hterminal
  rw [hends' (hstatus ▸ hterminal), hstatus]

theorem later_of_outings (h : s'.outings = s.outings) : Later s s' := by
  intro job hjob
  exact ⟨job, h ▸ hjob, rfl, fun _ => rfl⟩

theorem later_save (hcur : cur ∈ s.outings) (hid : job.id = cur.id)
    (hends : cur.status.isTerminal = true → job.status = cur.status) : Later s (s.save job) := by
  intro a ha
  rcases exists_mem_save hcur hid.symm ha with ha | rfl
  · exact ⟨a, ha, rfl, fun _ => rfl⟩
  · exact ⟨job, mem_save_self hcur hid.symm, hid, hends⟩

/-- Other columns than the outings and the ledger do not matter. -/
theorem StoreOk.congr (h : StoreOk kit headers s) (houtings : s'.outings = s.outings)
    (hledger : s'.ledger = s.ledger) : StoreOk kit headers s' :=
  h.calm hledger (fun x hx => ⟨h.jobs x (houtings ▸ hx), x, houtings ▸ hx, .refl x⟩)
    fun x hx => ⟨x, houtings ▸ hx, .refl x⟩

/-! ## Saving an alteration -/

/-- **A saved alteration keeps what holds**, and ends no outing that had ended. -/
theorem StoreOk.saveAltered (h : StoreOk kit headers s) (hcur : cur ∈ s.outings)
    (halters : Alters cur job) : StoreOk kit headers (s.save job) ∧ Later s (s.save job) :=
  ⟨h.save hcur halters.calm (halters.ok (h.jobs cur hcur)), later_save hcur halters.id halters.ends⟩

theorem mem_of_get {id : String} (h : s.get id = some job) : job ∈ s.outings ∧ job.id = id :=
  Table.get?_eq_some.mp h

theorem get_of_mem (h : job ∈ s.outings) : s.get job.id = some job := Table.get?_of_mem h

theorem isActive_of_not_terminal {status : OutingStatus} (h : ¬ status.isTerminal = true) :
    status.isActive = true := by
  rw [isTerminal_iff, Bool.not_eq_false] at h
  exact h

theorem StoreOk.pause (h : StoreOk kit headers s) (id error : String) (now : Int) :
    StoreOk kit headers (s.pause id error now) ∧ Later s (s.pause id error now) := by
  unfold OutingStore.pause
  cases hget : s.get id with
  | none => exact ⟨h, .refl s⟩
  | some current =>
    dsimp only
    split
    · exact ⟨h, .refl s⟩
    · next hopen =>
      exact h.saveAltered (mem_of_get hget).1
        (alters_pause error now (isActive_of_not_terminal hopen))

theorem StoreOk.recover (h : StoreOk kit headers s) (id : String) (clock : Nat → Int) :
    StoreOk kit headers (s.recover id clock) ∧ Later s (s.recover id clock) := by
  unfold OutingStore.recover
  cases hget : s.get id with
  | none => exact ⟨h, .refl s⟩
  | some current =>
    dsimp only
    split
    · exact ⟨h, .refl s⟩
    · next hopen =>
      split
      · exact h.saveAltered (mem_of_get hget).1
          (alters_finish _ _ (isActive_of_not_terminal hopen))
      · exact h.pause id _ _

/-! ## Altering many outings -/

theorem StoreOk.alterAll {f : Job → Job} {hf : ∀ job, (f job).id = job.id}
    (h : StoreOk kit headers s)
    (halters : ∀ job ∈ s.outings, f job = job ∨ Alters job (f job)) :
    StoreOk kit headers { s with outings := s.outings.updateAll f hf } ∧
      Later s { s with outings := s.outings.updateAll f hf } := by
  have hcalm : ∀ job ∈ s.outings, Calm job (f job) := by
    intro job hjob
    rcases halters job hjob with he | he
    · rw [he]
      exact .refl job
    · exact he.calm
  have hmem : ∀ job ∈ s.outings, f job ∈ s.outings.updateAll f hf := fun job hjob =>
    (Table.mem_updateAll hf).mpr ⟨job, hjob, rfl⟩
  refine ⟨h.calm rfl (fun x hx => ?_) fun job hjob => ⟨f job, hmem job hjob, hcalm job hjob⟩,
    fun job hjob => ⟨f job, hmem job hjob, hf job, (hcalm job hjob).ends⟩⟩
  · obtain ⟨job, hjob, rfl⟩ := (Table.mem_updateAll hf).mp hx
    refine ⟨?_, job, hjob, hcalm job hjob⟩
    rcases halters job hjob with he | he
    · rw [he]
      exact h.jobs job hjob
    · exact he.ok (h.jobs job hjob)

/-- Only what may be retired is swept. -/
theorem expired_of_mem_sweepIds {now : Int} (hjob : job ∈ s.outings) (h : job.id ∈ s.sweepIds now) :
    job.expired now = true := by
  obtain ⟨x, hx, hid⟩ := List.mem_map.mp h
  have hmem := mem_orderBy.mp (List.mem_of_mem_take hx)
  obtain ⟨hrow, hexpired⟩ := List.mem_filter.mp hmem
  rwa [Table.eq_of_key (t := s.outings) hrow hjob hid] at hexpired

theorem StoreOk.expireUnsubmitted (h : StoreOk kit headers s) (now : Int) :
    StoreOk kit headers (s.expireUnsubmitted now) ∧ Later s (s.expireUnsubmitted now) := by
  refine h.alterAll fun job hjob => ?_
  split
  · next hswept => exact Or.inr (alters_expire (expired_of_mem_sweepIds hjob hswept))
  · exact Or.inl rfl

theorem isOf_iff {collection : String} {tokenId : Nat} : job.isOf collection tokenId = true ↔
    job.status.isActive = true ∧ job.collection = collection ∧ job.guardian.tokenId = tokenId := by
  simp [Job.isOf, and_assoc]

theorem StoreOk.handOver (h : StoreOk kit headers s) (guardian : GuardianSnapshot) (now : Int) :
    StoreOk kit headers (s.handOver guardian now) ∧ Later s (s.handOver guardian now) := by
  refine h.alterAll fun job hjob => ?_
  split
  · next hof => exact Or.inr (alters_handOver (h.jobs job hjob) now (isOf_iff.mp hof).1)
  · exact Or.inl rfl

/-! ## Drawing a ticket -/

theorem mem_rankedAttemptsTaken {collection exclude : String} {tokenId n : Nat} {day : Int}
    {game : GameId} : n ∈ s.rankedAttemptsTaken collection tokenId day exclude game ↔
      (∃ row ∈ s.ledger.ranked.rows, row.slot = (collection, tokenId, game, day, n)) ∨
        ∃ job ∈ s.outings, job.isOf collection tokenId = true ∧ job.id ≠ exclude ∧
          job.slot = some (collection, tokenId, game, day, n) := by
  rw [OutingStore.rankedAttemptsTaken, mem_orderBy, List.mem_dedup, List.mem_append]
  refine or_congr ?_ ?_
  · simp only [List.mem_map, List.mem_filter, decide_eq_true_eq, RankedRow.slot, Prod.mk.injEq]
    constructor
    · rintro ⟨row, ⟨hrow, hc, ht, hd, hg⟩, hn⟩
      exact ⟨row, hrow, hc, ht, hg, hd, hn⟩
    · rintro ⟨row, hrow, hc, ht, hg, hd, hn⟩
      exact ⟨row, ⟨hrow, hc, ht, hd, hg⟩, hn⟩
  · simp only [List.mem_filterMap, List.mem_filter, Bool.and_eq_true, decide_eq_true_eq]
    refine exists_congr fun job => ?_
    rw [and_assoc, and_assoc]
    refine and_congr_right fun _ => and_congr_right fun hof => and_congr_right fun _ => ?_
    obtain ⟨-, hcollection, htoken⟩ := isOf_iff.mp hof
    rw [Job.slot]
    cases job.pending with
    | none => simp
    | some p =>
      cases hr : p.ranked with
      | none => simp [hr]
      | some r =>
        simp only [Option.bind_some, hr, Option.map_some, Option.some.injEq, Prod.mk.injEq,
          hcollection, htoken, true_and, Option.bind_eq_bind, Option.ite_none_right_eq_some]
        constructor
        · rintro ⟨⟨hd, hg⟩, hn⟩
          exact ⟨hg, hd, hn⟩
        · rintro ⟨hg, hd, hn⟩
          exact ⟨⟨hd, hg⟩, hn⟩

/-- The ticket of a new admission. -/
theorem admission_spec (kit : OutingKit) (s : OutingStore) (job : Job) (now : Int) (random : Nat) :
    (s.admission kit job now random).header = none ∧
      (s.admission kit job now random).transaction = none ∧
      ∀ r ∈ (s.admission kit job now random).ranked,
        (1 ≤ r.attempt ∧ r.attempt ≤ RANKED_ATTEMPTS) ∧
          (s.admission kit job now random).seed = kit.rankedSeed
            (s.admission kit job now random).game r.day r.attempt job.guardian.tokenId
            ARCADE_RULESET_VERSION ∧
          r.attempt ∉ s.rankedAttemptsTaken job.collection job.guardian.tokenId r.day job.id
            (s.admission kit job now random).game := by
  unfold OutingStore.admission
  dsimp only
  split
  · next attempt hfind =>
    refine ⟨rfl, rfl, ?_⟩
    rintro r ⟨⟩
    have hmem := List.mem_of_find?_eq_some hfind
    have hfree := List.find?_some hfind
    rw [List.mem_range'_1] at hmem
    refine ⟨⟨hmem.1, ?_⟩, rfl, of_decide_eq_true hfree⟩
    dsimp only
    omega
  · exact ⟨rfl, rfl, nofun⟩

theorem slot_eq_some {x : String × Nat × GameId × Int × Nat} : job.slot = some x ↔
    ∃ p ∈ job.pending, ∃ r ∈ p.ranked,
      x = (job.collection, job.guardian.tokenId, p.game, r.day, r.attempt) := by
  rw [Job.slot, Option.bind_eq_some_iff]
  refine exists_congr fun p => and_congr Iff.rfl ?_
  rw [Option.map_eq_some_iff]
  exact exists_congr fun r => and_congr Iff.rfl eq_comm

/-- **A queued outing gets its ticket**: the one it has, or a new one. -/
theorem StoreOk.ticket (h : StoreOk kit headers s) (hcur : cur ∈ s.outings)
    (hqueued : cur.status = .queued) {p : Pending} (now : Int) (random : Nat) (t : Int)
    (hp : cur.pending = some p ∨ cur.pending = none ∧ p = s.admission kit cur now random) :
    StoreOk kit headers
      (s.save { cur with pending := some p, status := .running, updatedAt := t }) := by
  have hok := h.jobs cur hcur
  have hactive : cur.status.isActive = true := by
    rw [hqueued]
    rfl
  obtain ⟨hheader, htransaction, hranked⟩ := admission_spec kit s cur now random
  refine h.replace hcur rfl rfl rfl (fun _ => hactive) ?ok ?slot (fun _ hv => hv) ?header
  case ok =>
    refine
      { spent := hok.spent, spent_le := hok.spent_le, spent_lt := fun _ => hok.spent_lt hactive,
        erased := nofun, ticket := fun _ => rfl, ruleset := hok.ruleset, attempt := ?_, settled := ?_,
        ids := hok.ids }
    · rintro _ ⟨⟩ r hr
      rcases hp with hold | ⟨-, rfl⟩
      · exact hok.attempt p hold r hr
      · obtain ⟨hrange, hseed, -⟩ := hranked r hr
        exact ⟨hrange.1, hrange.2, hseed⟩
    · rintro _ ⟨⟩ v hv
      rcases hp with hold | ⟨-, rfl⟩
      · exact hok.settled p hold v hv
      · rw [htransaction] at hv
        cases hv
  case slot =>
    intro x hx
    obtain ⟨_, ⟨⟩, r, hr, rfl⟩ := slot_eq_some.mp hx
    rcases hp with hold | ⟨-, rfl⟩
    · exact Or.inl (slot_eq_some.mpr ⟨p, hold, r, hr, rfl⟩)
    · obtain ⟨-, -, hfree⟩ := hranked r hr
      rw [mem_rankedAttemptsTaken, not_or] at hfree
      refine Or.inr ⟨fun other hother hne hopen hslot => hfree.2 ⟨other, hother, ?_, hne, hslot⟩,
        fun row hrow heq => hfree.1 ⟨row, hrow, heq⟩⟩
      obtain ⟨q, -, r', -, heq⟩ := slot_eq_some.mp hslot
      simp only [Prod.mk.injEq] at heq
      exact isOf_iff.mpr ⟨hopen, heq.1.symm, heq.2.1.symm⟩
  case header =>
    intro v hv
    rcases hp with hold | ⟨-, rfl⟩
    · have hv : cur.header = some v := by
        rw [Job.header, hold]
        exact hv
      exact ⟨h.signed cur hcur v hv, Or.inl hv⟩
    · rw [Job.header, Option.bind_some, hheader] at hv
      cases hv

/--
**Marking an outing as running.**

The copy that the tick holds differs from the row at most in the time of the last change.
-/
theorem StoreOk.mark {w : World} (h : StoreOk kit headers w.store) (hcur : cur ∈ w.store.outings)
    {t : Int} (hsame : job = { cur with updatedAt := t }) (hqueued : cur.status = .queued)
    (clock : Nat → Int) (random : Nat) :
    StoreOk kit headers (w.store.save (w.marked kit clock random job)) ∧
      Later w.store (w.store.save (w.marked kit clock random job)) := by
  have hmarked : w.marked kit clock random job =
      { cur with
        pending := some (cur.pending.getD (w.store.admission kit cur (clock 0) random))
        status := .running
        updatedAt := clock 1 } := by
    rw [hsame]
    rfl
  rw [hmarked]
  refine ⟨h.ticket hcur hqueued (clock 0) random (clock 1) ?_, later_save hcur rfl ?_⟩
  · cases cur.pending with
    | some p => exact Or.inl rfl
    | none => exact Or.inr ⟨rfl, rfl⟩
  · rw [hqueued]
    exact nofun

/-! ## Paying -/

theorem StoreOk.takeLease (h : StoreOk kit headers s) (worker : String) (now : Int) :
    StoreOk kit headers (s.takeLease worker now).2 ∧ Later s (s.takeLease worker now).2 :=
  ⟨h.congr rfl rfl, later_of_outings rfl⟩

theorem header_eq_some {v : String} : job.header = some v ↔ ∃ p ∈ job.pending, v ∈ p.header :=
  Option.bind_eq_some_iff

/-- An outing with a signed payment is open. -/
theorem JobOk.isActive_of_header {v : String} (h : JobOk kit job) (hv : job.header = some v) :
    job.status.isActive = true := by
  refine isActive_of_not_terminal fun hterminal => ?_
  obtain ⟨p, hp, hmem⟩ := header_eq_some.mp hv
  have hunsubmitted := (h.erased hterminal).2
  rw [Job.unsubmitted, Option.mem_def.mp hp, Option.all_some, Option.mem_def.mp hmem] at hunsubmitted
  cases hunsubmitted

/-- The ticket of an open outing changes; its game and attempt do not. -/
theorem StoreOk.replaceTicket {p : Pending} (h : StoreOk kit headers s) (hcur : cur ∈ s.outings)
    (hp : cur.pending = some p) (hactive : cur.status.isActive = true) (q : Pending)
    (headers' : List String) (hgame : q.game = p.game) (hseed : q.seed = p.seed) (hranked : q.ranked = p.ranked) (t : Int)
    (hsettled : ∀ v ∈ q.transaction, ∃ u ∈ q.header, v = kit.settlement u)
    (hsub : ∀ v ∈ headers, v ∈ headers')
    (hheader : ∀ v, q.header = some v → v ∈ headers' ∧ (cur.header = some v ∨ v ∉ headers)) :
    StoreOk kit headers' (s.save { cur with pending := some q, updatedAt := t }) ∧
      Later s (s.save { cur with pending := some q, updatedAt := t }) := by
  have hok := h.jobs cur hcur
  refine ⟨h.replace hcur rfl rfl rfl (fun _ => hactive) ?_ (fun x hx => Or.inl ?_) hsub hheader,
    later_save hcur rfl fun _ => rfl⟩
  · refine
      { spent := hok.spent, spent_le := hok.spent_le, spent_lt := hok.spent_lt,
        erased := fun hterminal => ?_, ticket := fun _ => rfl, ruleset := hok.ruleset, attempt := ?_,
        settled := ?_, ids := hok.ids }
    · rw [isTerminal_iff, hactive] at hterminal
      cases hterminal
    · rintro _ ⟨⟩ r hr
      rw [hgame, hseed]
      exact hok.attempt p hp r (hranked ▸ hr)
    · rintro _ ⟨⟩ v hv
      exact hsettled v hv
  · obtain ⟨_, ⟨⟩, r, hr, rfl⟩ := slot_eq_some.mp hx
    exact slot_eq_some.mpr ⟨p, hp, r, hranked ▸ hr, by rw [hgame]; rfl⟩

/-- A header is stored for the ticket of a running outing that has none or the same, or nothing is. -/
theorem persist_cases (s : OutingStore) (worker : String) (agent : Address) (id header : String)
    (clock : Nat → Int) :
    s.persist worker agent id header clock = (false, (s.takeLease worker (clock 0)).2) ∨
      ∃ current p, s.get id = some current ∧ current.status = .running ∧ current.pending = some p ∧
        (∀ u ∈ p.header, u = header) ∧
        s.persist worker agent id header clock = (true, (s.takeLease worker (clock 0)).2.save
          { current with pending := some { p with header := some header }, updatedAt := clock 2 }) := by
  unfold OutingStore.persist
  have hget : (s.takeLease worker (clock 0)).2.get id = s.get id := rfl
  cases hcurrent : s.get id with
  | none =>
    rw [hcurrent] at hget
    simp only [hget, true_or]
  | some current =>
    rw [hcurrent] at hget
    simp only [hget]
    split
    · exact Or.inl rfl
    · next hrunning =>
      simp only [not_or, not_not] at hrunning
      split
      · exact Or.inl rfl
      · next p hp =>
        split
        · exact Or.inl rfl
        · next hsame =>
          refine Or.inr ⟨current, p, rfl, hrunning.2.1, hp, fun u hu => ?_, rfl⟩
          rw [Option.mem_def.mp hu, Option.any_some, decide_eq_true_eq, not_not] at hsame
          exact hsame

/-- **A payment is signed**: its header is stored, or nothing is. -/
theorem StoreOk.persist (h : StoreOk kit headers s) (worker : String) (agent : Address)
    {id header : String} (clock : Nat → Int)
    (hfresh : header ∉ headers ∨ (s.get id).any fun current => current.header = some header) :
    StoreOk kit (if (s.persist worker agent id header clock).1 then header :: headers else headers)
        (s.persist worker agent id header clock).2 ∧
      Later s (s.persist worker agent id header clock).2 := by
  obtain ⟨hlease, hlater⟩ := h.takeLease worker (clock 0)
  rcases persist_cases s worker agent id header clock with heq | ⟨current, p, hget, hrunning, hp, hsame, heq⟩
  · rw [heq]
    exact ⟨hlease, hlater⟩
  · rw [heq, if_pos rfl]
    rw [hget, Option.any_some, decide_eq_true_eq] at hfresh
    have hmem : current ∈ s.outings := (mem_of_get hget).1
    have hactive : current.status.isActive = true := by
      rw [hrunning]
      rfl
    have hstored := hlease.replaceTicket hmem hp hactive { p with header := some header }
      (header :: headers) rfl rfl rfl (clock 2) ?_ (fun v hv => List.mem_cons_of_mem header hv) ?_
    · exact ⟨hstored.1, hlater.trans hstored.2⟩
    · intro v hv
      obtain ⟨u, hu, hpaid⟩ := (h.jobs current hmem).settled p hp v hv
      exact ⟨header, rfl, hsame u hu ▸ hpaid⟩
    · rintro v ⟨⟩
      exact ⟨List.mem_cons_self, hfresh.symm⟩

/-- **A payment is settled.** -/
theorem StoreOk.pay (h : StoreOk kit headers s) (hcur : cur ∈ s.outings) {p : Pending}
    (hp : cur.pending = some p) {header : String} (hheader : p.header = some header) (now : Int) :
    StoreOk kit headers (s.save
        { cur with
          pending := some { p with transaction := some (kit.settlement header) }
          updatedAt := now }) ∧
      Later s (s.save
        { cur with
          pending := some { p with transaction := some (kit.settlement header) }
          updatedAt := now }) := by
  have hcurHeader : cur.header = some header := header_eq_some.mpr ⟨p, hp, hheader⟩
  refine h.replaceTicket hcur hp ((h.jobs cur hcur).isActive_of_header hcurHeader)
    { p with transaction := some (kit.settlement header) } headers rfl rfl rfl now ?_ (fun _ hv => hv)
    fun v hv => ?_
  · rintro v ⟨⟩
    exact ⟨header, hheader, rfl⟩
  · have hold : cur.header = some v := header_eq_some.mpr ⟨p, hp, hv⟩
    exact ⟨h.signed cur hcur v hold, Or.inl hold⟩

end Mapae.Outings
