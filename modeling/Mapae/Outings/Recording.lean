import Mapae.Outings.Operations

/-!
# Recording a round

A paid round enters the ledger and its outing in one transaction. Neither a check of
`GuardianLedger.insert` nor a constraint of its tables refuses it:

* `consistent_of_play` is about the checks, `StoreOk.result` about the constraints
* `result_of_recorded` says that recording a round again changes nothing
-/

namespace Mapae.Outings

open Mapae.Infra Mapae.Store Mapae.Guardians Mapae.Ranking

/-! ## The tables -/

namespace GuardianLedger

variable {l : GuardianLedger}

theorem insertResult_ok {r : ResultRow} (hid : ∀ row ∈ l.results, row.resultId ≠ r.resultId)
    (hpayment : ∀ row ∈ l.results, row.paymentTx ≠ r.paymentTx)
    (hround : ∀ row ∈ l.results, row.round ≠ r.round) :
    ∃ l', l.insertResult r = .ok l' ∧ l'.results.rows = l.results.rows ++ [r] ∧
      l'.ranked = l.ranked := by
  unfold insertResult
  rw [dif_pos (Table.free_iff.mpr hpayment), dif_pos (Table.free_iff.mpr hround)]
  split
  · next hinsert =>
    obtain ⟨row, hrow, heq⟩ := Table.insert?_eq_none.mp hinsert
    exact absurd heq (hid row hrow)
  · next results hinsert => exact ⟨_, rfl, (Table.insert?_eq_some.mp hinsert).2, rfl⟩

theorem insertRanked_ok {r : RankedRow} (hid : ∀ row ∈ l.ranked.rows, row.resultId ≠ r.resultId)
    (hslot : ∀ row ∈ l.ranked.rows, row.slot ≠ r.slot) :
    ∃ l', l.insertRanked r = .ok l' ∧ l'.results = l.results ∧
      l'.ranked.rows = l.ranked.rows ++ [r] := by
  unfold insertRanked
  split
  · next hinsert =>
    unfold RankedTable.insert? at hinsert
    rw [dif_pos (Table.free_iff.mpr hslot)] at hinsert
    split at hinsert
    · next htaken =>
      obtain ⟨row, hrow, heq⟩ := Table.insert?_eq_none.mp htaken
      exact absurd heq (hid row hrow)
    · cases hinsert
  · next ranked hinsert => exact ⟨_, rfl, rfl, RankedTable.insert?_rows hinsert⟩

end GuardianLedger

/-! ## Checks -/

variable {kit : OutingKit} {headers : List String} {s s' : OutingStore} {job : Job}
  {r : OutingResult} {now : Int}

theorem play_eq_some : OutingStore.play kit job now = some r ↔
    ∃ p, job.pending = some p ∧ ∃ t, p.transaction = some t ∧ ∃ o,
      kit.simulate p.game p.seed job.profile job.locale job.shopMemory = some o ∧
        ¬ kit.byteLength o > 16384 ∧
          ⟨resultId kit job, p.game, p.seed, now, t, o, p.ranked⟩ = r := by
  simp only [OutingStore.play, Option.bind_eq_bind, Option.bind_eq_some_iff,
    Option.ite_none_left_eq_some, Option.pure_def, Option.some.injEq]

/-- **A played round passes every check.** -/
theorem consistent_of_play (hhonest : kit.Honest) (hok : JobOk kit job) {p : Pending}
    (hp : job.pending = some p) (hplay : OutingStore.play kit job now = some r) :
    GuardianLedger.Consistent kit job p r := by
  obtain ⟨q, hq, t, ht, o, ho, -, rfl⟩ := play_eq_some.mp hplay
  cases hp.symm.trans hq
  have hends := hhonest.outcome ho
  refine ⟨ht, rfl, rfl, fun ranked hranked => ?_, rfl, rfl, hends.game, ?_, ?_,
    hends.victory, hends.score_nonneg, hends.score_le⟩
  · rw [hok.ruleset]
    exact (hok.attempt p hq ranked hranked).2.2
  · rw [hends.replay, hok.ruleset]
    rfl
  · rw [hends.replay]
    rfl

/-! ## The round is new -/

/-- The rounds that an outing has had have other ids. -/
theorem resultId_fresh (hhonest : kit.Honest) (hok : JobOk kit job) {other : Job}
    (hother : JobOk kit other) (hsame : other.id = job.id → other = job) {k : Nat} {x : OutingResult}
    (hx : other.results[k]? = some x) : x.id ≠ resultId kit job := by
  intro heq
  rw [hother.ids k x hx, resultId] at heq
  obtain ⟨hid, hspent⟩ := hhonest.resultHash_inj heq
  obtain rfl := hsame hid
  have hlt := (List.getElem?_eq_some_iff.mp hx).1
  rw [← hok.spent] at hlt
  omega

/-- **The ledger takes a played round.** -/
theorem StoreOk.insertPlayed (h : StoreOk kit headers s) (hhonest : kit.Honest)
    (hjob : job ∈ s.outings) {p : Pending} (hp : job.pending = some p)
    (hactive : job.status.isActive = true) (hplay : OutingStore.play kit job now = some r) :
    ∃ ledger, s.ledger.insert kit job r = .ok ledger ∧
      ledger.results.rows =
        s.ledger.results.rows ++ [GuardianLedger.resultRow kit job p r] ∧
      ledger.ranked.rows =
        s.ledger.ranked.rows ++ (r.ranked.map (GuardianLedger.rankedRow job r)).toList := by
  obtain ⟨q, hq, t, ht, o, ho, -, hr⟩ := play_eq_some.mp hplay
  cases hp.symm.trans hq
  have hok := h.jobs job hjob
  have hconsistent := consistent_of_play hhonest hok hp hplay
  have hid : r.id = resultId kit job := by rw [← hr]
  have htransaction : r.transaction = t := by rw [← hr]
  have hgame : r.game = p.game := by rw [← hr]
  have hdrawn : r.ranked = p.ranked := by rw [← hr]
  obtain ⟨header, hheader, hpaid⟩ := hok.settled p hp t ht
  -- the rows of the ledger are other rounds, of other payments
  have hfresh : ∀ row ∈ s.ledger.results, row.resultId ≠ r.id := by
    intro row hrow
    obtain ⟨hrowId, other, hother, -, k, -, hk⟩ := h.rounds row hrow
    rw [hrowId, hid]
    exact resultId_fresh hhonest hok (h.jobs other hother)
      (fun hsame => Table.eq_of_key hother hjob hsame) hk
  have hpayment : ∀ row ∈ s.ledger.results,
      row.paymentTx ≠ (GuardianLedger.resultRow kit job p r).paymentTx := by
    intro row hrow heq
    obtain ⟨v, -, hv, hfree⟩ := h.payments row hrow
    have hsame : kit.settlement v = kit.settlement header := by
      rw [← hv, heq, ← hpaid, ← htransaction]
      rfl
    exact hfree job hjob (hhonest.settlement_inj hsame ▸ header_eq_some.mpr ⟨p, hp, hheader⟩)
  have hround : ∀ row ∈ s.ledger.results,
      row.round ≠ (GuardianLedger.resultRow kit job p r).round := by
    intro row hrow heq
    obtain ⟨-, other, hother, hsame, k, hadmission, hk⟩ := h.rounds row hrow
    rw [ResultRow.round, ResultRow.round, Prod.mk.injEq] at heq
    obtain rfl := Table.eq_of_key hother hjob (hsame.trans heq.1)
    have hlt := (List.getElem?_eq_some_iff.mp hk).1
    have hnext : row.admission = other.spent + 1 := heq.2
    rw [← hok.spent] at hlt
    omega
  obtain ⟨l, hl, hrows, hranked⟩ := GuardianLedger.insertResult_ok hfresh hpayment hround
  unfold GuardianLedger.insert
  rw [hp]
  dsimp only
  rw [if_pos hconsistent, hl]
  cases hattempt : r.ranked with
  | none => exact ⟨l, rfl, hrows, by rw [hranked]; exact (List.append_nil _).symm⟩
  | some attempt =>
    have hslot : job.slot = some (GuardianLedger.rankedRow job r attempt).slot := by
      refine slot_eq_some.mpr ⟨p, hp, attempt, hdrawn.symm.trans hattempt, ?_⟩
      rw [← hgame]
      rfl
    have hattemptId : ∀ row ∈ l.ranked.rows,
        row.resultId ≠ (GuardianLedger.rankedRow job r attempt).resultId := by
      intro row hrow heq
      rw [hranked] at hrow
      obtain ⟨x, hx, hxid⟩ := h.rankedIds row hrow
      rw [hxid] at heq
      exact hfresh x hx (GuardianLedger.hashText_injective heq)
    have hattemptSlot : ∀ row ∈ l.ranked.rows,
        row.slot ≠ (GuardianLedger.rankedRow job r attempt).slot := by
      intro row hrow
      rw [hranked] at hrow
      exact h.unsettled job hjob hactive _ hslot row hrow
    obtain ⟨l', hl', hresults, hrows'⟩ := GuardianLedger.insertRanked_ok hattemptId hattemptSlot
    exact ⟨l', hl', by rw [hresults, hrows], by rw [hrows', hranked]; rfl⟩

/-! ## The outing after the round -/

theorem advance_status {t : Int} (h : (job.advance r t).status.isActive = true) :
    job.results.length + 1 < job.admissions := by
  rw [Job.advance] at h
  dsimp only at h
  split at h
  · cases h
  · split at h
    · cases h
    · next hmore =>
      rw [List.length_append, List.length_singleton] at hmore
      omega

theorem getElem?_advance {t : Int} {k : Nat} {x : OutingResult} :
    (job.advance r t).results[k]? = some x ↔
      job.results[k]? = some x ∨ k = job.results.length ∧ x = r := by
  rw [Job.advance]
  dsimp only
  rcases Nat.lt_trichotomy k job.results.length with hlt | rfl | hgt
  · rw [List.getElem?_append_left hlt]
    simp [hlt.ne]
  · simp [eq_comm]
  · rw [List.getElem?_append_right hgt.le]
    have hsub : k - job.results.length = (k - job.results.length - 1) + 1 := by omega
    rw [hsub, List.getElem?_cons_succ]
    simp [hgt.ne', List.getElem?_eq_none hgt.le]

/-- **A round keeps what holds of an outing.** -/
theorem JobOk.advance (h : JobOk kit job) (hactive : job.status.isActive = true)
    (hid : r.id = resultId kit job) (t : Int) : JobOk kit (job.advance r t) where
  spent := rfl
  spent_le := by
    have hlt := h.spent_lt hactive
    rw [h.spent] at hlt
    rw [Job.advance]
    dsimp only
    rw [List.length_append, List.length_singleton]
    exact hlt
  spent_lt ha := by
    have hlt := advance_status ha
    rw [Job.advance]
    dsimp only
    rw [List.length_append, List.length_singleton]
    exact hlt
  erased hterminal := by
    refine ⟨?_, rfl⟩
    rw [Job.advance] at hterminal ⊢
    exact if_pos hterminal
  ticket hrunning := by
    rw [Job.advance] at hrunning
    dsimp only at hrunning
    split at hrunning
    · cases hrunning
    · split at hrunning
      · cases hrunning
      · cases hrunning
  ruleset := h.ruleset
  attempt := nofun
  settled := nofun
  ids k x hx := by
    rcases getElem?_advance.mp hx with hx | ⟨rfl, rfl⟩
    · exact h.ids k x hx
    · rw [hid, resultId, h.spent]
      rfl

/-- **Writing a round and its outing** keeps what holds. -/
theorem StoreOk.record {p : Pending} {ledger : GuardianLedger} {header : String}
    (h : StoreOk kit headers s) (hjob : job ∈ s.outings) (hactive : job.status.isActive = true)
    (hid : r.id = resultId kit job) (hheader : job.header = some header)
    (htransaction : r.transaction = kit.settlement header)
    (hslot : ∀ a ∈ r.ranked, job.slot = some (GuardianLedger.rankedRow job r a).slot)
    (hattempt : ∀ a ∈ r.ranked, 1 ≤ a.attempt ∧ a.attempt ≤ RANKED_ATTEMPTS)
    (hrows : ledger.results.rows =
      s.ledger.results.rows ++ [GuardianLedger.resultRow kit job p r])
    (hranked : ledger.ranked.rows =
      s.ledger.ranked.rows ++ (r.ranked.map (GuardianLedger.rankedRow job r)).toList) (t : Int) :
    StoreOk kit headers ({ s with ledger := ledger }.save (job.advance r t)) := by
  have hmem {x : Job} : x ∈ ({ s with ledger := ledger }.save (job.advance r t)).outings ↔
      x ∈ s.outings ∧ x.id ≠ job.id ∨ x = job.advance r t ∧ ∃ cur ∈ s.outings, cur.id = job.id :=
    mem_save
  have hresult {row : ResultRow} : row ∈ ledger.results ↔
      row ∈ s.ledger.results ∨ row = GuardianLedger.resultRow kit job p r := by
    rw [Table.mem_def, hrows, List.mem_append, List.mem_singleton, Table.mem_def]
  have hrankedRow {row : RankedRow} : row ∈ ledger.ranked.rows ↔
      row ∈ s.ledger.ranked.rows ∨ ∃ a ∈ r.ranked, GuardianLedger.rankedRow job r a = row := by
    rw [hranked, List.mem_append, Option.mem_toList, Option.map_eq_some_iff]
    exact Iff.rfl
  have hself : job.advance r t ∈ ({ s with ledger := ledger }.save (job.advance r t)).outings :=
    hmem.mpr (Or.inr ⟨rfl, job, hjob, rfl⟩)
  refine
    { jobs := ?jobs, epochs := ?epochs, slots := ?slots, unsettled := ?unsettled, attempts := ?attempts,
      rankedIds := ?rankedIds, signed := ?signed, apart := ?apart, payments := ?payments,
      rounds := ?rounds, recorded := ?recorded }
  case jobs =>
    intro x hx
    rcases hmem.mp hx with ⟨hx, -⟩ | ⟨rfl, -⟩
    · exact h.jobs x hx
    · exact (h.jobs job hjob).advance hactive hid t
  case epochs =>
    intro x hx y hy hax hay heq
    rcases hmem.mp hx with ⟨hx, -⟩ | ⟨rfl, -⟩
    · rcases hmem.mp hy with ⟨hy, -⟩ | ⟨rfl, -⟩
      · exact h.epochs x hx y hy hax hay heq
      · exact h.epochs x hx job hjob hax hactive heq
    · rcases hmem.mp hy with ⟨hy, -⟩ | ⟨rfl, -⟩
      · exact h.epochs job hjob y hy hactive hay heq
      · rfl
  case slots =>
    intro x hx y hy hax hay v hv hv'
    rcases hmem.mp hx with ⟨hx, -⟩ | ⟨rfl, -⟩
    · rcases hmem.mp hy with ⟨hy, -⟩ | ⟨rfl, -⟩
      · exact h.slots x hx y hy hax hay v hv hv'
      · cases hv'
    · cases hv
  case unsettled =>
    intro x hx hax v hv row hrow heq
    rcases hmem.mp hx with ⟨hx, hne⟩ | ⟨rfl, -⟩
    · rcases hrankedRow.mp hrow with hrow | ⟨a, ha, rfl⟩
      · exact h.unsettled x hx hax v hv row hrow heq
      · exact hne (h.slots x hx job hjob hax hactive v hv (heq ▸ hslot a ha))
    · cases hv
  case attempts =>
    intro row hrow
    rcases hrankedRow.mp hrow with hrow | ⟨a, ha, rfl⟩
    · exact h.attempts row hrow
    · exact hattempt a ha
  case rankedIds =>
    intro row hrow
    rcases hrankedRow.mp hrow with hrow | ⟨a, ha, rfl⟩
    · obtain ⟨x, hx, heq⟩ := h.rankedIds row hrow
      exact ⟨x, hresult.mpr (Or.inl hx), heq⟩
    · exact ⟨_, hresult.mpr (Or.inr rfl), rfl⟩
  case signed =>
    intro x hx v hv
    rcases hmem.mp hx with ⟨hx, -⟩ | ⟨rfl, -⟩
    · exact h.signed x hx v hv
    · cases hv
  case apart =>
    intro x hx y hy v hv hv'
    rcases hmem.mp hx with ⟨hx, -⟩ | ⟨rfl, -⟩
    · rcases hmem.mp hy with ⟨hy, -⟩ | ⟨rfl, -⟩
      · exact h.apart x hx y hy v hv hv'
      · cases hv'
    · cases hv
  case payments =>
    intro row hrow
    rcases hresult.mp hrow with hrow | rfl
    · obtain ⟨v, hv, heq, hfree⟩ := h.payments row hrow
      refine ⟨v, hv, heq, fun x hx => ?_⟩
      rcases hmem.mp hx with ⟨hx, -⟩ | ⟨rfl, -⟩
      · exact hfree x hx
      · exact nofun
    · refine ⟨header, h.signed job hjob header hheader, htransaction, fun x hx hv => ?_⟩
      rcases hmem.mp hx with ⟨hx, hne⟩ | ⟨rfl, -⟩
      · exact hne (h.apart x hx job hjob header hv hheader)
      · cases hv
  case rounds =>
    intro row hrow
    rcases hresult.mp hrow with hrow | rfl
    · obtain ⟨hrid, x, hx, heq, k, hk, hr⟩ := h.rounds row hrow
      refine ⟨hrid, ?_⟩
      by_cases hsame : x.id = job.id
      · obtain rfl := Table.eq_of_key hx hjob hsame
        exact ⟨_, hself, heq, k, hk, getElem?_advance.mpr (Or.inl hr)⟩
      · exact ⟨x, hmem.mpr (Or.inl ⟨hx, hsame⟩), heq, k, hk, hr⟩
    · refine ⟨rfl, _, hself, rfl, job.spent, rfl, getElem?_advance.mpr (Or.inr ⟨?_, rfl⟩)⟩
      exact (h.jobs job hjob).spent
  case recorded =>
    intro x hx k y hy
    rcases hmem.mp hx with ⟨hx, -⟩ | ⟨rfl, -⟩
    · obtain ⟨row, hrow, hrest⟩ := h.recorded x hx k y hy
      exact ⟨row, hresult.mpr (Or.inl hrow), hrest⟩
    · rcases getElem?_advance.mp hy with hy | ⟨rfl, rfl⟩
      · obtain ⟨row, hrow, hrest⟩ := h.recorded job hjob k y hy
        exact ⟨row, hresult.mpr (Or.inl hrow), hrest⟩
      · refine ⟨_, hresult.mpr (Or.inr rfl), rfl, ?_⟩
        exact congrArg (· + 1) (h.jobs job hjob).spent

/-- `s'` is `s` with the round `r` recorded: the next result of the outing, with its rows in the
ledger. -/
structure Records (s s' : OutingStore) (id : String) (r : OutingResult) : Prop where
  recorded : ∃ job after row, s.get id = some job ∧ s'.get id = some after ∧
    after.results = job.results ++ [r] ∧ after.spent = job.spent + 1 ∧
    row.round = (id, after.spent) ∧ row.outcome = r ∧
    s'.ledger.results.rows = s.ledger.results.rows ++ [row] ∧
    s'.ledger.ranked.rows =
      s.ledger.ranked.rows ++ (r.ranked.map (GuardianLedger.rankedRow job r)).toList
  others : ∀ other, other ≠ id → s'.get other = s.get other

theorem records_save {ledger : GuardianLedger} {row : ResultRow} {t : Int} (hjob : job ∈ s.outings)
    (hspent : job.spent = job.results.length) (hround : row.round = (job.id, job.spent + 1))
    (houtcome : row.outcome = r) (hrows : ledger.results.rows = s.ledger.results.rows ++ [row])
    (hranked : ledger.ranked.rows =
      s.ledger.ranked.rows ++ (r.ranked.map (GuardianLedger.rankedRow job r)).toList) :
    Records s ({ s with ledger := ledger }.save (job.advance r t)) job.id r where
  recorded := by
    have hadvanced : (job.advance r t).spent = job.spent + 1 := by
      rw [hspent]
      exact List.length_append
    refine ⟨job, job.advance r t, row, get_of_mem hjob, ?_, rfl, hadvanced, ?_, houtcome, hrows,
      hranked⟩
    · have hsaved : job.advance r t ∈ ({ s with ledger := ledger }.save (job.advance r t)).outings :=
        mem_save.mpr (Or.inr ⟨rfl, job, hjob, rfl⟩)
      exact get_of_mem hsaved
    · rw [hround, hadvanced]
  others _ hne := get_save_of_ne hne

/-- **A played round is recorded**, and everything that holds is kept. -/
theorem StoreOk.result (h : StoreOk kit headers s) (hhonest : kit.Honest) {id : String}
    (hget : s.get id = some job) (hactive : job.status.isActive = true)
    (hplay : OutingStore.play kit job now = some r) (t : Int) :
    ∃ s', s.result kit id r t = .ok s' ∧ StoreOk kit headers s' ∧ Later s s' ∧
      Records s s' id r := by
  obtain ⟨hjob, rfl⟩ := mem_of_get hget
  have hok := h.jobs job hjob
  obtain ⟨p, hp, tx, htx, o, -, -, hr⟩ := play_eq_some.mp hplay
  have hid : r.id = resultId kit job := by rw [← hr]
  have hgame : r.game = p.game := by rw [← hr]
  have hdrawn : r.ranked = p.ranked := by rw [← hr]
  obtain ⟨ledger, hledger, hrows, hranked⟩ := h.insertPlayed hhonest hjob hp hactive hplay
  have hnew : job.results.find? (fun x => x.id = r.id) = none := by
    rw [List.find?_eq_none]
    intro x hx
    obtain ⟨k, hk⟩ := List.mem_iff_getElem?.mp hx
    rw [decide_eq_true_eq, hid]
    exact resultId_fresh hhonest hok hok (fun _ => rfl) hk
  refine ⟨{ s with ledger := ledger }.save (job.advance r t), ?_, ?_, ?_,
    records_save hjob hok.spent rfl rfl hrows hranked⟩
  · rw [OutingStore.result, hget]
    dsimp only
    rw [hnew]
    dsimp only
    rw [hledger]
    rfl
  · obtain ⟨header, hheader, hpaid⟩ := hok.settled p hp tx htx
    refine h.record hjob hactive hid (header_eq_some.mpr ⟨p, hp, hheader⟩) ?_ ?_ ?_ hrows hranked t
    · rw [← hpaid, ← hr]
    · intro a ha
      refine slot_eq_some.mpr ⟨p, hp, a, hdrawn ▸ ha, ?_⟩
      rw [← hgame]
      rfl
    · intro a ha
      obtain ⟨hpos, hle, -⟩ := hok.attempt p hp a (hdrawn ▸ ha)
      exact ⟨hpos, hle⟩
  · refine later_save (s := { s with ledger := ledger }) hjob rfl fun hterminal => ?_
    rw [isTerminal_iff, hactive] at hterminal
    cases hterminal

/-- **Recording a round again changes nothing.** -/
theorem StoreOk.result_of_recorded (h : StoreOk kit headers s) (hhonest : kit.Honest)
    (hjob : job ∈ s.outings) (hr : r ∈ job.results) (t : Int) : s.result kit job.id r t = .ok s := by
  have hok := h.jobs job hjob
  have hfind : job.results.find? (fun x => x.id = r.id) = some r := by
    cases hfind : job.results.find? (fun x => x.id = r.id) with
    | none => exact absurd (decide_eq_true rfl) (List.find?_eq_none.mp hfind r hr)
    | some x =>
      obtain ⟨i, hi⟩ := List.mem_iff_getElem?.mp (List.mem_of_find?_eq_some hfind)
      obtain ⟨k, hk⟩ := List.mem_iff_getElem?.mp hr
      have hsame : x.id = r.id := by simpa using List.find?_some hfind
      rw [hok.ids i x hi, hok.ids k r hk] at hsame
      obtain rfl : i = k := Nat.succ.inj (hhonest.resultHash_inj hsame).2
      rw [← hi, hk]
  rw [OutingStore.result, get_of_mem hjob]
  dsimp only
  rw [hfind]
  exact if_neg fun hne => hne rfl

/-- **A round of an outing has one row.** -/
theorem StoreOk.existsUnique_row (h : StoreOk kit headers s) (hjob : job ∈ s.outings) {k : Nat}
    (hr : job.results[k]? = some r) :
    ∃! row, row ∈ s.ledger.results ∧ row.round = (job.id, k + 1) := by
  obtain ⟨row, hrow, hid, hadmission⟩ := h.recorded job hjob k r hr
  refine ⟨row, ⟨hrow, Prod.ext hid hadmission⟩, fun other hother => ?_⟩
  exact s.ledger.round_unique other hother.1 row hrow (hother.2.trans (Prod.ext hid hadmission).symm)

end Mapae.Outings
