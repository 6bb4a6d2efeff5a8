import Mapae.Outings.Runs
import Mathlib.Data.Nat.Pairing

/-!
# Every paid round is recorded once

Runs of one worker over the outing store, with requests, failing payments, crashes and restarts in
between.

* an outing that has ended stays so, with nothing of its permission and no payment left
* what is recorded is what was spent, once for each ticket, and within the admissions
* an ownership of a token has one open outing, and a ranked attempt is handed out once
* so the ledger refuses no paid round: the tick records it

All of it holds in the runs that revive no outing. A tick that waits for the guardian checks afterwards
whether the outing was to stop, but not whether it was swept meanwhile (`swept_outing_returns`).
-/

namespace Mapae.Outings

open Mapae.Infra Mapae.Store Mapae.Guardians Mapae.Ranking

/-- The ranked attempts that are settled, or pending in an open outing. -/
def OutingStore.handedOut (s : OutingStore) : List (String × Nat × GameId × Int × Nat) :=
  s.ledger.ranked.rows.map RankedRow.slot ++
    (s.outings.rows.filter fun job => job.status.isActive).filterMap Job.slot

/-- The rows of an outing. -/
def OutingStore.recorded (s : OutingStore) (id : String) : List ResultRow :=
  s.ledger.results.rows.filter fun row => row.outingId = id

/-- What the outings and the ledger say about each other. -/
structure OutingStore.Sound (kit : OutingKit) (s : OutingStore) : Prop where
  ended : ∀ job ∈ s.outings, job.status.isTerminal = true →
    job.context = "0x" ∧ job.header = none ∧ job.transaction = none
  spent : ∀ job ∈ s.outings, job.spent = job.results.length ∧
    (s.recorded job.id).length = job.spent ∧ job.spent ≤ job.admissions
  once : ∀ job ∈ s.outings, ∀ k r, job.results[k]? = some r →
    (∃! row, row ∈ s.ledger.results ∧ row.round = (job.id, k + 1)) ∧
      ∀ now, s.result kit job.id r now = .ok s
  rows : ∀ row ∈ s.ledger.results, ∃ job ∈ s.outings, ∃ k, row.round = (job.id, k + 1) ∧
    job.results[k]? = some row.outcome
  alone : ∀ job ∈ s.outings, ∀ other ∈ s.outings, job.status.isActive = true →
    other.status.isActive = true → job.holding = other.holding → job = other
  distinct : s.handedOut.Nodup
  attempts : ∀ collection tokenId game day n, (collection, tokenId, game, day, n) ∈ s.handedOut →
    1 ≤ n ∧ n ≤ RANKED_ATTEMPTS

variable {kit : OutingKit} {headers : List String} {s : OutingStore} {job : Job} {w w' : World}

/-! ## The store -/

theorem StoreOk.length_recorded (h : StoreOk kit headers s) (hjob : job ∈ s.outings) :
    (s.recorded job.id).length = job.results.length := by
  have hmem {row : ResultRow} : row ∈ s.recorded job.id ↔
      row ∈ s.ledger.results ∧ row.outingId = job.id := by
    rw [OutingStore.recorded, List.mem_filter, decide_eq_true_eq]
    exact Iff.rfl
  have hrows : (s.recorded job.id).Nodup := (List.Nodup.of_map _ s.ledger.results.nodup_keys).filter _
  have hnodup : ((s.recorded job.id).map ResultRow.admission).Nodup := by
    refine List.Nodup.map_on (fun a ha b hb hadmission => ?_) hrows
    obtain ⟨ha, hida⟩ := hmem.mp ha
    obtain ⟨hb, hidb⟩ := hmem.mp hb
    exact s.ledger.round_unique a ha b hb (Prod.ext (hida.trans hidb.symm) hadmission)
  have hperm : ((s.recorded job.id).map ResultRow.admission).Perm
      (List.range' 1 job.results.length) := by
    refine (List.perm_ext_iff_of_nodup hnodup List.nodup_range').mpr fun n => ?_
    rw [List.mem_map, List.mem_range'_1]
    constructor
    · rintro ⟨row, hrow, rfl⟩
      obtain ⟨hrow, hid⟩ := hmem.mp hrow
      obtain ⟨-, other, hother, hsame, k, hadmission, hk⟩ := h.rounds row hrow
      obtain rfl := Table.eq_of_key hother hjob (hsame.trans hid)
      have hlt := (List.getElem?_eq_some_iff.mp hk).1
      omega
    · rintro ⟨hpos, hlt⟩
      obtain ⟨k, rfl⟩ : ∃ k, n = k + 1 := ⟨n - 1, by omega⟩
      obtain ⟨r, hk⟩ : ∃ r, job.results[k]? = some r := by
        have hlt : k < job.results.length := by omega
        exact ⟨_, List.getElem?_eq_getElem hlt⟩
      obtain ⟨row, hrow, hid, hadmission⟩ := h.recorded job hjob k _ hk
      exact ⟨row, hmem.mpr ⟨hrow, hid⟩, hadmission⟩
  rw [← List.length_map ResultRow.admission, hperm.length_eq, List.length_range']

theorem StoreOk.nodup_handedOut (h : StoreOk kit headers s) : s.handedOut.Nodup := by
  rw [OutingStore.handedOut, List.nodup_append]
  refine ⟨List.Nodup.map_on (fun a ha b hb => RankedTable.eq_of_slot ha hb)
    s.ledger.ranked.nodup_rows, ?_, ?_⟩
  · have hjobs : (s.outings.rows.filter fun job => job.status.isActive).Nodup :=
      (List.Nodup.of_map _ s.outings.nodup_keys).filter _
    refine List.pairwise_filterMap.mpr (hjobs.imp_of_mem fun {a b} ha hb hne x hx y hy heq => ?_)
    obtain ⟨ha, hactive⟩ := List.mem_filter.mp ha
    obtain ⟨hb, hactive'⟩ := List.mem_filter.mp hb
    refine hne (Table.eq_of_key (t := s.outings) ha hb ?_)
    exact h.slots a ha b hb hactive hactive' x hx (heq ▸ hy)
  · rintro x hx y hy rfl
    obtain ⟨row, hrow, rfl⟩ := List.mem_map.mp hx
    obtain ⟨a, ha, hslot⟩ := List.mem_filterMap.mp hy
    obtain ⟨ha, hactive⟩ := List.mem_filter.mp ha
    exact h.unsettled a ha hactive _ hslot row hrow rfl

/-- **What holds of the store is sound.** -/
theorem StoreOk.sound (h : StoreOk kit headers s) (hhonest : kit.Honest) : s.Sound kit where
  ended job hjob hterminal := by
    obtain ⟨hcontext, hunsubmitted⟩ := (h.jobs job hjob).erased hterminal
    refine ⟨hcontext, ?_⟩
    rw [Job.header, Job.transaction]
    rw [Job.unsubmitted] at hunsubmitted
    cases hp : job.pending with
    | none => exact ⟨rfl, rfl⟩
    | some p =>
      rw [hp, Option.all_some, Bool.and_eq_true] at hunsubmitted
      exact ⟨Option.isNone_iff_eq_none.mp hunsubmitted.1, Option.isNone_iff_eq_none.mp hunsubmitted.2⟩
  spent job hjob := by
    have hok := h.jobs job hjob
    exact ⟨hok.spent, (h.length_recorded hjob).trans hok.spent.symm, hok.spent_le⟩
  once job hjob k r hr :=
    ⟨h.existsUnique_row hjob hr, h.result_of_recorded hhonest hjob (List.mem_of_getElem? hr)⟩
  rows row hrow := by
    obtain ⟨-, job, hjob, hid, k, hadmission, hk⟩ := h.rounds row hrow
    exact ⟨job, hjob, k, Prod.ext hid.symm hadmission, hk⟩
  alone job hjob other hother hactive hactive' heq :=
    Table.eq_of_key hjob hother (h.epochs job hjob other hother hactive hactive' heq)
  distinct := h.nodup_handedOut
  attempts collection tokenId game day n hx := by
    rcases List.mem_append.mp hx with hx | hx
    · obtain ⟨row, hrow, heq⟩ := List.mem_map.mp hx
      obtain ⟨rfl, rfl, rfl, rfl, rfl⟩ := heq
      exact h.attempts row hrow
    · obtain ⟨job, hjob, hslot⟩ := List.mem_filterMap.mp hx
      obtain ⟨p, hp, r, hr, heq⟩ := slot_eq_some.mp hslot
      simp only [Prod.mk.injEq] at heq
      obtain ⟨hpos, hle, -⟩ := (h.jobs job (List.mem_filter.mp hjob).1).attempt p hp r hr
      rw [heq.2.2.2.2]
      exact ⟨hpos, hle⟩

/-! ## Runs -/

theorem World.Start.ok (h : w.Start) : WorldOk kit w := by
  obtain ⟨store, worker, agent, runner, headers⟩ := w
  obtain ⟨rfl, rfl, rfl⟩ := h
  have hjobs : ∀ job : Job, ¬ job ∈ OutingStore.empty.outings := fun _ => Table.not_mem_empty
  have hrows : ∀ row : ResultRow, ¬ row ∈ OutingStore.empty.ledger.results := fun _ =>
    Table.not_mem_empty
  exact
    { store :=
        { jobs := fun job h => absurd h (hjobs job)
          epochs := fun job h => absurd h (hjobs job)
          slots := fun job h => absurd h (hjobs job)
          unsettled := fun job h => absurd h (hjobs job)
          attempts := nofun
          rankedIds := nofun
          signed := fun job h => absurd h (hjobs job)
          apart := fun job h => absurd h (hjobs job)
          payments := fun row h => absurd h (hrows row)
          rounds := fun row h => absurd h (hrows row)
          recorded := fun job h => absurd h (hjobs job) }
      runner := trivial }

theorem WorldOk.of_reachable (hhonest : kit.Honest) (h : (World.careful kit).Reachable w) :
    WorldOk kit w := by
  induction h with
  | init hstart => exact World.Start.ok hstart
  | step _ hstep ih =>
    obtain ⟨a, hcareful, ha⟩ := hstep
    exact (ih.act hhonest hcareful ha).1

/-- What was revived had ended. -/
theorem World.Revives.not_later (h : WorldOk kit w) {a : World.Action} (hrevives : w.Revives a)
    (ha : w.act kit a = some w') : ¬ Later w.store w'.store := by
  obtain ⟨clock, random, job, rfl, hrunner, row, hrow, hid, hterminal, hstop⟩ := hrevives
  have hok := h.runner
  rw [hrunner] at hok
  have hget : w.store.get job.id = some row := hid ▸ get_of_mem hrow
  rw [World.act, World.go, hrunner] at ha
  dsimp only at ha
  rw [hget, Option.any_some, hstop] at ha
  rw [if_neg fun hstopped => Bool.false_ne_true hstopped.2] at ha
  have hruleset : job.guardian.ruleset = ARCADE_RULESET_VERSION := by
    obtain ⟨cur, hcur, hresembles⟩ := exists_row hok
    cases hresembles with
    | same t => exact (h.store.jobs _ hcur).ruleset
    | stopped status id guardian results spent admissions =>
      rw [← guardian]
      exact (h.store.jobs cur hcur).ruleset
  rw [if_neg fun hne => hne hruleset] at ha
  cases ha
  intro hlater
  obtain ⟨x, hx, hxid, hstatus⟩ := hlater row hrow
  have hmarked := Table.eq_of_key hx (mem_save_self hrow hid)
    (hxid.trans hid)
  rw [hmarked] at hstatus
  rw [← hstatus hterminal] at hterminal
  cases hterminal

/--
**Every paid round is recorded once.**

In the runs that revive no outing, every state is sound, the tick records every round that a paid
ticket comes to, and outings that have ended stay so; they stay so exactly in the steps that revive
nothing.
-/
theorem outing_rounds_held {kit : OutingKit} (hhonest : kit.Honest) :
    (∀ w, (World.careful kit).Reachable w →
      w.store.Sound kit ∧
        (∀ id r clock random, w.runner = .charged id →
          (w.store.get id).bind (OutingStore.play kit · (clock 0)) = some r →
            ∃ s, w.store.result kit id r (clock 1) = .ok s ∧ Records w.store s id r ∧
              w.act kit (.go clock random) = some { w with store := s, runner := .ending }) ∧
        ∀ a w', w.act kit a = some w' → (Later w.store w'.store ↔ ¬ w.Revives a)) ∧
      ∀ w w', (World.careful kit).Reachable w → (World.careful kit).Steps w w' →
        Later w.store w'.store := by
  refine ⟨fun w hw => ?_, fun w w' hw hsteps => ?_⟩
  · have hok := WorldOk.of_reachable hhonest hw
    refine ⟨hok.store.sound hhonest, fun id r clock random hrunner hplay => ?_, fun a w' ha =>
      ⟨fun hlater hrevives => hrevives.not_later hok ha hlater, fun hcareful =>
        (hok.act hhonest hcareful ha).2⟩⟩
    obtain ⟨s, hresult, -, -, hrecords⟩ := hok.settle hhonest hrunner hplay (clock 1)
    refine ⟨s, hresult, hrecords, ?_⟩
    rw [World.act, World.go, hrunner]
    dsimp only
    rw [hplay]
    dsimp only
    rw [hresult]
  · refine System.Steps.relation (R := fun w w' : World => Later w.store w'.store)
      (fun w => .refl w.store) (fun _ _ _ h h' => h.trans h') (fun w w' hw hstep => ?_) hw hsteps
    obtain ⟨a, hcareful, ha⟩ := hstep
    exact ((WorldOk.of_reachable hhonest hw).act hhonest hcareful ha).2

/-! ## An example -/

namespace Sample

/-- A text as one number. -/
def textNumber (text : String) : Nat :=
  text.toList.foldr (fun c n => Nat.pair c.toNat n + 1) 0

theorem textNumber_injective : Function.Injective textNumber := by
  intro a b h
  have hlists : ∀ xs ys : List Char, xs.foldr (fun c n => Nat.pair c.toNat n + 1) 0 =
      ys.foldr (fun c n => Nat.pair c.toNat n + 1) 0 → xs = ys := by
    intro xs
    induction xs with
    | nil =>
      intro ys hys
      cases ys with
      | nil => rfl
      | cons y ys => cases hys
    | cons x xs ih =>
      intro ys hys
      cases ys with
      | nil => cases hys
      | cons y ys =>
        rw [List.foldr_cons, List.foldr_cons] at hys
        obtain ⟨hchar, hrest⟩ := Nat.pair_eq_pair.mp (Nat.succ.inj hys)
        rw [ih ys hrest, Char.toNat_inj.mp hchar]
  exact String.toList_injective (hlists _ _ h)

/-- Hashes that do not collide, and a game that always ends the same way. -/
def sampleKit : OutingKit where
  resultHash _ _ id n := Nat.pair (textNumber id) n
  inputsHash _ _ _ _ _ _ := 0
  traitsHash seed := seed
  traits _ := ⟨"pine", "calm", ⟨5, 3, 4⟩⟩
  rankedSeed _ _ attempt _ _ := attempt
  fingerprint _ start := start.id
  simulate game seed _ _ _ := some ⟨game, 10, some true, some ⟨seed, ARCADE_RULESET_VERSION⟩, none, ""⟩
  byteLength _ := 0
  settlement := textNumber

theorem sampleKit_honest : sampleKit.Honest where
  resultHash_inj h := by
    obtain ⟨hid, hn⟩ := Nat.pair_eq_pair.mp h
    exact ⟨textNumber_injective hid, hn⟩
  settlement_inj := textNumber_injective
  outcome h := by
    cases h
    exact ⟨rfl, rfl, rfl, Int.natCast_nonneg 10, Int.ofNat_le.mpr (by decide)⟩

def guardian : GuardianSnapshot := ⟨8453, "0xmapae", 7, 1, 0, 5, 5, ARCADE_RULESET_VERSION⟩

def start (id : String) : OutingStart :=
  ⟨id, 7, .score, .en, none, 1, "0x01", by decide, by decide⟩

def world : World := ⟨.empty, "worker", 9, .idle, []⟩

/-- An outing is started, its guardian is inspected, and its first ticket is signed and paid. -/
def paidRound : List World.Action :=
  [.insert 1 (start "a") ⟨1, 900, 11⟩ 0 guardian, .tick 10, .go (fun _ => 10) 0, .go (fun _ => 10) 0,
    .inspected (some guardian) 20, .go (fun _ => 20) 0, .go (fun _ => 20) 0,
    .persist "payment" (fun _ => 30), .paid 40]

/-- The outing that the tick goes on with was swept. -/
def swept (w : World) : Bool :=
  match w.runner with
  | .checked job => (w.store.get job.id).any fun row => row.status.isTerminal && !row.stopRequested
  | _ => false

/-- The action, unless it may revive an outing. -/
def carefully (w : World) (a : World.Action) : Option World :=
  if swept w then none else w.act sampleKit a

theorem careful_of_carefully {w w' : World} {a : World.Action} (h : carefully w a = some w') :
    (World.careful sampleKit).step w w' := by
  obtain ⟨hswept, h⟩ := Option.ite_none_left_eq_some.mp h
  refine ⟨a, ?_, h⟩
  rintro ⟨clock, random, job, -, hrunner, row, hrow, hid, hterminal, hstop⟩
  refine hswept ?_
  rw [swept, hrunner]
  dsimp only
  rw [← hid, get_of_mem hrow, Option.any_some, hterminal, hstop]
  rfl

/-- An outing whose permission ends at `100` is inspected; before the answer comes, another one is
started at `200`. -/
def schedule : List World.Action :=
  [.insert 1 (start "a") ⟨1, 100, 11⟩ 0 guardian, .tick 10, .go (fun _ => 10) 0, .go (fun _ => 10) 0,
    .insert 1 (start "b") ⟨1, 900, 12⟩ 200 guardian, .inspected (some guardian) 210]

/-- The two outings. -/
def statuses (w : World) : Option OutingStatus × Option OutingStatus :=
  ((w.store.get "a").map Job.status, (w.store.get "b").map Job.status)

def holdings (w : World) : Option (String × Nat × Nat) × Option (String × Nat × Nat) :=
  ((w.store.get "a").map Job.holding, (w.store.get "b").map Job.holding)

end Sample

theorem outing_rounds_held_sample : ∃ w s r, (World.careful Sample.sampleKit).Reachable w ∧
    w.runner = .charged "a" ∧ Records w.store s "a" r ∧ s.Sound Sample.sampleKit := by
  have hpaid : (System.performAll Sample.carefully Sample.world Sample.paidRound).map (fun w =>
      (w.runner, ((w.store.get "a").bind (OutingStore.play Sample.sampleKit · 50)).isSome)) =
        some (.charged "a", true) := by
    decide +kernel
  obtain ⟨w, hw, hshown⟩ := Option.map_eq_some_iff.mp hpaid
  obtain ⟨hrunner, hplayed⟩ := Prod.mk.inj hshown
  obtain ⟨r, hplay⟩ := Option.isSome_iff_exists.mp hplayed
  have hreachable : (World.careful Sample.sampleKit).Reachable w :=
    System.performAll_invariant
      (fun _ _ _ (_ : True) hw ha => hw.step (Sample.careful_of_carefully ha)) (fun _ _ => trivial)
      (.init ⟨rfl, rfl, rfl⟩) hw
  obtain ⟨s, -, hrecords, hgo⟩ :=
    ((outing_rounds_held Sample.sampleKit_honest).1 w hreachable).2.1 "a" r (fun _ => 50) 0 hrunner hplay
  have hcareful : Sample.carefully w (.go (fun _ => 50) 0) =
      some { w with store := s, runner := .ending } := by
    rw [Sample.carefully, Sample.swept, hrunner]
    exact hgo
  have hnext := hreachable.step (Sample.careful_of_carefully hcareful)
  exact ⟨w, s, r, hreachable, hrunner, hrecords,
    ((outing_rounds_held Sample.sampleKit_honest).1 _ hnext).1⟩

/-- **A swept outing returns**, beside the one that has taken its place. -/
theorem swept_outing_returns :
    ∃ w w', (System.ofAct World.Start (World.act Sample.sampleKit)).Reachable w ∧
      (System.ofAct World.Start (World.act Sample.sampleKit)).step w w' ∧
      Sample.statuses w = (some .stopped, some .queued) ∧
      Sample.statuses w' = (some .running, some .queued) ∧
      (Sample.holdings w').1 = (Sample.holdings w').2 := by
  have hbefore : (System.performAll (World.act Sample.sampleKit) Sample.world Sample.schedule).map
      Sample.statuses = some (some .stopped, some .queued) := by
    decide +kernel
  obtain ⟨w, hw, hstatuses⟩ := Option.map_eq_some_iff.mp hbefore
  have hafter : ((System.performAll (World.act Sample.sampleKit) Sample.world Sample.schedule).bind
      fun w => w.act Sample.sampleKit (.go (fun _ => 220) 0)).map
        (fun w => (Sample.statuses w, decide ((Sample.holdings w).1 = (Sample.holdings w).2))) =
      some ((some .running, some .queued), true) := by
    decide +kernel
  rw [hw, Option.bind_some] at hafter
  obtain ⟨w', hw', hshown⟩ := Option.map_eq_some_iff.mp hafter
  rw [Prod.mk.injEq] at hshown
  have hstart : (System.ofAct World.Start (World.act Sample.sampleKit)).Reachable Sample.world :=
    .init ⟨rfl, rfl, rfl⟩
  exact ⟨w, w', System.reachable_of_performAll hstart hw, ⟨_, hw'⟩, hstatuses, hshown.1,
    of_decide_eq_true hshown.2⟩

end Mapae.Outings
