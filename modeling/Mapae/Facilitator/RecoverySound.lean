import Mapae.Facilitator.RecoveryInvariant

/-!
# Every stretch keeps the invariant

`Sound` is what a stretch must show; `applyEffect` turns it into the invariant of the next
world. One lemma for each way of `Stretch` shows it, and `sound_of_stretch` puts them
together.
-/

namespace Mapae.Facilitator

open Mapae.Infra Mapae.Store

variable {codec : Codec} {w : World} {db db' : JournalDb} {history : List Event} {flight : Nat}
  {intent : String} {result : SettlementResult} {fl : Flight} {effect : Effect}

/-! ## A stretch of a flight -/

/-- The event is one of this flight's own. -/
def Event.isOf (flight : Nat) : Event → Prop
  | .found f _ | .claimed f _ _ | .sent f _ _ | .failed f _ _ => f = flight
  | .answered _ _ _ _ => False

theorem holds_of_isOf {events : List Event} (hown : ∀ e ∈ events, e.isOf flight) {g : Nat}
    (hne : g ≠ flight) {record : SettlementRecord} (h : Holds (events ++ history) g record) :
    Holds history g record := by
  rcases h with h | ⟨bytes, h⟩
  · rcases List.mem_append.mp h with h | h
    · exact absurd (hown _ h) hne
    · exact Or.inl h
  · rcases List.mem_append.mp h with h | h
    · exact absurd (hown _ h) hne
    · exact Or.inr ⟨bytes, h⟩

theorem answeredCalls_append_of_isOf {events : List Event} (hown : ∀ e ∈ events, e.isOf flight) :
    answeredCalls (events ++ history) = answeredCalls history := by
  have hnil : answeredCalls events = [] := by
    refine List.eq_nil_iff_forall_not_mem.mpr fun call hc => ?_
    obtain ⟨f, i, r, he⟩ := mem_answeredCalls.mp hc
    exact hown _ he
  unfold answeredCalls at hnil ⊢
  rw [List.filterMap_append, hnil, List.nil_append]

/-- How the phases on both sides of a stretch lie to the chain of preparations. -/
inductive Requeued (queue : List Nat) (flight : Nat) : Phase → Phase → Prop
  | enter : Requeued queue flight .registered .queued
  | within {p p' : Phase} (hp : p.waiting = true) (hp' : p'.waiting = true)
    (hhead : queue.head? = some flight) : Requeued queue flight p p'
  | leave {p p' : Phase} (hp : p.waiting = true) (hp' : p'.preparing = false) :
    Requeued queue flight p p'
  | outside {p p' : Phase} (hp : p.preparing = false) (hp' : p'.preparing = false) :
    Requeued queue flight p p'

theorem not_preparing_of_holding {p : Phase} (h : p.holding = some result) :
    p.preparing = false := by
  cases p <;> first | rfl | cases h

theorem not_waiting {p : Phase} (h : p.preparing = false) : p.waiting = false := by
  cases p <;> first | rfl | cases h

theorem not_started {p : Phase} (h : p.preparing = false) : p.started = false := by
  cases p <;> first | rfl | cases h

theorem requeue_of_ne {queue : List Nat} {p p' : Phase} (hp : p ≠ .registered) :
    World.requeue queue flight p p' =
      if p.preparing = true ∧ ¬ p'.preparing = true then queue.erase flight else queue := by
  cases p with
  | registered => exact absurd rfl hp
  | _ => rfl

theorem requeue_of_waiting {queue : List Nat} {p p' : Phase} (hp : p.waiting = true) :
    World.requeue queue flight p p' =
      if p'.preparing = true then queue else queue.erase flight := by
  rw [requeue_of_ne (by rintro rfl; cases hp), Phase.preparing_of_waiting hp]
  by_cases h : p'.preparing = true
  · rw [if_pos h, if_neg (fun hn => hn.2 h)]
  · rw [if_neg h, if_pos ⟨rfl, h⟩]

theorem requeue_of_not_preparing {queue : List Nat} {p p' : Phase} (hp : p.preparing = false) :
    World.requeue queue flight p p' = queue := by
  rw [requeue_of_ne (by rintro rfl; cases hp), if_neg]
  rintro ⟨h, -⟩
  rw [hp] at h
  cases h

theorem QueueOk.requeue {queue : List Nat} {flights : Nat → Option Flight} {p' : Phase}
    (h : QueueOk queue flights) (hfl : flights flight = some fl)
    (hr : Requeued queue flight fl.phase p') :
    QueueOk (World.requeue queue flight fl.phase p')
      (Function.update flights flight (some { fl with phase := p' })) := by
  have hself : ∀ gl, Function.update flights flight (some { fl with phase := p' }) flight =
      some gl ↔ gl = { fl with phase := p' } := by
    intro gl
    rw [Function.update_self, Option.some.injEq, eq_comm]
  have hother : ∀ g, g ≠ flight →
      Function.update flights flight (some { fl with phase := p' }) g = flights g :=
    fun g hne => Function.update_of_ne hne ..
  have hmem : flight ∈ queue ↔ fl.phase.waiting = true := by
    rw [h.mem]
    constructor
    · rintro ⟨gl, hgl, hw⟩
      rw [hfl, Option.some.injEq] at hgl
      exact hgl ▸ hw
    · exact fun hw => ⟨fl, hfl, hw⟩
  -- Membership of the new chain, for the flight itself and for the others.
  have build : ∀ queue' : List Nat, queue'.Nodup →
      (∀ g, g ≠ flight → (g ∈ queue' ↔ g ∈ queue)) →
      (flight ∈ queue' ↔ p'.waiting = true) →
      (p'.started = true → queue'.head? = some flight) →
      (∀ g, g ≠ flight → queue.head? = some g → queue'.head? = some g) →
      QueueOk queue' (Function.update flights flight (some { fl with phase := p' })) := by
    intro queue' hnodup hothers hthis hstart hhead
    refine ⟨hnodup, fun g => ?_, fun g gl hg hs => ?_⟩
    · by_cases hg : g = flight
      · subst hg
        rw [hthis]
        simp only [hself, exists_eq_left]
      · rw [hothers g hg, h.mem, hother g hg]
    · by_cases hgf : g = flight
      · subst hgf
        rw [hself] at hg
        subst hg
        exact hstart hs
      · rw [hother g hgf] at hg
        exact hhead g hgf (h.head g gl hg hs)
  generalize hp : fl.phase = p at hr hmem
  cases hr with
  | enter =>
    have hnot : flight ∉ queue := fun hm => nomatch hmem.mp hm
    refine build (queue ++ [flight]) ?_ (fun g hg => by simp [hg]) (by simp [Phase.waiting])
      (fun h => nomatch h) fun g _ hg => ?_
    · refine List.nodup_append.mpr ⟨h.nodup, List.nodup_singleton _, ?_⟩
      rintro a ha b hb rfl
      exact hnot (List.mem_singleton.mp hb ▸ ha)
    · rw [List.head?_append, hg, Option.some_or]
  | within hpw hpw' hhead =>
    rw [requeue_of_waiting hpw, if_pos (Phase.preparing_of_waiting hpw')]
    exact build queue h.nodup (fun _ _ => Iff.rfl) (by rw [hmem, hpw, hpw']) (fun _ => hhead)
      (fun _ _ hg => hg)
  | leave hpw hleft =>
    rw [requeue_of_waiting hpw, if_neg (by rw [hleft]; exact Bool.false_ne_true)]
    refine build (queue.erase flight) (h.nodup.erase _)
      (fun g hg => List.mem_erase_of_ne hg) ?_ ?_ fun g hne hg => ?_
    · rw [not_waiting hleft]
      exact iff_of_false (h.nodup.not_mem_erase) Bool.false_ne_true
    · rw [not_started hleft]
      exact fun hn => nomatch hn
    · cases queue with
      | nil => cases hg
      | cons a queue =>
        rw [List.head?_cons, Option.some.injEq] at hg
        subst hg
        rw [List.erase_cons_tail (by simpa using hne), List.head?_cons]
  | outside hout hleft =>
    rw [requeue_of_not_preparing hout]
    refine build queue h.nodup (fun _ _ => Iff.rfl) ?_ ?_ (fun _ _ hg => hg)
    · rw [hmem, not_waiting hout, not_waiting hleft]
    · rw [not_started hleft]
      exact fun hn => nomatch hn

/-- What a stretch must show for the invariant to survive it. -/
structure Sound (codec : Codec) (w : World) (flight : Nat) (fl : Flight) (effect : Effect) :
    Prop where
  journal : JournalInvariant effect.db
  later : Extends w.db effect.db
  isOf : ∀ e ∈ effect.events, e.isOf flight
  events : ∀ later e earlier, effect.events = later ++ e :: earlier →
    EventOk codec (earlier ++ w.history) e
  claim_row : ∀ g bytes record, .claimed g bytes record ∈ effect.events →
    ∃ row ∈ effect.db.intents.table, row.toSettlementInput = record.toSettlementInput
  row_claim : ∀ row ∈ effect.db.intents.table,
    (∃ row₀ ∈ w.db.intents.table, row.toSettlementInput = row₀.toSettlementInput) ∨
      ∃ bytes record, .claimed flight bytes record ∈ effect.events ∧
        record.toSettlementInput = row.toSettlementInput
  absent : ∀ g gl, g ≠ flight → w.flights g = some gl → gl.phase.started = true →
    w.db.intents.table.get? (toLowerCase gl.payment.paymentIntentId) = none →
      effect.db.intents.table.get? (toLowerCase gl.payment.paymentIntentId) = none
  phase : PhaseOk effect.db (effect.events ++ w.history) flight { fl with phase := effect.phase }
  queue : Requeued w.queue flight fl.phase effect.phase

namespace RecoveryInvariant

theorem applyEffect (hinv : RecoveryInvariant codec w) (hfl : w.flights flight = some fl)
    (h : Sound codec w flight fl effect) :
    RecoveryInvariant codec (w.applyEffect flight fl effect) := by
  have hsub : ∀ e ∈ w.history, e ∈ effect.events ++ w.history :=
    fun e he => List.mem_append_right _ he
  have hself : ∀ gl, Function.update w.flights flight (some { fl with phase := effect.phase })
      flight = some gl ↔ gl = { fl with phase := effect.phase } := by
    intro gl
    rw [Function.update_self, Option.some.injEq, eq_comm]
  have hother : ∀ g, g ≠ flight → Function.update w.flights flight
      (some { fl with phase := effect.phase }) g = w.flights g :=
    fun g hne => Function.update_of_ne hne ..
  -- A flight that is there still is, with the payment it has.
  have hkeep : ∀ g gl, w.flights g = some gl → ∃ gl', Function.update w.flights flight
      (some { fl with phase := effect.phase }) g = some gl' ∧ gl'.payment = gl.payment := by
    intro g gl hg
    by_cases hgf : g = flight
    · subst hgf
      rw [hfl, Option.some.injEq] at hg
      subst hg
      exact ⟨_, (hself _).mpr rfl, rfl⟩
    · exact ⟨gl, by rw [hother g hgf, hg], rfl⟩
  exact
    { journal := h.journal
      events := hinv.events.append h.events
      claim_row := by
        intro g bytes record hc
        rcases List.mem_append.mp hc with hc | hc
        · exact h.claim_row g bytes record hc
        · obtain ⟨row, hr, hinput⟩ := hinv.claim_row g bytes record hc
          obtain ⟨row', hr', hsame, -⟩ := h.later row hr
          exact ⟨row', hr', hsame.input.trans hinput⟩
      row_claim := by
        intro row hr
        rcases h.row_claim row hr with ⟨row₀, hr₀, hinput⟩ | ⟨bytes, record, hc, hinput⟩
        · obtain ⟨g, bytes, record, hc, hinput'⟩ := hinv.row_claim row₀ hr₀
          exact ⟨g, bytes, record, hsub _ hc, hinput'.trans hinput.symm⟩
        · exact ⟨flight, bytes, record, List.mem_append_left _ hc, hinput⟩
      holds_lt := by
        intro g record hg
        by_cases hgf : g = flight
        · exact hgf ▸ hinv.flight_lt flight fl hfl
        · exact hinv.holds_lt g record (holds_of_isOf h.isOf hgf hg)
      flight_lt := by
        intro g gl hg
        by_cases hgf : g = flight
        · exact hgf ▸ hinv.flight_lt flight fl hfl
        · exact hinv.flight_lt g gl ((hother g hgf).symm.trans hg)
      phase := by
        intro g gl hg
        by_cases hgf : g = flight
        · subst hgf
          rw [(hself gl).mp hg]
          exact h.phase
        · have hg' := (hother g hgf).symm.trans hg
          exact (hinv.phase g gl hg').frame h.later hsub
            (fun record => holds_of_isOf h.isOf hgf) (h.absent g gl hgf hg')
      queue := hinv.queue.requeue hfl h.queue
      call := by
        intro call waiting hc
        obtain ⟨hlt, gl, hg, hintent⟩ := hinv.call call waiting hc
        obtain ⟨gl', hg', hpay⟩ := hkeep _ gl hg
        exact ⟨hlt, gl', hg', by rw [hintent, hpay]⟩
      inflight := by
        intro id g hg
        obtain ⟨gl, hgl, hid⟩ := hinv.inflight id g hg
        obtain ⟨gl', hg', hpay⟩ := hkeep _ gl hgl
        exact ⟨gl', hg', by rw [hpay, hid]⟩
      answers := by
        intro call g intent result ha
        rcases List.mem_append.mp ha with ha | ha
        · exact absurd (h.isOf _ ha) id
        · exact (hinv.answers call g intent result ha).frame h.later hsub
      answered_once := by
        show (answeredCalls (effect.events ++ w.history)).Nodup
        rw [answeredCalls_append_of_isOf h.isOf]
        exact hinv.answered_once
      answered := by
        intro call hc
        replace hc : call ∈ answeredCalls (effect.events ++ w.history) := hc
        rw [answeredCalls_append_of_isOf h.isOf] at hc
        exact hinv.answered call hc }

/-! ### The stretches that write nothing to the journal -/

theorem eventsOk_singleton {e : Event} (h : EventOk codec history e) :
    ∀ later e' earlier, [e] = later ++ e' :: earlier → EventOk codec (earlier ++ history) e' := by
  intro later e' earlier heq
  cases later with
  | nil =>
    cases heq
    exact h
  | cons _ later =>
    have := congrArg List.length heq
    simp at this

/-- A stretch that leaves the journal alone owes only its event, its phase and its place. -/
theorem sound_of_quiet (hinv : RecoveryInvariant codec w) {p' : Phase} {events : List Event}
    (hisOf : ∀ e ∈ events, e.isOf flight)
    (hclaim : ∀ g bytes record, .claimed g bytes record ∉ events)
    (hevents : ∀ later e earlier, events = later ++ e :: earlier →
      EventOk codec (earlier ++ w.history) e)
    (hphase : PhaseOk w.db (events ++ w.history) flight { fl with phase := p' })
    (hqueue : Requeued w.queue flight fl.phase p') :
    Sound codec w flight fl ⟨p', w.db, events⟩ where
  journal := hinv.journal
  later := Extends.refl w.db
  isOf := hisOf
  events := hevents
  claim_row g bytes record hc := absurd hc (hclaim g bytes record)
  row_claim row hr := Or.inl ⟨row, hr, rfl⟩
  absent _ _ _ _ _ h := h
  phase := hphase
  queue := hqueue

/-- The flight's history is fresh, so the new event is the only one that holds a record. -/
theorem holds_cons (hfresh : ∀ record, ¬ Holds history flight record) {e : Event}
    {record : SettlementRecord} (h : Holds (e :: history) flight record) :
    e = .found flight record ∨ ∃ bytes, e = .claimed flight bytes record := by
  rcases h with h | ⟨bytes, h⟩
  · rcases List.mem_cons.mp h with h | h
    · exact Or.inl h.symm
    · exact absurd (Or.inl h) (hfresh record)
  · rcases List.mem_cons.mp h with h | h
    · exact Or.inr ⟨bytes, h.symm⟩
    · exact absurd (Or.inr ⟨bytes, h⟩) (hfresh record)

/-- A flight that fails is settled with its error. -/
theorem phaseOk_fail {payment : RecoveryPayment} {error : JsError} :
    PhaseOk db (.failed flight (toLowerCase payment.paymentIntentId) error :: history) flight
      ⟨payment, .settled (.error error)⟩ where
  fresh h := nomatch h
  absent h := nomatch h
  held _ h := nomatch h
  ok _ h := nomatch h
  error _ h := by
    cases h
    exact List.mem_cons_self

theorem sound_refused (hinv : RecoveryInvariant codec w) {payment : RecoveryPayment}
    {p : Phase} {error : JsError} (hfl : w.flights flight = some ⟨payment, p⟩)
    (hp : p.waiting = true) (he : p.started = false → error = storageUnavailable) :
    Sound codec w flight ⟨payment, p⟩ (fail flight payment w.db error) := by
  have hok := hinv.phase flight _ hfl
  refine hinv.sound_of_quiet (by simp [Event.isOf]) (by simp) (eventsOk_singleton ⟨?_, ?_⟩)
    phaseOk_fail (.leave hp rfl)
  · exact fun record hr => absurd hr (hok.fresh (Phase.preparing_of_waiting hp) record)
  · intro bytes record hc
    by_cases hs : p.started = true
    · exact absurd hc (hinv.not_claimed_of_absent (hok.absent hs).2)
    · exact Or.inr (he (by simpa using hs))

theorem sound_pending (hinv : RecoveryInvariant codec w) {payment : RecoveryPayment}
    {p : Phase} (hfl : w.flights flight = some ⟨payment, p⟩) (hp : p.holding = some result)
    (hout : p.preparing = false) :
    Sound codec w flight ⟨payment, p⟩ (fail flight payment w.db (pendingError result.record)) := by
  have hheld := (hinv.phase flight _ hfl).held result hp
  refine hinv.sound_of_quiet (by simp [Event.isOf]) (by simp) (eventsOk_singleton ⟨?_, ?_⟩)
    phaseOk_fail (.outside hout rfl)
  · exact fun record hr => (hheld.same record hr).symm
  · exact fun bytes record hc => Or.inl (hinv.pendingError_eq hheld hc)

theorem sound_found (hinv : RecoveryInvariant codec w) {payment : RecoveryPayment}
    {record : SettlementRecord} (hfl : w.flights flight = some ⟨payment, .queued⟩)
    (hread : w.db.read payment.paymentIntentId = .ok (some record)) :
    Sound codec w flight ⟨payment, .queued⟩
      ⟨.prepared record true, w.db, [.found flight record]⟩ := by
  have hfresh := (hinv.phase flight _ hfl).fresh rfl
  obtain ⟨-, row, hget, hr, rfl⟩ := JournalInvariant.row_of_read hread
  refine hinv.sound_of_quiet (by simp [Event.isOf]) (by simp) (eventsOk_singleton trivial)
    ?_ (.leave rfl rfl)
  exact
    { fresh := fun h => nomatch h
      absent := fun h => nomatch h
      held := by
        rintro _ ⟨⟩
        refine ⟨⟨row, hr, (Table.get?_eq_some.mp hget).2, rfl, fun _ => rfl⟩,
          (fun h => nomatch h), fun record h => ?_⟩
        rcases holds_cons hfresh h with h | ⟨bytes, h⟩
        · cases h
          rfl
        · cases h
      ok := fun _ h => nomatch h
      error := fun _ h => nomatch h }

theorem sound_sent (hinv : RecoveryInvariant codec w) {payment : RecoveryPayment}
    {record : SettlementRecord} {replayed : Bool} {bytes : String}
    (hfl : w.flights flight = some ⟨payment, .restore record replayed⟩)
    (hk : codec.keccak256 bytes = record.txHash) :
    Sound codec w flight ⟨payment, .restore record replayed⟩
      ⟨.send record replayed, w.db, [.sent flight record.paymentIntentId bytes]⟩ := by
  have hheld := (hinv.phase flight _ hfl).held _ rfl
  obtain ⟨row, hr, -, hinput, -⟩ := hheld.row
  obtain ⟨bytes', record', hc, hinput'⟩ := hinv.claimed_of_row hr
  have hev : EventOk codec w.history (.sent flight record.paymentIntentId bytes) := by
    refine ⟨bytes', record', ?_, by rw [hk, hinput', hinput]⟩
    rw [hinput] at hc
    exact hc
  refine hinv.sound_of_quiet (by simp [Event.isOf]) (by simp) (eventsOk_singleton hev) ?_
    (.outside rfl rfl)
  have hholds : ∀ r, Holds (.sent flight record.paymentIntentId bytes :: w.history) flight r →
      Holds w.history flight r := by
    rintro r (h | ⟨b, h⟩)
    · exact Or.inl (by simpa using h)
    · exact Or.inr ⟨b, by simpa using h⟩
  exact
    { fresh := fun h => nomatch h
      absent := fun h => nomatch h
      held := by
        rintro _ ⟨⟩
        exact hheld.frame (Extends.refl _) (fun e he => List.mem_cons_of_mem _ he) hholds
      ok := fun _ h => nomatch h
      error := fun _ h => nomatch h }

/-- A stretch without an event, which goes on with the record the flight holds. -/
theorem sound_onward (hinv : RecoveryInvariant codec w) {payment : RecoveryPayment}
    {p p' : Phase} (hfl : w.flights flight = some ⟨payment, p⟩) (hp : p.holding = some result)
    (hp' : p'.holding = some result ∨
      (p' = .settled (.ok result) ∧ result.record.terminal.isSome = true))
    (hout : p.preparing = false) :
    Sound codec w flight ⟨payment, p⟩ (await w.db p') := by
  have hheld := (hinv.phase flight _ hfl).held result hp
  have hout' : p'.preparing = false := by
    rcases hp' with hp' | ⟨rfl, -⟩
    · exact not_preparing_of_holding hp'
    · rfl
  refine hinv.sound_of_quiet (by simp) (by simp) (by simp) ?_ (.outside hout hout')
  exact
    { fresh := fun h => by
        replace h : p'.preparing = true := h
        rw [hout'] at h
        cases h
      absent := fun h => by
        replace h : p'.started = true := h
        rw [not_started hout'] at h
        cases h
      held := fun result' h => by
        rcases hp' with hp' | ⟨rfl, -⟩
        · obtain rfl := Option.some.inj (hp'.symm.trans h)
          exact hheld
        · cases h
      ok := fun result' h => by
        replace h : p' = .settled (.ok result') := h
        rcases hp' with hp' | ⟨rfl, hterminal⟩
        · subst h
          cases hp'
        · cases h
          exact ⟨hheld, hterminal⟩
      error := fun error h => by
        replace h : p' = .settled (.error error) := h
        rcases hp' with hp' | ⟨rfl, -⟩
        · subst h
          cases hp'
        · cases h }

/-- A stretch without an event inside the preparation. -/
theorem sound_preparing (hinv : RecoveryInvariant codec w) {payment : RecoveryPayment}
    {p p' : Phase} (hfl : w.flights flight = some ⟨payment, p⟩) (hp : p.preparing = true)
    (hp' : p'.preparing = true)
    (habsent : p'.started = true → isHexOf 32 payment.paymentIntentId = true ∧
      w.db.intents.table.get? (toLowerCase payment.paymentIntentId) = none)
    (hqueue : Requeued w.queue flight p p') :
    Sound codec w flight ⟨payment, p⟩ (await w.db p') := by
  refine hinv.sound_of_quiet (by simp) (by simp) (by simp) ?_ hqueue
  exact
    { fresh := fun _ => (hinv.phase flight _ hfl).fresh hp
      absent := habsent
      held := fun result h => by
        replace h : p'.holding = some result := h
        rw [not_preparing_of_holding h] at hp'
        cases hp'
      ok := fun result h => by
        replace h : p' = .settled (.ok result) := h
        subst h
        cases hp'
      error := fun error h => by
        replace h : p' = .settled (.error error) := h
        subst h
        cases hp' }

/-! ### The stretches that write to the journal -/

theorem envelope_of_allocated {config : Config} {nonce : Int} {tx : ParsedTransaction}
    {envelope : Int × Int × Int} (h : allocatedEnvelope config nonce tx = some envelope) :
    tx.chainId = some config.chainId ∧ tx.nonce = some nonce := by
  unfold allocatedEnvelope at h
  split at h
  · cases h
  · next hn =>
    simp only [not_or, ne_eq, not_not] at hn
    exact hn.2

theorem sound_claimed (hinv : RecoveryInvariant codec w) {payment : RecoveryPayment}
    {nonce : Int} {bytes : String} {tx : ParsedTransaction} {envelope : Int × Int × Int}
    {moment : Moment} {record : SettlementRecord}
    (hfl : w.flights flight = some ⟨payment, .prepare nonce⟩)
    (htx : codec.parseTransaction bytes = some tx)
    (henvelope : allocatedEnvelope w.config nonce tx = some envelope)
    (hrun : (SettlementJournal.claim
      (claimInput codec w.config moment payment nonce bytes envelope) w.config.limits).run w.db =
        .ok record db') :
    Sound codec w flight ⟨payment, .prepare nonce⟩
      ⟨.prepared record false, db', [.claimed flight bytes record]⟩ := by
  have hok := hinv.phase flight _ hfl
  have hfresh := hok.fresh rfl
  have habsent := (hok.absent rfl).2
  obtain ⟨-, ⟨-, row, hget, -⟩ | ⟨row, hadm, rfl⟩⟩ := SettlementJournal.claim_eq_ok hrun
  · replace hget : w.db.intents.table.get? (toLowerCase payment.paymentIntentId) = some row := hget
    rw [habsent] at hget
    cases hget
  have hw : JournalOp.Write w.db (.claim _ w.config.limits) db' := .admitted hadm
  have hmem : ∀ r, r ∈ db'.intents.table ↔ r ∈ w.db.intents.table ∨ r = row :=
    fun r => Table.mem_insert? (IntentTable.insert_eq_ok hadm.inserted)
  have hid : row.paymentIntentId = toLowerCase payment.paymentIntentId := by
    rw [hadm.row_eq]
    rfl
  have hev : EventOk codec w.history (.claimed flight bytes (db'.record row)) := by
    refine ⟨fun bytes' record' => ?_, ?_, tx, htx, ?_, ?_⟩
    · show ¬ Claimed w.history row.paymentIntentId bytes' record'
      rw [hid]
      exact hinv.not_claimed_of_absent habsent
    · show row.txHash = _
      rw [hadm.row_eq]
      rfl
    · show tx.chainId = some row.chainId
      rw [hadm.row_eq]
      exact (envelope_of_allocated henvelope).1
    · show tx.nonce = some row.nonce
      rw [hadm.row_eq]
      exact (envelope_of_allocated henvelope).2
  exact
    { journal := hinv.journal.admitted hadm
      later := hinv.journal.extends_write hw
      isOf := by simp [Event.isOf]
      events := eventsOk_singleton hev
      claim_row := by
        intro g b r hc
        cases List.mem_singleton.mp hc
        exact ⟨row, (hmem row).mpr (Or.inr rfl), rfl⟩
      row_claim := by
        intro r hr
        rcases (hmem r).mp hr with hr | rfl
        · exact Or.inl ⟨r, hr, rfl⟩
        · exact Or.inr ⟨bytes, _, List.mem_singleton.mpr rfl, rfl⟩
      absent := by
        intro g gl hne hg hs _
        exact absurd (hinv.queue.started_unique hg hfl hs rfl) hne
      phase :=
        { fresh := fun h => nomatch h
          absent := fun h => nomatch h
          held := by
            rintro _ ⟨⟩
            refine ⟨⟨row, (hmem row).mpr (Or.inr rfl), hid, rfl, fun _ => rfl⟩,
              fun _ => ⟨bytes, _, List.mem_cons_self, hid⟩, fun r h => ?_⟩
            rcases holds_cons hfresh h with h | ⟨b, h⟩
            · cases h
            · cases h
              rfl
          ok := fun _ h => nomatch h
          error := fun _ h => nomatch h }
      queue := .leave rfl rfl }

theorem sound_finished (hinv : RecoveryInvariant codec w) {payment : RecoveryPayment} {p : Phase}
    {record record' : SettlementRecord} {replayed : Bool} {outcome : SettlementOutcomeInput}
    (hfl : w.flights flight = some ⟨payment, p⟩) (hp : p.holding = some ⟨record, replayed⟩)
    (hout : p.preparing = false)
    (hrun : (SettlementJournal.finish record.paymentIntentId outcome).run w.db =
      .ok record' db') :
    Sound codec w flight ⟨payment, p⟩ ⟨.settled (.ok ⟨record', replayed⟩), db', []⟩ := by
  have hheld := (hinv.phase flight _ hfl).held _ hp
  obtain ⟨hinv', hext, hrows, habsent, row', hr', hid', hrecord', hterminal⟩ :=
    hinv.journal.finish_spec hrun
  obtain ⟨row, hr, hid, hinput, -⟩ := hheld.row
  have hlower : toLowerCase record.paymentIntentId =
      toLowerCase payment.paymentIntentId := by
    have : record.paymentIntentId = row.paymentIntentId := by rw [hinput]
    rw [this, (hinv.journal.row row hr).id_lower, hid]
  -- The row that was finished is the one the flight holds.
  have hsame : row'.toSettlementInput = row.toSettlementInput := by
    obtain ⟨row₀, hr₀, hinput₀⟩ := hrows row' hr'
    have heq : row₀ = row := Table.eq_of_key hr₀ hr (by
      show row₀.paymentIntentId = row.paymentIntentId
      rw [hid, ← hlower, ← hid', hinput₀])
    rw [hinput₀, heq]
  have hhash : pendingError record' = pendingError record := by
    have : record'.txHash = record.txHash := by
      rw [← hrecord']
      show row'.txHash = _
      rw [hsame, hinput]
    unfold pendingError
    rw [this]
  exact
    { journal := hinv'
      later := hext
      isOf := by simp
      events := by simp
      claim_row := by simp
      row_claim := fun r hr => Or.inl (hrows r hr)
      absent := fun _ _ _ _ _ h => habsent _ h
      phase :=
        { fresh := fun h => nomatch h
          absent := fun h => nomatch h
          held := fun _ h => nomatch h
          ok := by
            rintro _ ⟨⟩
            refine ⟨⟨⟨row', hr', hid'.trans hlower, ?_, fun _ => hrecord'⟩, hheld.own,
              fun r h => (hheld.same r h).trans hhash.symm⟩, hterminal⟩
            show row'.toSettlementInput = record'.toSettlementInput
            rw [← hrecord']
            rfl
          error := fun _ h => nomatch h }
      queue := .outside hout rfl }

/-- **Every stretch is sound.** -/
theorem sound_of_stretch (hinv : RecoveryInvariant codec w) (hfl : w.flights flight = some fl)
    (hmay : w.mayAdvance flight fl.phase = true)
    (h : Stretch codec w.config w.db flight fl.payment fl.phase effect) :
    Sound codec w flight fl effect := by
  obtain ⟨payment, p⟩ := fl
  simp only at h hmay
  cases h with
  | enqueued => exact hinv.sound_preparing hfl rfl rfl (fun h => nomatch h) .enter
  | unknown hread =>
    obtain ⟨hid, hnone⟩ := SettlementJournal.read_eq_ok.mp hread
    exact hinv.sound_preparing hfl rfl rfl
      (fun _ => ⟨hid, Option.map_eq_none_iff.mp hnone.symm⟩)
      (.within rfl rfl (by simpa [World.mayAdvance] using hmay))
  | found hread => exact hinv.sound_found hfl hread
  | allocated =>
    exact hinv.sound_preparing hfl rfl rfl (fun _ => (hinv.phase flight _ hfl).absent rfl)
      (.within rfl rfl (hinv.queue.head flight _ hfl rfl))
  | refused hp he => exact hinv.sound_refused hfl hp he
  | claimed htx henvelope hrun => exact hinv.sound_claimed hfl htx henvelope hrun
  | terminal hterminal => exact hinv.sound_onward hfl rfl (Or.inr ⟨rfl, hterminal⟩) rfl
  | onward hp hp' => exact hinv.sound_onward hfl hp (Or.inl hp') (not_preparing_of_holding hp)
  | sent hk => exact hinv.sound_sent hfl hk
  | pending hp => exact hinv.sound_pending hfl hp (not_preparing_of_holding hp)
  | finished hp hrun => exact hinv.sound_finished hfl hp (not_preparing_of_holding hp) hrun

end RecoveryInvariant

end Mapae.Facilitator
