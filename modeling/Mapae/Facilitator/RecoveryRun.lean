import Mapae.Facilitator.RecoverySound

/-!
# The recovery's reachable worlds

The actions beside the stretches (new calls, cleanups, answers, housekeeping and restarts)
keep the invariant too, so it holds in every world that the system reaches.
-/

namespace Mapae.Facilitator

open Mapae.Infra Mapae.Store

variable {codec : Codec} {w w' : World}

namespace RecoveryInvariant

/-- A new call is the latest one. -/
theorem call_new (hinv : RecoveryInvariant codec w) {new waiting : Call} {c : Nat}
    (h : Function.update w.calls w.next (some new) c = some waiting) :
    c < w.next + 1 ∧ (waiting = new ∨ w.calls c = some waiting) := by
  by_cases hc : c = w.next
  · subst hc
    rw [Function.update_self, Option.some.injEq] at h
    exact ⟨Nat.lt_succ_self _, .inl h.symm⟩
  · rw [Function.update_of_ne hc] at h
    exact ⟨Nat.lt_succ_of_lt (hinv.call c waiting h).1, .inr h⟩

/-- It is not answered yet. -/
theorem answered_new (hinv : RecoveryInvariant codec w) (new : Call) :
    ∀ c ∈ answeredCalls w.history,
      c < w.next + 1 ∧ Function.update w.calls w.next (some new) c = none := by
  intro c hc
  obtain ⟨hlt, hnone⟩ := hinv.answered c hc
  exact ⟨Nat.lt_succ_of_lt hlt, (Function.update_of_ne (Nat.ne_of_lt hlt) _ _).trans hnone⟩

/-- A call that joins a flight. -/
theorem join (hinv : RecoveryInvariant codec w) {payment : RecoveryPayment} {flight : Nat}
    (hin : w.inflight payment.paymentIntentId = some flight) :
    RecoveryInvariant codec (w.settle payment) := by
  have hw : w.settle payment =
      { w with
        calls := Function.update w.calls w.next
          (some ⟨toLowerCase payment.paymentIntentId, flight⟩)
        next := w.next + 1 } := by
    unfold World.settle
    rw [hin]
  rw [hw]
  exact
    { hinv with
      holds_lt := fun f r h => Nat.lt_succ_of_lt (hinv.holds_lt f r h)
      flight_lt := fun f fl h => Nat.lt_succ_of_lt (hinv.flight_lt f fl h)
      call := by
        intro c waiting hc
        obtain ⟨hlt, rfl | hc⟩ := hinv.call_new hc
        · obtain ⟨fl, hfl, hid⟩ := hinv.inflight _ _ hin
          exact ⟨hlt, fl, hfl, by rw [hid]⟩
        · exact ⟨hlt, (hinv.call c waiting hc).2⟩
      answered := hinv.answered_new _ }

/-- A call that starts a flight. -/
theorem start (hinv : RecoveryInvariant codec w) {payment : RecoveryPayment}
    (hin : w.inflight payment.paymentIntentId = none) :
    RecoveryInvariant codec (w.settle payment) := by
  have hw : w.settle payment =
      { w with
        inflight := Function.update w.inflight payment.paymentIntentId (some w.next)
        flights := Function.update w.flights w.next (some ⟨payment, .registered⟩)
        calls := Function.update w.calls w.next
          (some ⟨toLowerCase payment.paymentIntentId, w.next⟩)
        next := w.next + 1 } := by
    unfold World.settle
    rw [hin]
  rw [hw]
  have hself : Function.update w.flights w.next (some ⟨payment, .registered⟩) w.next =
      some ⟨payment, .registered⟩ := Function.update_self ..
  have hold : ∀ f fl, w.flights f = some fl →
      Function.update w.flights w.next (some ⟨payment, .registered⟩) f = some fl := by
    intro f fl hf
    rw [Function.update_of_ne (Nat.ne_of_lt (hinv.flight_lt f fl hf)), hf]
  have hnew : ∀ f fl, Function.update w.flights w.next (some ⟨payment, .registered⟩) f = some fl →
      (f = w.next ∧ fl = ⟨payment, .registered⟩) ∨ w.flights f = some fl := by
    intro f fl hf
    by_cases h : f = w.next
    · subst h
      rw [hself, Option.some.injEq] at hf
      exact Or.inl ⟨rfl, hf.symm⟩
    · rw [Function.update_of_ne h] at hf
      exact Or.inr hf
  exact
    { journal := hinv.journal
      events := hinv.events
      claim_row := hinv.claim_row
      row_claim := hinv.row_claim
      holds_lt := fun f r h => Nat.lt_succ_of_lt (hinv.holds_lt f r h)
      flight_lt := by
        intro f fl hf
        rcases hnew f fl hf with ⟨rfl, -⟩ | hf
        · exact Nat.lt_succ_self _
        · exact Nat.lt_succ_of_lt (hinv.flight_lt f fl hf)
      phase := by
        intro f fl hf
        rcases hnew f fl hf with ⟨rfl, rfl⟩ | hf
        · exact
            { fresh := fun _ r h => Nat.lt_irrefl _ (hinv.holds_lt _ r h)
              absent := fun h => nomatch h
              held := fun _ h => nomatch h
              ok := fun _ h => nomatch h
              error := fun _ h => nomatch h }
        · exact hinv.phase f fl hf
      queue :=
        { nodup := hinv.queue.nodup
          mem := by
            intro f
            rw [hinv.queue.mem]
            constructor
            · rintro ⟨fl, hf, hwait⟩
              exact ⟨fl, hold f fl hf, hwait⟩
            · rintro ⟨fl, hf, hwait⟩
              rcases hnew f fl hf with ⟨rfl, rfl⟩ | hf
              · cases hwait
              · exact ⟨fl, hf, hwait⟩
          head := by
            intro f fl hf hs
            rcases hnew f fl hf with ⟨rfl, rfl⟩ | hf
            · cases hs
            · exact hinv.queue.head f fl hf hs }
      call := by
        intro c waiting hc
        obtain ⟨hlt, rfl | hc⟩ := hinv.call_new hc
        · exact ⟨hlt, _, hself, rfl⟩
        · obtain ⟨-, fl, hfl, hid⟩ := hinv.call c waiting hc
          exact ⟨hlt, fl, hold _ fl hfl, hid⟩
      inflight := by
        intro id f hf
        by_cases h : id = payment.paymentIntentId
        · subst h
          replace hf : Function.update w.inflight payment.paymentIntentId (some w.next)
            payment.paymentIntentId = some f := hf
          rw [Function.update_self, Option.some.injEq] at hf
          subst hf
          exact ⟨_, hself, rfl⟩
        · replace hf : Function.update w.inflight payment.paymentIntentId (some w.next) id =
            some f := hf
          rw [Function.update_of_ne h] at hf
          obtain ⟨fl, hfl, hid⟩ := hinv.inflight id f hf
          exact ⟨fl, hold f fl hfl, hid⟩
      answers := hinv.answers
      answered_once := hinv.answered_once
      answered := hinv.answered_new _ }

/-- A flight leaves the map. -/
theorem forget (hinv : RecoveryInvariant codec w) (id : String) :
    RecoveryInvariant codec { w with inflight := Function.update w.inflight id none } :=
  { hinv with
    inflight := by
      intro id' f hf
      by_cases h : id' = id
      · subst h
        replace hf : Function.update w.inflight id' none id' = some f := hf
        rw [Function.update_self] at hf
        cases hf
      · replace hf : Function.update w.inflight id none id' = some f := hf
        rw [Function.update_of_ne h] at hf
        exact hinv.inflight id' f hf }

/-- The timer and the routes write to the ledger alone. -/
theorem housekeeping (hinv : RecoveryInvariant codec w) (op : Housekeeping) :
    RecoveryInvariant codec { w with db := JournalOp.exec w.db op.op } := by
  have hw := JournalOp.exec_write w.db op.op
  have hext := hinv.journal.extends_write hw
  have hinv' := hinv.journal.write hw
  generalize JournalOp.exec w.db op.op = db' at hw hext hinv'
  have hsame : db'.intents = w.db.intents := by
    cases op with
    | prune before keep =>
      cases hw with
      | nothing => rfl
      | pruned _ => rfl
    | recordRejection event =>
      cases hw with
      | nothing => rfl
      | rejected _ => rfl
  exact
    { hinv with
      journal := hinv'
      claim_row := by
        rw [hsame]
        exact hinv.claim_row
      row_claim := by
        rw [hsame]
        exact hinv.row_claim
      phase := fun f fl hf => (hinv.phase f fl hf).frame hext (fun _ h => h) (fun _ h => h)
        (fun _ h => by rw [hsame]; exact h)
      answers := fun c f i r h => (hinv.answers c f i r h).frame hext (fun _ h => h) }

/-- A new process knows the file and nothing else. -/
theorem restart (hinv : RecoveryInvariant codec w) (config : Config) :
    RecoveryInvariant codec (World.boot w.db config w.next w.history) :=
  { hinv with
    flight_lt := fun _ _ h => nomatch h
    phase := fun _ _ h => nomatch h
    queue :=
      { nodup := List.nodup_nil
        mem := fun _ => iff_of_false List.not_mem_nil (fun ⟨_, h, _⟩ => nomatch h)
        head := fun _ _ h => nomatch h }
    call := fun _ _ h => nomatch h
    inflight := fun _ _ h => nomatch h
    answered := fun c hc => ⟨(hinv.answered c hc).1, rfl⟩ }

/-- A call gets its flight's result. -/
theorem answer (hinv : RecoveryInvariant codec w) {call : Nat} {waiting : Call} {fl : Flight}
    {outcome : Except JsError SettlementResult} (hcall : w.calls call = some waiting)
    (hfl : w.flights waiting.flight = some fl) (hphase : fl.phase = .settled outcome) :
    RecoveryInvariant codec
      { w with
        calls := Function.update w.calls call none
        history := .answered call waiting.flight waiting.intent
          (outcome.map (SettlementResult.markedFor (call = waiting.flight))) :: w.history } := by
  obtain ⟨hlt, fl', hfl', hintent⟩ := hinv.call call waiting hcall
  obtain rfl := Option.some.inj (hfl.symm.trans hfl')
  have hok := hinv.phase _ _ hfl
  generalize he : Event.answered call waiting.flight waiting.intent
    (outcome.map (SettlementResult.markedFor (call = waiting.flight))) = event
  have hsub : ∀ e ∈ w.history, e ∈ event :: w.history := fun e he => List.mem_cons_of_mem _ he
  have hholds : ∀ f r, Holds (event :: w.history) f r → Holds w.history f r := by
    subst he
    rintro f r (h | ⟨bytes, h⟩)
    · exact Or.inl (by simpa using h)
    · exact Or.inr ⟨bytes, by simpa using h⟩
  have hclaimed : ∀ f bytes r, .claimed f bytes r ∈ event :: w.history →
      .claimed f bytes r ∈ w.history := by
    subst he
    intro f bytes r h
    simpa using h
  have hcalls : ∀ c, Function.update w.calls call none c =
      if c = call then none else w.calls c := by
    intro c
    by_cases h : c = call
    · rw [h, Function.update_self, if_pos rfl]
    · rw [Function.update_of_ne h, if_neg h]
  have hanswered : answeredCalls (event :: w.history) = call :: answeredCalls w.history := by
    subst he
    rfl
  exact
    { journal := hinv.journal
      events := by
        refine ⟨?_, hinv.events⟩
        subst he
        cases outcome with
        | ok result => trivial
        | error error =>
          refine ⟨waiting.flight, ?_⟩
          rw [hintent]
          exact hok.error error hphase
      claim_row := fun f bytes r h => hinv.claim_row f bytes r (hclaimed f bytes r h)
      row_claim := by
        intro row hr
        obtain ⟨f, bytes, r, hc, hinput⟩ := hinv.row_claim row hr
        exact ⟨f, bytes, r, hsub _ hc, hinput⟩
      holds_lt := fun f r h => hinv.holds_lt f r (hholds f r h)
      flight_lt := hinv.flight_lt
      phase := fun f gl hf => (hinv.phase f gl hf).frame (Extends.refl _) hsub (hholds f)
        (fun _ h => h)
      queue := hinv.queue
      call := by
        intro c waiting' hc
        replace hc : Function.update w.calls call none c = some waiting' := hc
        rw [hcalls] at hc
        split at hc
        · cases hc
        · exact hinv.call c waiting' hc
      inflight := hinv.inflight
      answers := by
        intro c f intent result hc
        rcases List.mem_cons.mp hc with hc | hc
        · rw [← he] at hc
          injection hc with hcall' hflight hint hres
          subst hcall' hint
          cases outcome with
          | error error => cases hres
          | ok res =>
            replace hres : result = SettlementResult.markedFor (c = waiting.flight) res :=
              Except.ok.inj hres
            obtain ⟨hheld, hterminal⟩ := hok.ok res hphase
            obtain ⟨row, hr, hid, -, hrecord⟩ := hheld.row
            have hrec : result.record = res.record := by
              rw [hres]
              unfold SettlementResult.markedFor
              split <;> rfl
            refine ⟨⟨row, hr, hid.trans hintent.symm, (hrecord hterminal).trans hrec.symm⟩,
              by rw [hrec]; exact hterminal, fun hown => ?_⟩
            -- Only the owner's answer can be unmarked.
            rw [hres] at hown
            unfold SettlementResult.markedFor at hown
            split at hown
            · next howner =>
              obtain ⟨bytes, r, hc, hid⟩ := hheld.own hown
              rw [of_decide_eq_true howner]
              exact ⟨bytes, r, hsub _ hc, hid.trans hintent.symm⟩
            · cases hown
        · exact (hinv.answers c f intent result hc).frame (Extends.refl _) hsub
      answered_once := by
        rw [hanswered]
        refine List.nodup_cons.mpr ⟨fun hc => ?_, hinv.answered_once⟩
        rw [(hinv.answered call hc).2] at hcall
        cases hcall
      answered := by
        intro c hc
        rw [hanswered] at hc
        show c < w.next ∧ Function.update w.calls call none c = none
        rw [hcalls]
        rcases List.mem_cons.mp hc with rfl | hc
        · exact ⟨hlt, if_pos rfl⟩
        · refine ⟨(hinv.answered c hc).1, ?_⟩
          split
          · rfl
          · exact (hinv.answered c hc).2 }

/-- **Every action keeps the invariant.** -/
theorem act (hinv : RecoveryInvariant codec w) {action : Action}
    (h : w.act codec action = some w') : RecoveryInvariant codec w' := by
  cases action with
  | settle payment =>
    obtain rfl := Option.some.inj h
    cases hin : w.inflight payment.paymentIntentId with
    | some flight => exact hinv.join hin
    | none => exact hinv.start hin
  | advance flight input moment =>
    simp only [World.act, Option.bind_eq_bind, Option.bind_eq_some_iff] at h
    obtain ⟨fl, hfl, h⟩ := h
    split at h
    · next hmay =>
      obtain ⟨effect, heffect, hw⟩ := Option.bind_eq_some_iff.mp h
      obtain rfl := Option.some.inj hw
      exact hinv.applyEffect hfl (hinv.sound_of_stretch hfl hmay (stretch_of_advance heffect))
    · cases h
  | cleanup flight =>
    simp only [World.act, Option.bind_eq_bind, Option.bind_eq_some_iff] at h
    obtain ⟨fl, hfl, h⟩ := h
    split at h
    · split at h
      · obtain rfl := Option.some.inj h
        exact hinv.forget _
      · obtain rfl := Option.some.inj h
        exact hinv
    · cases h
  | answer call =>
    simp only [World.act, Option.bind_eq_bind, Option.bind_eq_some_iff] at h
    obtain ⟨waiting, hcall, fl, hfl, h⟩ := h
    split at h
    · next outcome hphase =>
      obtain rfl := Option.some.inj h
      exact hinv.answer hcall hfl hphase
    · cases h
  | housekeeping op =>
    obtain rfl := Option.some.inj h
    exact hinv.housekeeping op
  | restart config =>
    obtain rfl := Option.some.inj h
    exact hinv.restart config

end RecoveryInvariant

/-- **The invariant holds in every world the recovery reaches.** -/
theorem recovery_invariant (h : (settlementSystem codec).Reachable w) :
    RecoveryInvariant codec w := by
  refine h.invariant ?_ ?_
  · rintro _ ⟨config, rfl⟩
    exact RecoveryInvariant.boot config
  · rintro w w' - hinv ⟨action, hact⟩
    exact hinv.act hact

end Mapae.Facilitator
