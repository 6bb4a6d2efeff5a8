import Mapae.Delegation.SpendGate

/-!
# The session cap of the spend gate

However calls overlap and in whatever order the inner provider answers them:

* what is signed or in flight stays within the session's total
* a rejected call gives back its own amount, and no other call changes
* a call that reached the inner provider is within the other limits
* a judgement changes nothing

`spend_gate_held` is the result; `GateInvariant` is what every step preserves.
-/

namespace Mapae.Delegation

open Mapae.Infra

variable {viem : Viem} {policy : AgentSpendPolicy} {s s' : GateState viem}

/-! ## The invariant -/

structure GateInvariant (policy : AgentSpendPolicy) (s : GateState viem) : Prop where
  /-- The total in memory is the sum of what is signed or in flight. -/
  counted : s.signedBase = s.outstanding
  within : ∀ cap, policy.maxSessionTotalBase = some cap → s.signedBase ≤ cap
  payment : ∀ c ∈ s.calls, ∀ cap, policy.maxPerPaymentBase = some cap → c.terms.base ≤ cap
  payee : ∀ c ∈ s.calls, ∀ allowed, policy.allowedPayTo = some allowed →
    viem.getAddress c.terms.payTo ∈ allowed

namespace GateInvariant

theorem start : GateInvariant policy (⟨0, Table.empty⟩ : GateState viem) where
  counted := rfl
  within _ _ := Int.natCast_nonneg _
  payment _ h := absurd h Table.not_mem_empty
  payee _ h := absurd h Table.not_mem_empty

/-- **A call is admitted only if the total stays within the cap with it.** -/
theorem begin (hinv : GateInvariant policy s) {terms : PaymentTerms viem}
    (h : s.begin policy terms = .ok s') : GateInvariant policy s' := by
  unfold GateState.begin at h
  split at h
  · exact nomatch h
  · next hok =>
    cases h
    obtain ⟨hpayee, hpayment, hsession⟩ := judge_eq_ok.mp hok
    have hinsert := Table.insert?_nextId s.calls
      (fun id => (⟨id, terms, .inFlight⟩ : SigningCall viem)) (fun _ => rfl)
    exact {
      counted := by
        have hsum := Table.sum_insert? hinsert SigningCall.counted
        have hnew : SigningCall.counted ⟨s.calls.nextId, terms, .inFlight⟩ = (terms.base : Int) :=
          if_neg (fun h => nomatch h)
        rw [hnew] at hsum
        show s.signedBase + terms.base = _
        rw [hinv.counted]
        exact hsum.symm
      within := hsession
      payment := fun c hc cap hcap => by
        rcases (Table.mem_insert? hinsert).mp hc with hc | rfl
        · exact hinv.payment c hc cap hcap
        · exact hpayment cap hcap
      payee := fun c hc allowed hallowed => by
        rcases (Table.mem_insert? hinsert).mp hc with hc | rfl
        · exact hinv.payee c hc allowed hallowed
        · exact hpayee allowed hallowed }

theorem pending_eq_some {id : Nat} {c : SigningCall viem} (h : s.pending id = some c) :
    s.calls.get? c.id = some c ∧ c.id = id ∧ c.phase = .inFlight := by
  obtain ⟨hget, hphase⟩ := Option.filter_eq_some_iff.mp h
  have hid := Table.key_of_get? hget
  exact ⟨hid ▸ hget, hid, of_decide_eq_true hphase⟩

/-- **The end of a call takes from the total what the call no longer counts.** -/
theorem settle (hinv : GateInvariant policy s) {c : SigningCall viem}
    (hget : s.calls.get? c.id = some c) (hphase : c.phase = .inFlight) (phase : SigningPhase) :
    GateInvariant policy (s.settle c phase) where
  counted := by
    have hsum := Table.sum_update (SigningCall.enter_id phase) hget SigningCall.counted
    have hbefore : c.counted = c.terms.base := if_neg (by rw [hphase]; exact fun h => nomatch h)
    have hcounted := hinv.counted
    unfold GateState.outstanding GateState.settle at *
    rw [hbefore] at hsum
    dsimp only
    by_cases hrej : phase = .rejected
    · have hafter : (c.enter phase).counted = 0 := if_pos hrej
      rw [hafter] at hsum
      rw [if_pos hrej]
      omega
    · have hafter : (c.enter phase).counted = c.terms.base := if_neg hrej
      rw [hafter] at hsum
      rw [if_neg hrej]
      omega
  within cap hcap := by
    have hle := hinv.within cap hcap
    unfold GateState.settle
    dsimp only
    split
    · omega
    · exact hle
  payment x hx cap hcap := by
    obtain ⟨y, hy, rfl⟩ := (Table.mem_update (SigningCall.enter_id phase)).mp hx
    have hle := hinv.payment y hy cap hcap
    split <;> exact hle
  payee x hx allowed hallowed := by
    obtain ⟨y, hy, rfl⟩ := (Table.mem_update (SigningCall.enter_id phase)).mp hx
    have hin := hinv.payee y hy allowed hallowed
    split <;> exact hin

theorem act (hinv : GateInvariant policy s) {a : GateAction viem}
    (h : s.act policy a = some s') : GateInvariant policy s' := by
  cases a with
  | judge terms => exact Option.some.inj h ▸ hinv
  | call terms =>
    obtain rfl := Option.some.inj h
    cases hbegin : s.begin policy terms with
    | error _ => exact hinv
    | ok s₁ => exact hinv.begin hbegin
  | resolve id =>
    obtain ⟨c, hc, rfl⟩ := Option.map_eq_some_iff.mp h
    obtain ⟨hget, -, hphase⟩ := pending_eq_some hc
    exact hinv.settle hget hphase _
  | reject id =>
    obtain ⟨c, hc, rfl⟩ := Option.map_eq_some_iff.mp h
    obtain ⟨hget, -, hphase⟩ := pending_eq_some hc
    exact hinv.settle hget hphase _

theorem of_reachable (h : (spendGate viem policy).Reachable s) : GateInvariant policy s :=
  h.invariant (fun _ hs => hs ▸ start) fun _ _ _ hinv ⟨_, ha⟩ => hinv.act ha

end GateInvariant

/-! ## The result -/

/-- What a rejection of the inner call `id` does. -/
structure GivesBack (s s' : GateState viem) (id : Nat) : Prop where
  /-- The call was in flight, and is now rejected. -/
  call : ∃ c, s.calls.get? id = some c ∧ c.phase = .inFlight ∧
    s'.calls.get? id = some { c with phase := .rejected } ∧
    s'.signedBase = s.signedBase - c.terms.base ∧
    s'.outstanding = s.outstanding - c.terms.base
  others : ∀ id', id' ≠ id → s'.calls.get? id' = s.calls.get? id'

/-- What holds in a state of the gate, and of the steps from it. -/
structure SpendGateHeld (policy : AgentSpendPolicy) (s : GateState viem) : Prop where
  /-- What is signed or in flight is within the session's total. -/
  within : ∀ cap, policy.maxSessionTotalBase = some cap → s.outstanding ≤ cap
  /-- A call that reached the inner provider is within the cap of one payment. -/
  payment : ∀ c ∈ s.calls, ∀ cap, policy.maxPerPaymentBase = some cap → c.terms.base ≤ cap
  /-- It pays a payee of the list. -/
  payee : ∀ c ∈ s.calls, ∀ allowed, policy.allowedPayTo = some allowed →
    viem.getAddress c.terms.payTo ∈ allowed
  rejected : ∀ id s', s.act policy (.reject id) = some s' → GivesBack s s' id
  judged : ∀ terms, s.act policy (.judge terms) = some s

theorem givesBack_of_reject (hinv : GateInvariant policy s) {id : Nat}
    (h : s.act policy (.reject id) = some s') : GivesBack s s' id := by
  obtain ⟨c, hc, rfl⟩ := Option.map_eq_some_iff.mp h
  obtain ⟨hget, rfl, hphase⟩ := GateInvariant.pending_eq_some hc
  have hsettled := hinv.settle hget hphase .rejected
  have hbase : (s.settle c .rejected).signedBase = s.signedBase - c.terms.base := by
    simp [GateState.settle]
  have hrow (id' : Nat) := Table.get?_update (t := s.calls) (k := c.id)
    (SigningCall.enter_id .rejected) id'
  refine ⟨⟨c, hget, hphase, ?_, hbase, ?_⟩, fun id' hne => ?_⟩
  · refine (hrow c.id).trans ?_
    rw [if_pos rfl, hget]
    rfl
  · rw [← hsettled.counted, hbase, hinv.counted]
  · exact (hrow id').trans (if_neg hne)

/-- **The gate holds the session's cap over every interleaving of calls.** -/
theorem spend_gate_held (h : (spendGate viem policy).Reachable s) : SpendGateHeld policy s := by
  have hinv := GateInvariant.of_reachable h
  exact {
    within := fun cap hcap => hinv.counted ▸ hinv.within cap hcap
    payment := hinv.payment
    payee := hinv.payee
    rejected := fun _ _ hact => givesBack_of_reject hinv hact
    judged := fun _ => rfl }

/-- Two payments of 6 at once under a cap of 10: the second one is refused, until the first one is
rejected. -/
theorem spend_gate_held_overlap :
    let digitsViem : Viem := { isAddress := Store.isHexOf 20, getAddress := id }
    let terms : PaymentTerms digitsViem :=
      ⟨"6", "0x0000000000000000000000000000000000000001", by decide, by decide⟩
    let policy : AgentSpendPolicy := ⟨none, some 10, none⟩
    ∃ s, System.performAll (GateState.act policy) ⟨0, Table.empty⟩
      [.call terms, .call terms, .reject 1, .call terms] = some s ∧
      s.signedBase = 6 ∧ SpendGateHeld policy s := by
  intro digitsViem terms policy
  have hrun : (System.performAll (GateState.act policy) ⟨0, Table.empty⟩
      [.call terms, .call terms, .reject 1, .call terms]).map GateState.signedBase = some 6 := by
    decide +kernel
  obtain ⟨s, hs, hbase⟩ := Option.map_eq_some_iff.mp hrun
  exact ⟨s, hs, hbase, spend_gate_held (System.reachable_of_performAll (.init rfl) hs)⟩

end Mapae.Delegation
