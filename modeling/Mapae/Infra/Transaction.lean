import Mapae.Infra.Result

/-!
# Statements and transactions

A stateful operation that may throw is an `EStateM`: it carries the state through, and what
it wrote before a throw is still there afterwards. `transaction` is what takes the writes
back: the state after a throw is the state before the first statement.

* `run_bind_eq_ok`, `run_lift_eq_ok` and the like take a successful operation apart
* `after` is the state an operation leaves behind, however it ended
* `after_transaction_eq` says that a transaction writes only if it succeeds
-/

namespace Mapae.Infra

universe u

variable {ε σ α β : Type u} {s s' : σ}

/-- A check does not touch the state. -/
instance liftCheck : MonadLift (Except ε) (EStateM ε σ) where
  monadLift x s :=
    match x with
    | .ok a => .ok a s
    | .error e => .error e s

/-- Runs `x` and takes its writes back if it throws. -/
def transaction (x : EStateM ε σ α) : EStateM ε σ α := fun s =>
  match x.run s with
  | .ok a s' => .ok a s'
  | .error e _ => .error e s

/-- The state `x` leaves behind. -/
def after (x : EStateM ε σ α) (s : σ) : σ :=
  match x.run s with
  | .ok _ s' => s'
  | .error _ s' => s'

/-- What the caller of `x` gets. -/
def answer (x : EStateM ε σ α) (s : σ) : Except ε α :=
  match x.run s with
  | .ok a _ => .ok a
  | .error e _ => .error e

/-! ## Taking an operation apart -/

theorem run_bind_eq_ok {x : EStateM ε σ α} {f : α → EStateM ε σ β} {b : β} :
    (x >>= f).run s = .ok b s' ↔ ∃ a t, x.run s = .ok a t ∧ (f a).run t = .ok b s' := by
  rw [EStateM.run_bind]
  cases h : x.run s with
  | ok a t =>
    constructor
    · intro hf
      exact ⟨a, t, rfl, hf⟩
    · rintro ⟨a', t', ha, hf⟩
      cases ha
      exact hf
  | error e t => simp

theorem run_pure_eq_ok {a b : α} :
    (pure a : EStateM ε σ α).run s = .ok b s' ↔ b = a ∧ s' = s := by
  rw [EStateM.run_pure, EStateM.Result.ok.injEq, eq_comm (a := a), eq_comm (a := s)]

theorem run_get_eq_ok {t : σ} :
    (get : EStateM ε σ σ).run s = .ok t s' ↔ t = s ∧ s' = s := by
  rw [EStateM.run_get, EStateM.Result.ok.injEq, eq_comm (a := s), eq_comm (b := s')]

theorem run_set_eq_ok {t : σ} {x : PUnit} :
    (set t : EStateM ε σ PUnit).run s = .ok x s' ↔ s' = t := by
  rw [EStateM.run_set, EStateM.Result.ok.injEq, eq_comm (a := t)]
  exact ⟨fun h => h.2, fun h => ⟨rfl, h⟩⟩

theorem run_throw_ne_ok {e : ε} {a : α} :
    ¬ (throw e : EStateM ε σ α).run s = .ok a s' := fun h => nomatch h

theorem run_lift_eq_ok {x : Except ε α} {a : α} :
    (liftM x : EStateM ε σ α).run s = .ok a s' ↔ x = .ok a ∧ s' = s := by
  cases x with
  | error e =>
    constructor
    · intro h
      cases h
    · rintro ⟨h, -⟩
      cases h
  | ok b =>
    constructor
    · intro h
      cases h
      exact ⟨rfl, rfl⟩
    · rintro ⟨h, rfl⟩
      cases h
      rfl

/-! ### When an operation throws -/

theorem run_bind_eq_error {x : EStateM ε σ α} {f : α → EStateM ε σ β} {e : ε} :
    (x >>= f).run s = .error e s' ↔
      x.run s = .error e s' ∨ ∃ a t, x.run s = .ok a t ∧ (f a).run t = .error e s' := by
  rw [EStateM.run_bind]
  cases h : x.run s with
  | ok a t =>
    constructor
    · intro hf
      exact Or.inr ⟨a, t, rfl, hf⟩
    · rintro (hx | ⟨a', t', ha, hf⟩)
      · cases hx
      · cases ha
        exact hf
  | error e' t => simp

theorem run_pure_ne_error {a : α} {e : ε} :
    ¬ (pure a : EStateM ε σ α).run s = .error e s' := fun h => nomatch h

theorem run_get_ne_error {e : ε} :
    ¬ (get : EStateM ε σ σ).run s = .error e s' := fun h => nomatch h

theorem run_set_ne_error {t : σ} {e : ε} :
    ¬ (set t : EStateM ε σ PUnit).run s = .error e s' := fun h => nomatch h

theorem run_throw_eq_error {e e' : ε} :
    (throw e : EStateM ε σ α).run s = .error e' s' ↔ e = e' ∧ s' = s := by
  constructor
  · intro h
    cases h
    exact ⟨rfl, rfl⟩
  · rintro ⟨rfl, rfl⟩
    rfl

theorem run_lift_eq_error {x : Except ε α} {e : ε} :
    (liftM x : EStateM ε σ α).run s = .error e s' ↔ x = .error e ∧ s' = s := by
  cases x with
  | ok a =>
    constructor
    · intro h
      cases h
    · rintro ⟨h, -⟩
      cases h
  | error e' =>
    constructor
    · intro h
      cases h
      exact ⟨rfl, rfl⟩
    · rintro ⟨h, rfl⟩
      cases h
      rfl

/-! ## Operations that check before they write -/

/-- `x` reads the state and never writes it. -/
def ReadsOnly (x : EStateM ε σ α) : Prop :=
  ∀ s, (∀ a s', x.run s = .ok a s' → s' = s) ∧ ∀ e s', x.run s = .error e s' → s' = s

/-- `x` has written nothing when it throws. -/
def ChecksFirst (x : EStateM ε σ α) : Prop := ∀ s e s', x.run s = .error e s' → s' = s

theorem readsOnly_lift (x : Except ε α) : ReadsOnly (liftM x : EStateM ε σ α) := fun _ =>
  ⟨fun _ _ h => (run_lift_eq_ok.mp h).2, fun _ _ h => (run_lift_eq_error.mp h).2⟩

theorem readsOnly_get : ReadsOnly (get : EStateM ε σ σ) := fun _ =>
  ⟨fun _ _ h => (run_get_eq_ok.mp h).2, fun _ _ h => absurd h run_get_ne_error⟩

theorem checksFirst_set (t : σ) : ChecksFirst (set t : EStateM ε σ PUnit) :=
  fun _ _ _ h => absurd h run_set_ne_error

theorem checksFirst_throw (e : ε) : ChecksFirst (throw e : EStateM ε σ α) :=
  fun _ _ _ h => (run_throw_eq_error.mp h).2

theorem checksFirst_pure (a : α) : ChecksFirst (pure a : EStateM ε σ α) :=
  fun _ _ _ h => absurd h run_pure_ne_error

/-- **What reads first and then checks first, checks first.** -/
theorem ReadsOnly.bind {x : EStateM ε σ α} {f : α → EStateM ε σ β} (hx : ReadsOnly x)
    (hf : ∀ a, ChecksFirst (f a)) : ChecksFirst (x >>= f) := by
  intro s e s' h
  rcases run_bind_eq_error.mp h with h | ⟨a, t, hok, h⟩
  · exact (hx s).2 e s' h
  · rw [hf a t e s' h, (hx s).1 a t hok]

/-! ## Transactions -/

theorem run_transaction (x : EStateM ε σ α) (s : σ) :
    (transaction x).run s =
      match x.run s with
      | .ok a s' => .ok a s'
      | .error e _ => .error e s := rfl

theorem run_transaction_eq_ok {x : EStateM ε σ α} {a : α} :
    (transaction x).run s = .ok a s' ↔ x.run s = .ok a s' := by
  rw [run_transaction]
  cases x.run s with
  | ok b t => exact Iff.rfl
  | error e t => simp

/-- **A transaction that throws leaves the state as it found it.** -/
theorem run_transaction_eq_error {x : EStateM ε σ α} {e : ε}
    (h : (transaction x).run s = .error e s') : s' = s := by
  rw [run_transaction] at h
  split at h
  · cases h
  · cases h
    rfl

theorem checksFirst_transaction (x : EStateM ε σ α) : ChecksFirst (transaction x) :=
  fun _ _ _ h => run_transaction_eq_error h

/-- What writes nothing when it throws either changes nothing or succeeds. -/
theorem after_eq_or {x : EStateM ε σ α} (h : ∀ e t, x.run s = .error e t → t = s) :
    after x s = s ∨ ∃ a, x.run s = .ok a (after x s) := by
  unfold after
  cases hx : x.run s with
  | ok a t => exact Or.inr ⟨a, rfl⟩
  | error e t => exact Or.inl (h e t hx)

/-- A transaction either throws and writes nothing, or succeeds. -/
theorem after_transaction_eq (x : EStateM ε σ α) (s : σ) :
    (after (transaction x) s = s ∧ ∃ e, answer (transaction x) s = .error e) ∨
      ∃ a, (transaction x).run s = .ok a (after (transaction x) s) := by
  unfold after answer
  cases h : (transaction x).run s with
  | ok a t => exact Or.inr ⟨a, rfl⟩
  | error e t =>
    rw [run_transaction_eq_error h]
    exact Or.inl ⟨rfl, e, rfl⟩

theorem answer_eq_ok {x : EStateM ε σ α} {a : α} :
    answer x s = .ok a ↔ x.run s = .ok a (after x s) := by
  unfold after answer
  cases h : x.run s with
  | ok b t => simp
  | error e t => simp

theorem answer_eq_error {x : EStateM ε σ α} {e : ε} :
    answer x s = .error e ↔ x.run s = .error e (after x s) := by
  unfold after answer
  cases h : x.run s with
  | ok b t => simp
  | error e t => simp

end Mapae.Infra
