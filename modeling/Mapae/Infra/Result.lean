import Mathlib.Data.List.Forall2

/-!
# Code that may throw

Fallible code returns `Except`. Taking a computation apart after the fact needs only two
rules: a sequence succeeds exactly when its parts do (`bind_eq_ok`), and a guard succeeds
exactly when what it guards against is not the case (`throwIf_eq_ok`).
-/

namespace Mapae.Infra

universe u v

variable {ε : Type u} {α β : Type v}

/-- Throws `e` when `p` holds: `if (p) throw e`. -/
def throwIf (p : Prop) [Decidable p] (e : ε) : Except ε PUnit.{v + 1} :=
  if p then .error e else .ok ⟨⟩

@[simp] theorem throwIf_eq_ok {p : Prop} [Decidable p] {e : ε} {u : PUnit.{v + 1}} :
    throwIf p e = .ok u ↔ ¬ p := by
  unfold throwIf
  split
  · next h => simp [h]
  · next h => simp [h]

@[simp] theorem throwIf_eq_error {p : Prop} [Decidable p] {e e' : ε} :
    (throwIf p e : Except ε PUnit.{v + 1}) = .error e' ↔ p ∧ e = e' := by
  unfold throwIf
  split
  · next h => simp [h]
  · next h => simp [h]

/-- The value, or `e` is thrown where there is none. -/
def orThrow (value : Option α) (e : ε) : Except ε α :=
  match value with
  | none => .error e
  | some value => .ok value

@[simp] theorem orThrow_eq_ok {value : Option α} {e : ε} {a : α} :
    orThrow value e = .ok a ↔ value = some a := by
  cases value <;> simp [orThrow]

/-- **A sequence succeeds when both parts do.** -/
theorem bind_eq_ok {x : Except ε α} {f : α → Except ε β} {b : β} :
    (x >>= f) = .ok b ↔ ∃ a, x = .ok a ∧ f a = .ok b := by
  cases x with
  | error e => simp [bind, Except.bind]
  | ok a => simp [bind, Except.bind]

/-- A guard that does not hold is passed. -/
theorem throwIf_bind {p : Prop} [Decidable p] {e : ε} {f : PUnit → Except ε β} (h : ¬ p) :
    (throwIf p e >>= f) = f ⟨⟩ := by
  rw [throwIf, if_neg h]
  rfl

theorem orThrow_bind {value : Option α} {e : ε} {a : α} {f : α → Except ε β} (h : value = some a) :
    (orThrow value e >>= f) = f a := by
  rw [h]
  rfl

theorem bind_eq_error {x : Except ε α} {f : α → Except ε β} {e : ε} :
    (x >>= f) = .error e ↔ x = .error e ∨ ∃ a, x = .ok a ∧ f a = .error e := by
  cases x with
  | error e' => simp [bind, Except.bind]
  | ok a => simp [bind, Except.bind]

@[simp] theorem pure_eq_ok {a b : α} : (pure a : Except ε α) = .ok b ↔ a = b := by
  constructor
  · intro h; cases h; rfl
  · rintro rfl; rfl

/-- **A loop that checks each element before it uses it** succeeds when all of them pass. -/
theorem foldlM_throwIf_eq_ok {ε β : Type u} {α : Type w} {p : α → Prop} [DecidablePred p] {e : ε}
    {f : β → α → β} : ∀ {xs : List α} {b b' : β},
      xs.foldlM (fun b x => do
        throwIf (p x) e
        return f b x) b = Except.ok b' ↔ (∀ x ∈ xs, ¬ p x) ∧ b' = xs.foldl f b
  | [], b, b' => by
    rw [List.foldlM_nil, pure_eq_ok, List.foldl_nil]
    simp [eq_comm]
  | x :: xs, b, b' => by
    rw [List.foldlM_cons, bind_eq_ok, List.foldl_cons]
    constructor
    · rintro ⟨b₁, hx, hxs⟩
      obtain ⟨_, hp, hb⟩ := bind_eq_ok.mp hx
      cases pure_eq_ok.mp hb
      obtain ⟨hall, rfl⟩ := foldlM_throwIf_eq_ok.mp hxs
      exact ⟨List.forall_mem_cons.mpr ⟨throwIf_eq_ok.mp hp, hall⟩, rfl⟩
    · rintro ⟨hall, rfl⟩
      obtain ⟨hp, hall⟩ := List.forall_mem_cons.mp hall
      exact ⟨_, bind_eq_ok.mpr ⟨⟨⟩, throwIf_eq_ok.mpr hp, rfl⟩,
        foldlM_throwIf_eq_ok.mpr ⟨hall, rfl⟩⟩

/-- **A loop that maps each element** succeeds when all of them do. -/
theorem mapM_eq_ok {f : α → Except ε β} : ∀ {xs : List α} {ys : List β},
    xs.mapM f = .ok ys ↔ List.Forall₂ (fun x y => f x = .ok y) xs ys
  | [], ys => by
    rw [List.mapM_nil, pure_eq_ok]
    constructor
    · rintro rfl
      exact .nil
    · intro h
      cases h
      rfl
  | x :: xs, ys => by
    rw [List.mapM_cons, bind_eq_ok]
    constructor
    · rintro ⟨y, hy, hrest⟩
      obtain ⟨rest, hxs, hys⟩ := bind_eq_ok.mp hrest
      cases pure_eq_ok.mp hys
      exact .cons hy (mapM_eq_ok.mp hxs)
    · intro h
      cases h with
      | cons hy hrest => exact ⟨_, hy, bind_eq_ok.mpr ⟨_, mapM_eq_ok.mpr hrest, rfl⟩⟩

end Mapae.Infra
