import Mapae.Infra.Transition

/-!
# Calls that call back

A contract that calls out in the middle of a function may be called again before that function
goes on, and a call that fails takes back whatever happened inside it.

The state of such a contract is its storage with the stack of its suspended calls. Each frame
remembers the storage the call found, to which a failure returns. A **move** is one of

* `run` — a call that starts and ends without calling out
* `suspend` — a call up to the point where it calls out
* `resume` — the rest of the innermost suspended call
* `rollback` — the innermost suspended call fails

A storage invariant and a relation that the moves other than `rollback` establish hold through
any nesting (`Disciplined.sound`, `Disciplined.related`). Nothing here knows about a particular
contract.
-/

namespace Mapae.Infra

universe u v w

/-- A suspended call. -/
structure Frame (σ : Type u) (φ : Type v) where
  /-- The storage the call found. -/
  saved : σ
  call : φ

/-- The storage of a contract, with its suspended calls, innermost first. -/
structure Nested (σ : Type u) (φ : Type v) where
  storage : σ
  frames : List (Frame σ φ)

variable {σ : Type u} {φ : Type v} {ι : Type w}

/-- What one step does. A function may look at the suspended calls around it. -/
inductive Move (σ : Type u) (φ : Type v) where
  | run (f : List φ → σ → Option σ)
  | suspend (f : List φ → σ → Option (φ × σ))
  | resume (f : φ → σ → Option σ)
  | rollback

namespace Nested

/-- The calls that are suspended. -/
def calls (m : Nested σ φ) : List φ := m.frames.map Frame.call

def perform (m : Nested σ φ) : Move σ φ → Option (Nested σ φ)
  | .run f => (f m.calls m.storage).map fun s => { m with storage := s }
  | .suspend f => (f m.calls m.storage).map fun r => ⟨r.2, ⟨m.storage, r.1⟩ :: m.frames⟩
  | .resume f =>
    match m.frames with
    | [] => none
    | frame :: frames => (f frame.call m.storage).map fun s => ⟨s, frames⟩
  | .rollback =>
    match m.frames with
    | [] => none
    | frame :: frames => some ⟨frame.saved, frames⟩

/-- **The rest of a call is that of the innermost one.** -/
theorem perform_resume_eq_some {m m' : Nested σ φ} {f : φ → σ → Option σ} :
    m.perform (.resume f) = some m' ↔ ∃ frame frames s,
      m.frames = frame :: frames ∧ f frame.call m.storage = some s ∧ m' = ⟨s, frames⟩ := by
  unfold perform
  dsimp only
  cases hframes : m.frames with
  | nil => simp
  | cons frame frames =>
    rw [Option.map_eq_some_iff]
    constructor
    · rintro ⟨s, hs, rfl⟩
      exact ⟨frame, frames, s, rfl, hs, rfl⟩
    · rintro ⟨_, _, s, h, hs, rfl⟩
      cases h
      exact ⟨s, hs, rfl⟩

/-- The contract that starts in a given storage, with nothing suspended. -/
def system (init : σ → Prop) (moves : ι → Move σ φ) : System (Nested σ φ) :=
  .ofAct (fun m => init m.storage ∧ m.frames = []) fun m i => m.perform (moves i)

end Nested

/--
The rules a contract keeps: `inv` holds of its storage, `R` relates the storage before and after
any part of a call, and `ok` holds of a suspended call for as long as it is suspended.
-/
structure Disciplined (moves : ι → Move σ φ) (inv : σ → Prop) (R : σ → σ → Prop)
    (ok : φ → σ → Prop) : Prop where
  refl : ∀ s, R s s
  trans : ∀ a b c, R a b → R b c → R a c
  mono : ∀ p s s', R s s' → ok p s → ok p s'
  run : ∀ i f, moves i = .run f → ∀ ps s s', inv s → f ps s = some s' → inv s' ∧ R s s'
  suspend : ∀ i f, moves i = .suspend f → ∀ ps s p s', inv s → f ps s = some (p, s') →
    inv s' ∧ R s s' ∧ ok p s'
  resume : ∀ i f, moves i = .resume f → ∀ p s s', inv s → ok p s → f p s = some s' →
    inv s' ∧ R s s'

/-- Every suspended call found a storage that keeps the invariant, and is related to what the
calls inside it have made of it. -/
def Sound (inv : σ → Prop) (R : σ → σ → Prop) (ok : φ → σ → Prop) :
    σ → List (Frame σ φ) → Prop
  | s, [] => inv s
  | s, frame :: frames => inv s ∧ R frame.saved s ∧ ok frame.call s ∧
    Sound inv R ok frame.saved frames

namespace Disciplined

variable {moves : ι → Move σ φ} {inv : σ → Prop} {R : σ → σ → Prop} {ok : φ → σ → Prop}

theorem inv_of_sound {s : σ} {frames : List (Frame σ φ)} (h : Sound inv R ok s frames) : inv s := by
  cases frames with
  | nil => exact h
  | cons frame frames => exact h.1

/-- A later storage is as sound under the same calls. -/
theorem sound_of_related (hd : Disciplined moves inv R ok) {s s' : σ}
    {frames : List (Frame σ φ)} (h : Sound inv R ok s frames) (hinv : inv s') (hR : R s s') :
    Sound inv R ok s' frames := by
  cases frames with
  | nil => exact hinv
  | cons frame frames =>
    obtain ⟨-, hsaved, hok, hrest⟩ := h
    exact ⟨hinv, hd.trans _ _ _ hsaved hR, hd.mono _ _ _ hR hok, hrest⟩

/-- **A move that does not fail keeps the state sound.** -/
theorem sound_step (hd : Disciplined moves inv R ok) {m m' : Nested σ φ} {i : ι}
    (h : Sound inv R ok m.storage m.frames) (hm : m.perform (moves i) = some m') :
    Sound inv R ok m'.storage m'.frames := by
  have hinv := inv_of_sound h
  cases hmove : moves i with
  | run f =>
    rw [hmove] at hm
    obtain ⟨s, hs, rfl⟩ := Option.map_eq_some_iff.mp hm
    obtain ⟨hinv', hR⟩ := hd.run i f hmove _ _ _ hinv hs
    exact hd.sound_of_related h hinv' hR
  | suspend f =>
    rw [hmove] at hm
    obtain ⟨⟨p, s⟩, hs, rfl⟩ := Option.map_eq_some_iff.mp hm
    obtain ⟨hinv', hR, hok⟩ := hd.suspend i f hmove _ _ _ _ hinv hs
    exact ⟨hinv', hR, hok, h⟩
  | resume f =>
    rw [hmove] at hm
    obtain ⟨frame, frames, s, hframes, hs, rfl⟩ := Nested.perform_resume_eq_some.mp hm
    rw [hframes] at h
    obtain ⟨-, hsaved, hok, hrest⟩ := h
    obtain ⟨hinv', hR⟩ := hd.resume i f hmove _ _ _ hinv hok hs
    exact hd.sound_of_related hrest hinv' (hd.trans _ _ _ hsaved hR)
  | rollback =>
    rw [hmove] at hm
    simp only [Nested.perform] at hm
    split at hm
    · exact nomatch hm
    · next frame frames hframes =>
      rw [hframes] at h
      cases hm
      exact h.2.2.2

/-- **The invariant holds of the storage in every state of the contract, however its calls are
nested and whichever of them fail.** -/
theorem sound (hd : Disciplined moves inv R ok) {init : σ → Prop} (hinit : ∀ s, init s → inv s)
    {m : Nested σ φ} (h : (Nested.system init moves).Reachable m) :
    Sound inv R ok m.storage m.frames := by
  refine h.invariant (fun m hm => ?_) fun m m' _ hs ⟨i, hi⟩ => hd.sound_step hs hi
  rw [hm.2]
  exact hinit _ hm.1

theorem inv_of_reachable (hd : Disciplined moves inv R ok) {init : σ → Prop}
    (hinit : ∀ s, init s → inv s) {m : Nested σ φ}
    (h : (Nested.system init moves).Reachable m) : inv m.storage :=
  inv_of_sound (hd.sound hinit h)

/-- **Whatever a contract does short of failing relates its storage before and after.** -/
theorem related (hd : Disciplined moves inv R ok) {init : σ → Prop}
    (hinit : ∀ s, init s → inv s) {m m' : Nested σ φ} {i : ι}
    (h : (Nested.system init moves).Reachable m) (hi : moves i ≠ .rollback)
    (hm : m.perform (moves i) = some m') : R m.storage m'.storage := by
  have hsound := hd.sound hinit h
  have hinv := inv_of_sound hsound
  cases hmove : moves i with
  | run f =>
    rw [hmove] at hm
    obtain ⟨s, hs, rfl⟩ := Option.map_eq_some_iff.mp hm
    exact (hd.run i f hmove _ _ _ hinv hs).2
  | suspend f =>
    rw [hmove] at hm
    obtain ⟨⟨p, s⟩, hs, rfl⟩ := Option.map_eq_some_iff.mp hm
    exact (hd.suspend i f hmove _ _ _ _ hinv hs).2.1
  | resume f =>
    rw [hmove] at hm
    obtain ⟨frame, frames, s, hframes, hs, rfl⟩ := Nested.perform_resume_eq_some.mp hm
    rw [hframes] at hsound
    exact (hd.resume i f hmove _ _ _ hinv hsound.2.2.1 hs).2
  | rollback => exact absurd hmove hi

end Disciplined

end Mapae.Infra
