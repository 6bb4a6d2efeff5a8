import Mathlib.Algebra.Ring.Int.Defs
import Mathlib.Logic.Relation

/-!
# Transition systems and runs

Two shapes of behaviour are used throughout.

* A **run** performs a list of operations one after the other. The operations are
  functions of the state, so a run is a fold.
* A **system** has an initial condition and a step relation. Concurrent parts of a program
  are systems: a step is whatever happens between two points where control may change hands.

Each shape has one induction rule for properties of a state (`run_invariant`,
`System.Reachable.invariant`) and one for relations between an earlier and a later state
(`run_relation`, `System.Steps.relation`). Nothing here knows about a particular program.

* A **history** lists what happened. It is `Justified` when each event was in order given the ones before
  it; `Justified.at` reads that off for an event anywhere in the history.
-/

namespace Mapae.Infra

universe u v w

variable {σ : Type u} {ι : Type v}

/-! ## Runs -/

/-- Performs the operations in order, starting from `s`. -/
def run (exec : σ → ι → σ) (s : σ) (ops : List ι) : σ := ops.foldl exec s

@[simp] theorem run_nil (exec : σ → ι → σ) (s : σ) : run exec s [] = s := rfl

@[simp] theorem run_cons (exec : σ → ι → σ) (s : σ) (op : ι) (ops : List ι) :
    run exec s (op :: ops) = run exec (exec s op) ops := rfl

@[simp] theorem run_append (exec : σ → ι → σ) (s : σ) (xs ys : List ι) :
    run exec s (xs ++ ys) = run exec (run exec s xs) ys := List.foldl_append ..

/-- **What one operation preserves, a run preserves.** -/
theorem run_invariant {exec : σ → ι → σ} {P : σ → Prop}
    (hstep : ∀ s op, P s → P (exec s op)) :
    ∀ (ops : List ι) (s : σ), P s → P (run exec s ops)
  | [], _, h => h
  | op :: ops, s, h => run_invariant hstep ops (exec s op) (hstep s op h)

/-- `run_invariant` for operations that are all of one kind. -/
theorem run_invariant_of_forall {exec : σ → ι → σ} {P : σ → Prop} {ok : ι → Prop}
    (hstep : ∀ s op, ok op → P s → P (exec s op)) :
    ∀ (ops : List ι) (s : σ), (∀ op ∈ ops, ok op) → P s → P (run exec s ops)
  | [], _, _, h => h
  | op :: ops, s, hok, h =>
    run_invariant_of_forall hstep ops (exec s op) (fun o ho => hok o (List.mem_cons_of_mem _ ho))
      (hstep s op (hok op List.mem_cons_self) h)

/--
**A relation that one operation establishes holds between the ends of a run.**

The states on the way satisfy the invariant `P`, so the step may use it.
-/
theorem run_relation {exec : σ → ι → σ} {P : σ → Prop} {R : σ → σ → Prop}
    (hinv : ∀ s op, P s → P (exec s op)) (hrefl : ∀ s, R s s)
    (htrans : ∀ a b c, R a b → R b c → R a c) (hstep : ∀ s op, P s → R s (exec s op)) :
    ∀ (ops : List ι) (s : σ), P s → R s (run exec s ops)
  | [], s, _ => hrefl s
  | op :: ops, s, h =>
    htrans s (exec s op) _ (hstep s op h)
      (run_relation hinv hrefl htrans hstep ops (exec s op) (hinv s op h))

/--
**Operations that add up, performed in pieces.**

An operation takes an amount, and two in a row are one of both amounts, where the invariant `P` holds.
-/
theorem run_sum {exec : σ → Int → σ} {P : σ → Prop} (hinv : ∀ s n, P s → P (exec s n))
    (hadd : ∀ s m n, P s → 0 < m → 0 < n → exec (exec s m) n = exec s (m + n)) :
    ∀ (ns : List Int) (s : σ), P s → ns ≠ [] → (∀ n ∈ ns, 0 < n) →
      0 < ns.sum ∧ run exec s ns = exec s ns.sum
  | [], _, _, hne, _ => absurd rfl hne
  | [n], s, _, _, hpos => by
    rw [List.sum_singleton]
    exact ⟨hpos n List.mem_cons_self, rfl⟩
  | n :: m :: ns, s, h, _, hpos => by
    have hn : 0 < n := hpos n List.mem_cons_self
    obtain ⟨hsum, hrun⟩ := run_sum hinv hadd (m :: ns) (exec s n) (hinv s n h) (List.cons_ne_nil m ns)
      fun k hk => hpos k (List.mem_cons_of_mem n hk)
    rw [List.sum_cons, run_cons, hrun]
    exact ⟨Int.add_pos hn hsum, hadd s n _ h hn hsum⟩

/-- What the operations of a run report, in order. -/
def trace {α : Type w} (exec : σ → ι → σ) (report : σ → ι → List α) : σ → List ι → List α
  | _, [] => []
  | s, op :: ops => report s op ++ trace exec report (exec s op) ops

/-- **What one operation preserves of a state and the reports so far, a run preserves.** -/
theorem trace_invariant {α : Type w} {exec : σ → ι → σ} {report : σ → ι → List α} {P : σ → List α → Prop}
    {ok : ι → Prop} (hstep : ∀ s log op, ok op → P s log → P (exec s op) (log ++ report s op)) :
    ∀ (ops : List ι) (s : σ) (log : List α), (∀ op ∈ ops, ok op) → P s log →
      P (run exec s ops) (log ++ trace exec report s ops)
  | [], s, log, _, h => by
    rw [trace, List.append_nil]
    exact h
  | op :: ops, s, log, hok, h => by
    rw [trace, ← List.append_assoc]
    exact trace_invariant hstep ops (exec s op) _ (fun o ho => hok o (List.mem_cons_of_mem _ ho))
      (hstep s log op (hok op List.mem_cons_self) h)

/-! ## Systems -/

/-- A transition system: where it may start, and what one step may do. -/
structure System (σ : Type u) where
  init : σ → Prop
  step : σ → σ → Prop

namespace System

variable {S : System σ}

/-- The states some run of the system gets to. -/
inductive Reachable (S : System σ) : σ → Prop
  | init {s : σ} (h : S.init s) : Reachable S s
  | step {s s' : σ} (hr : Reachable S s) (h : S.step s s') : Reachable S s'

/-- Zero or more steps. -/
abbrev Steps (S : System σ) : σ → σ → Prop := Relation.ReflTransGen S.step

theorem Reachable.steps {s s' : σ} (hr : Reachable S s) (h : S.Steps s s') : Reachable S s' := by
  induction h with
  | refl => exact hr
  | tail _ hstep ih => exact ih.step hstep

/-- **An invariant holds in every reachable state.** -/
theorem Reachable.invariant {inv : σ → Prop} (hinit : ∀ s, S.init s → inv s)
    (hstep : ∀ s s', Reachable S s → inv s → S.step s s' → inv s') {s : σ}
    (h : Reachable S s) : inv s := by
  induction h with
  | init h => exact hinit _ h
  | step hr h ih => exact hstep _ _ hr ih h

/-- **A relation every step establishes holds between a reachable state and a later one.** -/
theorem Steps.relation {R : σ → σ → Prop} (hrefl : ∀ s, R s s)
    (htrans : ∀ a b c, R a b → R b c → R a c)
    (hstep : ∀ s s', Reachable S s → S.step s s' → R s s') {s s' : σ}
    (hr : Reachable S s) (h : S.Steps s s') : R s s' := by
  induction h with
  | refl => exact hrefl s
  | tail hsteps hlast ih => exact htrans _ _ _ ih (hstep _ _ (hr.steps hsteps) hlast)

/-! ### Systems of actions -/

/-- The system whose steps are the possible actions: `none` is an action that is not possible. -/
def ofAct (init : σ → Prop) (act : σ → ι → Option σ) : System σ where
  init := init
  step s s' := ∃ a, act s a = some s'

/-- Performs actions in order, if each is possible when its turn comes. -/
def performAll (act : σ → ι → Option σ) : σ → List ι → Option σ
  | s, [] => some s
  | s, a :: as => (act s a).bind fun s' => performAll act s' as

theorem performAll_append {act : σ → ι → Option σ} : ∀ {as bs : List ι} {s : σ},
    performAll act s (as ++ bs) = (performAll act s as).bind fun s' => performAll act s' bs
  | [], _, _ => rfl
  | a :: as, bs, s => by
    rw [List.cons_append, performAll, performAll, Option.bind_assoc]
    exact congrArg _ (funext fun _ => performAll_append)

/-- **What every action of a schedule preserves, the schedule preserves.** -/
theorem performAll_invariant {act : σ → ι → Option σ} {P : σ → Prop} {ok : ι → Prop}
    (hstep : ∀ s a s', ok a → P s → act s a = some s' → P s') :
    ∀ {as : List ι} {s s' : σ}, (∀ a ∈ as, ok a) → P s → performAll act s as = some s' → P s'
  | [], _, _, _, hs, h => Option.some.inj h ▸ hs
  | a :: as, s, _, hok, hs, h => by
    obtain ⟨s₁, ha, h⟩ := Option.bind_eq_some_iff.mp h
    exact performAll_invariant hstep (fun a ha => hok a (List.mem_cons_of_mem _ ha))
      (hstep s a s₁ (hok a List.mem_cons_self) hs ha) h

/--
**A latch.**

Every action keeps `P` and, under it, keeps `Q`; a triggering action sets `Q`. Then `Q` holds at the
end of a schedule if it held before or some action of the schedule is triggering (`T`).
-/
theorem performAll_latch {act : σ → ι → Option σ} {P Q : σ → Prop} {ok T : ι → Prop}
    (hstep : ∀ s a s', ok a → P s → act s a = some s' →
      P s' ∧ (Q s → Q s') ∧ (T a → Q s')) :
    ∀ {as : List ι} {s s' : σ}, (∀ a ∈ as, ok a) → P s → performAll act s as = some s' →
      P s' ∧ ((Q s ∨ ∃ a ∈ as, T a) → Q s')
  | [], _, _, _, hs, h => by
    obtain rfl := Option.some.inj h
    exact ⟨hs, fun hq => hq.elim id fun ⟨_, ha, _⟩ => (List.not_mem_nil ha).elim⟩
  | a :: as, s, s', hok, hs, h => by
    obtain ⟨s₁, ha, h⟩ := Option.bind_eq_some_iff.mp h
    obtain ⟨hP, hkeep, hset⟩ := hstep s a s₁ (hok a List.mem_cons_self) hs ha
    obtain ⟨hP', hQ⟩ := performAll_latch hstep (fun a ha => hok a (List.mem_cons_of_mem _ ha)) hP h
    refine ⟨hP', ?_⟩
    rintro (hq | ⟨b, hb, htrigger⟩)
    · exact hQ (Or.inl (hkeep hq))
    · rcases List.mem_cons.mp hb with rfl | hb
      · exact hQ (Or.inl (hset htrigger))
      · exact hQ (Or.inr ⟨b, hb, htrigger⟩)

/-- **A schedule of actions that can be performed is a run.** -/
theorem steps_of_performAll {init : σ → Prop} {act : σ → ι → Option σ} :
    ∀ {as : List ι} {s s' : σ}, performAll act s as = some s' → (ofAct init act).Steps s s'
  | [], _, _, h => Option.some.inj h ▸ .refl
  | a :: as, _, _, h => by
    obtain ⟨s₁, ha, h⟩ := Option.bind_eq_some_iff.mp h
    exact (steps_of_performAll h).head ⟨a, ha⟩

/-- It ends in a reachable state. -/
theorem reachable_of_performAll {init : σ → Prop} {act : σ → ι → Option σ} {as : List ι} {s s' : σ}
    (hs : (ofAct init act).Reachable s) (h : performAll act s as = some s') :
    (ofAct init act).Reachable s' := hs.steps (steps_of_performAll h)

/-- The runs of `S` all of whose steps meet a condition. -/
def restrict (S : System σ) (c : σ → σ → Prop) : System σ where
  init := S.init
  step s s' := S.step s s' ∧ c s s'

theorem Reachable.of_restrict {c : σ → σ → Prop} {s : σ} (h : Reachable (S.restrict c) s) :
    Reachable S s := by
  induction h with
  | init h => exact .init h
  | step _ h ih => exact ih.step h.1

theorem Steps.of_restrict {c : σ → σ → Prop} {s s' : σ} (h : (S.restrict c).Steps s s') :
    S.Steps s s' := by
  induction h with
  | refl => exact .refl
  | tail _ hstep ih => exact ih.tail hstep.1

/-- **A schedule whose actions meet the condition** is a restricted run. -/
theorem restrict_of_performAll {init : σ → Prop} {act : σ → ι → Option σ} {c : σ → σ → Prop}
    [∀ s s', Decidable (c s s')] : ∀ {as : List ι} {s s' : σ},
      performAll (fun s a => (act s a).filter (c s ·)) s as = some s' →
        ((ofAct init act).restrict c).Steps s s'
  | [], _, _, h => Option.some.inj h ▸ .refl
  | a :: as, _, _, h => by
    obtain ⟨s₁, ha, h⟩ := Option.bind_eq_some_iff.mp h
    obtain ⟨ha, hc⟩ := Option.filter_eq_some_iff.mp ha
    exact (restrict_of_performAll h).head ⟨⟨a, ha⟩, of_decide_eq_true hc⟩

end System

/-! ## Histories of events

The latest event is the first. -/

section Histories

variable {ε : Type u} {ok : List ε → ε → Prop} {h : List ε}

/-- Each event was in order when it happened. -/
def Justified (ok : List ε → ε → Prop) : List ε → Prop
  | [] => True
  | e :: before => ok before e ∧ Justified ok before

theorem Justified.append : ∀ {events : List ε}, Justified ok h →
    (∀ later e earlier, events = later ++ e :: earlier → ok (earlier ++ h) e) →
      Justified ok (events ++ h)
  | [], hh, _ => hh
  | e :: events, hh, hok =>
    ⟨hok [] e events rfl, Justified.append hh fun later e' earlier heq =>
      hok (e :: later) e' earlier (congrArg (e :: ·) heq)⟩

/-- **An event was in order given the events before it.** -/
theorem Justified.at : ∀ {later : List ε} {e : ε} {before : List ε},
    Justified ok (later ++ e :: before) → ok before e
  | [], _, _, hj => hj.1
  | _ :: _, _, _, hj => Justified.at hj.2

end Histories

end Mapae.Infra
