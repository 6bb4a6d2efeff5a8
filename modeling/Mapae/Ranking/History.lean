import Mapae.Ranking.Memo

/-!
# The history of the boards

Ranked rounds settle, the ruleset of the arcade is raised and honors are read, in any order, under a
clock that never goes back. A read may be for an instant in the past.

* `rankingSystem` has a step for each of these
* `RankingInv` holds in every reachable state: the memo is right, the rows are in the order in which
  they settled
* `later_of_steps` is what a run keeps of the past
-/

namespace Mapae.Ranking

open Mapae.Infra Mapae.Store

/-- The tables, the ruleset of the arcade and the clock. -/
structure RankingState where
  version : Nat
  table : RankedTable
  book : HonorBook
  clock : Int

inductive RankingEvent where
  | settle (row : RankedRow)
  | raise (version : Nat)
  | tick (time : Int)
  | «seal» (collection : String) (time : Int)

namespace RankingState

/-- `honor` in a state, with the state that it leaves. -/
def honor (s : RankingState) (collection : String) (tokenId : Nat) (time : Int) :
    Except RankingError (Option GuardianHonors × RankingState) := do
  let (honors, book) ← Ranking.honor s.version s.table collection tokenId time s.book
  return (honors, { s with book := book })

/-- What an event does, if it can happen. A `seal` that throws changes nothing. -/
def act (s : RankingState) : RankingEvent → Option RankingState
  | .settle row =>
    if s.clock ≤ row.createdAt then
      (s.table.insert? row).map fun table => { s with table := table, clock := row.createdAt }
    else none
  | .raise version => if s.version ≤ version then some { s with version := version } else none
  | .tick time => if s.clock ≤ time then some { s with clock := time } else none
  | .seal collection time =>
    if time ≤ s.clock then
      match s.book.seal s.version s.table collection time with
      | .ok (_, book) => some { s with book := book }
      | .error _ => some s
    else none

/-- No row is settled and no week is done. -/
def fresh (version : Nat) (clock : Int) : RankingState := ⟨version, .empty, .empty, clock⟩

end RankingState

def rankingSystem : System RankingState :=
  .ofAct (fun s => ∃ version clock, s = .fresh version clock) RankingState.act

/-! ## Steps -/

section History

variable {s s' s'' : RankingState}

/-- What a step can do. -/
theorem step_cases (h : rankingSystem.step s s') :
    (∃ row table, s.clock ≤ row.createdAt ∧ s.table.insert? row = some table ∧
      s' = { s with table := table, clock := row.createdAt }) ∨
    (∃ version, s.version ≤ version ∧ s' = { s with version := version }) ∨
    (∃ time, s.clock ≤ time ∧ s' = { s with clock := time }) ∨
    (∃ collection time last book, time ≤ s.clock ∧
      s.book.seal s.version s.table collection time = .ok (last, book) ∧
      s' = { s with book := book }) ∨
    s' = s := by
  obtain ⟨event, h⟩ := h
  cases event with
  | settle row =>
    simp only [RankingState.act, Option.ite_none_right_eq_some, Option.map_eq_some_iff] at h
    obtain ⟨hclock, table, hinsert, rfl⟩ := h
    exact Or.inl ⟨row, table, hclock, hinsert, rfl⟩
  | raise version =>
    simp only [RankingState.act, Option.ite_none_right_eq_some, Option.some.injEq] at h
    exact Or.inr (Or.inl ⟨version, h.1, h.2.symm⟩)
  | tick time =>
    simp only [RankingState.act, Option.ite_none_right_eq_some, Option.some.injEq] at h
    exact Or.inr (Or.inr (Or.inl ⟨time, h.1, h.2.symm⟩))
  | «seal» collection time =>
    simp only [RankingState.act, Option.ite_none_right_eq_some] at h
    obtain ⟨htime, h⟩ := h
    split at h
    · next last book hseal =>
      cases h
      exact Or.inr (Or.inr (Or.inr (Or.inl ⟨collection, time, last, book, htime, hseal, rfl⟩)))
    · cases h
      exact Or.inr (Or.inr (Or.inr (Or.inr rfl)))

/-- The invariant of a history. -/
structure RankingInv (s : RankingState) : Prop where
  memoised : Memoised s.table.rows s.clock s.book
  settled : ∀ r ∈ s.table.rows, r.createdAt ≤ s.clock
  ordered : s.table.rows.Pairwise fun a b => a.createdAt ≤ b.createdAt

/-- `s'` is a later state than `s`: rows were added under the clock, and the book grew. -/
structure RankingState.Later (s s' : RankingState) : Prop where
  clock : s.clock ≤ s'.clock
  book : s.book.Grows s'.book
  rows : ∃ later, s'.table.rows = s.table.rows ++ later ∧ ∀ r ∈ later, s.clock ≤ r.createdAt

theorem RankingState.Later.refl (s : RankingState) : s.Later s :=
  ⟨le_rfl, .refl _, [], (List.append_nil _).symm, fun _ hr => nomatch hr⟩

theorem RankingState.Later.trans (h : s.Later s') (h' : s'.Later s'') : s.Later s'' := by
  obtain ⟨later, hrows, hlater⟩ := h.rows
  obtain ⟨later', hrows', hlater'⟩ := h'.rows
  refine ⟨h.clock.trans h'.clock, h.book.trans h'.book, later ++ later', ?_, fun r hr => ?_⟩
  · rw [hrows', hrows, List.append_assoc]
  · rcases List.mem_append.mp hr with hr | hr
    · exact hlater r hr
    · exact h.clock.trans (hlater' r hr)

/-- One step keeps the invariant and leads to a later state. -/
theorem inv_step (hinv : RankingInv s) (h : rankingSystem.step s s') :
    RankingInv s' ∧ s.Later s' := by
  obtain ⟨row, table, hclock, hinsert, rfl⟩ | ⟨version, -, rfl⟩ | ⟨time, hclock, rfl⟩ |
    ⟨collection, time, last, book, htime, hseal, rfl⟩ | rfl := step_cases h
  · have hrows := RankedTable.insert?_rows hinsert
    have hlater : ∀ r ∈ [row], s.clock ≤ r.createdAt :=
      List.forall_mem_singleton.mpr hclock
    refine ⟨⟨?_, fun r hr => ?_, ?_⟩, hclock, .refl _, [row], hrows, hlater⟩
    · dsimp only
      rw [hrows]
      exact hinv.memoised.append hlater hclock
    · dsimp only at hr ⊢
      rw [hrows, List.mem_append, List.mem_singleton] at hr
      rcases hr with hr | rfl
      · exact (hinv.settled r hr).trans hclock
      · exact le_rfl
    · dsimp only
      rw [hrows]
      refine List.pairwise_append.mpr ⟨hinv.ordered, List.pairwise_singleton _ _, fun a ha b hb => ?_⟩
      rw [List.mem_singleton.mp hb]
      exact (hinv.settled a ha).trans hclock
  · exact ⟨⟨hinv.memoised, hinv.settled, hinv.ordered⟩,
      ⟨le_rfl, .refl _, [], (List.append_nil _).symm, fun _ hr => nomatch hr⟩⟩
  · have hmemo : Memoised (s.table.rows ++ []) time s.book :=
      hinv.memoised.append (fun _ hr => nomatch hr) hclock
    rw [List.append_nil] at hmemo
    exact ⟨⟨hmemo, fun r hr => (hinv.settled r hr).trans hclock, hinv.ordered⟩,
      ⟨hclock, .refl _, [], (List.append_nil _).symm, fun _ hr => nomatch hr⟩⟩
  · obtain ⟨-, hmemo, hgrows⟩ := HonorBook.seal_spec hseal hinv.memoised htime
    exact ⟨⟨hmemo, hinv.settled, hinv.ordered⟩,
      ⟨le_rfl, hgrows, [], (List.append_nil _).symm, fun _ hr => nomatch hr⟩⟩
  · exact ⟨hinv, .refl s'⟩

/-- **The invariant holds in every reachable state.** -/
theorem inv_of_reachable (h : rankingSystem.Reachable s) : RankingInv s := by
  refine h.invariant ?_ fun _ _ _ hinv hstep => (inv_step hinv hstep).1
  rintro _ ⟨version, clock, rfl⟩
  exact ⟨memoised_empty, fun _ hr => absurd hr List.not_mem_nil, List.Pairwise.nil⟩

/-- **A run leads to later states.** -/
theorem later_of_steps (hr : rankingSystem.Reachable s) (h : rankingSystem.Steps s s') : s.Later s' :=
  System.Steps.relation RankingState.Later.refl (fun _ _ _ => RankingState.Later.trans)
    (fun _ _ hr hstep => (inv_step (inv_of_reachable hr) hstep).2) hr h

end History

end Mapae.Ranking
