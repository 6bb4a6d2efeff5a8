import Mapae.Facilitator.CachedProbe

/-!
# Readers share one reading

Reads and primings in any order, on a clock that does not go back, over a probe whose calls return a
promise that is kept or broken at any time later: no two probes are in flight, a fresh answer is not
probed again, and a failure reaches the reads that shared it and no others, unless it is cached.

A probe that throws instead leaves a flight that is never cleared (`thrown_probe_stays`).
-/

namespace Mapae.Facilitator

open Mapae.Infra

variable {T E : Type} {probe : CachedProbe} {w w' : Readers T E} {log : List (ProbeEvent T E)}

/-- What readers are told, and that none of them is left waiting. -/
structure SharesReadings (probe : CachedProbe) (w : Readers T E) : Prop where
  /-- A probe starts when none is in flight and no settled answer is fresh. -/
  started : ∀ later read flight now earlier, w.log = later ++ .started read flight now :: earlier →
    probe.freshIn earlier now = none ∧ ∀ other, ¬ InFlight earlier other
  /-- Two flights are one. -/
  single : ∀ flight other, InFlight w.log flight → InFlight w.log other → flight = other
  /-- A read that does not wait is told the settled answer, which is fresh. -/
  served : ∀ later read outcome now earlier, w.log = later ++ .served read outcome now :: earlier →
    probe.freshIn earlier now = some outcome
  /-- A read that waits for a flight it has not started came while it was in flight. -/
  joined : ∀ later read flight now earlier, w.log = later ++ .joined read flight now :: earlier →
    probe.freshIn earlier now = none ∧ InFlight earlier flight
  /-- It is told how the probe of that flight ended. -/
  answered : ∀ later read outcome earlier, w.log = later ++ .answered read outcome :: earlier →
    ∃ flight, WaitsFor earlier read flight ∧ ∃ now, .landed flight outcome now ∈ earlier
  /-- A failure that a read did not wait for is a cached one, and its window is not over. -/
  failed : ∀ later read error now earlier,
    w.log = later ++ .served read (.error error) now :: earlier →
    probe.cacheFailures = true ∧
      ∃ flight ended, .landed flight (.error error) ended ∈ earlier ∧ now < ended + probe.ttlMs
  /-- The next read starts a probe, when nothing is fresh or in flight. -/
  starts : ∀ now w', probe.act w (.read .promise now) = some w' → probe.freshIn w.log now = none →
    (∀ flight, ¬ InFlight w.log flight) → ∃ flight, InFlight w'.log flight
  /-- A read that waits is answered, or can be, or its flight is still out. -/
  waits : ∀ read flight, WaitsFor w.log read flight →
    (∃ outcome, .answered read outcome ∈ w.log) ∨ (∃ w', probe.act w (.answer read) = some w') ∨
      ∃ flight, WaitsFor w.log read flight ∧ InFlight w.log flight

/-- A fresh failure is a cached one. -/
theorem cached_of_freshIn {error : E} {now : Int}
    (h : probe.freshIn log now = some (.error error)) :
    probe.cacheFailures = true ∧
      ∃ flight ended, .landed flight (.error error) ended ∈ log ∧ now < ended + probe.ttlMs := by
  simp only [CachedProbe.freshIn, Option.bind_eq_some_iff, Option.ite_none_right_eq_some,
    Option.some.injEq] at h
  obtain ⟨⟨ended, outcome⟩, hsettles, hnow, rfl⟩ := h
  obtain ⟨e, hmem, he⟩ := List.exists_of_findSome?_eq_some hsettles
  cases e with
  | primed value now' => simp [CachedProbe.settles] at he
  | landed flight outcome now' =>
    cases outcome with
    | ok value => simp [CachedProbe.settles] at he
    | error error' =>
      simp only [CachedProbe.settles, Option.ite_none_right_eq_some, Option.some.injEq,
        Prod.mk.injEq, Except.error.injEq] at he
      obtain ⟨hcache, rfl, rfl⟩ := he
      exact ⟨hcache, flight, now', hmem, hnow⟩
  | _ => cases he

namespace ProbeInvariant

/-- Whoever waits can look up what for. -/
theorem exists_flightOf {read flight : Nat} (h : WaitsFor log read flight) :
    ∃ flight', log.findSome? (·.flightOf read) = some flight' := by
  refine Option.isSome_iff_exists.mp (List.findSome?_isSome_iff.mpr ?_)
  obtain ⟨now, h | h⟩ := h
  · exact ⟨_, h, by simp [ProbeEvent.flightOf]⟩
  · exact ⟨_, h, by simp [ProbeEvent.flightOf]⟩

/-- A flight that is waited for has started. -/
theorem started_of_waitsFor (hinv : ProbeInvariant probe w) {read flight : Nat}
    (h : WaitsFor w.log read flight) : ∃ read now, .started read flight now ∈ w.log := by
  obtain ⟨now, h | h⟩ := h
  · obtain ⟨later, earlier, hlog⟩ := List.append_of_mem h
    have hinv' := hinv.order
    rw [hlog] at hinv'
    obtain ⟨-, ⟨read', now', hstarted⟩, -⟩ := hinv'.at
    refine ⟨read', now', ?_⟩
    rw [hlog]
    exact List.mem_append_right _ (List.mem_cons_of_mem _ hstarted)
  · exact ⟨read, now, h⟩

theorem waits (hinv : ProbeInvariant probe w) {read flight : Nat} (h : WaitsFor w.log read flight) :
    (∃ outcome, .answered read outcome ∈ w.log) ∨ (∃ w', probe.act w (.answer read) = some w') ∨
      ∃ flight, WaitsFor w.log read flight ∧ InFlight w.log flight := by
  obtain ⟨flight', hfind⟩ := exists_flightOf h
  have hwaits := waitsFor_of_findSome hfind
  cases hlanding : w.log.findSome? (·.landing flight') with
  | none =>
    -- nothing has landed, so the flight is still out
    refine .inr (.inr ⟨flight', hwaits, hinv.started_of_waitsFor hwaits, fun outcome now hmem => ?_⟩)
    have := List.findSome?_eq_none_iff.mp hlanding _ hmem
    simp [ProbeEvent.landing] at this
  | some outcome =>
    by_cases hanswered : w.log.any (·.answers read) = true
    · obtain ⟨e, hmem, he⟩ := List.any_eq_true.mp hanswered
      cases e with
      | answered read' outcome' =>
        obtain rfl : read' = read := by simpa [ProbeEvent.answers] using he
        exact .inl ⟨outcome', hmem⟩
      | _ => cases he
    · exact .inr (.inl (by simp [CachedProbe.act, hanswered, hfind, hlanding]))

theorem shares (hinv : ProbeInvariant probe w) : SharesReadings probe w where
  started later read flight now earlier hlog := (hlog ▸ hinv.order).at
  single flight other h h' := by
    have hpending := (hinv.pending_iff flight).mpr h
    rw [(hinv.pending_iff other).mpr h'] at hpending
    exact (Option.some.inj hpending).symm
  served later read outcome now earlier hlog := (hlog ▸ hinv.order).at
  joined later read flight now earlier hlog := (hlog ▸ hinv.order).at
  answered later read outcome earlier hlog := (hlog ▸ hinv.order).at
  failed later read error now earlier hlog := cached_of_freshIn (hlog ▸ hinv.order).at
  starts now w' hact hfresh hnone := by
    have hpending : w.fields.pending = none := by
      cases hpending : w.fields.pending with
      | none => rfl
      | some flight => exact absurd ((hinv.pending_iff flight).mp hpending) (hnone flight)
    have hpromise : (ReaderAction.read .promise now : ReaderAction T E).ReturnsPromise := trivial
    have hinv' := hinv.act hpromise hact
    simp only [CachedProbe.act, CachedProbe.read, hinv.fresh_eq, hfresh, hpending,
      Option.ite_none_right_eq_some, Option.some.injEq] at hact
    obtain ⟨-, rfl⟩ := hact
    exact ⟨w.log.length, (hinv'.pending_iff _).mp rfl⟩
  waits read flight h := hinv.waits h

end ProbeInvariant

/-- **Readers share one reading**, in every run in which no call of the probe throws. -/
theorem readings_shared (probe : CachedProbe) (now : Int) {actions : List (ReaderAction T E)}
    (hpromise : ∀ action ∈ actions, action.ReturnsPromise)
    (hrun : System.performAll probe.act (Readers.initial now) actions = some w) :
    SharesReadings probe w := by
  have hinv : ProbeInvariant probe w :=
    System.performAll_invariant (fun _ _ _ hok hinv hact => hinv.act hok hact) hpromise
      (.initial now) hrun
  exact hinv.shares

/-! ## A probe of two calls -/

/-- A window of five seconds, in which a failure is not kept. -/
def sampleProbe : CachedProbe := ⟨5000, false, by decide⟩

/-- A flight that two reads share fails, and the next read starts another. -/
def sharedFailure : List (ReaderAction Nat String) :=
  [.read .promise 0, .read .promise 1, .land 0 (.error "fetch failed") 2, .answer 0, .answer 1,
    .read .promise 3]

theorem readings_shared_failure : ∃ w,
    System.performAll sampleProbe.act (Readers.initial 0) sharedFailure = some w ∧
      w.log.length = 6 ∧ SharesReadings sampleProbe w := by
  have hrun : ((System.performAll sampleProbe.act (Readers.initial 0) sharedFailure).map
      fun w => w.log.length) = some 6 := by decide
  obtain ⟨w, hw, hlength⟩ := Option.map_eq_some_iff.mp hrun
  refine ⟨w, hw, hlength, readings_shared sampleProbe 0 ?_ hw⟩
  simp [sharedFailure, ReaderAction.ReturnsPromise]

/-- The call throws at 0, and the read at 10 is told of it. -/
def thrownOnce : List (ReaderAction Nat String) := [.read (.threw "fetch failed" 0) 0, .read .promise 10]

theorem thrown_probe_stays : ∃ w,
    System.performAll sampleProbe.act (Readers.initial 0) thrownOnce = some w ∧
      ¬ SharesReadings sampleProbe w := by
  refine ⟨_, rfl, fun h => ?_⟩
  obtain ⟨-, -, hlanded⟩ := h.joined [] 2 0 10 _ rfl
  exact hlanded (.error "fetch failed") 0 List.mem_cons_self

end Mapae.Facilitator
