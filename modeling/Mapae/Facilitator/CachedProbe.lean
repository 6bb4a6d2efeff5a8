import Mapae.Infra.Transition

/-!
# One reading for all readers

`CachedProbe` answers a read with the settled answer while that is fresh, and else with the probe that
is in flight. A read that finds none starts one.

Control changes hands where `#run` awaits the probe. When the probe throws before it returns a promise,
`#run` is over, and its `finally` has run, before `read` stores the flight in `#pending`.

* `CachedProbe.act` is what may happen between two such points
* `CachedProbe.InOrder` says what a read may be told, from the events alone
* `ProbeInvariant` ties the two private fields to the events (`ProbeInvariant.act`)
-/

namespace Mapae.Facilitator

open Mapae.Infra

variable {T E : Type}

structure CachedProbe where
  ttlMs : Int
  /-- Whether a failed probe is the window's answer. -/
  cacheFailures : Bool
  one_le_ttlMs : 1 ≤ ttlMs

structure Settled (T E : Type) where
  until_ : Int
  outcome : Except E T

/-- The private fields. A flight has a number. -/
structure ProbeFields (T E : Type) where
  settled : Option (Settled T E)
  pending : Option Nat

/-- What a call of the probe does: it returns a promise, or throws before it does, and the `catch`
reads the clock. -/
inductive ProbeCall (E : Type) where
  | promise
  | threw (error : E) (now : Int)

namespace CachedProbe

variable (probe : CachedProbe) (fields : ProbeFields T E)

def prime (value : T) (now : Int) : ProbeFields T E :=
  { fields with settled := some ⟨now + probe.ttlMs, .ok value⟩ }

/-- The settled answer, while it is fresh. -/
def fresh (fields : ProbeFields T E) (now : Int) : Option (Except E T) :=
  match fields.settled with
  | some settled => if now < settled.until_ then some settled.outcome else none
  | none => none

/-- The rest of `#run` once the probe is done, with its `catch` and its `finally`. -/
def endRun (outcome : Except E T) (now : Int) : ProbeFields T E where
  settled :=
    match outcome with
    | .ok value => some ⟨now + probe.ttlMs, .ok value⟩
    | .error error =>
      if probe.cacheFailures then some ⟨now + probe.ttlMs, .error error⟩ else fields.settled
  pending := none

/-- `this.#pending ??= this.#run()` where nothing is pending. -/
def startRun (flight : Nat) : ProbeCall E → ProbeFields T E
  | .promise => { fields with pending := some flight }
  -- the assignment comes after `finally` has cleared the field
  | .threw error now => { probe.endRun fields (.error error) now with pending := some flight }

end CachedProbe

/-! ## Readers -/

/-- What happened. -/
inductive ProbeEvent (T E : Type) where
  | primed (value : T) (now : Int)
  /-- A read is answered with what is settled. -/
  | served (read : Nat) (outcome : Except E T) (now : Int)
  /-- A read waits for a flight that it has not started. -/
  | joined (read flight : Nat) (now : Int)
  | started (read flight : Nat) (now : Int)
  /-- The probe of a flight is done. -/
  | landed (flight : Nat) (outcome : Except E T) (now : Int)
  /-- A read that waited for a flight is answered. -/
  | answered (read : Nat) (outcome : Except E T)

/-- The object, the promises that are out, and what happened, the latest event first. -/
structure Readers (T E : Type) where
  fields : ProbeFields T E
  now : Int
  flying : List Nat
  log : List (ProbeEvent T E)

inductive ReaderAction (T E : Type) where
  | prime (value : T) (now : Int)
  /-- `call` is what the probe does if it is called here. -/
  | read (call : ProbeCall E) (now : Int)
  | land (flight : Nat) (outcome : Except E T) (now : Int)
  | answer (read : Nat)

/-- The probe, if it is called, returns a promise. -/
def ReaderAction.ReturnsPromise : ReaderAction T E → Prop
  | .read (.threw _ _) _ => False
  | _ => True

namespace ProbeEvent

def flightOf (read : Nat) : ProbeEvent T E → Option Nat
  | .joined read' flight _ => if read' = read then some flight else none
  | .started read' flight _ => if read' = read then some flight else none
  | _ => none

def landing (flight : Nat) : ProbeEvent T E → Option (Except E T)
  | .landed flight' outcome _ => if flight' = flight then some outcome else none
  | _ => none

/-- The flight that starts or lands. -/
def flight : ProbeEvent T E → Option Nat
  | .started _ flight _ => some flight
  | .landed flight _ _ => some flight
  | _ => none

def answers (read : Nat) : ProbeEvent T E → Bool
  | .answered read' _ => read' == read
  | _ => false

end ProbeEvent

def Readers.initial (now : Int) : Readers T E := ⟨⟨none, none⟩, now, [], []⟩

namespace CachedProbe

variable (probe : CachedProbe)

/-- One `read`, up to where it waits. -/
def read (w : Readers T E) (call : ProbeCall E) (now : Int) : Option (Readers T E) :=
  let id := w.log.length
  match fresh w.fields now with
  | some outcome => some { w with now := now, log := .served id outcome now :: w.log }
  | none =>
    match w.fields.pending with
    | some flight => some { w with now := now, log := .joined id flight now :: w.log }
    | none =>
      let fields := probe.startRun w.fields id call
      match call with
      | .promise =>
        some ⟨fields, now, id :: w.flying, .started id id now :: w.log⟩
      | .threw error later =>
        if now ≤ later then
          some ⟨fields, later, w.flying, .landed id (.error error) later :: .started id id now :: w.log⟩
        else none

/-- What may happen. The clock does not go back. -/
def act (w : Readers T E) : ReaderAction T E → Option (Readers T E)
  | .prime value now =>
    if w.now ≤ now then
      some { w with fields := probe.prime w.fields value now, now := now, log := .primed value now :: w.log }
    else none
  | .read call now => if w.now ≤ now then probe.read w call now else none
  | .land flight outcome now =>
    if w.now ≤ now ∧ flight ∈ w.flying then
      some ⟨probe.endRun w.fields outcome now, now, w.flying.erase flight,
        .landed flight outcome now :: w.log⟩
    else none
  | .answer read =>
    if w.log.any (·.answers read) then none
    else
      ((w.log.findSome? (·.flightOf read)).bind fun flight => w.log.findSome? (·.landing flight)).map
        fun outcome => { w with log := .answered read outcome :: w.log }

/-! ## What a read may be told -/

/-- The answer an event settles, and since when. -/
def settles : ProbeEvent T E → Option (Int × Except E T)
  | .primed value now => some (now, .ok value)
  | .landed _ (.ok value) now => some (now, .ok value)
  | .landed _ (.error error) now => if probe.cacheFailures then some (now, .error error) else none
  | _ => none

/-- The answer that was settled last, while it is fresh. -/
def freshIn (log : List (ProbeEvent T E)) (now : Int) : Option (Except E T) :=
  (log.findSome? probe.settles).bind fun settled =>
    if now < settled.1 + probe.ttlMs then some settled.2 else none

end CachedProbe

/-- The flight has started and its probe is not done. -/
def InFlight (log : List (ProbeEvent T E)) (flight : Nat) : Prop :=
  (∃ read now, .started read flight now ∈ log) ∧ ∀ outcome now, .landed flight outcome now ∉ log

/-- The read waits for the flight. -/
def WaitsFor (log : List (ProbeEvent T E)) (read flight : Nat) : Prop :=
  ∃ now, .joined read flight now ∈ log ∨ .started read flight now ∈ log

/-- An event that may come after those before it. -/
def CachedProbe.InOrder (probe : CachedProbe) (log : List (ProbeEvent T E)) : ProbeEvent T E → Prop
  | .primed _ _ => True
  | .served _ outcome now => probe.freshIn log now = some outcome
  | .joined _ flight now => probe.freshIn log now = none ∧ InFlight log flight
  | .started _ _ now => probe.freshIn log now = none ∧ ∀ flight, ¬ InFlight log flight
  | .landed flight _ _ => InFlight log flight
  | .answered read outcome =>
    ∃ flight, WaitsFor log read flight ∧ ∃ now, .landed flight outcome now ∈ log

/-! ## Flights -/

section Flights

variable {log : List (ProbeEvent T E)} {e : ProbeEvent T E} {flight flight' read : Nat} {now : Int}
  {outcome : Except E T}

/-- A flight that has just started. -/
theorem inFlight_started (hnew : ∀ outcome now, .landed flight' outcome now ∉ log) :
    InFlight (.started read flight' now :: log) flight ↔ flight = flight' ∨ InFlight log flight := by
  constructor
  · rintro ⟨⟨read', now', hstarted⟩, hlanded⟩
    rcases List.mem_cons.mp hstarted with heq | hstarted
    · simp only [ProbeEvent.started.injEq] at heq
      exact .inl heq.2.1
    · exact .inr ⟨⟨read', now', hstarted⟩, fun o n hmem => hlanded o n (List.mem_cons_of_mem _ hmem)⟩
  · rintro (rfl | ⟨⟨read', now', hstarted⟩, hlanded⟩)
    · exact ⟨⟨read, now, List.mem_cons_self⟩, by simpa using hnew⟩
    · exact ⟨⟨read', now', List.mem_cons_of_mem _ hstarted⟩, by simpa using hlanded⟩

theorem inFlight_landed :
    InFlight (.landed flight' outcome now :: log) flight ↔ flight ≠ flight' ∧ InFlight log flight := by
  simp only [InFlight, List.mem_cons, reduceCtorEq, false_or, ProbeEvent.landed.injEq, not_or]
  constructor
  · rintro ⟨hstarted, hlanded⟩
    refine ⟨?_, hstarted, fun o n => (hlanded o n).2⟩
    rintro rfl
    exact (hlanded outcome now).1 ⟨rfl, rfl, rfl⟩
  · rintro ⟨hne, hstarted, hlanded⟩
    exact ⟨hstarted, fun o n => ⟨fun heq => hne heq.1, hlanded o n⟩⟩

theorem inFlight_aside (h : e.flight = none) : InFlight (e :: log) flight ↔ InFlight log flight := by
  cases e <;> simp_all [InFlight, ProbeEvent.flight]

end Flights

/-! ## The invariant -/

variable {probe : CachedProbe} {w w' : Readers T E}

/-- The fields say of the events what the next read needs to know. -/
structure ProbeInvariant (probe : CachedProbe) (w : Readers T E) : Prop where
  settled_eq : w.fields.settled =
    (w.log.findSome? probe.settles).map fun settled => ⟨settled.1 + probe.ttlMs, settled.2⟩
  pending_iff : ∀ flight, w.fields.pending = some flight ↔ InFlight w.log flight
  flying_eq : w.flying = w.fields.pending.toList
  /-- The next number is of no flight so far. -/
  numbered : ∀ e ∈ w.log, ∀ flight ∈ e.flight, flight < w.log.length
  order : Justified probe.InOrder w.log

namespace ProbeInvariant

theorem initial (now : Int) : ProbeInvariant probe (Readers.initial now : Readers T E) where
  settled_eq := rfl
  pending_iff flight := by simp [Readers.initial, InFlight]
  flying_eq := rfl
  numbered := by simp [Readers.initial]
  order := trivial

theorem fresh_eq (hinv : ProbeInvariant probe w) (now : Int) :
    CachedProbe.fresh w.fields now = probe.freshIn w.log now := by
  unfold CachedProbe.fresh CachedProbe.freshIn
  rw [hinv.settled_eq]
  cases w.log.findSome? probe.settles <;> rfl

/-- An event aside of all flights, which leaves the fields or settles an answer. -/
theorem aside (hinv : ProbeInvariant probe w) {e : ProbeEvent T E} {settled : Option (Settled T E)}
    {now : Int} (haside : e.flight = none) (horder : probe.InOrder w.log e)
    (hsettled : settled = ((e :: w.log).findSome? probe.settles).map fun settled =>
      ⟨settled.1 + probe.ttlMs, settled.2⟩) :
    ProbeInvariant probe ⟨⟨settled, w.fields.pending⟩, now, w.flying, e :: w.log⟩ where
  settled_eq := hsettled
  pending_iff flight := (hinv.pending_iff flight).trans (inFlight_aside haside).symm
  flying_eq := hinv.flying_eq
  numbered e' hmem flight hflight := by
    rcases List.mem_cons.mp hmem with rfl | hmem
    · rw [haside] at hflight
      cases hflight
    · exact Nat.lt_succ_of_lt (hinv.numbered e' hmem flight hflight)
  order := ⟨horder, hinv.order⟩

/-- A flight starts when none is pending. -/
theorem started (hinv : ProbeInvariant probe w) (hpending : w.fields.pending = none) {now : Int}
    (hfresh : probe.freshIn w.log now = none) :
    ProbeInvariant probe ⟨⟨w.fields.settled, some w.log.length⟩, now, w.log.length :: w.flying,
      .started w.log.length w.log.length now :: w.log⟩ where
  settled_eq := hinv.settled_eq
  pending_iff flight := by
    have hnew : ∀ outcome now, .landed w.log.length outcome now ∉ w.log :=
      fun outcome now hmem => Nat.lt_irrefl _ (hinv.numbered _ hmem _ rfl)
    have hnone : ¬ InFlight w.log flight := fun h => by
      have hsome := (hinv.pending_iff flight).mpr h
      rw [hpending] at hsome
      cases hsome
    simp [inFlight_started hnew, hnone, eq_comm]
  flying_eq := by simp [hinv.flying_eq, hpending]
  numbered e hmem flight hflight := by
    rcases List.mem_cons.mp hmem with rfl | hmem
    · obtain rfl := Option.some.inj hflight
      exact Nat.lt_succ_self _
    · exact Nat.lt_succ_of_lt (hinv.numbered e hmem flight hflight)
  order := by
    refine ⟨⟨hfresh, fun flight h => ?_⟩, hinv.order⟩
    have hsome := (hinv.pending_iff flight).mpr h
    rw [hpending] at hsome
    cases hsome

/-- The probe of the flight that is out is done. -/
theorem landed (hinv : ProbeInvariant probe w) {flight : Nat} (hflying : flight ∈ w.flying)
    (outcome : Except E T) (now : Int) :
    ProbeInvariant probe ⟨probe.endRun w.fields outcome now, now, w.flying.erase flight,
      .landed flight outcome now :: w.log⟩ := by
  have hpending : w.fields.pending = some flight := by
    rw [hinv.flying_eq, Option.mem_toList] at hflying
    exact hflying
  have hinFlight : InFlight w.log flight := (hinv.pending_iff flight).mp hpending
  refine ⟨?_, fun other => ?_, ?_, fun e hmem other hother => ?_, hinFlight, hinv.order⟩
  · rw [List.findSome?_cons]
    cases outcome with
    | ok value => rfl
    | error error =>
      -- a failure that is not cached leaves what was settled
      cases hcache : probe.cacheFailures <;>
        simp only [CachedProbe.endRun, CachedProbe.settles, hcache, hinv.settled_eq] <;> rfl
  · rw [inFlight_landed, ← hinv.pending_iff, hpending]
    simp only [CachedProbe.endRun, reduceCtorEq, Option.some.injEq, false_iff]
    rintro ⟨hne, rfl⟩
    exact hne rfl
  · simp [CachedProbe.endRun, hinv.flying_eq, hpending]
  · rcases List.mem_cons.mp hmem with rfl | hmem
    · obtain rfl := Option.some.inj hother
      obtain ⟨⟨read, now', hstarted⟩, -⟩ := hinFlight
      exact Nat.lt_succ_of_lt (hinv.numbered _ hstarted _ rfl)
    · exact Nat.lt_succ_of_lt (hinv.numbered e hmem other hother)

/-- What a number looked up in the events says of them. -/
theorem waitsFor_of_findSome {log : List (ProbeEvent T E)} {read flight : Nat}
    (h : log.findSome? (·.flightOf read) = some flight) : WaitsFor log read flight := by
  obtain ⟨e, hmem, he⟩ := List.exists_of_findSome?_eq_some h
  cases e with
  | joined read' flight' now =>
    simp only [ProbeEvent.flightOf, Option.ite_none_right_eq_some, Option.some.injEq] at he
    obtain ⟨rfl, rfl⟩ := he
    exact ⟨now, .inl hmem⟩
  | started read' flight' now =>
    simp only [ProbeEvent.flightOf, Option.ite_none_right_eq_some, Option.some.injEq] at he
    obtain ⟨rfl, rfl⟩ := he
    exact ⟨now, .inr hmem⟩
  | _ => cases he

theorem landed_of_findSome {log : List (ProbeEvent T E)} {flight : Nat} {outcome : Except E T}
    (h : log.findSome? (·.landing flight) = some outcome) : ∃ now, .landed flight outcome now ∈ log := by
  obtain ⟨e, hmem, he⟩ := List.exists_of_findSome?_eq_some h
  cases e with
  | landed flight' outcome' now =>
    simp only [ProbeEvent.landing, Option.ite_none_right_eq_some, Option.some.injEq] at he
    obtain ⟨rfl, rfl⟩ := he
    exact ⟨now, hmem⟩
  | _ => cases he

/-- **The invariant is kept**, where the probe returns a promise. -/
theorem act (hinv : ProbeInvariant probe w) {action : ReaderAction T E} (hok : action.ReturnsPromise)
    (h : probe.act w action = some w') : ProbeInvariant probe w' := by
  cases action with
  | prime value now =>
    simp only [CachedProbe.act, Option.ite_none_right_eq_some, Option.some.injEq] at h
    obtain ⟨-, rfl⟩ := h
    exact hinv.aside rfl trivial rfl
  | read call now =>
    simp only [CachedProbe.act, Option.ite_none_right_eq_some] at h
    obtain ⟨-, h⟩ := h
    unfold CachedProbe.read at h
    rw [hinv.fresh_eq] at h
    cases hfresh : probe.freshIn w.log now with
    | some outcome =>
      simp only [hfresh, Option.some.injEq] at h
      subst h
      exact hinv.aside rfl hfresh hinv.settled_eq
    | none =>
      cases hpending : w.fields.pending with
      | some flight =>
        simp only [hfresh, hpending, Option.some.injEq] at h
        subst h
        exact hinv.aside rfl ⟨hfresh, (hinv.pending_iff flight).mp hpending⟩ hinv.settled_eq
      | none =>
        cases call with
        | promise =>
          simp only [hfresh, hpending, Option.some.injEq] at h
          subst h
          exact hinv.started hpending hfresh
        | threw error later => exact hok.elim
  | land flight outcome now =>
    simp only [CachedProbe.act, Option.ite_none_right_eq_some, Option.some.injEq] at h
    obtain ⟨⟨-, hflying⟩, rfl⟩ := h
    exact hinv.landed hflying outcome now
  | answer read =>
    simp only [CachedProbe.act, Option.ite_none_left_eq_some, Option.map_eq_some_iff,
      Option.bind_eq_some_iff] at h
    obtain ⟨-, outcome, ⟨flight, hwaits, hlanded⟩, rfl⟩ := h
    exact hinv.aside rfl ⟨flight, waitsFor_of_findSome hwaits, landed_of_findSome hlanded⟩
      hinv.settled_eq

end ProbeInvariant

end Mapae.Facilitator
