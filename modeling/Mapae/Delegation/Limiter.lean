import Mapae.Infra.FixedWindow
import Mapae.Infra.Table

/-!
# The rate limiter

`FixedWindowLimiter` counts the calls of each key in a map. An entry whose window is over is
replaced at the key's next call, or dropped by `sweep`.

`decisions_eq` connects it to the fixed windows of the library: with times that do not go back,
the map forgets nothing a later call would need.
-/

namespace Mapae.Delegation

open Mapae.Infra

/-- An entry of the map. -/
structure WindowHits where
  key : String
  count : Int
  resetAt : Int

def WindowHits.window (entry : WindowHits) : OpenWindow := ⟨entry.resetAt, entry.count⟩

structure FixedWindowLimiter where
  limit : Int
  windowMs : Int
  limit_pos : 1 ≤ limit
  windowMs_pos : 1 ≤ windowMs
  hits : Table WindowHits.key

namespace FixedWindowLimiter

/-- `new FixedWindowLimiter(limit, windowMs)`. -/
def create (limit windowMs : Int) : Except String FixedWindowLimiter :=
  if hlimit : 1 ≤ limit then
    if hwindow : 1 ≤ windowMs then .ok ⟨limit, windowMs, hlimit, hwindow, Table.empty⟩
    else .error "windowMs must be a positive integer"
  else .error "limit must be a positive integer"

/-- The call is the first of a new window. -/
def openWindow (limiter : FixedWindowLimiter) (key : String) (now : Int) : FixedWindowLimiter :=
  { limiter with hits := limiter.hits.upsert ⟨key, 1, now + limiter.windowMs⟩ }

/-- True when the caller may proceed. -/
def tryConsume (limiter : FixedWindowLimiter) (key : String) (now : Int) :
    Bool × FixedWindowLimiter :=
  match limiter.hits.get? key with
  | none => (true, limiter.openWindow key now)
  | some entry =>
    if entry.resetAt ≤ now then (true, limiter.openWindow key now)
    else if limiter.limit ≤ entry.count then (false, limiter)
    else (true, { limiter with
      hits := limiter.hits.update key (fun e => { e with count := e.count + 1 }) fun _ => rfl })

/-- Drops the windows that are over. -/
def sweep (limiter : FixedWindowLimiter) (now : Int) : FixedWindowLimiter :=
  { limiter with hits := limiter.hits.filter fun entry => !decide (entry.resetAt ≤ now) }

end FixedWindowLimiter

inductive LimiterCall where
  | tryConsume (key : String) (now : Int)
  | sweep (now : Int)
  deriving DecidableEq

namespace LimiterCall

def time : LimiterCall → Int
  | tryConsume _ now => now
  | sweep now => now

/-- The key and the time of a call that asks. -/
def request : LimiterCall → Option (String × Int)
  | tryConsume key now => some (key, now)
  | sweep _ => none

end LimiterCall

namespace FixedWindowLimiter

/-- The limiter after one call. -/
def exec (limiter : FixedWindowLimiter) : LimiterCall → FixedWindowLimiter
  | .tryConsume key now => (limiter.tryConsume key now).2
  | .sweep now => limiter.sweep now

/-- What a call was told, with the end of the window that the map then has for the key. -/
def decision (limiter : FixedWindowLimiter) : LimiterCall → List (WindowVerdict String)
  | .tryConsume key now =>
    let (admitted, after) := limiter.tryConsume key now
    [⟨key, now, admitted, ((after.hits.get? key).map WindowHits.resetAt).getD now⟩]
  | .sweep _ => []

/-- What the calls are told, in order. -/
def decisions (limiter : FixedWindowLimiter) (calls : List LimiterCall) :
    List (WindowVerdict String) :=
  trace exec decision limiter calls

/-- The limit and the length of a window. -/
def rule (limiter : FixedWindowLimiter) : WindowRule :=
  ⟨limiter.limit, limiter.windowMs, limiter.limit_pos, limiter.windowMs_pos⟩

/-! ## The map and the windows -/

/-- The map shows the window of each key, except for some that are over at the time `now`. -/
def Shows (limiter : FixedWindowLimiter) (now : Int) (windows : String → Option OpenWindow) : Prop :=
  ∀ key, (limiter.hits.get? key).map WindowHits.window = windows key ∨
    limiter.hits.get? key = none ∧ ∃ w, windows key = some w ∧ w.resetAt ≤ now

variable {limiter : FixedWindowLimiter} {now later : Int} {windows : String → Option OpenWindow}
  {key : String}

theorem Shows.mono (h : limiter.Shows now windows) (hle : now ≤ later) :
    limiter.Shows later windows := by
  intro key
  refine (h key).imp_right ?_
  rintro ⟨hnone, w, hw, hend⟩
  exact ⟨hnone, w, hw, hend.trans hle⟩

/-- `sweep` drops nothing but windows that are over. -/
theorem Shows.sweep (h : limiter.Shows now windows) : (limiter.sweep now).Shows now windows := by
  intro key
  rw [FixedWindowLimiter.sweep, Table.get?_filter]
  rcases h key with h | ⟨hnone, h⟩
  · cases hget : limiter.hits.get? key with
    | none =>
      rw [hget] at h
      exact .inl h
    | some entry =>
      rw [hget, Option.map_some] at h
      by_cases hend : entry.resetAt ≤ now
      · refine .inr ⟨Option.filter_some_neg (by simp [hend]), _, h.symm, hend⟩
      · refine .inl ?_
        rw [Option.filter_some_pos (by simp [hend]), Option.map_some, h]
  · rw [hnone]
    exact .inr ⟨rfl, h⟩

/-- What `tryConsume` leaves in the map under a key. -/
theorem get?_openWindow (key' : String) :
    (limiter.openWindow key now).hits.get? key'
      = if key = key' then some ⟨key, 1, now + limiter.windowMs⟩ else limiter.hits.get? key' :=
  Table.get?_upsert ..

/-- **`tryConsume` judges as the windows do.** -/
theorem Shows.tryConsume (key : String) (h : limiter.Shows now windows) :
    (limiter.tryConsume key now).1 = (limiter.rule.judge (windows key) now).1 ∧
      ((limiter.tryConsume key now).2.hits.get? key).map WindowHits.window
        = some (limiter.rule.judge (windows key) now).2 := by
  have hfresh : ((limiter.openWindow key now).hits.get? key).map WindowHits.window
      = some ⟨now + limiter.windowMs, 1⟩ := by
    rw [get?_openWindow, if_pos rfl]
    rfl
  rcases h key with h | ⟨hnone, w, hw, hend⟩
  · cases hget : limiter.hits.get? key with
    | none =>
      rw [hget] at h
      rw [FixedWindowLimiter.tryConsume, hget, ← h]
      exact ⟨rfl, hfresh⟩
    | some entry =>
      rw [hget, Option.map_some] at h
      simp only [FixedWindowLimiter.tryConsume, hget, ← h]
      by_cases hend : entry.resetAt ≤ now
      · have hover : entry.window.resetAt ≤ now := hend
        rw [if_pos hend, WindowRule.judge_over hover]
        exact ⟨rfl, hfresh⟩
      · have hopen : ¬ entry.window.resetAt ≤ now := hend
        rw [if_neg hend]
        by_cases hcount : limiter.limit ≤ entry.count
        · have hfull : limiter.rule.limit ≤ entry.window.count := hcount
          rw [if_pos hcount, WindowRule.judge_full hopen hfull, hget]
          exact ⟨rfl, rfl⟩
        · have hroom : ¬ limiter.rule.limit ≤ entry.window.count := hcount
          rw [if_neg hcount, WindowRule.judge_counted hopen hroom, Table.get?_update, if_pos rfl,
            hget]
          exact ⟨rfl, rfl⟩
  · simp only [FixedWindowLimiter.tryConsume, hnone, hw]
    rw [WindowRule.judge_over hend]
    exact ⟨rfl, hfresh⟩

/-- `tryConsume` leaves the entries of other keys alone. -/
theorem get?_tryConsume_of_ne {key' : String} (hne : key ≠ key') :
    (limiter.tryConsume key now).2.hits.get? key' = limiter.hits.get? key' := by
  unfold FixedWindowLimiter.tryConsume
  split
  · rw [get?_openWindow, if_neg hne]
  · split_ifs
    · rw [get?_openWindow, if_neg hne]
    · rfl
    · rw [Table.get?_update, if_neg (Ne.symm hne)]

theorem rule_tryConsume : (limiter.tryConsume key now).2.rule = limiter.rule := by
  unfold FixedWindowLimiter.tryConsume
  split
  · rfl
  · split_ifs <;> rfl

theorem Shows.enter (key : String) (h : limiter.Shows now windows) :
    (limiter.tryConsume key now).2.Shows now (limiter.rule.enter windows (key, now)) := by
  intro key'
  by_cases hk : key = key'
  · subst hk
    rw [WindowRule.enter, Function.update_self]
    exact .inl (h.tryConsume key).2
  · rw [WindowRule.enter, Function.update_of_ne (Ne.symm hk), get?_tryConsume_of_ne hk]
    exact h key'

theorem Shows.decision (h : limiter.Shows now windows) :
    limiter.decision (.tryConsume key now) = limiter.rule.verdict windows (key, now) := by
  obtain ⟨hadmitted, hwindow⟩ := h.tryConsume key
  obtain ⟨entry, hget, hentry⟩ := Option.map_eq_some_iff.mp hwindow
  simp only [FixedWindowLimiter.decision, WindowRule.verdict, hadmitted, hget, ← hentry]
  rfl

/-- **The limiter decides as the windows do**, and a sweep makes no difference. -/
theorem decisions_eq : ∀ {calls : List LimiterCall} {limiter : FixedWindowLimiter} {now : Int}
    {windows : String → Option OpenWindow}, limiter.Shows now windows →
    (∀ call ∈ calls, now ≤ call.time) → calls.Pairwise (fun a b => a.time ≤ b.time) →
    limiter.decisions calls
      = limiter.rule.verdicts windows (calls.filterMap LimiterCall.request)
  | [], _, _, _, _, _, _ => rfl
  | call :: calls, limiter, now, windows, h, hfrom, hsorted => by
    obtain ⟨hcall, hrest⟩ := List.pairwise_cons.mp hsorted
    rw [decisions, trace, List.filterMap_cons]
    cases call with
    | tryConsume key time =>
      have hnow : limiter.Shows time windows := h.mono (hfrom _ List.mem_cons_self)
      have hnext := decisions_eq (hnow.enter key) hcall hrest
      rw [rule_tryConsume] at hnext
      rw [hnow.decision]
      exact congrArg _ hnext
    | sweep time =>
      have hnow : limiter.Shows time windows := h.mono (hfrom _ List.mem_cons_self)
      exact decisions_eq hnow.sweep hcall hrest

theorem create_eq_ok {limit windowMs : Int} :
    create limit windowMs = .ok limiter →
      limiter.limit = limit ∧ limiter.windowMs = windowMs ∧ limiter.hits = Table.empty := by
  unfold create
  split_ifs
  · intro h
    cases h
    exact ⟨rfl, rfl, rfl⟩
  · nofun
  · nofun

/-- The map of a new limiter shows that no window is open. -/
theorem shows_of_empty (h : limiter.hits = Table.empty) (now : Int) :
    limiter.Shows now fun _ => none := by
  intro key
  rw [h, Table.get?_empty]
  exact .inl rfl

end FixedWindowLimiter

end Mapae.Delegation
