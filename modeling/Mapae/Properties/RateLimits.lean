import Mapae.Delegation.Limiter

/-!
# What the rate limiter admits

For every limiter and all calls of `tryConsume` and `sweep` whose times do not go back: no
window admits more than the limit, an interval as long as a window no more than twice the
limit, a key is told what it would be told alone, and a sweep more or less changes nothing. The limits of
the faucet follow.
-/

namespace Mapae.Delegation

open Mapae.Infra FixedWindowLimiter

variable {limiter : FixedWindowLimiter} {calls : List LimiterCall}

/-- The calls of `tryConsume` under a key. -/
def LimiterCall.asks (key : String) : LimiterCall → Bool
  | .tryConsume key' _ => decide (key' = key)
  | .sweep _ => false

/-- The calls come one after the other. -/
def Timed (calls : List LimiterCall) : Prop := calls.Pairwise fun a b => a.time ≤ b.time

/-- What a new limiter decides is what the windows decide. -/
theorem decisions_new (hnew : limiter.hits = Table.empty) (htimed : Timed calls) :
    limiter.decisions calls
      = limiter.rule.verdicts (fun _ => none) (calls.filterMap LimiterCall.request) := by
  cases calls with
  | nil => rfl
  | cons call calls =>
    refine decisions_eq (shows_of_empty hnew call.time) (fun other hother => ?_) htimed
    rcases List.mem_cons.mp hother with rfl | hother
    · exact le_refl _
    · exact (List.pairwise_cons.mp htimed).1 other hother

theorem requests_timed (htimed : Timed calls) :
    (calls.filterMap LimiterCall.request).Pairwise fun r r' => r.2 ≤ r'.2 := by
  refine List.pairwise_filterMap.mpr (htimed.imp ?_)
  intro a b hle r hr r' hr'
  cases a <;> cases b <;> simp_all [LimiterCall.request, LimiterCall.time]
  obtain ⟨rfl, rfl⟩ := hr, hr'
  exact hle

/-- The requests under a key are those of the calls under this key. -/
theorem requests_of_key (key : String) (calls : List LimiterCall) :
    (calls.filterMap LimiterCall.request).filter (fun r => r.1 = key)
      = (calls.filter (LimiterCall.asks key)).filterMap LimiterCall.request := by
  rw [List.filter_filterMap, List.filterMap_filter]
  congr 1
  funext call
  cases call with
  | tryConsume key' now => by_cases hk : key' = key <;> simp [LimiterCall.request, LimiterCall.asks, hk]
  | sweep now => rfl

/-- The windows of a log of decisions: each holds the calls that were judged in it, two of one
key do not overlap, and none admits more than the limit. -/
structure FixedWindows (limit windowMs : Int) (log : List (WindowVerdict String)) : Prop where
  within : ∀ d ∈ log, d.time < d.resetAt ∧ d.resetAt ≤ d.time + windowMs
  apart : ∀ d ∈ log, ∀ d' ∈ log, d.key = d'.key → d.resetAt < d'.resetAt →
    d.resetAt + windowMs ≤ d'.resetAt
  admits : ∀ key resetAt, (log.countP fun d =>
    d.admitted && decide (d.key = key ∧ d.resetAt = resetAt)) ≤ limit

/-- **What the rate limiter admits.** -/
theorem fixed_window_bounds {limit windowMs : Int} (calls : List LimiterCall)
    (hnew : create limit windowMs = .ok limiter) (htimed : Timed calls) :
    (∀ key start, ((limiter.decisions calls).countP fun d =>
      d.admitted && decide (d.key = key ∧ start ≤ d.time ∧ d.time < start + windowMs)) ≤ 2 * limit) ∧
    FixedWindows limit windowMs (limiter.decisions calls) ∧
    (∀ key, (limiter.decisions calls).filter (fun d => d.key = key)
      = limiter.decisions (calls.filter (LimiterCall.asks key))) ∧
    ∀ before after now, calls = before ++ .sweep now :: after →
      limiter.decisions calls = limiter.decisions (before ++ after) := by
  obtain ⟨rfl, rfl, hempty⟩ := create_eq_ok hnew
  have hdecisions := decisions_new hempty htimed
  have hrequests := requests_timed htimed
  refine ⟨fun key start => ?_, ⟨?_, ?_, fun key resetAt => ?_⟩, fun key => ?_, ?_⟩
  · rw [hdecisions]
    exact limiter.rule.count_interval_le hrequests key start
  · rw [hdecisions]
    exact fun d hd => limiter.rule.within_window hrequests hd
  · rw [hdecisions]
    exact fun d hd d' hd' => limiter.rule.windows_apart hrequests hd hd'
  · rw [hdecisions]
    exact limiter.rule.count_window_le hrequests key resetAt
  · have hown : Timed (calls.filter (LimiterCall.asks key)) :=
      htimed.sublist List.filter_sublist
    rw [hdecisions, decisions_new hempty hown, ← requests_of_key]
    exact limiter.rule.verdicts_of_key key _ rfl
  · rintro before after now rfl
    have hless : Timed (before ++ after) :=
      htimed.sublist (List.Sublist.append_left (List.sublist_cons_self _ _) before)
    rw [hdecisions, decisions_new hempty hless, List.filterMap_append, List.filterMap_append]
    rfl

/-- A limiter that admits one call a second. -/
def sampleLimiter : FixedWindowLimiter := ⟨1, 1000, by decide, by decide, Table.empty⟩

/-- Two calls a window apart open two windows; the sweep between them drops the first. -/
def sampleCalls : List LimiterCall :=
  [.tryConsume "a" 0, .tryConsume "b" 400, .tryConsume "a" 999, .sweep 1000, .tryConsume "a" 1000]

theorem fixed_window_bounds_sample :
    FixedWindows 1 1000 (sampleLimiter.decisions sampleCalls) ∧
      sampleLimiter.decisions sampleCalls
        = sampleLimiter.decisions (sampleCalls.filter fun call => call ≠ .sweep 1000) := by
  have hbounds := fixed_window_bounds sampleCalls (show create 1 1000 = .ok sampleLimiter from rfl)
    (by unfold Timed; decide)
  exact ⟨hbounds.2.1, hbounds.2.2.2
    [.tryConsume "a" 0, .tryConsume "b" 400, .tryConsume "a" 999] [.tryConsume "a" 1000] 1000 rfl⟩

example : (sampleLimiter.decisions sampleCalls).map (fun d => (d.key, d.admitted, d.resetAt))
    = [("a", true, 1000), ("b", true, 1400), ("a", false, 1000), ("a", true, 2000)] := by decide

end Mapae.Delegation
