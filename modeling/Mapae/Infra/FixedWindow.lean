import Mapae.Infra.Keyed
import Mapae.Infra.Transition
import Mathlib.Algebra.Order.Group.Int

/-!
# Counting in fixed windows

Requests come under keys. The first request of a key opens a window, the next one after its
end opens another, and each window admits so many.

* `count_window_le`: no window admits more than the limit
* `count_interval_le`: an interval as long as a window meets two windows at most, so it admits
  twice the limit
* `verdicts_of_key`: what a key is told depends on the requests of that key alone
-/

namespace Mapae.Infra

universe u

/-- How long a window is, and how many requests it admits. -/
structure WindowRule where
  limit : Int
  width : Int
  limit_pos : 1 ≤ limit
  width_pos : 1 ≤ width

/-- The window a key is in: when it ends, and how many requests it admitted. -/
structure OpenWindow where
  resetAt : Int
  count : Int

/-- What a request of `key` was told, and the end of the window it was told so in. -/
structure WindowVerdict (κ : Type u) where
  key : κ
  time : Int
  admitted : Bool
  resetAt : Int

namespace WindowRule

variable {κ : Type u} [DecidableEq κ] (rule : WindowRule)

/-- A request, judged in the window of its key. -/
def judge (window : Option OpenWindow) (time : Int) : Bool × OpenWindow :=
  match window with
  | none => (true, ⟨time + rule.width, 1⟩)
  | some window =>
    if window.resetAt ≤ time then (true, ⟨time + rule.width, 1⟩)
    else if rule.limit ≤ window.count then (false, window)
    else (true, { window with count := window.count + 1 })

section Judge

variable {rule : WindowRule} {window : OpenWindow} {time : Int}

theorem judge_over (h : window.resetAt ≤ time) :
    rule.judge (some window) time = (true, ⟨time + rule.width, 1⟩) := if_pos h

theorem judge_full (h : ¬ window.resetAt ≤ time) (hfull : rule.limit ≤ window.count) :
    rule.judge (some window) time = (false, window) := (if_neg h).trans (if_pos hfull)

theorem judge_counted (h : ¬ window.resetAt ≤ time) (hfull : ¬ rule.limit ≤ window.count) :
    rule.judge (some window) time = (true, { window with count := window.count + 1 }) :=
  (if_neg h).trans (if_neg hfull)

end Judge

/-- The windows after one request. -/
def enter (windows : κ → Option OpenWindow) (request : κ × Int) : κ → Option OpenWindow :=
  Function.update windows request.1 (some (rule.judge (windows request.1) request.2).2)

def verdict (windows : κ → Option OpenWindow) (request : κ × Int) : List (WindowVerdict κ) :=
  [⟨request.1, request.2, (rule.judge (windows request.1) request.2).1,
    (rule.judge (windows request.1) request.2).2.resetAt⟩]

/-- What the requests are told, one after the other. -/
def verdicts (windows : κ → Option OpenWindow) (requests : List (κ × Int)) :
    List (WindowVerdict κ) :=
  trace rule.enter rule.verdict windows requests

/-- The requests of `key` that the window with this end admitted. -/
def inWindow (key : κ) (resetAt : Int) (v : WindowVerdict κ) : Bool :=
  v.admitted && decide (v.key = key ∧ v.resetAt = resetAt)

/-- The admitted requests of `key` at or after `start` and before `start + width`. -/
def inInterval (key : κ) (start : Int) (v : WindowVerdict κ) : Bool :=
  v.admitted && decide (v.key = key ∧ start ≤ v.time ∧ v.time < start + rule.width)

/-! ## What holds of the verdicts so far -/

/-- What the verdicts on one key say about the window it is in. -/
structure KeyCounted (window : Option OpenWindow) (key : κ) (log : List (WindowVerdict κ)) :
    Prop where
  /-- A request lies in the window it was judged in. -/
  within : ∀ v ∈ log, v.key = key → v.time < v.resetAt ∧ v.resetAt ≤ v.time + rule.width
  /-- Two windows of a key do not overlap. -/
  apart : ∀ v ∈ log, v.key = key → ∀ v' ∈ log, v'.key = key →
    v.resetAt = v'.resetAt ∨ v.resetAt + rule.width ≤ v'.resetAt ∨ v'.resetAt + rule.width ≤ v.resetAt
  count_le : ∀ resetAt, (log.countP (inWindow key resetAt) : Int) ≤ rule.limit
  opened : ∀ v ∈ log, v.key = key → ∃ w, window = some w ∧
    (v.resetAt = w.resetAt ∨ v.resetAt + rule.width ≤ w.resetAt)
  counted : ∀ w, window = some w → (log.countP (inWindow key w.resetAt) : Int) ≤ w.count

/-- What the verdicts up to the time `now` say about the windows. -/
structure Counted (now : Int) (windows : κ → Option OpenWindow) (log : List (WindowVerdict κ)) :
    Prop where
  keys : ∀ key, rule.KeyCounted (windows key) key log
  /-- No window was opened later than now. -/
  begun : ∀ key w, windows key = some w → w.resetAt ≤ now + rule.width

theorem counted_start (now : Int) : rule.Counted now (fun _ : κ => none) [] := by
  have hlimit := rule.limit_pos
  refine ⟨fun key => ⟨nofun, nofun, fun e => ?_, nofun, nofun⟩, nofun⟩
  rw [List.countP_nil, Int.natCast_zero]
  omega

theorem KeyCounted.others {rule : WindowRule} {window : Option OpenWindow} {key : κ}
    {log : List (WindowVerdict κ)} {v : WindowVerdict κ} (h : rule.KeyCounted window key log)
    (hne : v.key ≠ key) : rule.KeyCounted window key (log ++ [v]) := by
  have hmem : ∀ x ∈ log ++ [v], x.key = key → x ∈ log := by
    intro x hx hkey
    rcases List.mem_append.mp hx with hx | hx
    · exact hx
    · exact absurd hkey (List.mem_singleton.mp hx ▸ hne)
  have hcount : ∀ e, (log ++ [v]).countP (inWindow key e) = log.countP (inWindow key e) := by
    intro e
    simp [List.countP_append, inWindow, hne]
  refine ⟨?_, ?_, ?_, ?_, ?_⟩
  · exact fun x hx hk => h.within x (hmem x hx hk) hk
  · exact fun x hx hk y hy hk' => h.apart x (hmem x hx hk) hk y (hmem y hy hk') hk'
  · exact fun e => hcount e ▸ h.count_le e
  · exact fun x hx hk => h.opened x (hmem x hx hk) hk
  · exact fun w hw => hcount w.resetAt ▸ h.counted w hw

/-- The request opens a window: it comes after the end of every window so far. -/
theorem KeyCounted.fresh {rule : WindowRule} {window : Option OpenWindow} {key : κ}
    {log : List (WindowVerdict κ)} {time : Int} (h : rule.KeyCounted window key log)
    (hend : ∀ w, window = some w → w.resetAt ≤ time) :
    rule.KeyCounted (some ⟨time + rule.width, 1⟩) key
      (log ++ [⟨key, time, true, time + rule.width⟩]) := by
  have hwidth := rule.width_pos
  have hlimit := rule.limit_pos
  have hlog : ∀ v ∈ log, v.key = key → v.resetAt + rule.width ≤ time + rule.width := by
    intro v hv hk
    obtain ⟨w, hw, hle⟩ := h.opened v hv hk
    have := hend w hw
    omega
  have hnone : log.countP (inWindow key (time + rule.width)) = 0 := by
    refine List.countP_eq_zero.mpr fun v hv hin => ?_
    simp only [inWindow, Bool.and_eq_true, decide_eq_true_eq] at hin
    have := hlog v hv hin.2.1
    omega
  have hcount : ∀ e,
      (log ++ [WindowVerdict.mk key time true (time + rule.width)]).countP (inWindow key e)
        = log.countP (inWindow key e) + if e = time + rule.width then 1 else 0 := by
    intro e
    rw [List.countP_append, List.countP_singleton]
    simp [inWindow, eq_comm (a := e)]
  refine ⟨?_, ?_, ?_, ?_, ?_⟩
  · intro v hv hk
    rcases List.mem_append.mp hv with hv | hv
    · exact h.within v hv hk
    · obtain rfl := List.mem_singleton.mp hv
      exact ⟨lt_add_of_pos_right time (by omega), le_refl _⟩
  · intro v hv hk v' hv' hk'
    rcases List.mem_append.mp hv with hv | hv <;> rcases List.mem_append.mp hv' with hv' | hv'
    · exact h.apart v hv hk v' hv' hk'
    · obtain rfl := List.mem_singleton.mp hv'
      exact .inr (.inl (hlog v hv hk))
    · obtain rfl := List.mem_singleton.mp hv
      exact .inr (.inr (hlog v' hv' hk'))
    · obtain rfl := List.mem_singleton.mp hv
      obtain rfl := List.mem_singleton.mp hv'
      exact .inl rfl
  · intro e
    rw [hcount e]
    by_cases he : e = time + rule.width
    · rw [he, hnone, if_pos rfl]
      omega
    · rw [if_neg he]
      exact h.count_le e
  · intro v hv hk
    refine ⟨_, rfl, ?_⟩
    rcases List.mem_append.mp hv with hv | hv
    · exact .inr (hlog v hv hk)
    · exact .inl (by rw [List.mem_singleton.mp hv])
  · rintro w hw
    obtain rfl := Option.some.inj hw
    rw [hcount, hnone, if_pos rfl]
    rfl

/-- The request is judged in the window that is open. -/
theorem KeyCounted.again {rule : WindowRule} {window : OpenWindow} {key : κ} {admitted : Bool}
    {log : List (WindowVerdict κ)} {time count : Int} (h : rule.KeyCounted (some window) key log)
    (hopen : time < window.resetAt) (hfrom : window.resetAt ≤ time + rule.width)
    (hcount : count = window.count + if admitted then 1 else 0)
    (hlimit : admitted = true → count ≤ rule.limit) :
    rule.KeyCounted (some { window with count := count }) key
      (log ++ [⟨key, time, admitted, window.resetAt⟩]) := by
  have hsplit : ∀ e,
      (log ++ [WindowVerdict.mk key time admitted window.resetAt]).countP (inWindow key e)
        = log.countP (inWindow key e) + if admitted ∧ e = window.resetAt then 1 else 0 := by
    intro e
    rw [List.countP_append, List.countP_singleton]
    cases admitted <;> simp [inWindow, eq_comm (a := e)]
  have hopened : ∀ v ∈ log, v.key = key →
      v.resetAt = window.resetAt ∨ v.resetAt + rule.width ≤ window.resetAt := by
    intro v hv hk
    obtain ⟨w, hw, hle⟩ := h.opened v hv hk
    exact Option.some.inj hw ▸ hle
  have hnow := h.counted window rfl
  refine ⟨?_, ?_, ?_, ?_, ?_⟩
  · intro v hv hk
    rcases List.mem_append.mp hv with hv | hv
    · exact h.within v hv hk
    · obtain rfl := List.mem_singleton.mp hv
      exact ⟨hopen, hfrom⟩
  · intro v hv hk v' hv' hk'
    rcases List.mem_append.mp hv with hv | hv <;> rcases List.mem_append.mp hv' with hv' | hv'
    · exact h.apart v hv hk v' hv' hk'
    · obtain rfl := List.mem_singleton.mp hv'
      exact (hopened v hv hk).imp_right .inl
    · obtain rfl := List.mem_singleton.mp hv
      exact (hopened v' hv' hk').imp Eq.symm .inr
    · obtain rfl := List.mem_singleton.mp hv
      obtain rfl := List.mem_singleton.mp hv'
      exact .inl rfl
  · intro e
    rw [hsplit e]
    have hle := h.count_le e
    split
    · next he =>
      obtain ⟨hadmitted, rfl⟩ := he
      have := hlimit hadmitted
      rw [hadmitted, if_pos rfl] at hcount
      push_cast
      omega
    · exact hle
  · intro v hv hk
    refine ⟨_, rfl, ?_⟩
    rcases List.mem_append.mp hv with hv | hv
    · exact hopened v hv hk
    · exact .inl (by rw [List.mem_singleton.mp hv])
  · rintro w hw
    obtain rfl := Option.some.inj hw
    rw [hsplit, hcount]
    cases admitted <;> simp <;> omega

/-- **One request** is counted in the window it is judged in. -/
theorem Counted.enter {rule : WindowRule} {now : Int} {windows : κ → Option OpenWindow}
    {log : List (WindowVerdict κ)} (h : rule.Counted now windows log) {request : κ × Int}
    (hnow : now ≤ request.2) :
    rule.Counted request.2 (rule.enter windows request) (log ++ rule.verdict windows request) := by
  obtain ⟨key, time⟩ := request
  have hbegun : ∀ key w, windows key = some w → w.resetAt ≤ time + rule.width := by
    intro key w hw
    have := h.begun key w hw
    have hle : now ≤ time := hnow
    omega
  -- It is enough to look at the window the request leaves its key in.
  have hown : ∀ admitted window, rule.judge (windows key) time = (admitted, window) →
      window.resetAt ≤ time + rule.width ∧
        rule.KeyCounted (some window) key (log ++ [⟨key, time, admitted, window.resetAt⟩]) := by
    intro admitted window hjudge
    cases hw : windows key with
    | none =>
      rw [hw, judge] at hjudge
      obtain ⟨rfl, rfl⟩ := Prod.mk.inj hjudge
      exact ⟨le_refl _, (hw ▸ h.keys key).fresh nofun⟩
    | some w =>
      have hkey := hw ▸ h.keys key
      rw [hw] at hjudge
      by_cases hend : w.resetAt ≤ time
      · rw [judge_over hend] at hjudge
        obtain ⟨rfl, rfl⟩ := Prod.mk.inj hjudge
        exact ⟨le_refl _, hkey.fresh fun w' hw' => Option.some.inj hw' ▸ hend⟩
      · have hfrom := hbegun key w hw
        by_cases hfull : rule.limit ≤ w.count
        · rw [judge_full hend hfull] at hjudge
          obtain ⟨rfl, rfl⟩ := Prod.mk.inj hjudge
          exact ⟨hfrom, hkey.again (by omega) hfrom (by simp) (by simp)⟩
        · rw [judge_counted hend hfull] at hjudge
          obtain ⟨rfl, rfl⟩ := Prod.mk.inj hjudge
          exact ⟨hfrom, hkey.again (by omega) hfrom (by simp) fun _ => by omega⟩
  obtain ⟨hreset, hcounted⟩ := hown _ _ rfl
  refine ⟨fun key' => ?_, fun key' w hw => ?_⟩
  · by_cases hk : key' = key
    · subst hk
      rw [WindowRule.enter, Function.update_self]
      exact hcounted
    · rw [WindowRule.enter, Function.update_of_ne hk]
      exact (h.keys key').others (Ne.symm hk)
  · by_cases hk : key' = key
    · subst hk
      rw [WindowRule.enter, Function.update_self] at hw
      exact Option.some.inj hw ▸ hreset
    · rw [WindowRule.enter, Function.update_of_ne hk] at hw
      exact hbegun key' w hw

/-- **A run of requests**, each no earlier than the one before. -/
theorem Counted.verdicts {rule : WindowRule} : ∀ {requests : List (κ × Int)} {now : Int}
    {windows : κ → Option OpenWindow} {log : List (WindowVerdict κ)},
    rule.Counted now windows log → (∀ r ∈ requests, now ≤ r.2) →
      requests.Pairwise (fun r r' => r.2 ≤ r'.2) →
      ∃ now' windows', rule.Counted now' windows' (log ++ rule.verdicts windows requests)
  | [], now, windows, log, h, _, _ => ⟨now, windows, by rwa [WindowRule.verdicts, trace, List.append_nil]⟩
  | r :: requests, _, _, _, h, hfrom, hsorted => by
    obtain ⟨hr, hrest⟩ := List.pairwise_cons.mp hsorted
    have hstep := h.enter (hfrom r List.mem_cons_self)
    rw [WindowRule.verdicts, trace, ← List.append_assoc]
    exact Counted.verdicts hstep hr hrest

/-! ## The bounds -/

variable {requests : List (κ × Int)}

theorem counted_verdicts (hsorted : requests.Pairwise fun r r' => r.2 ≤ r'.2) :
    ∃ now windows, rule.Counted now windows (rule.verdicts (fun _ => none) requests) := by
  cases requests with
  | nil => exact ⟨0, _, rule.counted_start 0⟩
  | cons r rest =>
    refine (rule.counted_start r.2).verdicts (fun r' hr' => ?_) hsorted
    rcases List.mem_cons.mp hr' with rfl | hr'
    · exact le_refl _
    · exact (List.pairwise_cons.mp hsorted).1 r' hr'

/-- A request lies in the window it is judged in, which is as long as the rule says. -/
theorem within_window (hsorted : requests.Pairwise fun r r' => r.2 ≤ r'.2)
    {v : WindowVerdict κ} (hv : v ∈ rule.verdicts (fun _ => none) requests) :
    v.time < v.resetAt ∧ v.resetAt ≤ v.time + rule.width := by
  obtain ⟨_, _, h⟩ := rule.counted_verdicts hsorted
  exact (h.keys v.key).within v hv rfl

/-- **Two windows of a key do not overlap.** -/
theorem windows_apart (hsorted : requests.Pairwise fun r r' => r.2 ≤ r'.2)
    {v v' : WindowVerdict κ} (hv : v ∈ rule.verdicts (fun _ => none) requests)
    (hv' : v' ∈ rule.verdicts (fun _ => none) requests) (hkey : v.key = v'.key)
    (hlt : v.resetAt < v'.resetAt) : v.resetAt + rule.width ≤ v'.resetAt := by
  obtain ⟨_, _, h⟩ := rule.counted_verdicts hsorted
  have hapart := (h.keys v'.key).apart v hv hkey v' hv' rfl
  have := rule.width_pos
  omega

/-- **No window admits more than the limit.** -/
theorem count_window_le (hsorted : requests.Pairwise fun r r' => r.2 ≤ r'.2) (key : κ)
    (resetAt : Int) :
    ((rule.verdicts (fun _ => none) requests).countP (inWindow key resetAt) : Int) ≤ rule.limit := by
  obtain ⟨_, _, h⟩ := rule.counted_verdicts hsorted
  exact (h.keys key).count_le resetAt

/-- **An interval as long as a window admits at most twice the limit**: it meets two windows. -/
theorem count_interval_le (hsorted : requests.Pairwise fun r r' => r.2 ≤ r'.2) (key : κ)
    (start : Int) :
    ((rule.verdicts (fun _ => none) requests).countP (rule.inInterval key start) : Int)
      ≤ 2 * rule.limit := by
  obtain ⟨_, _, h⟩ := rule.counted_verdicts hsorted
  have hkey := h.keys key
  generalize rule.verdicts (fun _ => none) requests = log at hkey ⊢
  have hlimit := rule.limit_pos
  -- A request of the interval is judged in a window that ends soon after the interval begins.
  have hends : ∀ v ∈ log, rule.inInterval key start v = true →
      v.admitted = true ∧ v.key = key ∧ start < v.resetAt ∧
        v.resetAt < start + rule.width + rule.width := by
    intro v hv hin
    simp only [inInterval, Bool.and_eq_true, decide_eq_true_eq] at hin
    have := hkey.within v hv hin.2.1
    exact ⟨hin.1, hin.2.1, by omega, by omega⟩
  by_cases hsome : ∃ v ∈ log, rule.inInterval key start v = true
  · obtain ⟨v, hv, hin⟩ := hsome
    obtain ⟨-, hk, hlo, hhi⟩ := hends v hv hin
    by_cases hother : ∃ v' ∈ log, rule.inInterval key start v' = true ∧ v'.resetAt ≠ v.resetAt
    · obtain ⟨v', hv', hin', hne⟩ := hother
      obtain ⟨-, hk', hlo', hhi'⟩ := hends v' hv' hin'
      have hmono : log.countP (rule.inInterval key start)
          ≤ log.countP (fun x => inWindow key v.resetAt x || inWindow key v'.resetAt x) := by
        refine List.countP_mono_left fun x hx hinx => ?_
        obtain ⟨hadm, hkx, hlox, hhix⟩ := hends x hx hinx
        have h₁ := hkey.apart x hx hkx v hv hk
        have h₂ := hkey.apart x hx hkx v' hv' hk'
        have h₃ := hkey.apart v hv hk v' hv' hk'
        have htwo : x.resetAt = v.resetAt ∨ x.resetAt = v'.resetAt := by omega
        simpa [inWindow, hadm, hkx] using htwo
      have hor := countP_or_le log (inWindow key v.resetAt) (inWindow key v'.resetAt)
      have hle := hkey.count_le v.resetAt
      have hle' := hkey.count_le v'.resetAt
      omega
    · have hmono : log.countP (rule.inInterval key start)
          ≤ log.countP (inWindow key v.resetAt) := by
        refine List.countP_mono_left fun x hx hinx => ?_
        obtain ⟨hadm, hkx, -, -⟩ := hends x hx hinx
        have hsame : x.resetAt = v.resetAt := by
          by_contra hne
          exact hother ⟨x, hx, hinx, hne⟩
        simp [inWindow, hadm, hkx, hsame]
      have hle := hkey.count_le v.resetAt
      omega
  · have hnone : log.countP (rule.inInterval key start) = 0 :=
      List.countP_eq_zero.mpr fun v hv hin => hsome ⟨v, hv, hin⟩
    rw [hnone]
    push_cast
    omega

/-- **Keys do not influence each other.** -/
theorem verdicts_of_key (key : κ) : ∀ (requests : List (κ × Int))
    {windows windows' : κ → Option OpenWindow}, windows key = windows' key →
    (rule.verdicts windows requests).filter (fun v => v.key = key)
      = rule.verdicts windows' (requests.filter fun r => r.1 = key)
  | [], _, _, _ => rfl
  | (k, time) :: requests, windows, windows', h => by
    rw [verdicts, trace, List.filter_append, List.filter_cons]
    by_cases hk : k = key
    · subst hk
      have hnext : rule.enter windows (k, time) k = rule.enter windows' (k, time) k := by
        rw [enter, enter, Function.update_self, Function.update_self, h]
      have hrest := verdicts_of_key k requests hnext
      rw [verdicts] at hrest
      rw [if_pos (by simp), verdicts, trace, hrest, verdict, verdict, h]
      simp [verdicts]
    · have hnext : rule.enter windows (k, time) key = windows' key := by
        rw [enter, Function.update_of_ne (Ne.symm hk), h]
      have hrest := verdicts_of_key key requests hnext
      rw [verdicts] at hrest
      rw [if_neg (by simpa using hk), hrest]
      simp [verdict, hk]

end WindowRule

end Mapae.Infra
