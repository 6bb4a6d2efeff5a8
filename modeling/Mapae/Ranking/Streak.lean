import Mapae.Ranking.Days
import Mathlib.Data.List.MinMax

/-!
# Attendance streaks

A played day adds one to the run; a missed day spends a rest day that is held, or ends the run.
One rest day is earned for every seven played days of a run, and two are held at most.

The run is recomputed from all played days. Days after those known so far never shorten the longest
run (`best_le_of_later_days`). A further day in between shifts when rest days are earned, and one that
is earned while two are held is lost: `KeepsPace` says that the run does not end for want of it, and
then more days never lower the streak (`ahead_streakProgress`).
-/

namespace Mapae.Ranking

def STREAK_FREEZE_EVERY : Nat := 7
def STREAK_FREEZE_MAX : Nat := 2

/-- The variables of the loop; `completed` is how often a run reached a multiple of seven days. -/
structure StreakRun where
  current : Nat
  best : Nat
  freezes : Nat
  completed : Nat
  deriving DecidableEq

structure StreakProgress extends StreakRun where
  playedToday : Bool
  deriving DecidableEq

structure GuardianStreak where
  current : Nat
  best : Nat
  freezes : Nat
  playedToday : Bool

/-- A played day. -/
def StreakRun.play (run : StreakRun) : StreakRun :=
  let current := run.current + 1
  let earned := current % STREAK_FREEZE_EVERY = 0
  { current := current
    best := max run.best current
    freezes := if earned then min STREAK_FREEZE_MAX (run.freezes + 1) else run.freezes
    completed := if earned then run.completed + 1 else run.completed }

/-- A missed day. -/
def StreakRun.miss (run : StreakRun) : StreakRun :=
  if run.freezes > 0 then { run with freezes := run.freezes - 1 }
  else { run with current := 0, freezes := 0 }

/-- One turn of the loop. Today never breaks a run before it is over. -/
def streakDay (played : List Int) (today : Int) (run : StreakRun) (day : Int) : StreakRun :=
  if day ∈ played then run.play else if day = today then run else run.miss

/-- The `count` days from `first`. -/
def daysFrom (first : Int) (count : Nat) : List Int :=
  (List.range count).map fun i : Nat => first + (i : Int)

/-- The loop from the first played day to today. -/
def streakRun (played : List Int) (today : Int) : StreakRun :=
  match played.min? with
  | none => ⟨0, 0, 0, 0⟩
  | some first =>
    (daysFrom first (today - first + 1).toNat).foldl (streakDay played today) ⟨0, 0, 0, 0⟩

def streakProgress (days : List Int) (today : Int) : StreakProgress :=
  let played := days.filter fun day => day ≤ today
  { streakRun played today with playedToday := today ∈ played }

def guardianStreak (days : List Int) (today : Int) : GuardianStreak :=
  let progress := streakProgress days today
  ⟨progress.current, progress.best, progress.freezes, progress.playedToday⟩

/-- The progress depends on the days up to today, and not on how they are listed. -/
theorem streakProgress_congr {days days' : List Int} {today : Int}
    (h : ∀ d ≤ today, d ∈ days ↔ d ∈ days') : streakProgress days today = streakProgress days' today := by
  have hplayed (d : Int) : (d ∈ days.filter fun day => day ≤ today) ↔
      d ∈ days'.filter fun day => day ≤ today := by
    simp only [List.mem_filter, decide_eq_true_eq]
    exact and_congr_left (h d)
  unfold streakProgress
  generalize days.filter (fun day => day ≤ today) = played at hplayed
  generalize days'.filter (fun day => day ≤ today) = played' at hplayed
  have hmin : played.min? = played'.min? := by
    refine Option.ext fun first => ?_
    simp only [List.min?_eq_some_iff, hplayed]
  have hday : streakDay played today = streakDay played' today := by
    funext run day
    simp only [streakDay, hplayed]
  simp only [streakRun, hmin, hday, hplayed]

/-! ## Days that are over -/

/-- A day that is over. -/
def dayOver (played : List Int) (run : StreakRun) (day : Int) : StreakRun :=
  if day ∈ played then run.play else run.miss

/-- The last day of the loop. -/
def lastDay (played : List Int) (run : StreakRun) (today : Int) : StreakRun :=
  if today ∈ played then run.play else run

/-- The loop over all days before `day`. -/
def runBefore (played : List Int) (day : Int) : StreakRun :=
  match played.min? with
  | none => ⟨0, 0, 0, 0⟩
  | some first => (daysFrom first (day - first).toNat).foldl (dayOver played) ⟨0, 0, 0, 0⟩

section RunBefore

variable {played : List Int} {first day today : Int}

theorem mem_daysFrom {count : Nat} : day ∈ daysFrom first count ↔
    first ≤ day ∧ day < first + count := by
  simp only [daysFrom, List.mem_map, List.mem_range]
  constructor
  · rintro ⟨i, hi, rfl⟩
    omega
  · rintro ⟨hle, hlt⟩
    exact ⟨(day - first).toNat, by omega, by omega⟩

theorem daysFrom_add (first : Int) (a b : Nat) :
    daysFrom first (a + b) = daysFrom first a ++ daysFrom (first + a) b := by
  simp only [daysFrom, List.range_add, List.map_append, List.map_map]
  congr 1
  refine List.map_congr_left fun i _ => ?_
  simp only [Function.comp]
  omega

theorem foldl_dayOver_zero (days : List Int) (h : ∀ day ∈ days, day ∉ played) :
    days.foldl (dayOver played) ⟨0, 0, 0, 0⟩ = ⟨0, 0, 0, 0⟩ := by
  induction days with
  | nil => rfl
  | cons day days ih =>
    rw [List.foldl_cons, dayOver, if_neg (h day List.mem_cons_self)]
    exact ih fun x hx => h x (List.mem_cons_of_mem _ hx)

/-- The loop may start on any day up to the first that is played. -/
theorem runBefore_eq (hfirst : ∀ d ∈ played, first ≤ d) :
    runBefore played day = (daysFrom first (day - first).toNat).foldl (dayOver played) ⟨0, 0, 0, 0⟩ := by
  have hmissed {count : Nat} (h : ∀ d ∈ played, first + count ≤ d) :
      (daysFrom first count).foldl (dayOver played) ⟨0, 0, 0, 0⟩ = ⟨0, 0, 0, 0⟩ := by
    refine foldl_dayOver_zero _ fun d hd hplayed => ?_
    have := h d hplayed
    have := (mem_daysFrom.mp hd).2
    omega
  cases hmin : played.min? with
  | none =>
    obtain rfl := List.min?_eq_none_iff.mp hmin
    rw [runBefore, hmin, hmissed fun _ hd => nomatch hd]
  | some least =>
    obtain ⟨hleast, hle⟩ := List.min?_eq_some_iff.mp hmin
    have hstart := hfirst least hleast
    simp only [runBefore, hmin]
    rcases le_total day least with hday | hday
    · rw [Int.toNat_of_nonpos (by omega), hmissed fun d hd => ?_]
      · rfl
      · have := hle d hd
        omega
    · have hcount : (day - first).toNat = (least - first).toNat + (day - least).toNat := by omega
      have hleast' : first + ((least - first).toNat : Int) = least := by omega
      rw [hcount, daysFrom_add, List.foldl_append, hleast', hmissed fun d hd => ?_]
      have := hle d hd
      omega

theorem runBefore_of_le (h : ∀ d ∈ played, day ≤ d) : runBefore played day = ⟨0, 0, 0, 0⟩ := by
  rw [runBefore_eq h, Int.sub_self]
  rfl

theorem runBefore_succ (played : List Int) (day : Int) :
    runBefore played (day + 1) = dayOver played (runBefore played day) day := by
  obtain ⟨first, hday, hfirst⟩ : ∃ first, first ≤ day ∧ ∀ d ∈ played, first ≤ d := by
    cases hmin : played.min? with
    | none => exact ⟨day, le_rfl, fun d hd => by simp_all [List.min?_eq_none_iff]⟩
    | some least =>
      exact ⟨min least day, min_le_right _ _, fun d hd =>
        (min_le_left _ _).trans ((List.min?_eq_some_iff.mp hmin).2 d hd)⟩
  have hcount : (day + 1 - first).toNat = (day - first).toNat + 1 := by omega
  have hlast : daysFrom (first + ((day - first).toNat : Int)) 1 = [day] := by
    simp only [daysFrom, List.range_one, List.map_singleton, Int.natCast_zero, List.cons.injEq, and_true]
    omega
  rw [runBefore_eq hfirst, runBefore_eq hfirst, hcount, daysFrom_add, hlast, List.foldl_append]
  rfl

/-- What the loop comes to: all days that are over, and today. -/
theorem streakProgress_eq (days : List Int) (today : Int) :
    (streakProgress days today).toStreakRun = lastDay days (runBefore days today) today := by
  have hmem (d : Int) : (d ∈ days.filter fun day => day ≤ today) ↔ d ∈ days ∧ d ≤ today := by simp
  show streakRun (days.filter fun day => day ≤ today) today = _
  generalize days.filter (fun day => day ≤ today) = played at hmem
  -- Days after today are not looked at: they change neither the first day nor what is played before today.
  cases hmin : played.min? with
  | none =>
    obtain rfl := List.min?_eq_none_iff.mp hmin
    have hlater : ∀ d ∈ days, today < d := fun d hd =>
      Int.not_le.mp fun hle => nomatch (hmem d).mpr ⟨hd, hle⟩
    rw [lastDay, if_neg fun htoday => (hlater today htoday).false,
      runBefore_of_le fun d hd => (hlater d hd).le]
    rfl
  | some first =>
    obtain ⟨hfirst, hleast⟩ := List.min?_eq_some_iff.mp hmin
    have hle : first ≤ today := ((hmem first).mp hfirst).2
    have hstart : ∀ d ∈ days, first ≤ d := fun d hd => by
      by_contra hlt
      have := hleast d ((hmem d).mpr ⟨hd, by omega⟩)
      omega
    have hcount : (today - first + 1).toNat = (today - first).toNat + 1 := by omega
    have hlast : daysFrom (first + ((today - first).toNat : Int)) 1 = [today] := by
      simp only [daysFrom, List.range_one, List.map_singleton, Int.natCast_zero, List.cons.injEq, and_true]
      omega
    have hover : (daysFrom first (today - first).toNat).foldl (streakDay played today) ⟨0, 0, 0, 0⟩ =
        runBefore days today := by
      rw [runBefore_eq hstart]
      refine List.foldl_ext _ _ _ fun run d hd => ?_
      obtain ⟨hfrom, hlt⟩ := mem_daysFrom.mp hd
      have hsame : d ∈ played ↔ d ∈ days := by
        rw [hmem]
        exact and_iff_left (by omega)
      simp only [streakDay, dayOver, hsame, if_neg (show d ≠ today by omega)]
    have hsame : today ∈ played ↔ today ∈ days := (hmem today).trans (and_iff_left le_rfl)
    simp only [streakRun, hmin]
    rw [hcount, daysFrom_add, hlast, List.foldl_append, hover, List.foldl_cons, List.foldl_nil,
      streakDay, if_pos rfl]
    simp only [hsame, lastDay]

end RunBefore

/-! ## The longest run -/

section Best

variable {days days' : List Int} {today today' : Int}

theorem best_miss (run : StreakRun) : run.miss.best = run.best := by
  unfold StreakRun.miss
  split <;> rfl

/-- **As days pass, the longest run is never shortened.** -/
theorem best_mono (h : today ≤ today') : (streakProgress days today).best ≤ (streakProgress days today').best := by
  refine monotone_int_of_le_succ (f := fun today => (streakProgress days today).best) (fun day => ?_) h
  simp only [streakProgress_eq]
  have hover : (lastDay days (runBefore days day) day).best = (runBefore days (day + 1)).best := by
    rw [runBefore_succ, lastDay, dayOver]
    split
    · rfl
    · exact (best_miss _).symm
  rw [hover, lastDay]
  split
  · exact le_max_left _ _
  · exact le_rfl

/-- **Days after those known so far never shorten the longest run.** -/
theorem best_le_of_later_days (hsame : ∀ d ≤ today, d ∈ days ↔ d ∈ days') (htoday : today ≤ today') :
    (guardianStreak days today).best ≤ (guardianStreak days' today').best := by
  show (streakProgress days today).best ≤ (streakProgress days' today').best
  rw [streakProgress_congr hsame]
  exact best_mono htoday

end Best

/-! ## Further days -/

/-- A missed day ends the run over `days'`, while a rest day carries the run over `days`. -/
def FallsBehind (days days' : List Int) (day : Int) : Prop :=
  day ∉ days' ∧ (runBefore days' day).freezes = 0 ∧ 0 < (runBefore days day).freezes

instance (days days' : List Int) (day : Int) : Decidable (FallsBehind days days' day) :=
  inferInstanceAs (Decidable (_ ∧ _ ∧ _))

/-- On no day that is over does the run over `days'` fall behind. -/
def KeepsPace (days days' : List Int) (today : Int) : Prop :=
  ∀ first ∈ days'.min?, ∀ day ∈ daysFrom first (today - first).toNat, ¬ FallsBehind days days' day

instance (days days' : List Int) (today : Int) : Decidable (KeepsPace days days' today) :=
  inferInstanceAs (Decidable (∀ _ ∈ _, ∀ _ ∈ _, ¬ _))

/-- `b` has come at least as far as `a`. Of `b`, the lead over `a` makes up for the sevens that `a` has
and `b` does not have. -/
structure Ahead (a b : StreakRun) : Prop where
  current : a.current ≤ b.current
  best : a.best ≤ b.best
  completed : a.completed + b.current / STREAK_FREEZE_EVERY ≤
    b.completed + a.current / STREAK_FREEZE_EVERY + (b.current - a.current) / STREAK_FREEZE_EVERY

namespace Ahead

variable {a b : StreakRun}

theorem zero : Ahead ⟨0, 0, 0, 0⟩ ⟨0, 0, 0, 0⟩ := by
  constructor <;> simp

theorem completed_le (h : Ahead a b) : a.completed ≤ b.completed := by
  have := h.current
  have := h.completed
  simp only [STREAK_FREEZE_EVERY] at *
  omega

theorem play_completed (run : StreakRun) : run.play.completed =
    if (run.current + 1) % 7 = 0 then run.completed + 1 else run.completed := rfl

theorem play_current (run : StreakRun) : run.play.current = run.current + 1 := rfl

/-- Both play. -/
theorem play (h : Ahead a b) : Ahead a.play b.play := by
  obtain ⟨hcurrent, hbest, hcompleted⟩ := h
  simp only [STREAK_FREEZE_EVERY] at *
  refine ⟨Nat.succ_le_succ hcurrent, max_le_max hbest (Nat.succ_le_succ hcurrent), ?_⟩
  rw [play_completed, play_completed, play_current, play_current, STREAK_FREEZE_EVERY]
  split_ifs <;> omega

/-- Only `b` plays, and `a` waits for the end of the day. -/
theorem rest_play (h : Ahead a b) : Ahead a b.play := by
  obtain ⟨hcurrent, hbest, hcompleted⟩ := h
  simp only [STREAK_FREEZE_EVERY] at *
  refine ⟨Nat.le_succ_of_le hcurrent, le_max_of_le_left hbest, ?_⟩
  rw [play_completed, play_current, STREAK_FREEZE_EVERY]
  split_ifs <;> omega

/-- Whatever `a` misses, `b` stays ahead. -/
theorem miss_left (h : Ahead a b) : Ahead a.miss b := by
  obtain ⟨hcurrent, hbest, hcompleted⟩ := h
  simp only [STREAK_FREEZE_EVERY] at *
  unfold StreakRun.miss
  split <;> constructor <;> simp only [STREAK_FREEZE_EVERY] <;> omega

/-- Both miss. Where the run of `b` ends, that of `a` does. -/
theorem miss (h : Ahead a b) (hpace : ¬ (b.freezes = 0 ∧ 0 < a.freezes)) : Ahead a.miss b.miss := by
  have hcompleted' := h.completed_le
  obtain ⟨hcurrent, hbest, hcompleted⟩ := h
  simp only [STREAK_FREEZE_EVERY] at *
  unfold StreakRun.miss
  split <;> split <;> constructor <;> simp only [STREAK_FREEZE_EVERY] <;> omega

end Ahead

section Further

variable {days days' : List Int} {first today today' day : Int}

/-- **The run over more days is ahead**, as long as it keeps pace. -/
theorem ahead_runBefore (hsub : ∀ d ∈ days, d ∈ days') (hfirst : days'.min? = some first)
    (hle : first ≤ today) (hpace : KeepsPace days days' today) :
    Ahead (runBefore days today) (runBefore days' today) := by
  have hleast := (List.min?_eq_some_iff.mp hfirst).2
  have hall (n : Nat) (hn : first + n ≤ today) :
      Ahead (runBefore days (first + n)) (runBefore days' (first + n)) := by
    induction n with
    | zero =>
      have hstart : ∀ d ∈ days', first + ((0 : Nat) : Int) ≤ d := by simpa using hleast
      rw [runBefore_of_le hstart, runBefore_of_le fun d hd => hstart d (hsub d hd)]
      exact .zero
    | succ n ih =>
      have hahead := ih (by omega)
      rw [Int.natCast_succ, ← Int.add_assoc, runBefore_succ, runBefore_succ, dayOver, dayOver]
      -- played in both, in none, or only with the further days
      by_cases hplayed : first + (n : Int) ∈ days
      · rw [if_pos hplayed, if_pos (hsub _ hplayed)]
        exact hahead.play
      · rw [if_neg hplayed]
        split
        · exact hahead.miss_left.rest_play
        · next hmissed =>
          have hover : first + (n : Int) ∈ daysFrom first (today - first).toNat :=
            mem_daysFrom.mpr ⟨by omega, by omega⟩
          exact hahead.miss fun hbehind => hpace first hfirst _ hover ⟨hmissed, hbehind⟩
  have htoday : first + ((today - first).toNat : Int) = today := by omega
  exact htoday ▸ hall (today - first).toNat htoday.le

/-- **More days lower no streak**, as long as the run over them keeps pace. -/
theorem ahead_streakProgress (hsub : ∀ d ∈ days, d ∈ days') (hpace : KeepsPace days days' today) :
    Ahead (streakProgress days today).toStreakRun (streakProgress days' today).toStreakRun := by
  rw [streakProgress_eq, streakProgress_eq]
  have hahead : Ahead (runBefore days today) (runBefore days' today) := by
    by_cases hlater : ∀ d ∈ days', today ≤ d
    · rw [runBefore_of_le hlater, runBefore_of_le fun d hd => hlater d (hsub d hd)]
      exact .zero
    · obtain ⟨d, hd, hlt⟩ : ∃ d ∈ days', d < today := by simpa using hlater
      cases hmin : days'.min? with
      | none =>
        rw [List.min?_eq_none_iff.mp hmin] at hd
        cases hd
      | some first =>
        have hle := (List.min?_eq_some_iff.mp hmin).2 d hd
        exact ahead_runBefore hsub hmin (by omega) hpace
  unfold lastDay
  by_cases hplayed : today ∈ days
  · rw [if_pos hplayed, if_pos (hsub today hplayed)]
    exact hahead.play
  · rw [if_neg hplayed]
    split
    · exact hahead.rest_play
    · exact hahead

theorem KeepsPace.mono (h : KeepsPace days days' today') (hle : today ≤ today') :
    KeepsPace days days' today := fun first hfirst day hday => by
  obtain ⟨hfrom, hlt⟩ := mem_daysFrom.mp hday
  exact h first hfirst day (mem_daysFrom.mpr ⟨hfrom, by omega⟩)

/-- A rest day is earned by seven played days. -/
theorem freezes_le_current (days : List Int) (day : Int) :
    (runBefore days day).freezes ≤ (runBefore days day).current / STREAK_FREEZE_EVERY := by
  rw [runBefore]
  split
  · exact Nat.zero_le _
  · refine List.foldlRecOn (motive := fun run : StreakRun =>
      run.freezes ≤ run.current / STREAK_FREEZE_EVERY) _ _ (Nat.zero_le _) fun run hrun d _ => ?_
    simp only [STREAK_FREEZE_EVERY] at *
    unfold dayOver StreakRun.play StreakRun.miss
    split
    · dsimp only
      split <;> simp only [STREAK_FREEZE_EVERY, STREAK_FREEZE_MAX] at * <;> omega
    · split
      · dsimp only
        omega
      · exact Nat.zero_le _

/-- **The day after it falls behind, the run over more days is the shorter one.** -/
theorem current_lt_of_fallsBehind (hsub : ∀ d ∈ days, d ∈ days') (h : FallsBehind days days' day) :
    (streakProgress days' (day + 1)).current < (streakProgress days (day + 1)).current := by
  obtain ⟨hmissed, hended, hcarried⟩ := h
  have hrun := freezes_le_current days day
  simp only [STREAK_FREEZE_EVERY] at hrun
  have hends : (runBefore days' (day + 1)).current = 0 := by
    rw [runBefore_succ, dayOver, if_neg hmissed, StreakRun.miss, if_neg hended.not_gt]
  have hcarries : (runBefore days (day + 1)).current = (runBefore days day).current := by
    rw [runBefore_succ, dayOver, if_neg fun hd => hmissed (hsub day hd), StreakRun.miss, if_pos hcarried]
  rw [streakProgress_eq, streakProgress_eq]
  unfold lastDay
  by_cases hplayed : day + 1 ∈ days
  · rw [if_pos hplayed, if_pos (hsub _ hplayed), Ahead.play_current, Ahead.play_current]
    omega
  · rw [if_neg hplayed]
    split
    · rw [Ahead.play_current]
      omega
    · omega

end Further

end Mapae.Ranking
