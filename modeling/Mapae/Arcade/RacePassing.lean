import Mapae.Arcade.RaceSteps

/-!
# Who passes whom

A horse on the inner path follows the nearest horse ahead on it and stays behind that one. So it stays
behind all the others ahead, each of which follows the next one, unless two of these are level: then it
follows only one of them.

* `movedAt_distance`: no horse goes back, and none goes further in a tick than 6.1
* `never_passes` is about two horses on the inner path
-/

namespace Mapae.Arcade.Track

open Mapae.Infra

variable {κ : Type} [LinearOrder κ] {collate : String → κ} {weather : RaceCourse → ℚ → ℚ}

/-! ## How far a horse goes -/

/-- What is assumed of the weather: it is no head wind and no storm. -/
def Mild (weather : RaceCourse → ℚ → ℚ) : Prop :=
  ∀ course distance, 0 < weather course distance ∧ weather course distance ≤ 103 / 100

section Speed

variable {input : RaceInput} {state : RaceState} {snapshot : List RacePosition} {now : ℚ} {runner : Racer}
  {position : RacePosition} {course : RaceCourse} {plan : Plan}

theorem mul_mem_Icc {x y a b : ℚ} (hx : x ∈ Set.Icc 0 a) (hy : y ∈ Set.Icc 0 b) : x * y ∈ Set.Icc 0 (a * b) :=
  ⟨mul_nonneg hx.1 hy.1, mul_le_mul hx.2 hy.2 hy.1 (hx.1.trans hx.2)⟩

theorem effort_mem (strategy : RaceStrategy) (progress : ℚ) : effort strategy progress ∈ Set.Icc 0 (155 / 100) := by
  unfold effort
  constructor <;> (repeat' split) <;> norm_num

theorem paceOf_mem : paceOf course runner position plan ∈ Set.Icc 0 (155 / 100) := by
  unfold paceOf
  split
  · next call _ =>
    cases call.pace <;> constructor <;> norm_num [paceFactor]
  · exact effort_mem _ _

theorem raceRouteEffect_mem (terrain : RaceTerrain) (route : RaceRoute) (pace : RacePace) (stamina : ℚ) :
    (raceRouteEffect terrain route pace stamina).speed ∈ Set.Icc 0 (115 / 100) := by
  unfold raceRouteEffect RACE_OUTSIDE_SPEED
  constructor <;> (repeat' split) <;> norm_num

theorem routeOf_mem : (routeOf course position plan).speed ∈ Set.Icc 0 (115 / 100) := by
  unfold routeOf
  split
  · exact raceRouteEffect_mem _ _ _ _
  · unfold RACE_OUTSIDE_SPEED
    constructor <;> dsimp only <;> split <;> norm_num

variable (collate input state snapshot now runner) in
theorem planOf_stamina (h : 0 ≤ position.stamina) :
    0 ≤ (planOf collate input state snapshot now runner position).stamina := by
  -- a burst is begun only with the stamina it costs
  have hcost : ∀ requested : Bool, 0 ≤ if (if burstOf state.bursts runner.id = none ∧ requested ∧
      RACE_BURST_COST ≤ position.stamina then some (⟨runner.id, now, position.stamina⟩ : RaceBurst)
      else none).isSome then position.stamina - RACE_BURST_COST else position.stamina := by
    intro requested
    split
    · next hburst => exact sub_nonneg.mpr hburst.2.2
    · exact h
  exact hcost _

variable (course now runner position plan) in
theorem speedOf_mem (hweather : Mild weather) (haptitude : ∀ aptitude ∈ runner.aptitude, aptitude ∈ [4, 5, 6])
    (hstamina : 0 ≤ plan.stamina) : speedOf weather course now runner position plan ∈ Set.Icc 0 61 := by
  have haptitude' : RACE_BASE_SPEED * (1 + (((runner.aptitude.getD 5 : Nat) : ℚ) - 5) * (2 / 100)) ∈
      Set.Icc 0 (19 * (102 / 100)) := by
    have hvalue : runner.aptitude.getD 5 ∈ [4, 5, 6] := by
      cases haptitude' : runner.aptitude with
      | none => simp
      | some aptitude => exact haptitude aptitude haptitude'
    unfold RACE_BASE_SPEED
    simp only [List.mem_cons, List.not_mem_nil, or_false] at hvalue
    obtain h | h | h := hvalue <;> rw [h] <;> constructor <;> norm_num
  have hfatigue : 4 / 10 + 6 / 10 * min 1 (plan.stamina / 25) ∈ Set.Icc (0 : ℚ) 1 := by
    have hmin : 0 ≤ min 1 (plan.stamina / 25) := le_min zero_le_one (div_nonneg hstamina (by norm_num))
    have hmax : min 1 (plan.stamina / 25) ≤ 1 := min_le_left _ _
    constructor <;> linarith
  have hburst : (if plan.burst.any fun burst => decide (now < burst.time + RACE_BURST_SECONDS) then
      RACE_BURST_SPEED else 1) ∈ Set.Icc 0 (17 / 10) := by
    unfold RACE_BURST_SPEED
    constructor <;> split <;> norm_num
  have hwind := hweather course position.distance
  have hspeed : speedOf weather course now runner position plan ∈
      Set.Icc 0 (19 * (102 / 100) * (155 / 100) * (103 / 100) * 1 * (115 / 100) * (17 / 10)) :=
    mul_mem_Icc (mul_mem_Icc (mul_mem_Icc (mul_mem_Icc (mul_mem_Icc haptitude' paceOf_mem)
    ⟨hwind.1.le, hwind.2⟩) hfatigue) routeOf_mem) hburst
  exact ⟨hspeed.1, hspeed.2.trans (by norm_num)⟩

end Speed

section Passing

variable {input : RaceInput} {state : RaceState} {before : RacePosition}

theorem Legal.aptitude (h : Legal input) {runner : Racer} (hrunner : runner ∈ input.entrants) :
    ∀ aptitude ∈ runner.aptitude, aptitude ∈ [4, 5, 6] := by
  have hracers := h.racers
  unfold validRacers at hracers
  simp only [Bool.and_eq_true, List.all_eq_true, Option.all_eq_true, decide_eq_true_eq] at hracers
  exact hracers.2 runner hrunner

variable (collate input state) in
/-- **How far a horse goes in a tick.** -/
theorem movedAt_distance (hlegal : Legal input) (hweather : Mild weather) (tick : Nat)
    (hstamina : 0 ≤ before.stamina) :
    before.distance ≤ (movedAt collate weather input tick state before).distance ∧
      (movedAt collate weather input tick state before).distance ≤ before.distance + 61 / 10 := by
  unfold movedAt moveOf
  dsimp only
  split
  · constructor <;> linarith
  · split
    · constructor <;> linarith
    · next runner hrunner =>
      have hmem : runner ∈ input.entrants := List.mem_of_find?_eq_some hrunner
      have hplan := planOf_stamina collate input (calledAt collate input tick state)
        (snapshotAt collate input tick state) (tick / 10) runner hstamina
      have hspeed := speedOf_mem (tick / 10) runner before input.course _ hweather (hlegal.aptitude hmem) hplan
      unfold STEP
      dsimp only
      constructor <;> linarith [hspeed.1, hspeed.2]

/-! ## Following -/

variable (collate) in
/-- **Whom a horse follows**: a horse on the inner path that does not come after another one ahead. -/
theorem raceTraffic_ahead {positions : List RacePosition} (hnodup : (positions.map RacePosition.id).Nodup)
    {behind ahead : RacePosition} (hbehind : behind ∈ positions) (hahead : ahead ∈ positions)
    (hpath : ahead.path = .shortcut) (hlt : behind.distance + TIE < ahead.distance) :
    ∃ leader ∈ positions, leader.path = .shortcut ∧ behind.distance + TIE < leader.distance ∧
      nearKey collate leader ≤ nearKey collate ahead ∧
      (raceTraffic collate positions behind.id).aheadId = some leader.id ∧
      (raceTraffic collate positions behind.id).gap = some (leader.distance - behind.distance) := by
  have hne : ahead.id ≠ behind.id := by
    intro heq
    obtain rfl := List.inj_on_of_nodup_map hnodup hahead hbehind heq
    unfold TIE at hlt
    linarith
  have hcandidate : ahead ∈ positions.filter fun position => decide (position.id ≠ behind.id ∧
      position.path = .shortcut ∧ behind.distance + TIE < position.distance) :=
    List.mem_filter.mpr ⟨hahead, decide_eq_true ⟨hne, hpath, hlt⟩⟩
  obtain ⟨leader, hleader, hhead, hfirst⟩ := exists_head?_orderBy (f := nearKey collate) hcandidate
  obtain ⟨hmem, hleader'⟩ := List.mem_filter.mp hleader
  obtain ⟨-, hleaderpath, hleaderlt⟩ := of_decide_eq_true hleader'
  refine ⟨leader, hmem, hleaderpath, hleaderlt, hfirst ahead hcandidate, ?_, ?_⟩
  all_goals
    unfold raceTraffic
    rw [positionOf_eq_some hnodup hbehind]
    simp only [hhead, Option.map_some]

variable (collate weather) in
/-- The horse that is drafted, in a tick. -/
theorem movedAt_draftingId (tick : Nat) (hrunning : arrived state.times before.id = false)
    (hrunner : before.id ∈ input.entrants.map Racer.id) (hpath : before.path = .shortcut) :
    let traffic := raceTraffic collate (running state.times (snapshotAt collate input tick state)) before.id
    (movedAt collate weather input tick state before).draftingId =
      if traffic.gap.any fun gap => decide (gap ≤ RACE_DRAFT_DISTANCE) then traffic.aheadId else none := by
  obtain ⟨runner, hmem, hid⟩ := List.mem_map.mp hrunner
  obtain ⟨found, hfound⟩ : ∃ found, runnerOf input before.id = some found :=
    Option.isSome_iff_exists.mp (List.find?_isSome.mpr ⟨runner, hmem, decide_eq_true hid⟩)
  have hfoundid : found.id = before.id := by simpa using List.find?_some hfound
  have hrunning' : arrived (calledAt collate input tick state).times before.id = false := hrunning
  unfold movedAt moveOf
  simp only [hrunning', hfound, planOf, hpath, hfoundid, true_and]
  rfl

/-- A horse that is held up stays behind the one that it follows, and does not go back. -/
theorem block_distance {snapshot next : List RacePosition} {moved leader after : RacePosition}
    (hdraft : moved.draftingId = some leader.id) (htruthy : leader.id ≠ "")
    (hleader : positionOf snapshot leader.id = some leader) (hafter : positionOf next leader.id = some after)
    (hlt : before.distance < leader.distance) (hlt' : before.distance < after.distance) :
    (block snapshot next before moved).distance < after.distance := by
  have hafterid := positionOf_id hafter
  have hlimit : max before.distance (after.distance - min RACE_FOLLOW_GAP (leader.distance - before.distance)) <
      after.distance := by
    refine max_lt hlt' (sub_lt_self _ (lt_min ?_ (sub_pos.mpr hlt)))
    norm_num [RACE_FOLLOW_GAP]
  unfold block
  simp only [hdraft, Option.filter_some, decide_eq_true htruthy, if_true, Option.bind_some, hafter, hafterid, hleader]
  split
  · exact hlimit
  · next hle => exact (not_lt.mp hle).trans_lt hlimit

theorem block_bounds (snapshot next : List RacePosition) {moved : RacePosition}
    (h : before.distance ≤ moved.distance) :
    before.distance ≤ (block snapshot next before moved).distance ∧
      (block snapshot next before moved).distance ≤ moved.distance := by
  unfold block
  split
  · exact ⟨h, le_rfl⟩
  · split
    · exact ⟨h, le_rfl⟩
    · dsimp only
      split
      · next hlt => exact ⟨le_max_left _ _, hlt.le⟩
      · exact ⟨h, le_rfl⟩

/-! ## On the inner path -/

section Tick

variable {tick : Nat} {after : RacePosition}

/-- The horses that are still running, as they all see each other in a tick. -/
def runningAt (collate : String → κ) (input : RaceInput) (tick : Nat) (state : RaceState) : List RacePosition :=
  running state.times (snapshotAt collate input tick state)

theorem mem_runningAt : before ∈ runningAt collate input tick state ↔
    before ∈ snapshotAt collate input tick state ∧ arrived state.times before.id = false := by
  unfold runningAt running
  rw [List.mem_filter, Bool.not_eq_true']

variable (collate tick) in
theorem snapshotAt_sound (h : OnTrack input state) :
    Sound (input.entrants.map Racer.id) (snapshotAt collate input tick state, state.times) :=
  snapshot_sound h _

theorem OnTrack.snapshot_distance (h : OnTrack input state) (hbefore : before ∈ snapshotAt collate input tick state) :
    before.distance ≤ input.course.distance := by
  obtain ⟨old, hold, rfl⟩ := mem_snapshotOf.mp hbefore
  exact h.distance old hold

variable (collate tick) in
theorem runningAt_nodup (hlegal : Legal input) (h : OnTrack input state) :
    ((runningAt collate input tick state).map RacePosition.id).Nodup := by
  refine List.Nodup.sublist (List.filter_sublist.map RacePosition.id) ?_
  rw [(snapshotAt_sound collate tick h).horses]
  exact hlegal.nodup

/-- What the tick makes of a horse that is running. -/
theorem OnTrack.went (hlegal : Legal input) (h : OnTrack input state)
    (hbefore : before ∈ runningAt collate input tick state)
    (hafter : positionOf (Track.raceTick collate weather input tick state).positions before.id = some after) :
    after.path = before.path ∧ ∃ next, (∀ leader ∈ snapshotAt collate input tick state,
        before.distance < leader.distance → positionOf next leader.id =
          positionOf (Track.raceTick collate weather input tick state).positions leader.id) ∧
      after.distance = min input.course.distance
        (block (snapshotAt collate input tick state) next before
          (movedAt collate weather input tick state before)).distance := by
  obtain ⟨hmem, hrunning⟩ := mem_runningAt.mp hbefore
  obtain ⟨after', hafter', hticked⟩ := h.ticked collate weather hlegal tick hmem
  obtain rfl : after = after' := Option.some.inj (hafter.symm.trans hafter')
  cases hticked with
  | stayed harrived _ =>
    rw [hrunning] at harrived
    cases harrived
  | went _ hpath next hahead hdistance => exact ⟨hpath, next, hahead, hdistance⟩

/-- It does not go back, and does not go too far. -/
theorem OnTrack.after_bounds (hlegal : Legal input) (hweather : Mild weather) (h : OnTrack input state)
    (hbefore : before ∈ runningAt collate input tick state)
    (hafter : positionOf (Track.raceTick collate weather input tick state).positions before.id = some after) :
    before.distance ≤ after.distance ∧ after.distance ≤ before.distance + 61 / 10 := by
  obtain ⟨-, next, -, hdistance⟩ := h.went hlegal hbefore hafter
  have hmem := (mem_runningAt.mp hbefore).1
  have hmoved := movedAt_distance collate input state hlegal hweather tick
    ((snapshotAt_sound collate tick h).stamina before hmem)
  have hblock := block_bounds (snapshotAt collate input tick state) next hmoved.1
  rw [hdistance]
  exact ⟨le_min (h.snapshot_distance hmem) hblock.1, (min_le_right _ _).trans (hblock.2.trans hmoved.2)⟩

/-- **A horse stays behind the one that it follows.** -/
theorem OnTrack.stays_behind (hlegal : Legal input) (hweather : Mild weather) (h : OnTrack input state)
    {leader after' : RacePosition} (hbefore : before ∈ runningAt collate input tick state)
    (hleader : leader ∈ runningAt collate input tick state) (htruthy : leader.id ≠ "")
    (hlt : before.distance < leader.distance)
    (hdraft : (movedAt collate weather input tick state before).draftingId = some leader.id)
    (hafter : positionOf (Track.raceTick collate weather input tick state).positions before.id = some after)
    (hafter' : positionOf (Track.raceTick collate weather input tick state).positions leader.id = some after') :
    after.distance < after'.distance := by
  obtain ⟨-, next, hnext, hdistance⟩ := h.went hlegal hbefore hafter
  have hmem := (mem_runningAt.mp hleader).1
  have hnodup : ((snapshotAt collate input tick state).map RacePosition.id).Nodup := by
    rw [(snapshotAt_sound collate tick h).horses]
    exact hlegal.nodup
  have hblock := block_distance hdraft htruthy (positionOf_eq_some hnodup hmem)
    ((hnext leader hmem hlt).trans hafter') hlt
    (hlt.trans_le (h.after_bounds hlegal hweather hleader hafter').1)
  rw [hdistance]
  exact (min_le_right _ _).trans_lt hblock

/-- **A horse on the inner path does not pass another one on it**, unless a third one is level with that.
The induction is on how far behind it is: the horse that it follows is less far behind. -/
theorem OnTrack.never_passes (hlegal : Legal input) (hnames : ∀ runner ∈ input.entrants, runner.id ≠ "")
    (hweather : Mild weather) (h : OnTrack input state) {ahead ahead' : RacePosition}
    (hahead : ahead ∈ runningAt collate input tick state) (hpath : ahead.path = .shortcut)
    (hahead' : positionOf (Track.raceTick collate weather input tick state).positions ahead.id = some ahead')
    (n : Nat) : ∀ {behind behind' : RacePosition}, behind ∈ runningAt collate input tick state →
      behind.path = .shortcut → behind.distance + TIE < ahead.distance → ahead.distance ≤ behind.distance + n * TIE →
      (∀ third ∈ runningAt collate input tick state, third.path = .shortcut →
        behind.distance + TIE < third.distance → nearKey collate third ≤ nearKey collate ahead →
          ahead.distance ≤ third.distance + TIE → third = ahead) →
      positionOf (Track.raceTick collate weather input tick state).positions behind.id = some behind' →
      behind'.distance < ahead'.distance := by
  induction n with
  | zero =>
    intro behind behind' _ _ hlt hle
    have htie : 0 < TIE := by norm_num [TIE]
    rw [Nat.cast_zero, zero_mul, add_zero] at hle
    linarith
  | succ n ih =>
    intro behind behind' hbehind hbehindpath hlt hle hthird hbehind'
    have htie : 0 < TIE := by norm_num [TIE]
    have hnodup := runningAt_nodup collate tick hlegal h
    obtain ⟨leader, hleader, hleaderpath, hleaderlt, hleaderle, haheadId, hgap⟩ :=
      raceTraffic_ahead collate hnodup hbehind hahead hpath hlt
    have hdistance : leader.distance ≤ ahead.distance :=
      (Prod.Lex.toLex_le_toLex.mp hleaderle).elim (·.le) (·.1.le)
    have hknown : ∀ position ∈ runningAt collate input tick state, position.id ∈ input.entrants.map Racer.id := by
      intro position hposition
      rw [← (snapshotAt_sound collate tick h).horses]
      exact List.mem_map_of_mem (mem_runningAt.mp hposition).1
    have hdraft := movedAt_draftingId collate weather tick
      (mem_runningAt.mp hbehind).2 (hknown behind hbehind) hbehindpath
    simp only [show running state.times (snapshotAt collate input tick state) = runningAt collate input tick state
      from rfl, haheadId, hgap, Option.any_some, decide_eq_true_eq] at hdraft
    by_cases hnear : leader.distance - behind.distance ≤ RACE_DRAFT_DISTANCE
    · rw [if_pos hnear] at hdraft
      obtain ⟨leader', hleader', -⟩ := h.ticked collate weather hlegal tick (mem_runningAt.mp hleader).1
      obtain ⟨runner, hrunner, hname⟩ := List.mem_map.mp (hknown leader hleader)
      have hbehindLeader : behind'.distance < leader'.distance :=
        h.stays_behind hlegal hweather hbehind hleader (hname ▸ hnames runner hrunner) (by linarith) hdraft hbehind'
          hleader'
      by_cases hlevel : ahead.distance ≤ leader.distance + TIE
      · obtain rfl := hthird leader hleader hleaderpath hleaderlt hleaderle hlevel
        rwa [Option.some.inj (hahead'.symm.trans hleader')]
      · rw [Nat.cast_succ, add_mul, one_mul] at hle
        have hleaderAhead := ih hleader hleaderpath (not_le.mp hlevel) (by linarith)
          (fun third hmem hthirdpath hfar => hthird third hmem hthirdpath (by linarith)) hleader'
        exact hbehindLeader.trans hleaderAhead
    · have hbehind'' := (h.after_bounds hlegal hweather hbehind hbehind').2
      have hahead'' := (h.after_bounds hlegal hweather hahead hahead').1
      unfold RACE_DRAFT_DISTANCE at hnear
      linarith [not_le.mp hnear]

end Tick

end Passing

end Mapae.Arcade.Track
