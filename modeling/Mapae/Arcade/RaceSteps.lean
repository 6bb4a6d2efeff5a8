import Mapae.Arcade.RaceOrder

/-!
# What a tick does to a horse

All horses move, and then they are gone through from the front. What becomes of a horse is decided when
it is its turn, from where those that were ahead of it end up.

* `resolveAll_own` is the turn of a horse
* `OnTrack` holds after every tick: every horse has a place, and one that arrived a time
-/

namespace Mapae.Arcade.Track

open Mapae.Infra

variable {κ : Type} [LinearOrder κ] {collate : String → κ} {weather : RaceCourse → ℚ → ℚ}

/-! ## Going through the horses, seen from one of them -/

/-- Where a horse is, and when it arrived. -/
def placeOf (id : String) (acc : List RacePosition × List (String × ℚ)) : Option RacePosition × Option ℚ :=
  (positionOf acc.1 id, timeOf acc.2 id)

theorem arrived_eq (times : List (String × ℚ)) (id : String) : arrived times id = (timeOf times id).isSome := by
  unfold arrived timeOf
  rw [Option.isSome_map, Bool.eq_iff_iff, List.find?_isSome, List.any_eq_true]

theorem positionOf_id {positions : List RacePosition} {id : String} {position : RacePosition}
    (h : positionOf positions id = some position) : position.id = id := by
  simpa using List.find?_some h

theorem positionOf_eq_some {positions : List RacePosition} (h : (positions.map RacePosition.id).Nodup)
    {position : RacePosition} (hmem : position ∈ positions) : positionOf positions position.id = some position :=
  (find?_key_eq_some h).mpr ⟨hmem, rfl⟩

section Resolve

variable {course : RaceCourse} {snapshot : List RacePosition} {now : ℚ}
  {acc acc' : List RacePosition × List (String × ℚ)} {before position : RacePosition} {id : String}

theorem block_path (next : List RacePosition) : (block snapshot next before position).path = position.path := by
  unfold block
  split
  · rfl
  · split
    · rfl
    · simp only
      split <;> rfl

theorem block_stamina (next : List RacePosition) :
    (block snapshot next before position).stamina = position.stamina := by
  unfold block
  split
  · rfl
  · split
    · rfl
    · simp only
      split <;> rfl

/-- A horse that is passed is only named. -/
theorem overtake_eq_with (collate : String → κ) (snapshot next : List RacePosition) (times : List (String × ℚ))
    (before position : RacePosition) : ∃ passed,
      overtake collate snapshot next times before position = { position with overtakingId := passed } := by
  unfold overtake
  split
  · exact ⟨_, rfl⟩
  · exact ⟨position.overtakingId, rfl⟩

/-- What the turn of a horse can do: nothing, or it gets its place, and when that is the end of the course it
has arrived. -/
inductive Turn (course : RaceCourse) (snapshot : List RacePosition)
    (acc : List RacePosition × List (String × ℚ)) (before : RacePosition) :
    List RacePosition × List (String × ℚ) → Prop
  | still (h : positionOf acc.1 before.id = none ∨ arrived acc.2 before.id = true) :
    Turn course snapshot acc before acc
  | placed {position placed : RacePosition} {arrivals : List (String × ℚ)}
      (hposition : positionOf acc.1 before.id = some position) (hrunning : arrived acc.2 before.id = false)
      (hid : placed.id = before.id) (hpath : placed.path = position.path)
      (hstamina : placed.stamina = position.stamina)
      (hdistance : placed.distance = min course.distance (block snapshot acc.1 before position).distance)
      (harrivals : (arrivals = [] ∧ placed.distance < course.distance) ∨ ∃ seconds, arrivals = [(before.id, seconds)]) :
    Turn course snapshot acc before
      (updateKey RacePosition.id acc.1 before.id fun _ => placed, acc.2 ++ arrivals)

theorem resolve_turn (acc : List RacePosition × List (String × ℚ)) (before : RacePosition) :
    Turn course snapshot acc before (resolve collate course snapshot now acc before) := by
  unfold resolve
  cases hposition : positionOf acc.1 before.id with
  | none => exact .still (.inl hposition)
  | some position =>
    have hid := positionOf_id hposition
    obtain ⟨passed, hpassed⟩ := overtake_eq_with collate snapshot acc.1 acc.2 before
      (block snapshot acc.1 before position)
    have hheld := block_id snapshot acc.1 before position
    simp only [hpassed, hid, hheld]
    split_ifs with harrived hend
    · exact .still (.inr harrived)
    · have hrunning : arrived acc.2 before.id = false := by simpa using harrived
      exact .placed hposition hrunning rfl (block_path acc.1) (block_stamina acc.1) (min_eq_left hend).symm
        (.inr ⟨_, rfl⟩)
    · have hrunning : arrived acc.2 before.id = false := by simpa using harrived
      push Not at hend
      rw [← List.append_nil acc.2]
      exact .placed hposition hrunning rfl (block_path acc.1) (block_stamina acc.1) (min_eq_right hend.le).symm
        (.inl ⟨rfl, hend⟩)

/-- Only the horse whose turn it is gets another place. -/
theorem Turn.other (hturn : Turn course snapshot acc before acc') (h : before.id ≠ id) :
    placeOf id acc' = placeOf id acc := by
  cases hturn with
  | still _ => rfl
  | @placed position placed arrivals _ _ hid _ _ _ harrivals =>
    have hposition : positionOf (updateKey RacePosition.id acc.1 before.id fun _ => placed) id =
        positionOf acc.1 id := by
      unfold positionOf
      rw [find?_updateKey fun _ _ => hid]
      cases hfind : acc.1.find? fun position => position.id = id with
      | none => rfl
      | some found =>
        have hfound : found.id = id := positionOf_id hfind
        rw [Option.map_some, if_neg fun heq => h (heq.symm.trans hfound)]
    have htime : timeOf (acc.2 ++ arrivals) id = timeOf acc.2 id := by
      unfold timeOf
      rw [List.find?_append]
      obtain ⟨rfl, -⟩ | ⟨seconds, rfl⟩ := harrivals
      · simp
      · simp [h]
    unfold placeOf
    rw [hposition, htime]

variable (collate course now) in
/-- **The turn of a horse** decides where it ends up. Those that were ahead of it have had theirs. -/
theorem resolveAll_own (hnodup : (snapshot.map RacePosition.id).Nodup) (hbefore : before ∈ snapshot)
    (acc : List RacePosition × List (String × ℚ)) :
    ∃ acc' acc'', Turn course snapshot acc' before acc'' ∧
      placeOf before.id acc' = placeOf before.id acc ∧
      placeOf before.id (resolveAll collate course snapshot now acc) = placeOf before.id acc'' ∧
      ∀ leader ∈ snapshot, before.distance < leader.distance →
        placeOf leader.id acc' = placeOf leader.id (resolveAll collate course snapshot now acc) := by
  have hperm := perm_orderBy (frontKey collate) snapshot
  have horder := pairwise_orderBy (frontKey collate) snapshot
  have hframe : ∀ (acc : List RacePosition × List (String × ℚ)) (before : RacePosition) (id : String),
      before.id ≠ id → placeOf id (resolve collate course snapshot now acc before) = placeOf id acc :=
    fun acc before id h => (resolve_turn acc before).other h
  obtain ⟨earlier, later, hsplit, hown, hfirst, hearlier⟩ := foldl_read_own hframe
    ((hperm.map RacePosition.id).nodup_iff.mpr hnodup) (mem_orderBy.mpr hbefore) acc
  refine ⟨_, _, resolve_turn _ before, hfirst, hown, fun leader hleader hahead => hearlier leader ?_⟩
  -- it is ahead, so it cannot come later
  have hmem : leader ∈ orderBy (frontKey collate) snapshot := mem_orderBy.mpr hleader
  rw [hsplit] at hmem horder
  obtain hmem | hmem := List.mem_append.mp hmem
  · exact hmem
  · obtain rfl | hlater := List.mem_cons.mp hmem
    · exact absurd hahead (lt_irrefl _)
    · have hle := List.rel_of_pairwise_cons (List.pairwise_append.mp horder).2.1 hlater
      have hfront : frontKey collate leader < frontKey collate before :=
        Prod.Lex.toLex_lt_toLex.mpr (.inl (neg_lt_neg hahead))
      exact absurd hle (not_le.mpr hfront)

end Resolve

/-! ## What holds after every tick -/

/-- Every horse has one place, and whoever arrived has one time. -/
structure Sound (ids : List String) (acc : List RacePosition × List (String × ℚ)) : Prop where
  horses : acc.1.map RacePosition.id = ids
  arrivals : (acc.2.map Prod.fst).Nodup
  known : ∀ id ∈ acc.2.map Prod.fst, id ∈ ids
  stamina : ∀ position ∈ acc.1, 0 ≤ position.stamina

section Sound

variable {course : RaceCourse} {snapshot : List RacePosition} {now : ℚ} {ids : List String}
  {acc acc' : List RacePosition × List (String × ℚ)} {before : RacePosition}

theorem not_mem_of_not_arrived {times : List (String × ℚ)} {id : String} (h : arrived times id = false) :
    id ∉ times.map Prod.fst := by
  intro hmem
  obtain ⟨time, htime, rfl⟩ := List.mem_map.mp hmem
  have harrived : arrived times time.1 = true := by
    unfold arrived
    rw [List.any_eq_true]
    exact ⟨time, htime, by simp⟩
  rw [h] at harrived
  cases harrived

theorem Turn.sound (h : Turn course snapshot acc before acc') (hsound : Sound ids acc) : Sound ids acc' := by
  cases h with
  | still _ => exact hsound
  | @placed position placed arrivals hposition hrunning hid _ hstamina _ harrivals =>
    have hmem := List.mem_of_find?_eq_some hposition
    refine ⟨?_, ?_, ?_, ?_⟩
    · rw [map_updateKey fun _ _ => hid]
      exact hsound.horses
    · obtain ⟨rfl, -⟩ | ⟨seconds, rfl⟩ := harrivals
      · rw [List.append_nil]
        exact hsound.arrivals
      · rw [List.map_append, List.nodup_append]
        refine ⟨hsound.arrivals, List.nodup_singleton _, fun id hold id' hnew => ?_⟩
        have hnew' : id' = before.id := by simpa using hnew
        rintro rfl
        exact not_mem_of_not_arrived hrunning (hnew' ▸ hold)
    · intro id harrived
      rw [List.map_append] at harrived
      obtain hold | hnew := List.mem_append.mp harrived
      · exact hsound.known id hold
      · obtain ⟨rfl, -⟩ | ⟨seconds, rfl⟩ := harrivals
        · cases hnew
        · have hnew' : id = before.id := by simpa using hnew
          rw [hnew', ← positionOf_id hposition, ← hsound.horses]
          exact List.mem_map_of_mem hmem
    · intro other hother
      obtain ⟨found, hfound, rfl⟩ := List.mem_map.mp hother
      split
      · rw [hstamina]
        exact hsound.stamina position hmem
      · exact hsound.stamina found hfound

variable (collate course snapshot now) in
theorem resolveAll_sound (hsound : Sound ids acc) :
    Sound ids (resolveAll collate course snapshot now acc) := by
  unfold resolveAll
  induction orderBy (frontKey collate) snapshot generalizing acc with
  | nil => exact hsound
  | cons before order ih =>
    rw [List.foldl_cons]
    exact ih ((resolve_turn acc before).sound hsound)

end Sound

/-- The state of a race after a tick. -/
structure OnTrack (input : RaceInput) (state : RaceState) : Prop where
  sound : Sound (input.entrants.map Racer.id) (state.positions, state.times)
  distance : ∀ position ∈ state.positions, position.distance ≤ input.course.distance

section Tick

variable {input : RaceInput} {state : RaceState} {now : ℚ} {before : RacePosition} {snapshot : List RacePosition}

theorem moveOf_path (position : RacePosition) :
    (moveOf collate weather input state snapshot now position).1.path = position.path := by
  unfold moveOf
  dsimp only
  split
  · rfl
  · split <;> rfl

theorem moveOf_stamina {position : RacePosition} (h : 0 ≤ position.stamina) :
    0 ≤ (moveOf collate weather input state snapshot now position).1.stamina := by
  unfold moveOf
  dsimp only
  split
  · exact h
  · split
    · exact h
    · exact le_max_left _ _

theorem moveOf_distance_of_arrived {position : RacePosition} (h : arrived state.times position.id = true) :
    (moveOf collate weather input state snapshot now position).1.distance = position.distance := by
  unfold moveOf
  simp only [h, if_true]

/-- A position before the calls, in the snapshot. -/
theorem mem_snapshotOf {calls : List RaceCall} {positions : List RacePosition} {position : RacePosition} :
    position ∈ snapshotOf calls positions ↔ ∃ old ∈ positions, position =
      { old with path := ((lastCall calls old.id).map fun call => call.route).getD .shortcut } := by
  unfold snapshotOf
  simp only [List.mem_map, eq_comm]

theorem snapshotOf_ids (calls : List RaceCall) (positions : List RacePosition) :
    (snapshotOf calls positions).map RacePosition.id = positions.map RacePosition.id := by
  unfold snapshotOf
  rw [List.map_map]
  rfl

variable (collate weather input state now) in
/-- All moved from the snapshot. -/
theorem moved_sound {ids : List String} (h : Sound ids (snapshot, state.times)) :
    Sound ids ((snapshot.map (moveOf collate weather input state snapshot now)).map Prod.fst, state.times) := by
  refine ⟨?_, h.arrivals, h.known, ?_⟩
  · rw [List.map_map, List.map_map, ← h.horses]
    exact List.map_congr_left fun position _ => moveOf_id collate weather input state snapshot now position
  · intro position hposition
    rw [List.map_map] at hposition
    obtain ⟨old, hold, rfl⟩ := List.mem_map.mp hposition
    exact moveOf_stamina (h.stamina old hold)

/-- What a tick does to a horse. One that has arrived stays. Another one goes where it moved, held up by
those that were ahead, up to the end of the course. -/
inductive Ticked (course : RaceCourse) (times : List (String × ℚ)) (snapshot next : List RacePosition)
    (before moved after : RacePosition) : Prop
  | stayed (harrived : arrived times before.id = true) (hdistance : after.distance = before.distance)
  | went (hrunning : arrived times before.id = false) (hpath : after.path = before.path)
      (next' : List RacePosition)
      (hahead : ∀ leader ∈ snapshot, before.distance < leader.distance →
        positionOf next' leader.id = positionOf next leader.id)
      (hdistance : after.distance = min course.distance (block snapshot next' before moved).distance)

variable (collate weather input state now) in
/-- What becomes of a horse. -/
theorem ticked_of_sound {ids : List String} (hids : ids.Nodup) (h : Sound ids (snapshot, state.times))
    (hbefore : before ∈ snapshot) :
    let next := (resolveAll collate input.course snapshot now
      ((snapshot.map (moveOf collate weather input state snapshot now)).map Prod.fst, state.times)).1
    ∃ after, positionOf next before.id = some after ∧ Ticked input.course state.times snapshot next before
      (moveOf collate weather input state snapshot now before).1 after := by
  have hnodup : (snapshot.map RacePosition.id).Nodup := by
    rw [h.horses]
    exact hids
  have hmoved : positionOf ((snapshot.map (moveOf collate weather input state snapshot now)).map Prod.fst) before.id =
      some (moveOf collate weather input state snapshot now before).1 := by
    rw [← moveOf_id collate weather input state snapshot now before]
    refine positionOf_eq_some ?_ (List.mem_map_of_mem (List.mem_map_of_mem hbefore))
    rw [(moved_sound collate weather input state now h).horses]
    exact hids
  intro next
  obtain ⟨acc', acc'', hturn, hfirst, hown, hahead⟩ := resolveAll_own collate input.course now hnodup hbefore
    ((snapshot.map (moveOf collate weather input state snapshot now)).map Prod.fst, state.times)
  obtain ⟨hposition, htime⟩ := Prod.mk.inj hfirst
  have hposition' := hposition.trans hmoved
  have harrived : arrived acc'.2 before.id = arrived state.times before.id := by
    rw [arrived_eq, arrived_eq, htime]
  have hnext := congrArg Prod.fst hown
  cases hturn with
  | still hstill =>
    have harrived' : arrived state.times before.id = true := by
      obtain hnone | harrived' := hstill
      · rw [hposition'] at hnone
        cases hnone
      · rwa [harrived] at harrived'
    exact ⟨_, hnext.trans hposition', .stayed harrived' (moveOf_distance_of_arrived harrived')⟩
  | @placed position placed arrivals hfound hrunning hid hpath _ hdistance _ =>
    obtain rfl : position = _ := Option.some.inj (hfound.symm.trans hposition')
    have hplaced : positionOf (updateKey RacePosition.id acc'.1 before.id fun _ => placed) before.id = some placed := by
      unfold positionOf at hfound ⊢
      rw [find?_updateKey (fun _ _ => hid), hfound, Option.map_some, if_pos (positionOf_id hfound)]
    refine ⟨placed, hnext.trans hplaced, .went (harrived ▸ hrunning) (hpath.trans (moveOf_path before)) acc'.1 ?_
      hdistance⟩
    exact fun leader hleader hlt => congrArg Prod.fst (hahead leader hleader hlt)

/-! ## The race -/

/-- What is checked before the race. -/
structure Legal (input : RaceInput) : Prop where
  course : validCourse input.course = true
  racers : validRacers input.entrants = true

theorem Legal.nodup (h : Legal input) : (input.entrants.map Racer.id).Nodup := by
  have hracers := h.racers
  unfold validRacers at hracers
  simp only [Bool.and_eq_true, decide_eq_true_eq] at hracers
  exact hracers.1.2

theorem snapshot_sound (h : OnTrack input state) (calls : List RaceCall) :
    Sound (input.entrants.map Racer.id) (snapshotOf calls state.positions, state.times) := by
  refine ⟨?_, h.sound.arrivals, h.sound.known, fun position hposition => ?_⟩
  · rw [snapshotOf_ids]
    exact h.sound.horses
  · obtain ⟨old, hold, rfl⟩ := mem_snapshotOf.mp hposition
    exact h.sound.stamina old hold

/-- The state after the calls of a tick. -/
def calledAt (collate : String → κ) (input : RaceInput) (tick : Nat) (state : RaceState) : RaceState :=
  { state with calls := callAll collate input state (tick / 10) }

/-- The positions that all the horses go by in a tick. -/
def snapshotAt (collate : String → κ) (input : RaceInput) (tick : Nat) (state : RaceState) : List RacePosition :=
  snapshotOf (calledAt collate input tick state).calls state.positions

/-- Where a horse moves to in a tick. -/
def movedAt (collate : String → κ) (weather : RaceCourse → ℚ → ℚ) (input : RaceInput) (tick : Nat)
    (state : RaceState) (before : RacePosition) : RacePosition :=
  (moveOf collate weather input (calledAt collate input tick state) (snapshotAt collate input tick state)
    (tick / 10) before).1

variable (collate weather) in
/-- **What becomes of a horse in a tick.** -/
theorem OnTrack.ticked (hlegal : Legal input) (h : OnTrack input state) (tick : Nat)
    (hbefore : before ∈ snapshotAt collate input tick state) :
    ∃ after, positionOf (raceTick collate weather input tick state).positions before.id = some after ∧
      Ticked input.course state.times (snapshotAt collate input tick state)
        (raceTick collate weather input tick state).positions before (movedAt collate weather input tick state before)
        after :=
  ticked_of_sound collate weather input (calledAt collate input tick state) (tick / 10) hlegal.nodup
    (snapshot_sound h _) hbefore

variable (collate weather) in
theorem OnTrack.raceTick_sound (h : OnTrack input state) (tick : Nat) :
    Sound (input.entrants.map Racer.id) ((raceTick collate weather input tick state).positions,
      (raceTick collate weather input tick state).times) :=
  resolveAll_sound collate input.course (snapshotAt collate input tick state) (tick / 10)
    (moved_sound collate weather input (calledAt collate input tick state) (tick / 10) (snapshot_sound h _))

variable (collate weather) in
/-- **One tick** leaves the horses on the track. -/
theorem OnTrack.raceTick (hlegal : Legal input) (h : OnTrack input state) (tick : Nat) :
    OnTrack input (raceTick collate weather input tick state) := by
  have hnext := h.raceTick_sound collate weather tick
  refine ⟨hnext, fun position hposition => ?_⟩
  have hid : position.id ∈ (snapshotAt collate input tick state).map RacePosition.id := by
    rw [snapshotAt, snapshotOf_ids, h.sound.horses, ← hnext.horses]
    exact List.mem_map_of_mem hposition
  obtain ⟨before, hbefore, heq⟩ := List.mem_map.mp hid
  obtain ⟨after, hafter, hticked⟩ := h.ticked collate weather hlegal tick hbefore
  have hsame : position = after := by
    have hnodup : ((Track.raceTick collate weather input tick state).positions.map RacePosition.id).Nodup := by
      rw [hnext.horses]
      exact hlegal.nodup
    have hfind := positionOf_eq_some hnodup hposition
    rw [← heq, hafter] at hfind
    exact (Option.some.inj hfind).symm
  rw [hsame]
  cases hticked with
  | stayed _ hdistance =>
    rw [hdistance]
    obtain ⟨old, hold, rfl⟩ := mem_snapshotOf.mp hbefore
    exact h.distance old hold
  | went _ _ _ _ hdistance =>
    rw [hdistance]
    exact min_le_left _ _

theorem onTrack_start (hlegal : Legal input) : OnTrack input (startOf input.entrants) := by
  have hcourse := hlegal.course
  unfold validCourse at hcourse
  simp only [decide_eq_true_eq] at hcourse
  refine ⟨⟨?_, List.nodup_nil, fun _ h => absurd h List.not_mem_nil, ?_⟩, ?_⟩
  · show (input.entrants.map _).map RacePosition.id = input.entrants.map Racer.id
    rw [List.map_map]
    rfl
  · intro position hposition
    obtain ⟨runner, -, rfl⟩ := List.mem_map.mp hposition
    show (0 : ℚ) ≤ 100
    norm_num
  · intro position hposition
    obtain ⟨runner, -, rfl⟩ := List.mem_map.mp hposition
    show (0 : ℚ) ≤ input.course.distance
    linarith [hcourse.1]

/-- The states of a race before a tick or after the last one. -/
inductive Reached (collate : String → κ) (weather : RaceCourse → ℚ → ℚ) (input : RaceInput) :
    Nat → RaceState → Prop
  | start : Reached collate weather input 0 (startOf input.entrants)
  | tick {tick : Nat} {state : RaceState} (h : Reached collate weather input tick state) (hfuel : tick < 2000)
      (hleft : state.times.length < input.entrants.length) :
      Reached collate weather input (tick + 1) (raceTick collate weather input tick state)

/-- **Through the whole race** the horses are on the track. -/
theorem Reached.onTrack (hlegal : Legal input) {tick : Nat} (h : Reached collate weather input tick state) :
    OnTrack input state := by
  induction h with
  | start => exact onTrack_start hlegal
  | tick _ _ _ ih => exact ih.raceTick collate weather hlegal _

variable (collate weather) in
/-- The loop ends in such a state. -/
theorem Reached.raceLoop (fuel : Nat) : ∀ {tick : Nat} {state : RaceState}, tick + fuel ≤ 2000 →
    Reached collate weather input tick state →
      ∃ last, Reached collate weather input last (raceLoop collate weather input fuel tick state).2 := by
  induction fuel with
  | zero => exact fun _ h => ⟨_, h⟩
  | succ fuel ih =>
    intro tick state hfuel h
    unfold Track.raceLoop
    split
    · next hleft =>
      exact ih (by omega) (h.tick (by omega) hleft)
    · exact ⟨_, h⟩

end Tick

/-! ## The finish -/

section Finish

variable {ids : List String} {positions : List RacePosition} {times : List (String × ℚ)} {input : RaceInput}
  {race : RaceSimulation} {finish : RaceFinish}

theorem timeOf_eq_some (h : (times.map Prod.fst).Nodup) {id : String} {seconds : ℚ} :
    timeOf times id = some seconds ↔ (id, seconds) ∈ times := by
  unfold timeOf
  rw [Option.map_eq_some_iff]
  constructor
  · rintro ⟨time, hfind, rfl⟩
    obtain ⟨hmem, rfl⟩ := (find?_key_eq_some h).mp hfind
    exact hmem
  · intro hmem
    exact ⟨(id, seconds), (find?_key_eq_some h).mpr ⟨hmem, rfl⟩, rfl⟩

theorem finishOf_eq_some {position : RacePosition} (h : finishOf times position = some finish) :
    timeOf times position.id = some finish.seconds ∧ finish.id = position.id ∧
      finish.rank = 1 + (times.filter fun other => other.2 < finish.seconds - TIE).length ∧
      finish.points = [5, 3, 2, 1][finish.rank - 1]? := by
  obtain ⟨seconds, htime, rfl⟩ := Option.map_eq_some_iff.mp h
  exact ⟨htime, rfl, rfl, rfl⟩

/-- The finish lists those that have arrived, with their times. -/
theorem Sound.finish_perm (h : Sound ids (positions, times)) (hids : ids.Nodup) :
    ((positions.filterMap (finishOf times)).map fun finish => (finish.id, finish.seconds)).Perm times := by
  have hpositions : (positions.map RacePosition.id).Nodup := by
    rw [h.horses]
    exact hids
  have hfinish : ((positions.filterMap (finishOf times)).map RaceFinish.id).Nodup :=
    ((Reordered.refl hpositions).filterMap fun position finish hfinish => (finishOf_eq_some hfinish).2.1).nodup
  refine (List.perm_ext_iff_of_nodup ?_ ?_).mpr fun time => ?_
  · refine List.Nodup.of_map Prod.fst ?_
    rw [List.map_map]
    exact hfinish
  · exact h.arrivals.of_map
  · rw [List.mem_map]
    constructor
    · rintro ⟨finish, hmem, rfl⟩
      obtain ⟨position, -, hfinish⟩ := List.mem_filterMap.mp hmem
      obtain ⟨htime, hid, -⟩ := finishOf_eq_some hfinish
      rw [hid]
      exact (timeOf_eq_some h.arrivals).mp htime
    · intro hmem
      have hknown : time.1 ∈ positions.map RacePosition.id := by
        rw [h.horses]
        exact h.known time.1 (List.mem_map_of_mem hmem)
      obtain ⟨position, hposition, hid⟩ := List.mem_map.mp hknown
      have htime : timeOf times position.id = some time.2 := by
        rw [hid]
        exact (timeOf_eq_some h.arrivals).mpr hmem
      obtain ⟨finish, hfinish⟩ : ∃ finish, finishOf times position = some finish := by
        unfold finishOf
        rw [htime]
        exact ⟨_, rfl⟩
      obtain ⟨htime', hid', -⟩ := finishOf_eq_some hfinish
      refine ⟨finish, List.mem_filterMap.mpr ⟨position, hposition, hfinish⟩, ?_⟩
      rw [htime] at htime'
      rw [hid', hid, ← Option.some.inj htime']

/-- A race that is run ends in a state in which all are in. -/
theorem of_simulateRace (h : simulateRace collate weather input = .ok race) :
    Legal input ∧ ∃ last tick, Reached collate weather input tick last ∧
      last.times.length = input.entrants.length ∧
      race.finish = orderBy (finishKey collate) (last.positions.filterMap (finishOf last.times)) := by
  unfold simulateRace at h
  obtain ⟨_, hvalid, h⟩ := bind_eq_ok.mp h
  obtain ⟨_, -, h⟩ := bind_eq_ok.mp h
  obtain ⟨_, -, h⟩ := bind_eq_ok.mp h
  obtain ⟨_, hlength, h⟩ := bind_eq_ok.mp h
  cases pure_eq_ok.mp h
  simp only [throwIf_eq_ok, not_not, Bool.and_eq_true] at hvalid hlength
  obtain ⟨tick, hreached⟩ := Reached.raceLoop collate weather 2000 (by omega) .start
  exact ⟨⟨hvalid.1, hvalid.2⟩, _, tick, hreached, hlength, rfl⟩

/-- **Everyone finishes, once, and the rank is one plus the number of those that are strictly faster.** -/
theorem finish_of_simulateRace (h : simulateRace collate weather input = .ok race) :
    (race.finish.map RaceFinish.id).Perm (input.entrants.map Racer.id) ∧ ∀ finish ∈ race.finish,
      finish.rank = 1 + (race.finish.filter fun other => other.seconds < finish.seconds - TIE).length ∧
        finish.points = [5, 3, 2, 1][finish.rank - 1]? := by
  obtain ⟨hlegal, last, tick, hreached, hlength, hfinish⟩ := of_simulateRace h
  have hsound := (hreached.onTrack hlegal).sound
  have hsorted := perm_orderBy (finishKey collate) (last.positions.filterMap (finishOf last.times))
  rw [← hfinish] at hsorted
  have hperm := (hsorted.map fun finish => (finish.id, finish.seconds)).trans (hsound.finish_perm hlegal.nodup)
  constructor
  · have hids : (race.finish.map RaceFinish.id).Perm (last.times.map Prod.fst) := by
      have hmap := hperm.map Prod.fst
      rwa [List.map_map] at hmap
    have hsub : (last.times.map Prod.fst).Subperm (input.entrants.map Racer.id) :=
      List.subperm_of_subset hsound.arrivals hsound.known
    exact hids.trans (hsub.perm_of_length_le (by simp [hlength]))
  · intro finish hmem
    obtain ⟨position, -, hfinishOf⟩ := List.mem_filterMap.mp (hsorted.mem_iff.mp hmem)
    obtain ⟨-, -, hrank, hpoints⟩ := finishOf_eq_some hfinishOf
    refine ⟨?_, hpoints⟩
    rw [hrank, ← (hperm.filter fun other => decide (other.2 < finish.seconds - TIE)).length_eq, List.filter_map,
      List.length_map]
    rfl

end Finish

end Mapae.Arcade.Track
