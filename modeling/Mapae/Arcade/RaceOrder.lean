import Mapae.Arcade.RaceTrack

/-!
# The order of the entrants

Whoever is listed first has no advantage: every horse plans on the same positions, and the horses are
gone through in an order of their own. The ids must be told apart by their collation keys.

* `Shuffled` is how two runs of one race stand to each other
* `Shuffled.raceTick` is one tick, `Shuffled.raceLoop` the whole race
-/

namespace Mapae.Arcade.Track

open Mapae.Infra

variable {κ : Type} [LinearOrder κ] {collate : String → κ} {weather : RaceCourse → ℚ → ℚ}

/-- The collation keys tell these ids apart. -/
def Tells (collate : String → κ) (ids : List String) : Prop :=
  ∀ a ∈ ids, ∀ b ∈ ids, collate a = collate b → a = b

/-- The same race with the entrants in another order. -/
structure Relisted (input input' : RaceInput) : Prop where
  entrants : Reordered Racer.id input.entrants input'.entrants
  course : input.course = input'.course
  commands : input.commands = input'.commands
  burstAt : input.burstAt = input'.burstAt

/-- The same positions in another order, of horses with known ids. -/
structure SameField (ids : List String) (positions positions' : List RacePosition) : Prop where
  rows : Reordered RacePosition.id positions positions'
  known : ∀ position ∈ positions, position.id ∈ ids

/-- The same race so far. -/
structure Shuffled (ids : List String) (state state' : RaceState) : Prop where
  field : SameField ids state.positions state'.positions
  times : state.times = state'.times
  calls : ∀ id, (state.calls.filter fun call => call.id = id) = state'.calls.filter fun call => call.id = id
  bursts : ∀ id,
    (state.bursts.filter fun burst => burst.id = id) = state'.bursts.filter fun burst => burst.id = id

namespace SameField

variable {ids : List String} {positions positions' next next' : List RacePosition}

theorem positionOf_eq (h : SameField ids positions positions') (id : String) :
    positionOf positions id = positionOf positions' id := h.rows.find?_eq id

theorem filter (h : SameField ids positions positions') (p : RacePosition → Bool) :
    SameField ids (positions.filter p) (positions'.filter p) :=
  ⟨h.rows.filter p, fun position hposition => h.known position (List.mem_filter.mp hposition).1⟩

theorem map (h : SameField ids positions positions') {f : RacePosition → RacePosition}
    (hf : ∀ position, (f position).id = position.id) :
    SameField ids (positions.map f) (positions'.map f) := by
  refine ⟨h.rows.map hf, fun position hposition => ?_⟩
  obtain ⟨position, hmem, rfl⟩ := List.mem_map.mp hposition
  rw [hf position]
  exact h.known position hmem

/-- The position of a horse is replaced. -/
theorem replace (h : SameField ids positions positions') {placed : RacePosition} {id : String}
    (hid : placed.id = id) : SameField ids (updateKey RacePosition.id positions id fun _ => placed)
      (updateKey RacePosition.id positions' id fun _ => placed) := by
  refine ⟨h.rows.updateKey id fun _ _ => hid, fun position hposition => ?_⟩
  have hmem : position.id ∈ (updateKey RacePosition.id positions id fun _ => placed).map RacePosition.id :=
    List.mem_map_of_mem hposition
  rw [map_updateKey fun _ _ => hid] at hmem
  obtain ⟨before, hbefore, heq⟩ := List.mem_map.mp hmem
  rw [← heq]
  exact h.known before hbefore

/-- **Positions are sorted alike**, by a number and then by id. -/
theorem orderBy_eq (h : SameField ids positions positions') (hids : Tells collate ids) (f : RacePosition → ℚ) :
    orderBy (fun position => toLex (f position, collate position.id)) positions =
      orderBy (fun position => toLex (f position, collate position.id)) positions' := by
  refine h.rows.orderBy_eq fun a ha b hb heq => ?_
  have hkeys := congrArg (fun key => (ofLex key).2) heq
  exact hids _ (h.known a ha) _ (h.known b hb) hkeys

theorem orderBy_near_eq (h : SameField ids positions positions') (hids : Tells collate ids) :
    orderBy (nearKey collate) positions = orderBy (nearKey collate) positions' :=
  h.orderBy_eq hids RacePosition.distance

theorem raceTraffic_eq (h : SameField ids positions positions') (hids : Tells collate ids) (id : String) :
    raceTraffic collate positions id = raceTraffic collate positions' id := by
  unfold raceTraffic
  rw [← h.positionOf_eq id]
  cases positionOf positions id with
  | none => rfl
  | some own =>
    have hahead := (h.filter fun position => decide
      (position.id ≠ id ∧ position.path = .shortcut ∧ own.distance + TIE < position.distance)).orderBy_near_eq
        hids
    have hthreat := (h.filter fun position => decide
      (position.id ≠ id ∧ position.path = .wide ∧
        |position.distance - own.distance| ≤ RACE_DRAFT_DISTANCE)).orderBy_eq
        hids fun position => |position.distance - own.distance|
    simp only [hahead, hthreat, h.rows.any_eq]

/-! ## Going through the horses -/

theorem block_eq (h : SameField ids positions positions') (hnext : SameField ids next next')
    (before position : RacePosition) :
    block positions next before position = block positions' next' before position := by
  unfold block
  rw [show positionOf next = positionOf next' from funext hnext.positionOf_eq]
  simp only [h.positionOf_eq]

theorem overtake_eq (h : SameField ids positions positions') (hnext : SameField ids next next')
    (hids : Tells collate ids) (times : List (String × ℚ)) (before position : RacePosition) :
    overtake collate positions next times before position =
      overtake collate positions' next' times before position := by
  unfold overtake
  have hpassed := (h.filter fun other => !arrived times other.id &&
    decide (other.id ≠ before.id ∧ before.distance + TIE < other.distance) &&
      (positionOf next other.id).any fun moved => decide (moved.distance + TIE < position.distance)).orderBy_near_eq
        hids
  rw [show positionOf next = positionOf next' from funext hnext.positionOf_eq] at hpassed ⊢
  simp only [hpassed]

end SameField

/-! ## Horses keep their ids -/

theorem block_id (snapshot next : List RacePosition) (before position : RacePosition) :
    (block snapshot next before position).id = position.id := by
  unfold block
  split
  · rfl
  · split
    · rfl
    · simp only
      split <;> rfl

theorem overtake_id (snapshot next : List RacePosition) (times : List (String × ℚ))
    (before position : RacePosition) :
    (overtake collate snapshot next times before position).id = position.id := by
  unfold overtake
  split <;> rfl

variable (collate weather) in
theorem moveOf_id (input : RaceInput) (state : RaceState) (snapshot : List RacePosition) (now : ℚ)
    (position : RacePosition) : (moveOf collate weather input state snapshot now position).1.id = position.id := by
  unfold moveOf
  dsimp only
  split
  · rfl
  · split <;> rfl

/-- A burst is begun by the horse itself. -/
theorem moveOf_burst (input : RaceInput) (state : RaceState) (snapshot : List RacePosition) (now : ℚ)
    (position : RacePosition) (burst : RaceBurst)
    (h : burst ∈ (moveOf collate weather input state snapshot now position).2) : burst.id = position.id := by
  unfold moveOf at h
  dsimp only at h
  split at h
  · cases h
  · split at h
    · cases h
    · next runner hrunner =>
      have hid : runner.id = position.id := by simpa using List.find?_some hrunner
      unfold planOf at h
      dsimp only at h
      split_ifs at h
      all_goals cases h
      all_goals exact hid

/-! ## A tick -/

section Tick

variable {ids : List String} {input input' : RaceInput} {state state' : RaceState}

theorem Relisted.runnerOf_eq (h : Relisted input input') (id : String) :
    runnerOf input id = runnerOf input' id := h.entrants.find?_eq id

namespace Shuffled

theorem lastCall_eq (h : Shuffled ids state state') (id : String) :
    lastCall state.calls id = lastCall state'.calls id := by
  rw [lastCall, lastCall, h.calls id]

theorem burstOf_eq (h : Shuffled ids state state') (id : String) :
    burstOf state.bursts id = burstOf state'.bursts id := by
  rw [burstOf, burstOf, h.bursts id]

theorem running_eq (h : Shuffled ids state state') {positions positions' : List RacePosition}
    (hfield : SameField ids positions positions') :
    SameField ids (running state.times positions) (running state'.times positions') := by
  rw [h.times]
  exact hfield.filter _

theorem callOf_eq (h : Shuffled ids state state') (hlist : Relisted input input') (hids : Tells collate ids)
    (checkpoint : Fin 2) (runner : Racer) :
    callOf collate input state checkpoint runner = callOf collate input' state' checkpoint runner := by
  have htraffic := (h.running_eq h.field).raceTraffic_eq hids
  unfold callOf
  simp only [htraffic]
  simp only [h.times, hlist.commands, hlist.course, h.field.positionOf_eq]

/-- **The calls of a runner are the same.** -/
theorem callAll_eq (h : Shuffled ids state state') (hlist : Relisted input input') (hids : Tells collate ids)
    (now : ℚ) (id : String) :
    ((callAll collate input state now).filter fun call => call.id = id) =
      (callAll collate input' state' now).filter fun call => call.id = id := by
  unfold callAll
  cases checkpointAt now with
  | none => exact h.calls id
  | some checkpoint =>
    have hcalls : callOf collate input state checkpoint = callOf collate input' state' checkpoint :=
      funext (h.callOf_eq hlist hids checkpoint)
    simp only [List.filter_append, h.calls id, hcalls]
    congr 1
    refine (hlist.entrants.filterMap fun runner call hcall => ?_).filter_key_eq id
    unfold callOf at hcall
    split at hcall
    · cases hcall
    · obtain ⟨_, -, rfl⟩ := Option.map_eq_some_iff.mp hcall
      rfl

/-- The state after the calls. -/
theorem called (h : Shuffled ids state state') (hlist : Relisted input input') (hids : Tells collate ids)
    (now : ℚ) : Shuffled ids { state with calls := callAll collate input state now }
      { state' with calls := callAll collate input' state' now } :=
  ⟨h.field, h.times, h.callAll_eq hlist hids now, h.bursts⟩

theorem snapshotOf_eq (h : Shuffled ids state state') :
    SameField ids (snapshotOf state.calls state.positions) (snapshotOf state'.calls state'.positions) := by
  unfold snapshotOf
  simp only [h.lastCall_eq]
  exact h.field.map fun _ => rfl

/-- **A horse moves alike in both.** -/
theorem moveOf_eq (h : Shuffled ids state state') (hlist : Relisted input input') (hids : Tells collate ids)
    {snapshot snapshot' : List RacePosition} (hsnapshot : SameField ids snapshot snapshot') (now : ℚ)
    (position : RacePosition) : moveOf collate weather input state snapshot now position =
      moveOf collate weather input' state' snapshot' now position := by
  have hplan : planOf collate input state snapshot now = planOf collate input' state' snapshot' now := by
    have htraffic := (h.running_eq hsnapshot).raceTraffic_eq hids
    funext runner position
    unfold planOf
    simp only [htraffic, h.burstOf_eq, h.lastCall_eq, hlist.burstAt, hlist.course]
  unfold moveOf
  simp only [h.times, hlist.runnerOf_eq, hlist.course, hplan]

end Shuffled

/-- One horse is gone through. -/
theorem resolve_eq {snapshot snapshot' next next' : List RacePosition} (hsnapshot : SameField ids snapshot snapshot')
    (hnext : SameField ids next next') (hids : Tells collate ids) (course : RaceCourse) (now : ℚ)
    (times : List (String × ℚ)) (before : RacePosition) :
    SameField ids (resolve collate course snapshot now (next, times) before).1
        (resolve collate course snapshot' now (next', times) before).1 ∧
      (resolve collate course snapshot now (next, times) before).2 =
        (resolve collate course snapshot' now (next', times) before).2 := by
  unfold resolve
  simp only
  rw [← hnext.positionOf_eq before.id]
  cases hposition : positionOf next before.id with
  | none => exact ⟨hnext, rfl⟩
  | some position =>
    have hid : position.id = before.id := by simpa using List.find?_some hposition
    simp only
    rw [← hsnapshot.block_eq hnext, ← hsnapshot.overtake_eq hnext hids]
    generalize hplaced : overtake collate snapshot next times before (block snapshot next before position) = placed
    have hplacedid : placed.id = before.id := by rw [← hplaced, overtake_id, block_id, hid]
    split_ifs
    · exact ⟨hnext, rfl⟩
    · exact ⟨hnext.replace hplacedid, rfl⟩
    · exact ⟨hnext.replace hplacedid, rfl⟩

/-- The horses that were gone through are at the same places, and have arrived at the same times. -/
theorem foldl_resolve_eq {snapshot snapshot' : List RacePosition} (hsnapshot : SameField ids snapshot snapshot')
    (hids : Tells collate ids) (course : RaceCourse) (now : ℚ) (order : List RacePosition) :
    ∀ {next next' : List RacePosition} {times : List (String × ℚ)}, SameField ids next next' →
      SameField ids (order.foldl (resolve collate course snapshot now) (next, times)).1
          (order.foldl (resolve collate course snapshot' now) (next', times)).1 ∧
        (order.foldl (resolve collate course snapshot now) (next, times)).2 =
          (order.foldl (resolve collate course snapshot' now) (next', times)).2 := by
  induction order with
  | nil => exact fun hnext => ⟨hnext, rfl⟩
  | cons before order ih =>
    intro next next' times hnext
    obtain ⟨hstep, htimes⟩ := resolve_eq hsnapshot hnext hids course now times before
    rw [List.foldl_cons, List.foldl_cons,
      ← Prod.mk.eta (p := resolve collate course snapshot now (next, times) before),
      ← Prod.mk.eta (p := resolve collate course snapshot' now (next', times) before), htimes]
    exact ih hstep

namespace Shuffled

variable {snapshot snapshot' : List RacePosition}

variable (weather) in
/-- All move, and then they are gone through from the front. -/
theorem resolveAll_eq (h : Shuffled ids state state') (hlist : Relisted input input') (hids : Tells collate ids)
    (hsnapshot : SameField ids snapshot snapshot') (now : ℚ) :
    SameField ids
        (resolveAll collate input.course snapshot now
          ((snapshot.map (moveOf collate weather input state snapshot now)).map Prod.fst, state.times)).1
        (resolveAll collate input'.course snapshot' now
          ((snapshot'.map (moveOf collate weather input' state' snapshot' now)).map Prod.fst, state'.times)).1 ∧
      (resolveAll collate input.course snapshot now
          ((snapshot.map (moveOf collate weather input state snapshot now)).map Prod.fst, state.times)).2 =
        (resolveAll collate input'.course snapshot' now
          ((snapshot'.map (moveOf collate weather input' state' snapshot' now)).map Prod.fst, state'.times)).2 := by
  have horder : orderBy (frontKey collate) snapshot = orderBy (frontKey collate) snapshot' :=
    hsnapshot.orderBy_eq hids fun position => -position.distance
  have hmove : moveOf collate weather input state snapshot now = moveOf collate weather input' state' snapshot' now :=
    funext (h.moveOf_eq hlist hids hsnapshot now)
  unfold resolveAll
  rw [← horder, ← hlist.course, ← h.times, ← hmove, List.map_map, List.map_map]
  exact foldl_resolve_eq hsnapshot hids input.course now _
    (hsnapshot.map fun position => moveOf_id collate weather input state snapshot now position)

/-- The bursts that are begun are the same for each runner. -/
theorem begun (h : Shuffled ids state state') (hlist : Relisted input input') (hids : Tells collate ids)
    (hsnapshot : SameField ids snapshot snapshot') (now : ℚ) (id : String) :
    ((state.bursts ++ (snapshot.map (moveOf collate weather input state snapshot now)).filterMap Prod.snd).filter
        fun burst => burst.id = id) =
      (state'.bursts ++ (snapshot'.map (moveOf collate weather input' state' snapshot' now)).filterMap
        Prod.snd).filter fun burst => burst.id = id := by
  have hmove : moveOf collate weather input state snapshot now = moveOf collate weather input' state' snapshot' now :=
    funext (h.moveOf_eq hlist hids hsnapshot now)
  rw [List.filter_append, List.filter_append, h.bursts id, ← hmove, List.filterMap_map, List.filterMap_map]
  congr 1
  exact (hsnapshot.rows.filterMap fun position burst hburst =>
    moveOf_burst input state snapshot now position burst hburst).filter_key_eq id

variable (weather) in
/-- **One tick.** The two runs still stand to each other as before. -/
theorem raceTick (h : Shuffled ids state state') (hlist : Relisted input input')
    (hids : Tells collate ids) (tick : Nat) :
    Shuffled ids (raceTick collate weather input tick state) (raceTick collate weather input' tick state') := by
  have hcalled := h.called hlist hids (tick / 10)
  have hsnapshot := hcalled.snapshotOf_eq
  obtain ⟨hfield, htimes⟩ := hcalled.resolveAll_eq weather hlist hids hsnapshot (tick / 10)
  exact ⟨hfield, htimes, h.callAll_eq hlist hids (tick / 10), hcalled.begun hlist hids hsnapshot (tick / 10)⟩

end Shuffled

end Tick

/-! ## The race -/

section Race

variable {ids : List String} {input input' : RaceInput} {state state' : RaceState}

/-- The same frame, with the positions in another order. -/
def SameFrame (frame frame' : RaceFrame) : Prop :=
  frame.time = frame'.time ∧ Reordered RacePosition.id frame.positions frame'.positions

variable (weather) in
/-- **The whole race**, by induction on the ticks that are left. -/
theorem Shuffled.raceLoop (hlist : Relisted input input') (hids : Tells collate ids) (fuel : Nat) :
    ∀ (tick : Nat) {state state' : RaceState}, Shuffled ids state state' →
      List.Forall₂ SameFrame (raceLoop collate weather input fuel tick state).1
          (raceLoop collate weather input' fuel tick state').1 ∧
        Shuffled ids (raceLoop collate weather input fuel tick state).2
          (raceLoop collate weather input' fuel tick state').2 := by
  induction fuel with
  | zero => exact fun _ _ _ h => ⟨.nil, h⟩
  | succ fuel ih =>
    intro tick state state' h
    have hlength : input.entrants.length = input'.entrants.length := hlist.entrants.perm.length_eq
    unfold Track.raceLoop
    rw [h.times, hlength]
    split
    · have hnext := h.raceTick weather hlist hids tick
      obtain ⟨hframes, hlast⟩ := ih (tick + 1) hnext
      exact ⟨.cons ⟨rfl, hnext.field.rows⟩ hframes, hlast⟩
    · exact ⟨.nil, h⟩

/-- The start. -/
theorem Relisted.startOf (h : Relisted input input') :
    Shuffled (input.entrants.map Racer.id) (startOf input.entrants) (startOf input'.entrants) := by
  refine ⟨⟨⟨h.entrants.perm.map _, ?_⟩, ?_⟩, rfl, fun _ => rfl, fun _ => rfl⟩
  · show ((input.entrants.map _).map RacePosition.id).Nodup
    rw [List.map_map]
    exact h.entrants.nodup
  · intro position hposition
    obtain ⟨runner, hrunner, rfl⟩ := List.mem_map.mp hposition
    exact List.mem_map_of_mem hrunner

/-- The same result: the finish, the length, and for each runner the calls and the bursts. -/
structure SameRace (race race' : RaceSimulation) : Prop where
  frames : List.Forall₂ SameFrame race.frames race'.frames
  finish : race.finish = race'.finish
  seconds : race.seconds = race'.seconds
  calls : ∀ id, (race.calls.filter fun call => call.id = id) = race'.calls.filter fun call => call.id = id
  bursts : ∀ id,
    (race.bursts.filter fun burst => burst.id = id) = race'.bursts.filter fun burst => burst.id = id

/-- The same answer: the same race, or the same refusal. -/
inductive SameAnswer : Except TrackError RaceSimulation → Except TrackError RaceSimulation → Prop
  | ok {race race' : RaceSimulation} (h : SameRace race race') : SameAnswer (.ok race) (.ok race')
  | error (e : TrackError) : SameAnswer (.error e) (.error e)

/-- A check that is the same for both. -/
theorem SameAnswer.throwIf_bind {answer answer' : Except TrackError RaceSimulation} (p : Prop) [Decidable p]
    (e : TrackError) (h : SameAnswer answer answer') :
    SameAnswer (throwIf p e >>= fun _ => answer) (throwIf p e >>= fun _ => answer') := by
  unfold throwIf
  split
  · exact .error e
  · exact h

theorem Shuffled.finish_eq (h : Shuffled ids state state') (hids : Tells collate ids) :
    orderBy (finishKey collate) (state.positions.filterMap (finishOf state.times)) =
      orderBy (finishKey collate) (state'.positions.filterMap (finishOf state'.times)) := by
  have hid : ∀ position, ∀ finish ∈ finishOf state.times position, finish.id = position.id := by
    intro position finish hfinish
    obtain ⟨_, -, rfl⟩ := Option.map_eq_some_iff.mp hfinish
    rfl
  rw [← h.times]
  refine (h.field.rows.filterMap hid).orderBy_eq fun a ha b hb heq => ?_
  obtain ⟨position, hposition, hfinish⟩ := List.mem_filterMap.mp ha
  obtain ⟨position', hposition', hfinish'⟩ := List.mem_filterMap.mp hb
  have hkeys := congrArg (fun key => (ofLex key).2) heq
  refine hids _ ?_ _ ?_ hkeys
  · rw [hid position a hfinish]
    exact h.field.known position hposition
  · rw [hid position' b hfinish']
    exact h.field.known position' hposition'

theorem last_frame_eq {frames frames' : List RaceFrame} (h : List.Forall₂ SameFrame frames frames') :
    (frames.getLast?).map RaceFrame.time = (frames'.getLast?).map RaceFrame.time := by
  have htimes : frames.map RaceFrame.time = frames'.map RaceFrame.time := by
    induction h with
    | nil => rfl
    | cons hframe _ ih => rw [List.map_cons, List.map_cons, hframe.1, ih]
  rw [← List.getLast?_map, htimes, List.getLast?_map]

theorem Shuffled.raceOf (h : Shuffled ids state state') (hlist : Relisted input input')
    (hids : Tells collate ids) {frames frames' : List RaceFrame} (hframes : List.Forall₂ SameFrame frames frames') :
    SameRace (raceOf collate input.entrants frames state) (raceOf collate input'.entrants frames' state') where
  frames := .cons ⟨rfl, hlist.startOf.field.rows⟩ hframes
  finish := h.finish_eq hids
  seconds := by
    show ((frames.getLast?).map RaceFrame.time).getD 0 = ((frames'.getLast?).map RaceFrame.time).getD 0
    rw [last_frame_eq hframes]
  calls := h.calls
  bursts := h.bursts

/-- What is checked is the same. -/
theorem Relisted.valid_eq (h : Relisted input input') :
    validRacers input.entrants = validRacers input'.entrants ∧
      validCommands input.entrants input.commands = validCommands input'.entrants input'.commands ∧
      validBurst input.entrants input.burstAt = validBurst input'.entrants input'.burstAt := by
  have howner : hasOwner input.entrants = hasOwner input'.entrants := h.entrants.any_eq _
  have hnodup := (h.entrants.perm.map Racer.id).nodup_iff
  refine ⟨?_, ?_, ?_⟩
  · unfold validRacers
    rw [h.entrants.perm.all_eq]
    simp only [h.entrants.perm.length_eq, hnodup]
  · unfold validCommands
    rw [howner, h.commands]
  · unfold validBurst
    rw [howner, h.burstAt]

/-- **The race does not depend on the order of its entrants.** -/
theorem Relisted.simulateRace (h : Relisted input input') (hids : Tells collate (input.entrants.map Racer.id)) :
    SameAnswer (simulateRace collate weather input) (simulateRace collate weather input') := by
  obtain ⟨hframes, hlast⟩ := Shuffled.raceLoop weather h hids 2000 0 h.startOf
  obtain ⟨hracers, hcommands, hburst⟩ := h.valid_eq
  have hlength : input.entrants.length = input'.entrants.length := h.entrants.perm.length_eq
  have hrace := hlast.raceOf h hids hframes
  unfold Track.simulateRace
  rw [hracers, hcommands, hburst, h.course, hlength]
  refine .throwIf_bind _ _ (.throwIf_bind _ _ (.throwIf_bind _ _ ?_))
  simp only
  rw [hlast.times]
  exact .throwIf_bind _ _ (.ok hrace)

end Race

end Mapae.Arcade.Track
