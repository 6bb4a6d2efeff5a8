import Mapae.Arcade.StampClock

/-!
# The agent at any frame rate

* `Steady` is what holds between two calls
* `nextEvent_advance`: an instant without an event does not change which event is next
* `advanceAgent_advanceAgent`: two calls are one call
-/

namespace Mapae.Arcade

open Mapae.Infra

/-! ## The precise moment -/

section Moment

variable {chief : Actor} {elapsed mid moment : Int}

/-- The moment in numbers. -/
theorem moment_eq (chief : Actor) (elapsed : Int) : chief.moment elapsed =
    (let cycle := max 0 ((elapsed - chief.bornAt) / 2400)
    let first := chief.bornAt + cycle * 2400 + 1600
    let time := if first ≤ elapsed ∨ chief.lastOpeningHit = some cycle then first + 2400 else first
    if chief.expiresAt ≤ time then none else some time) := by
  have hsum : ∀ cycle : Int, chief.bornAt + cycle * 2400 + BOSS_PERFECT_START_MS +
      BOSS_PERFECT_MS / 2 = chief.bornAt + cycle * 2400 + 1600 := fun cycle => by
    change chief.bornAt + cycle * 2400 + 1450 + 150 = _
    omega
  simp only [Actor.moment, bossCycleMs_eq, hsum]

/-- A moment is one of two candidates, the first of which is ahead and not of a closed opening. -/
theorem moment_cases (h : chief.moment elapsed = some moment) : ∃ cycle, 0 ≤ cycle ∧
    (elapsed - chief.bornAt) / 2400 ≤ cycle ∧ moment < chief.expiresAt ∧
    ((moment = chief.bornAt + cycle * 2400 + 1600 ∧ elapsed < moment) ∨
      moment = chief.bornAt + cycle * 2400 + 1600 + 2400) := by
  rw [moment_eq] at h
  dsimp only at h
  refine ⟨max 0 ((elapsed - chief.bornAt) / 2400), by omega, by omega, ?_⟩
  generalize max 0 ((elapsed - chief.bornAt) / 2400) = cycle at h ⊢
  by_cases hbump : chief.bornAt + cycle * 2400 + 1600 ≤ elapsed ∨ chief.lastOpeningHit = some cycle
  · rw [if_pos hbump] at h
    split at h
    · cases h
    · next halive =>
      cases h
      exact ⟨by omega, Or.inr rfl⟩
  · rw [if_neg hbump] at h
    split at h
    · cases h
    · next halive =>
      cases h
      have := (not_or.mp hbump).1
      exact ⟨by omega, Or.inl ⟨rfl, by omega⟩⟩

/-- The moment is ahead, and before the chief is gone. -/
theorem lt_moment (h : chief.moment elapsed = some moment) : elapsed < moment ∧ moment < chief.expiresAt := by
  obtain ⟨cycle, -, hcycle, halive, ⟨-, hahead⟩ | rfl⟩ := moment_cases h
  · exact ⟨hahead, halive⟩
  · exact ⟨by omega, halive⟩

/-- A chief is hit well after it came. -/
theorem moment_late (h : chief.moment elapsed = some moment) : chief.bornAt + 1600 ≤ moment := by
  obtain ⟨cycle, h0, -, -, ⟨rfl, -⟩ | rfl⟩ := moment_cases h <;> omega

/-- **Until the moment comes it stays the same.** -/
theorem moment_later (hborn : chief.bornAt ≤ elapsed)
    (hopened : ∀ k, chief.lastOpeningHit = some k → 0 ≤ k ∧ chief.bornAt + 2400 * k ≤ elapsed)
    (hle : elapsed ≤ mid) (halive : mid < chief.expiresAt)
    (h : ∀ moment, chief.moment elapsed = some moment → mid < moment) :
    chief.moment mid = chief.moment elapsed := by
  -- the opening that was hit last is not after the one of either instant
  have hlast : ∀ cycle : Int, elapsed < chief.bornAt + 2400 * cycle →
      chief.lastOpeningHit ≠ some cycle := by
    intro cycle hcycle hhit
    have := (hopened cycle hhit).2
    omega
  have hcycle : ∀ time : Int, chief.bornAt ≤ time →
      max 0 ((time - chief.bornAt) / 2400) = (time - chief.bornAt) / 2400 := by
    intro time htime
    omega
  rw [moment_eq, moment_eq] at *
  dsimp only at h ⊢
  rw [hcycle elapsed hborn] at h ⊢
  rw [hcycle mid (hborn.trans hle)]
  generalize hc : (elapsed - chief.bornAt) / 2400 = c at h ⊢
  generalize hd : (mid - chief.bornAt) / 2400 = d
  by_cases hbump : chief.bornAt + c * 2400 + 1600 ≤ elapsed ∨ chief.lastOpeningHit = some c
  · rw [if_pos hbump] at h ⊢
    by_cases hgone : chief.expiresAt ≤ chief.bornAt + c * 2400 + 1600 + 2400
    · rw [if_pos hgone, if_pos]
      split
      · omega
      · next hfirst =>
        -- a later cycle, or the same one, whose window is over
        by_cases hsame : d = c
        · rw [hsame] at hfirst
          rcases hbump with hover | hhit
          · exact absurd (Or.inl (by omega)) hfirst
          · exact absurd (Or.inr hhit) hfirst
        · omega
    · rw [if_neg hgone] at h ⊢
      have hmid := h _ rfl
      by_cases hsame : d = c
      · have hbump' : chief.bornAt + d * 2400 + 1600 ≤ mid ∨ chief.lastOpeningHit = some d := by
          rw [hsame]
          exact hbump.imp (fun hover => by omega) id
        rw [if_pos hbump', hsame, if_neg hgone]
      · have hnext : d = c + 1 := by omega
        have hbump' : ¬ (chief.bornAt + d * 2400 + 1600 ≤ mid ∨ chief.lastOpeningHit = some d) :=
          not_or.mpr ⟨by omega, hlast d (by omega)⟩
        have hsum : chief.bornAt + d * 2400 + 1600 = chief.bornAt + c * 2400 + 1600 + 2400 := by omega
        rw [if_neg hbump', hsum, if_neg hgone]
  · rw [if_neg hbump] at h ⊢
    by_cases hgone : chief.expiresAt ≤ chief.bornAt + c * 2400 + 1600
    · rw [if_pos hgone, if_pos]
      split <;> omega
    · rw [if_neg hgone] at h ⊢
      have hmid := h _ rfl
      have hsame : d = c := by omega
      have hbump' : ¬ (chief.bornAt + d * 2400 + 1600 ≤ mid ∨ chief.lastOpeningHit = some d) := by
        rw [hsame]
        exact not_or.mpr ⟨by omega, (not_or.mp hbump).2⟩
      rw [if_neg hbump', hsame, if_neg hgone]

end Moment

/-! ## Who is there -/

section Actors

variable {game : Game} {time end_ : Int} {i : Fin CELL_COUNT} {actor : Actor}

/-- An actor after an arrival was there, or is the one that came. -/
theorem actor_spawn (h : ((game.spawn time).cells i).actor = some actor) :
    (game.cells i).actor = some actor ∨ (actor.bornAt = time ∧
      (actor.special = some .boss → game.practice = .full → game.bossSpawned = false)) := by
  unfold Game.spawn at h
  split at h
  · next hpractice =>
    change (if i = 4 then _ else game.cells i).actor = some actor at h
    split at h
    · cases h
      exact Or.inr ⟨rfl, fun _ hfull => by rw [hpractice] at hfull; cases hfull⟩
    · exact Or.inl h
  · unfold Game.spawnRound at h
    dsimp only at h
    split at h
    · next j hplace =>
      split at h
      · change (if i = j then _ else game.cells i).actor = some actor at h
        split at h
        · cases h
          exact Or.inr ⟨bornAt_arrival, fun hboss _ => (of_decide_eq_true (boss_arrival hboss).1).2⟩
        · exact Or.inl h
      · exact Or.inl h
    · exact Or.inl h

/-- Whoever is there stays when another comes. -/
theorem actor_spawn_of (hdrill : game.practice = .boss → game.cells 4 = ⟨none, none⟩)
    (h : (game.cells i).actor = some actor) : ((game.spawn time).cells i).actor = some actor := by
  unfold Game.spawn
  split
  · next hpractice =>
    change (if i = 4 then _ else game.cells i).actor = some actor
    split
    · next hi =>
      rw [hi, hdrill hpractice] at h
      cases h
    · exact h
  · unfold Game.spawnRound
    dsimp only
    split
    · next j hplace =>
      split
      · change (if i = j then _ else game.cells i).actor = some actor
        split
        · next hi =>
          rw [hi, mem_place hplace] at h
          cases h
        · exact h
      · exact h
    · exact h

@[simp] theorem practice_spawn : (game.spawn time).practice = game.practice := by
  unfold Game.spawn
  split
  · rfl
  · unfold Game.spawnRound
    dsimp only
    split
    · split <;> rfl
    · rfl

theorem bossSpawned_spawn (h : game.bossSpawned = true) : (game.spawn time).bossSpawned = true := by
  unfold Game.spawn
  split
  · rfl
  · unfold Game.spawnRound
    dsimp only
    split
    · split
      · change (game.bossSpawned || game.bossDue time) = true
        rw [h, Bool.true_or]
      · exact h
    · exact h

/-- **An actor after some arrivals was there, or came after the last arrival before them.** -/
theorem actor_arrivals (h : ((game.arrivals end_).cells i).actor = some actor) :
    (game.cells i).actor = some actor ∨ (game.nextSpawn ≤ actor.bornAt ∧ game.nextSpawn < game.durationMs ∧
      (actor.special = some .boss → game.practice = .full → game.bossSpawned = false)) := by
  fun_induction Game.arrivals game end_ with
  | case1 game hnext ih =>
    have hlater : game.nextSpawn < ((game.expire game.nextSpawn).spawn game.nextSpawn).nextSpawn :=
      lt_nextSpawn_spawn game.nextSpawn hnext.2
    rcases ih h with hthere | ⟨hborn, -, hboss⟩
    · rcases actor_spawn hthere with hold | ⟨hborn, hboss⟩
      · exact Or.inl (actor_expire.mp hold).1
      · exact Or.inr ⟨hborn.ge, hnext.2, hboss⟩
    · refine Or.inr ⟨hlater.le.trans hborn, hnext.2, fun hb hfull => Bool.eq_false_iff.mpr fun hspawned => ?_⟩
      have hthere : ((game.expire game.nextSpawn).spawn game.nextSpawn).bossSpawned = true :=
        bossSpawned_spawn hspawned
      rw [hboss hb (practice_spawn.trans hfull)] at hthere
      cases hthere
  | case2 game hnext => exact Or.inl h

/-- Whoever is there stays until its time is over. -/
theorem actor_arrivals_of (hpaced : Paced end_ game) (halive : end_ < actor.expiresAt)
    (h : (game.cells i).actor = some actor) : ((game.arrivals end_).cells i).actor = some actor := by
  fun_induction Game.arrivals game end_ with
  | case1 game hnext ih =>
    refine ih (hpaced.expire.spawn hnext.1 hnext.2) (actor_spawn_of (fun hpractice => ?_) ?_)
    · exact (hpaced.expire.drill hpractice hnext.2).2 4
    · exact actor_expire.mpr ⟨h, by omega⟩
  | case2 game hnext => exact h

end Actors

/-! ## The pace of a player's moves -/

section Moves

variable {game : Game} {time : Int} {i : Fin CELL_COUNT} {actor : Actor}

theorem Paced.of_clock {game' : Game} (h : Paced time game) (hclock : game'.clock = game.clock)
    (hcells : game'.cells = game.cells) : Paced time game' := by
  obtain ⟨-, hpractice, hduration, -, -, hnext, -, hspawned, -, -⟩ := Clock.mk.inj hclock
  refine ⟨?_, ?_, ?_, ?_, ?_, ?_⟩
  · rw [hcells]; exact h.born
  · rw [hcells]; exact h.guarded
  · rw [hcells]; exact h.opened
  · rw [hcells]; exact h.alone
  · rw [hcells, hspawned]; exact h.spawned
  · rw [hcells, hspawned, hpractice, hnext, hduration]; exact h.drill

/-- A struck cell. The actor may stay, with an opening that has begun and perhaps a guard. -/
theorem Paced.struck {game' : Game} {cell : Cell} (h : Paced time game)
    (hactor : (game.cells i).actor = some actor) (hclock : game'.clock = game.clock)
    (hcells : ∀ j, game'.cells j = if j = i then cell else game.cells j)
    (hsame : ∀ after, cell.actor = some after → after.bornAt = actor.bornAt ∧
      after.special = actor.special ∧ after.kind = actor.kind)
    (hopened : ∀ after k, cell.actor = some after → actor.special = some .boss →
      after.lastOpeningHit = some k → 0 ≤ k ∧ actor.bornAt + 2400 * k ≤ time)
    (hguarded : ∀ after impact, cell.actor = some after → actor.special = some .boss →
      cell.impact = some impact → impact.kind = .guard →
      ∃ k, 0 ≤ k ∧ actor.bornAt + 2400 * k ≤ time ∧ impact.until_ ≤ actor.bornAt + 2400 * k + 1240) :
    Paced time game' := by
  obtain ⟨-, hpractice, hduration, -, -, hnext, -, hspawned, -, -⟩ := Clock.mk.inj hclock
  have hold : ∀ j other, (game'.cells j).actor = some other → other.special = some .boss →
      ∃ before, (game.cells j).actor = some before ∧ before.special = some .boss := by
    intro j other ho hb
    rw [hcells j] at ho
    split at ho
    · next hj =>
      rw [hj]
      exact ⟨actor, hactor, (hsame other ho).2.1.symm.trans hb⟩
    · exact ⟨other, ho, hb⟩
  refine ⟨fun j other ho => ?_, fun j other ho hb => ?_, fun j other k ho hb hk => ?_,
    fun j k a b ha hba hb hbb => ?_, fun j other ho hb => ?_, fun hp hn => ?_⟩
  · rw [hcells j] at ho
    split at ho
    · rw [(hsame other ho).1]
      exact h.born i actor hactor
    · exact h.born j other ho
  · rw [hcells j] at ho ⊢
    split at ho
    · next hj =>
      obtain ⟨hborn, hspecial, hkind⟩ := hsame other ho
      have hboss : actor.special = some .boss := hspecial.symm.trans hb
      rw [if_pos hj, hkind, hborn]
      exact ⟨(h.guarded i actor hactor hboss).1,
        fun impact hi hguard => hguarded other impact ho hboss hi hguard⟩
    · next hj =>
      rw [if_neg hj]
      exact h.guarded j other ho hb
  · rw [hcells j] at ho
    split at ho
    · obtain ⟨hborn, hspecial, -⟩ := hsame other ho
      rw [hborn]
      exact hopened other k ho (hspecial.symm.trans hb) hk
    · exact h.opened j other k ho hb hk
  · obtain ⟨a', ha', hba'⟩ := hold j a ha hba
    obtain ⟨b', hb', hbb'⟩ := hold k b hb hbb
    exact h.alone j k a' b' ha' hba' hb' hbb'
  · obtain ⟨before, hbefore, hboss⟩ := hold j other ho hb
    rw [hspawned]
    exact h.spawned j before hbefore hboss
  · rw [hpractice] at hp
    rw [hnext, hduration] at hn
    rw [(h.drill hp hn).2 i] at hactor
    cases hactor

/-- A hit that lands keeps the pace. -/
theorem Paced.hit {struck : Actor} {precisionPoints : Int} (h : Paced time game)
    (hactor : (game.cells i).actor = some actor)
    (hsame : struck.bornAt = actor.bornAt ∧ struck.special = actor.special ∧ struck.kind = actor.kind)
    (hopened : ∀ k, actor.special = some .boss → struck.lastOpeningHit = some k →
      0 ≤ k ∧ actor.bornAt + 2400 * k ≤ time) :
    Paced time (game.hit i actor struck precisionPoints) := by
  have hclock := clock_hit game i actor struck precisionPoints
  unfold Game.hit at hclock ⊢
  split
  · refine h.struck hactor rfl (fun j => rfl) (fun after ha => ?_) (fun after k ha hb hk => ?_)
      fun after impact ha hb hi hguard => ?_
    · cases ha
      exact hsame
    · cases ha
      exact hopened k hb hk
    · cases hi
      cases hguard
  · split
    · exact h.struck hactor rfl (fun j => rfl) (fun _ ha => nomatch ha) (fun _ _ ha => nomatch ha)
        fun _ _ ha => nomatch ha
    · obtain ⟨_, _, _, hcharge, -⟩ := charge_eq (game.setCell i ⟨none, some (game.defeatImpact actor precisionPoints)⟩)
      unfold Game.defeat
      dsimp only
      rw [hcharge]
      exact h.struck hactor rfl (fun j => rfl) (fun _ ha => nomatch ha) (fun _ _ ha => nomatch ha)
        fun _ _ ha => nomatch ha

theorem Paced.guard (h : Paced game.elapsed game) (hactor : (game.cells i).actor = some actor)
    (hphase : (bossWindow actor game.elapsed).phase = .guard) :
    Paced game.elapsed (game.guarded i actor (bossWindow actor game.elapsed).opening) := by
  have hborn := h.born i actor hactor
  obtain ⟨h0, hlow, -⟩ := opening_bounds hborn
  have hearly := phase_guard hborn hphase
  unfold Game.guarded
  split
  · exact h
  · refine h.struck hactor rfl (fun j => rfl) (fun after ha => ?_) (fun after k ha hb hk => ?_)
      fun after impact ha hb hi hguard => ?_
    · cases ha
      exact ⟨rfl, rfl, rfl⟩
    · cases ha
      exact h.opened i actor k hactor hb hk
    · cases hi
      exact ⟨_, h0, hlow, by dsimp only; omega⟩

theorem Paced.strike (h : Paced game.elapsed game) (hactor : (game.cells i).actor = some actor) :
    Paced game.elapsed (game.strike i actor) := by
  unfold Game.strike
  split
  · next hboss =>
    dsimp only
    split
    · exact h
    · next hphase => exact h.guard hactor hphase
    · unfold Game.open_
      obtain ⟨h0, hlow, -⟩ := opening_bounds (h.born i actor hactor)
      have htally : Paced game.elapsed (game.tally (bossWindow actor game.elapsed)) := h.of_clock rfl rfl
      refine htally.hit hactor ⟨rfl, rfl, rfl⟩ fun k hb hk => ?_
      cases hk
      exact ⟨h0, hlow⟩
  · exact h.hit hactor ⟨rfl, rfl, rfl⟩ fun k hb hk => h.opened i actor k hactor hb hk

theorem Paced.stamp (h : Paced game.elapsed game) (index : Int) :
    Paced (stamp game index).elapsed (stamp game index) := by
  rw [show (Arcade.stamp game index).elapsed = game.elapsed from
    congrArg Clock.elapsed (clock_stamp game index)]
  unfold Arcade.stamp
  split
  · exact h
  · split
    · dsimp only
      split
      · exact h
      · next hactor =>
        split
        · exact h
        · exact h.strike hactor
    · exact h

end Moves

/-! ## Between two calls -/

/-- What holds between two calls. -/
structure Steady (game : Game) : Prop where
  paced : Paced game.elapsed game
  /-- Until the bell, whatever is due has happened. -/
  ahead : game.finished = false → game.elapsed < game.durationMs ∧
    (game.elapsed < game.nextSpawn ∨ game.durationMs ≤ game.nextSpawn)

section Steady

variable {game : Game}

theorem Steady.of_clock {game' : Game} (h : Steady game) (hclock : game'.clock = game.clock)
    (hpaced : Paced game'.elapsed game') : Steady game' := by
  obtain ⟨-, -, hduration, -, helapsed, hnext, -, -, -, hfinished⟩ := Clock.mk.inj hclock
  refine ⟨hpaced, ?_⟩
  rw [hduration, helapsed, hnext, hfinished]
  exact h.ahead

theorem Steady.stamp (h : Steady game) (index : Int) : Steady (stamp game index) :=
  h.of_clock (clock_stamp game index) (h.paced.stamp index)

theorem cells_activateFever (game : Game) : (activateFever game).cells = game.cells := by
  unfold activateFever
  split <;> rfl

theorem Steady.activateFever (h : Steady game) : Steady (activateFever game) := by
  have hclock := clock_activateFever game
  refine h.of_clock hclock ?_
  rw [show (Arcade.activateFever game).elapsed = game.elapsed from congrArg Clock.elapsed hclock]
  exact h.paced.of_clock hclock (cells_activateFever game)

theorem Steady.setFeverMode (h : Steady game) (mode : FeverMode) : Steady (setFeverMode game mode) := by
  have hpaced := h.paced
  have hmode : Steady { game with feverMode := mode } :=
    ⟨⟨hpaced.born, hpaced.guarded, hpaced.opened, hpaced.alone, hpaced.spawned, hpaced.drill⟩, h.ahead⟩
  unfold Arcade.setFeverMode
  split
  · exact h
  · cases mode with
    | auto => exact hmode.activateFever
    | manual => exact hmode

theorem Steady.agentTurn (h : Steady game) (tempo : Tempo) (focus time : Int) (precise : Bool) :
    Steady (game.agentTurn tempo focus time precise) := by
  unfold Game.agentTurn
  dsimp only
  split
  · refine Steady.stamp ?_ _
    split
    · exact h.activateFever
    · exact h
  · split
    · exact h.activateFever
    · exact h

/-- The bell clears the cells. -/
theorem Paced.settle {end_ : Int} (h : Paced end_ game) : Paced end_ (game.settle end_) := by
  have hold : ∀ i actor, ((game.settle end_).cells i).actor = some actor →
      (game.settle end_).cells i = game.cells i := by
    intro i actor ha
    change (if end_ = game.durationMs then _ else game.cells i).actor = some actor at ha
    change (if end_ = game.durationMs then _ else game.cells i) = _
    split at ha
    · cases ha
    · next hbell => rw [if_neg hbell]
  have hactor : ∀ i actor, ((game.settle end_).cells i).actor = some actor →
      (game.cells i).actor = some actor := fun i actor ha => (congrArg Cell.actor (hold i actor ha)) ▸ ha
  refine ⟨fun i actor ha => h.born i actor (hactor i actor ha), fun i actor ha hb => ?_,
    fun i actor k ha => h.opened i actor k (hactor i actor ha),
    fun i j a b ha hba hb => h.alone i j a b (hactor i a ha) hba (hactor j b hb),
    fun i actor ha => h.spawned i actor (hactor i actor ha), fun hp hn => ?_⟩
  · obtain ⟨hkind, himpact⟩ := h.guarded i actor (hactor i actor ha) hb
    exact ⟨hkind, fun impact hi => himpact impact (congrArg Cell.impact (hold i actor ha) ▸ hi)⟩
  · obtain ⟨hspawned, hempty⟩ := h.drill hp hn
    refine ⟨hspawned, fun i => ?_⟩
    change (if end_ = game.durationMs then { game.cells i with actor := none } else game.cells i) = _
    rw [hempty i]
    split <;> rfl

theorem Steady.advance (h : Steady game) (deltaMs : Int) : Steady (advance game deltaMs) := by
  unfold Arcade.advance
  split
  · exact h
  · next hstop =>
    obtain ⟨hfinished, hpos⟩ := not_or.mp hstop
    obtain ⟨hbell, -⟩ := h.ahead (Bool.eq_false_iff.mpr hfinished)
    dsimp only
    generalize hend : min game.durationMs (game.elapsed + deltaMs) = end_
    have hpaced : Paced end_ game := h.paced.mono (by omega)
    have hsettled : Paced end_ (((game.arrivals end_).expire end_).settle end_) :=
      hpaced.arrivals.expire.settle
    refine ⟨hsettled, fun hgoing => ?_⟩
    have hne : end_ ≠ game.durationMs := by
      have := of_decide_eq_false hgoing
      rwa [durationMs_expire, durationMs_arrivals] at this
    have hnext := nextSpawn_arrivals game end_
    change end_ < (game.arrivals end_).durationMs ∧
      (end_ < (game.arrivals end_).nextSpawn ∨ (game.arrivals end_).durationMs ≤ (game.arrivals end_).nextSpawn)
    rw [durationMs_arrivals]
    exact ⟨by omega, hnext⟩

/-! ## The next event -/

/-- The step up to an instant of the round. -/
theorem advance_to {mid : Int} (hfinished : game.finished = false)
    (hlt : game.elapsed < mid) (hbell : mid < game.durationMs) :
    advance game (mid - game.elapsed) = ((game.arrivals mid).expire mid).stopped mid := by
  rw [advance_of_pos hfinished (by omega), show min game.durationMs (game.elapsed + (mid - game.elapsed)) = mid by omega]
  refine settle_eq_stopped ?_
  rw [durationMs_expire, durationMs_arrivals]
  omega

variable {mid : Int} {i : Fin CELL_COUNT} {actor : Actor}

/-- Who is there after a step was there, or came in between. -/
theorem actor_advance (h : Steady game) (hfinished : game.finished = false) (hlt : game.elapsed < mid)
    (hbell : mid < game.durationMs) (hactor : ((advance game (mid - game.elapsed)).cells i).actor = some actor) :
    mid < actor.expiresAt ∧ ((game.cells i).actor = some actor ∨ (game.elapsed < actor.bornAt ∧
      (actor.special = some .boss → game.bossSpawned = false))) := by
  rw [advance_to hfinished hlt hbell] at hactor
  obtain ⟨hthere, halive⟩ := actor_expire.mp hactor
  refine ⟨halive, (actor_arrivals hthere).imp id ?_⟩
  rintro ⟨hborn, hnext, hboss⟩
  have hahead := (h.ahead hfinished).2
  refine ⟨by omega, fun hb => ?_⟩
  cases hpractice : game.practice with
  | full => exact hboss hb hpractice
  | boss => exact (h.paced.drill hpractice hnext).1

/-- Who has time left stays. -/
theorem actor_advance_of (h : Steady game) (hfinished : game.finished = false) (hlt : game.elapsed < mid)
    (hbell : mid < game.durationMs) (halive : mid < actor.expiresAt)
    (hactor : (game.cells i).actor = some actor) :
    ((advance game (mid - game.elapsed)).cells i).actor = some actor := by
  rw [advance_to hfinished hlt hbell]
  exact actor_expire.mpr ⟨actor_arrivals_of (h.paced.mono hlt.le) halive hactor, halive⟩

theorem chief_eq_some (hchief : game.chief = some actor) :
    ∃ i, (game.cells i).actor = some actor ∧ actor.special = some .boss := by
  obtain ⟨i, -, hi⟩ := List.exists_of_findSome?_eq_some hchief
  obtain ⟨hactor, hboss⟩ := Option.filter_eq_some_iff.mp hi
  exact ⟨i, hactor, of_decide_eq_true hboss⟩

theorem chief_of_mem {time : Int} (h : Paced time game) (hactor : (game.cells i).actor = some actor)
    (hboss : actor.special = some .boss) : game.chief = some actor := by
  cases hchief : game.chief with
  | none =>
    have hnone := List.findSome?_eq_none_iff.mp hchief i (List.mem_finRange i)
    rw [hactor, Option.filter_some, if_pos (decide_eq_true hboss)] at hnone
    cases hnone
  | some other =>
    obtain ⟨j, hj, hb⟩ := chief_eq_some hchief
    rw [h.alone i j actor other hactor hboss hj hb, hj] at hactor
    exact hactor

/-- **An instant without an event keeps the precise moment**, or a chief came whose moment is far. -/
theorem preciseAt_advance (h : Steady game) (hfinished : game.finished = false) (tempo : Tempo)
    (hlt : game.elapsed < mid) (hbell : mid < game.durationMs)
    (hearly : ∀ time, game.preciseAt tempo = some time → mid < time) :
    (advance game (mid - game.elapsed)).preciseAt tempo = game.preciseAt tempo ∨
      (game.preciseAt tempo = none ∧ ∃ time, (advance game (mid - game.elapsed)).preciseAt tempo = some time ∧
        game.elapsed + 1600 < time) := by
  have hsteady := h.advance (mid - game.elapsed)
  have helapsed : (advance game (mid - game.elapsed)).elapsed = mid := by
    rw [advance_to hfinished hlt hbell]
    rfl
  unfold Game.preciseAt at hearly ⊢
  cases tempo with
  | quick => exact Or.inl rfl
  | careful =>
    simp only [reduceCtorEq, if_false] at hearly ⊢
    rw [helapsed]
    cases hchief : game.chief with
    | none =>
      rw [hchief] at hearly
      cases hlater : (advance game (mid - game.elapsed)).chief with
      | none => exact Or.inl rfl
      | some chief =>
        -- the chief came in between
        obtain ⟨i, hi, hboss⟩ := chief_eq_some hlater
        obtain ⟨-, hold | ⟨hborn, -⟩⟩ := actor_advance h hfinished hlt hbell hi
        · rw [chief_of_mem h.paced hold hboss] at hchief
          cases hchief
        · cases hmoment : chief.moment mid with
          | none => exact Or.inl hmoment
          | some time =>
            have := moment_late hmoment
            exact Or.inr ⟨rfl, time, hmoment, by omega⟩
    | some chief =>
      rw [hchief] at hearly
      obtain ⟨i, hi, hboss⟩ := chief_eq_some hchief
      refine Or.inl ?_
      by_cases halive : mid < chief.expiresAt
      · have hstays := actor_advance_of h hfinished hlt hbell halive hi
        rw [chief_of_mem hsteady.paced hstays hboss]
        exact moment_later (h.paced.born i chief hi) (fun k => h.paced.opened i chief k hi hboss) hlt.le
          halive hearly
      · -- the chief had no moment left, and no other comes
        have hnone : chief.moment game.elapsed = none := by
          cases hmoment : chief.moment game.elapsed with
          | none => rfl
          | some time =>
            have := hearly time hmoment
            have := (lt_moment hmoment).2
            omega
        cases hlater : (advance game (mid - game.elapsed)).chief with
        | none => exact hnone.symm
        | some other =>
          obtain ⟨j, hj, hb⟩ := chief_eq_some hlater
          obtain ⟨hover, hold | ⟨-, hfirst⟩⟩ := actor_advance h hfinished hlt hbell hj
          · have hsame := (chief_of_mem h.paced hold hb).symm.trans hchief
            cases hsame
            exact absurd hover halive
          · have hspawned := h.paced.spawned i chief hi hboss
            rw [hfirst hb] at hspawned
            cases hspawned

/-- The next event stays, and whether it is the precise moment. -/
theorem nextEvent_advance (h : Steady game) (hfinished : game.finished = false) (tempo : Tempo) {beat : Int}
    (hlt : game.elapsed < mid) (hbell : mid < game.durationMs) (hbeat : beat < game.elapsed + 1600)
    (hearly : mid < game.nextEvent tempo beat) :
    (advance game (mid - game.elapsed)).nextEvent tempo beat = game.nextEvent tempo beat ∧
      ((advance game (mid - game.elapsed)).preciseAt tempo = some (game.nextEvent tempo beat) ↔
        game.preciseAt tempo = some (game.nextEvent tempo beat)) := by
  unfold Game.nextEvent at hearly ⊢
  have hmoment : ∀ time, game.preciseAt tempo = some time → mid < time := by
    intro time htime
    rw [htime] at hearly
    exact hearly.trans_le (Int.min_le_right beat time)
  rcases preciseAt_advance h hfinished tempo hlt hbell hmoment with hsame | ⟨hnone, time, htime, hfar⟩
  · rw [hsame]
    exact ⟨rfl, Iff.rfl⟩
  · have hmin : min beat time = beat := by omega
    rw [hnone, htime]
    refine ⟨hmin, fun heq => ?_, fun heq => nomatch heq⟩
    have : time = beat := Option.some.inj heq
    omega

/-! ## What a step keeps -/

/-- What only a change of the fever mode changes. -/
def Game.setting (game : Game) : Option GuardianAptitudes × Practice × Int × FeverMode :=
  (game.aptitudes, game.practice, game.durationMs, game.feverMode)

theorem setting_of_clock {game' : Game} (h : game'.clock = game.clock) : game'.setting = game.setting := by
  obtain ⟨haptitudes, hpractice, hduration, hmode, -⟩ := Clock.mk.inj h
  unfold Game.setting
  rw [haptitudes, hpractice, hduration, hmode]

theorem setting_spawn (game : Game) (time : Int) : (game.spawn time).setting = game.setting := by
  unfold Game.spawn
  split
  · rfl
  · unfold Game.spawnRound
    dsimp only
    split
    · split <;> rfl
    · rfl

theorem setting_arrivals (game : Game) (end_ : Int) : (game.arrivals end_).setting = game.setting := by
  fun_induction Game.arrivals game end_ with
  | case1 game h ih => rw [ih, setting_spawn]; rfl
  | case2 game h => rfl

theorem setting_advance (game : Game) (deltaMs : Int) : (advance game deltaMs).setting = game.setting := by
  unfold advance
  split
  · rfl
  · exact setting_arrivals game _

theorem finished_advance {deltaMs : Int} (hfinished : game.finished = false)
    (hbell : game.elapsed + deltaMs < game.durationMs) : (advance game deltaMs).finished = false := by
  by_cases hpos : 0 < deltaMs
  · rw [advance_of_pos hfinished hpos, show min game.durationMs (game.elapsed + deltaMs) =
      game.elapsed + deltaMs by omega]
    refine decide_eq_false ?_
    rw [durationMs_expire, durationMs_arrivals]
    omega
  · unfold advance
    rw [if_pos (Or.inr (by omega)), hfinished]

end Steady

/-! ## The beat -/

section Beat

variable {interval elapsed time : Int}

/-- The beat after an instant. -/
def beatAfter (interval elapsed : Int) : Int := (elapsed / interval + 1) * interval

theorem lt_beatAfter (hpos : 0 < interval) :
    elapsed < beatAfter interval elapsed ∧ beatAfter interval elapsed ≤ elapsed + interval := by
  have hdiv := Int.mul_ediv_add_emod elapsed interval
  have hlow := Int.emod_nonneg elapsed hpos.ne'
  have hhigh := Int.emod_lt_of_pos elapsed hpos
  unfold beatAfter
  rw [Int.add_mul, Int.mul_comm (elapsed / interval)]
  omega

theorem beatAfter_of_lt (hpos : 0 < interval) (hle : elapsed ≤ time) (hlt : time < beatAfter interval elapsed) :
    beatAfter interval time = beatAfter interval elapsed := by
  unfold beatAfter at hlt ⊢
  congr 2
  refine le_antisymm (Int.lt_add_one_iff.mp (Int.ediv_lt_of_lt_mul hpos hlt)) (Int.ediv_le_ediv hpos hle)

theorem beatAfter_beatAfter (hpos : 0 < interval) :
    beatAfter interval (beatAfter interval elapsed) = beatAfter interval elapsed + interval := by
  unfold beatAfter
  rw [Int.mul_ediv_cancel _ hpos.ne', Int.add_mul _ 1, Int.one_mul]

end Beat

/-! ## The loop -/

section Loop

variable {tempo : Tempo} {focus interval mid end_ beat : Int} {next : Game}

theorem agentLoop_stop (h : ¬ next.elapsed < end_ ∨ end_ < next.nextEvent tempo beat) :
    agentLoop tempo focus interval end_ next beat = next := by
  rw [agentLoop]
  rcases h with hover | hstop
  · rw [if_neg hover]
  · split
    · rw [dif_pos (Or.inl hstop)]
    · rfl

theorem lt_nextEvent (hbeat : next.elapsed < beat) : next.elapsed < next.nextEvent tempo beat := by
  unfold Game.nextEvent
  cases hmoment : next.preciseAt tempo with
  | none => exact hbeat
  | some time =>
    refine Int.lt_min.mpr ⟨hbeat, ?_⟩
    unfold Game.preciseAt at hmoment
    split at hmoment
    · cases hmoment
    · obtain ⟨chief, -, htime⟩ := Option.bind_eq_some_iff.mp hmoment
      exact (lt_moment htime).1

theorem nextEvent_le : next.nextEvent tempo beat ≤ beat := by
  unfold Game.nextEvent
  cases next.preciseAt tempo with
  | none => exact Int.le_refl beat
  | some time => exact Int.min_le_left beat time

/-- The agent acts at the next event, and the loop goes on. -/
theorem agentLoop_turn (hbeat : next.elapsed < beat) (hend : next.nextEvent tempo beat ≤ end_)
    (hgoing : (advance next (next.nextEvent tempo beat - next.elapsed)).finished = false) :
    agentLoop tempo focus interval end_ next beat =
      agentLoop tempo focus interval end_
        ((advance next (next.nextEvent tempo beat - next.elapsed)).agentTurn tempo focus
          (next.nextEvent tempo beat) (next.preciseAt tempo = some (next.nextEvent tempo beat)))
        (if next.nextEvent tempo beat = beat then beat + interval else beat) := by
  have hahead : next.elapsed < next.nextEvent tempo beat := lt_nextEvent hbeat
  rw [agentLoop, if_pos (by omega), dif_neg (by omega)]
  dsimp only
  rw [dif_neg (by rw [hgoing]; decide)]

/-- The bell rings before the agent acts. -/
theorem agentLoop_bell (hbeat : next.elapsed < beat) (hend : next.nextEvent tempo beat ≤ end_)
    (hbell : (advance next (next.nextEvent tempo beat - next.elapsed)).finished = true) :
    agentLoop tempo focus interval end_ next beat = advance next (next.nextEvent tempo beat - next.elapsed) := by
  have hahead : next.elapsed < next.nextEvent tempo beat := lt_nextEvent hbeat
  rw [agentLoop, if_pos (by omega), dif_neg (by omega)]
  dsimp only
  rw [dif_pos hbell]

/-- The agent plays up to an instant. -/
def agentUntil (tempo : Tempo) (focus interval end_ : Int) (next : Game) (beat : Int) : Game :=
  advance (agentLoop tempo focus interval end_ next beat)
    (end_ - (agentLoop tempo focus interval end_ next beat).elapsed)

/-- The two steps to an instant and on, as one. -/
theorem advance_to_advance (h : Steady next) (hfinished : next.finished = false) (hlt : next.elapsed < mid)
    (hbell : mid < next.durationMs) (hend : mid < end_) :
    advance (advance next (mid - next.elapsed)) (end_ - (advance next (mid - next.elapsed)).elapsed) =
      advance next (end_ - next.elapsed) := by
  have helapsed : (advance next (mid - next.elapsed)).elapsed = mid := by
    rw [advance_to hfinished hlt hbell]
    rfl
  rw [helapsed, advance_advance h.paced (by omega) (by omega)]
  congr 1
  omega

/-- **An instant without an event does not change how the agent goes on.** -/
theorem agentUntil_idle (hpos : 0 < interval) (hshort : interval < 1600) (h : Steady next)
    (hfinished : next.finished = false) (hlt : next.elapsed < mid) (hmid : mid < end_)
    (hbell : mid < next.durationMs) (hbeat : beat = beatAfter interval next.elapsed)
    (hidle : mid < next.nextEvent tempo beat) :
    agentUntil tempo focus interval end_ (advance next (mid - next.elapsed)) beat =
      agentUntil tempo focus interval end_ next beat := by
  obtain ⟨hahead, hnear⟩ : next.elapsed < beat ∧ beat ≤ next.elapsed + interval := hbeat ▸ lt_beatAfter hpos
  have helapsed : (advance next (mid - next.elapsed)).elapsed = mid := by
    rw [advance_to hfinished hlt hbell]
    rfl
  have hlater : mid < beat := hidle.trans_le nextEvent_le
  obtain ⟨hevent, hprecise⟩ := nextEvent_advance h hfinished tempo hlt hbell (by omega) hidle
  by_cases hstop : end_ < next.nextEvent tempo beat
  · unfold agentUntil
    rw [agentLoop_stop (Or.inr hstop), agentLoop_stop (Or.inr (by rw [hevent]; exact hstop))]
    exact advance_to_advance h hfinished hlt hbell hmid
  · have hreached : advance (advance next (mid - next.elapsed))
        (next.nextEvent tempo beat - (advance next (mid - next.elapsed)).elapsed) =
        advance next (next.nextEvent tempo beat - next.elapsed) :=
      advance_to_advance h hfinished hlt hbell hidle
    cases hover : (advance next (next.nextEvent tempo beat - next.elapsed)).finished with
    | true =>
      unfold agentUntil
      rw [agentLoop_bell hahead (by omega) hover, agentLoop_bell (by rw [helapsed]; exact hlater) (by omega)
        (by rw [hevent, hreached]; exact hover), hevent, hreached]
    | false =>
      unfold agentUntil
      rw [agentLoop_turn hahead (by omega) hover, agentLoop_turn (by rw [helapsed]; exact hlater) (by omega)
        (by rw [hevent, hreached]; exact hover), hevent, hreached, decide_eq_decide.mpr hprecise]

/-- **The agent may be stopped anywhere.** -/
theorem agentUntil_cut (hpos : 0 < interval) (hshort : interval < 1600) (h : Steady next)
    (hfinished : next.finished = false) (hle : next.elapsed ≤ mid) (hmid : mid < end_)
    (hbell : mid < next.durationMs) (hbeat : beat = beatAfter interval next.elapsed) :
    agentUntil tempo focus interval end_
        (advance (agentLoop tempo focus interval mid next beat)
          (mid - (agentLoop tempo focus interval mid next beat).elapsed)) (beatAfter interval mid) =
      agentUntil tempo focus interval end_ next beat := by
  have hahead : next.elapsed < beat := hbeat ▸ (lt_beatAfter hpos).1
  fun_induction agentLoop tempo focus interval mid next beat with
  | case1 next beat hlt hstop =>
    have hidle : mid < next.nextEvent tempo beat :=
      hstop.resolve_right (not_le.mpr (lt_nextEvent hahead))
    have hsame : beatAfter interval mid = beat :=
      hbeat ▸ beatAfter_of_lt hpos hle (hbeat ▸ hidle.trans_le nextEvent_le)
    rw [hsame]
    exact agentUntil_idle hpos hshort h hfinished hlt hmid hbell hbeat hidle
  | case2 next beat hlt hstop reached hover =>
    have hgoing := finished_advance hfinished
      (show next.elapsed + (next.nextEvent tempo beat - next.elapsed) < next.durationMs by omega)
    rw [hgoing] at hover
    cases hover
  | case3 next beat hlt hstop time reached hgoing ih =>
    have hevent : next.elapsed < time ∧ time ≤ mid := by omega
    have hover : reached.finished = false := Bool.eq_false_iff.mpr hgoing
    have hwhole : agentUntil tempo focus interval end_ next beat =
        agentUntil tempo focus interval end_
          (reached.agentTurn tempo focus time (next.preciseAt tempo = some time))
          (if time = beat then beat + interval else beat) := by
      unfold agentUntil
      rw [agentLoop_turn hahead (hevent.2.trans hmid.le) hover]
    have hclock := clock_agentTurn reached tempo focus time (next.preciseAt tempo = some time)
    have hsteady : Steady (reached.agentTurn tempo focus time (next.preciseAt tempo = some time)) :=
      (h.advance (time - next.elapsed)).agentTurn tempo focus time _
    have hreached : reached.elapsed = next.elapsed + (time - next.elapsed) :=
      elapsed_advance (by omega) hover
    have hlong : reached.durationMs = next.durationMs :=
      congrArg (fun setting => setting.2.2.1) (setting_advance next (time - next.elapsed))
    rw [hwhole]
    simp only [dite_eq_ite] at ih
    generalize reached.agentTurn tempo focus time (next.preciseAt tempo = some time) = turn at *
    obtain ⟨-, -, hduration, -, helapsed, -, -, -, -, hdone⟩ := Clock.mk.inj hclock
    have hbeat' : (if time = beat then beat + interval else beat) = beatAfter interval turn.elapsed := by
      rw [show turn.elapsed = time by omega]
      split
      · next hon => rw [hon, hbeat, beatAfter_beatAfter hpos]
      · next hoff =>
        have hbefore : time < beat := lt_of_le_of_ne nextEvent_le hoff
        rw [hbeat] at hbefore ⊢
        exact (beatAfter_of_lt hpos hevent.1.le hbefore).symm
    exact ih hsteady (hdone.trans hover) (by omega) (by omega) hbeat' (hbeat' ▸ (lt_beatAfter hpos).1)
  | case4 next beat hlt =>
    have hthere : next.elapsed = mid := by omega
    have hstill : advance next (mid - next.elapsed) = next := by
      unfold advance
      rw [if_pos (Or.inr (by omega))]
    rw [hstill, hbeat, hthere]

/-- What advances and turns keep holds after the loop. -/
theorem agentLoop_induction {P : Game → Prop} (hadvance : ∀ game deltaMs, P game → P (advance game deltaMs))
    (hturn : ∀ game time precise, P game → P (game.agentTurn tempo focus time precise)) (h : P next) :
    P (agentLoop tempo focus interval end_ next beat) := by
  fun_induction agentLoop tempo focus interval end_ next beat with
  | case1 next beat hlt hstop => exact h
  | case2 next beat hlt hstop reached hover => exact hadvance _ _ h
  | case3 next beat hlt hstop time reached hgoing ih => exact ih (hturn _ _ _ (hadvance _ _ h))
  | case4 next beat hlt => exact h

theorem Steady.agentLoop (h : Steady next) : Steady (agentLoop tempo focus interval end_ next beat) :=
  agentLoop_induction (fun _ deltaMs h => h.advance deltaMs)
    (fun _ time precise h => h.agentTurn tempo focus time precise) h

theorem setting_agentLoop : (agentLoop tempo focus interval end_ next beat).setting = next.setting :=
  agentLoop_induction (P := fun game => game.setting = next.setting)
    (fun game deltaMs h => (setting_advance game deltaMs).trans h)
    (fun game time precise h => (setting_of_clock (clock_agentTurn game tempo focus time precise)).trans h) rfl

/-- The loop does not go beyond its end. -/
theorem elapsed_agentLoop (hfinished : next.finished = false) (hle : next.elapsed ≤ end_)
    (hbell : end_ < next.durationMs) : (agentLoop tempo focus interval end_ next beat).finished = false ∧
      (agentLoop tempo focus interval end_ next beat).elapsed ≤ end_ := by
  fun_induction agentLoop tempo focus interval end_ next beat with
  | case1 next beat hlt hstop => exact ⟨hfinished, hle⟩
  | case2 next beat hlt hstop reached hover =>
    have hgoing := finished_advance hfinished
      (show next.elapsed + (next.nextEvent tempo beat - next.elapsed) < next.durationMs by omega)
    rw [hgoing] at hover
    cases hover
  | case3 next beat hlt hstop time reached hgoing ih =>
    have hover : reached.finished = false := Bool.eq_false_iff.mpr hgoing
    have hreached : reached.elapsed = next.elapsed + (time - next.elapsed) := elapsed_advance (by omega) hover
    have hlong : reached.durationMs = next.durationMs :=
      congrArg (fun setting => setting.2.2.1) (setting_advance next (time - next.elapsed))
    have hclock := clock_agentTurn reached tempo focus time (next.preciseAt tempo = some time)
    obtain ⟨-, -, hduration, -, helapsed, -, -, -, -, hdone⟩ := Clock.mk.inj hclock
    exact ih (hdone.trans hover) (by omega) (by omega)
  | case4 next beat hlt => exact ⟨hfinished, hle⟩

theorem setting_agentUntil : (agentUntil tempo focus interval end_ next beat).setting = next.setting :=
  (setting_advance _ _).trans setting_agentLoop

theorem Steady.agentUntil (h : Steady next) : Steady (agentUntil tempo focus interval end_ next beat) :=
  h.agentLoop.advance _

/-- Before the bell the agent plays exactly up to the end. -/
theorem elapsed_agentUntil (hfinished : next.finished = false) (hle : next.elapsed ≤ end_)
    (hbell : end_ < next.durationMs) : (agentUntil tempo focus interval end_ next beat).finished = false ∧
      (agentUntil tempo focus interval end_ next beat).elapsed = end_ := by
  have hsame : (agentLoop tempo focus interval end_ next beat).durationMs = next.durationMs :=
    congrArg (fun setting => setting.2.2.1) setting_agentLoop
  obtain ⟨hgoing, hlast⟩ : (agentLoop tempo focus interval end_ next beat).finished = false ∧
      (agentLoop tempo focus interval end_ next beat).elapsed ≤ end_ := elapsed_agentLoop hfinished hle hbell
  unfold agentUntil
  generalize agentLoop tempo focus interval end_ next beat = last at *
  by_cases hpos : 0 < end_ - last.elapsed
  · have hover := finished_advance hgoing (show last.elapsed + (end_ - last.elapsed) < last.durationMs by omega)
    have := elapsed_advance hpos hover
    exact ⟨hover, by omega⟩
  · unfold advance
    rw [if_pos (Or.inr (by omega))]
    exact ⟨hgoing, by omega⟩

/-- The agent plays the round to its end. -/
theorem finished_agentUntil (h : Steady next) (hbell : next.durationMs = end_) :
    (agentUntil tempo focus interval end_ next beat).finished = true := by
  have hsteady : Steady (agentLoop tempo focus interval end_ next beat) := h.agentLoop
  have hsame : (agentLoop tempo focus interval end_ next beat).durationMs = next.durationMs :=
    congrArg (fun setting => setting.2.2.1) setting_agentLoop
  unfold Arcade.agentUntil
  generalize agentLoop tempo focus interval end_ next beat = last at *
  cases hgoing : last.finished with
  | true => rw [advance_of_finished hgoing, hgoing]
  | false =>
    have hahead := (hsteady.ahead hgoing).1
    rw [advance_of_pos hgoing (by omega), show min last.durationMs (last.elapsed + (end_ - last.elapsed)) =
      last.durationMs by omega]
    refine decide_eq_true ?_
    rw [durationMs_expire, durationMs_arrivals]

end Loop

/-! ## Calls -/

/-- The mode that a tempo plays in. -/
def Tempo.mode (tempo : Tempo) : FeverMode := if tempo = .quick then .auto else .manual

section Calls

variable {game : Game} {deltaMs : Int} {tempo : Tempo} {mode : FeverMode}

theorem advanceAgent_of_stop (h : game.finished ∨ deltaMs ≤ 0) : advanceAgent game deltaMs tempo = game := by
  unfold advanceAgent
  rw [if_pos h]

theorem advanceAgent_of_pos (hfinished : game.finished = false) (hpos : 0 < deltaMs) :
    advanceAgent game deltaMs tempo = agentUntil tempo game.focus (game.agentInterval tempo)
      (min game.durationMs (game.elapsed + deltaMs)) (setFeverMode game tempo.mode)
      (beatAfter (game.agentInterval tempo) game.elapsed) := by
  unfold advanceAgent
  rw [if_neg (not_or.mpr ⟨by simp [hfinished], by omega⟩)]
  rfl

/-- A mode that is set stays set. -/
theorem setFeverMode_of_set (h : game.practice = .boss ∨ game.feverMode = mode) :
    setFeverMode game mode = game := by
  unfold setFeverMode
  rw [if_pos (h.imp id fun hmode => Or.inr hmode.symm)]

theorem feverMode_activateFever (game : Game) : (activateFever game).feverMode = game.feverMode := by
  unfold activateFever
  split <;> rfl

theorem setFeverMode_sets (hfinished : game.finished = false) :
    (setFeverMode game mode).practice = .boss ∨ (setFeverMode game mode).feverMode = mode := by
  unfold setFeverMode
  split
  · next hkept =>
    rcases hkept with hpractice | hover | hmode
    · exact Or.inl hpractice
    · rw [hfinished] at hover
      cases hover
    · exact Or.inr hmode.symm
  · cases mode
    · exact Or.inr (feverMode_activateFever _)
    · exact Or.inr rfl

/-- What the agent's pace depends on. -/
theorem focus_of_aptitudes {game' : Game} (h : game'.aptitudes = game.aptitudes) : game'.focus = game.focus := by
  unfold Game.focus
  rw [h]

theorem Steady.advanceAgent (h : Steady game) : Steady (advanceAgent game deltaMs tempo) := by
  by_cases hstop : game.finished ∨ deltaMs ≤ 0
  · rwa [advanceAgent_of_stop hstop]
  · obtain ⟨hfinished, hpos⟩ := not_or.mp hstop
    rw [advanceAgent_of_pos (Bool.eq_false_iff.mpr hfinished) (by omega)]
    exact (h.setFeverMode tempo.mode).agentUntil

theorem aptitudes_advanceAgent : (Arcade.advanceAgent game deltaMs tempo).aptitudes = game.aptitudes := by
  by_cases hstop : game.finished ∨ deltaMs ≤ 0
  · rw [advanceAgent_of_stop hstop]
  · obtain ⟨hfinished, hpos⟩ := not_or.mp hstop
    rw [advanceAgent_of_pos (Bool.eq_false_iff.mpr hfinished) (by omega)]
    obtain ⟨_, hclock⟩ := clock_setFeverMode game tempo.mode
    exact (congrArg Prod.fst setting_agentUntil).trans (congrArg Clock.aptitudes hclock)

/-- **Two calls of the agent are one call.** -/
theorem advanceAgent_advanceAgent (h : Steady game) (hfocus : -1 ≤ game.focus ∧ game.focus ≤ 1) {a b : Int}
    (ha : 0 < a) (hb : 0 < b) :
    advanceAgent (advanceAgent game a tempo) b tempo = advanceAgent game (a + b) tempo := by
  by_cases hstop : game.finished = true
  · rw [advanceAgent_of_stop (Or.inl hstop), advanceAgent_of_stop (Or.inl hstop),
      advanceAgent_of_stop (Or.inl hstop)]
  have hfinished : game.finished = false := Bool.eq_false_iff.mpr hstop
  have hinterval : 0 < game.agentInterval tempo ∧ game.agentInterval tempo < 1600 := by
    unfold Game.agentInterval
    split <;> omega
  rw [advanceAgent_of_pos hfinished (by omega : 0 < a + b)]
  have hsteady := h.setFeverMode tempo.mode
  have hset := @setFeverMode_sets game tempo.mode hfinished
  have hfirst := @advanceAgent_of_pos game a tempo hfinished ha
  obtain ⟨hduration, helapsed, hgoing⟩ : (setFeverMode game tempo.mode).durationMs = game.durationMs ∧
      (setFeverMode game tempo.mode).elapsed = game.elapsed ∧
      (setFeverMode game tempo.mode).finished = game.finished := by
    obtain ⟨_, hclock⟩ := clock_setFeverMode game tempo.mode
    exact ⟨congrArg Clock.durationMs hclock, congrArg Clock.elapsed hclock, congrArg Clock.finished hclock⟩
  have haptitudes : (advanceAgent game a tempo).aptitudes = game.aptitudes := aptitudes_advanceAgent
  generalize setFeverMode game tempo.mode = next at *
  by_cases hbell : game.durationMs ≤ game.elapsed + a
  · -- the first call ends the round
    rw [show min game.durationMs (game.elapsed + a) = game.durationMs by omega] at hfirst
    have hover : (advanceAgent game a tempo).finished = true :=
      hfirst ▸ finished_agentUntil hsteady hduration
    rw [advanceAgent_of_stop (Or.inl hover), hfirst,
      show min game.durationMs (game.elapsed + (a + b)) = game.durationMs by omega]
  · rw [show min game.durationMs (game.elapsed + a) = game.elapsed + a by omega] at hfirst
    obtain ⟨hover, hmid⟩ : (advanceAgent game a tempo).finished = false ∧
        (advanceAgent game a tempo).elapsed = game.elapsed + a :=
      hfirst ▸ elapsed_agentUntil (hgoing.trans hfinished) (by omega) (by omega)
    obtain ⟨-, hpractice, hlong, hmode⟩ : (advanceAgent game a tempo).aptitudes = next.aptitudes ∧
        (advanceAgent game a tempo).practice = next.practice ∧
        (advanceAgent game a tempo).durationMs = next.durationMs ∧
        (advanceAgent game a tempo).feverMode = next.feverMode := by
      have hsetting : (advanceAgent game a tempo).setting = next.setting := hfirst ▸ setting_agentUntil
      simpa [Game.setting] using hsetting
    have hstill : setFeverMode (advanceAgent game a tempo) tempo.mode = advanceAgent game a tempo :=
      setFeverMode_of_set (by rw [hpractice, hmode]; exact hset)
    have hfocus' : (advanceAgent game a tempo).focus = game.focus := focus_of_aptitudes haptitudes
    have hinterval' : (advanceAgent game a tempo).agentInterval tempo = game.agentInterval tempo := by
      unfold Game.agentInterval
      rw [hfocus']
    rw [advanceAgent_of_pos hover hb, hstill, hfocus', hinterval', hmid, hlong, hduration, Int.add_assoc, hfirst,
      ← helapsed]
    exact agentUntil_cut hinterval.1 hinterval.2 hsteady (hgoing.trans hfinished) (by omega) (by omega)
      (by omega) rfl

end Calls

end Mapae.Arcade
