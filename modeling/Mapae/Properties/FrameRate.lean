import Mapae.Arcade.StampAgent

/-!
# The stamp game at any frame rate

* a game that is played is steady at every instant
* `frame_rate`: steps and calls of the agent may be cut anywhere
-/

namespace Mapae.Arcade

open Mapae.Infra

/-! ## Games that are played -/

/-- A game in which nothing has happened. -/
theorem steady_of_empty {game : Game} (hcells : ∀ i, game.cells i = ⟨none, none⟩)
    (hspawned : game.bossSpawned = false) (hround : game.elapsed < game.durationMs)
    (hnext : game.elapsed < game.nextSpawn) : Steady game := by
  have hnone : ∀ {P : Prop} {i : Fin CELL_COUNT} {actor : Actor}, (game.cells i).actor = some actor → P := by
    intro P i actor hactor
    rw [hcells i] at hactor
    cases hactor
  exact ⟨⟨fun _ _ h => hnone h, fun _ _ h => hnone h, fun _ _ _ h => hnone h, fun _ _ _ _ h => hnone h,
    fun _ _ h => hnone h, fun _ _ => ⟨hspawned, hcells⟩⟩, fun _ => ⟨hround, Or.inl hnext⟩⟩

/-- What `newGame` checks. -/
theorem newGame_eq_ok {seed : Int} {feverMode : FeverMode} {aptitudes : Option GuardianAptitudes} {game : Game}
    (h : newGame seed feverMode aptitudes = .ok game) :
    startGame seed feverMode aptitudes = game ∧ ∀ a, aptitudes = some a → a ∈ GUARDIAN_APTITUDES := by
  simp only [newGame, bind_eq_ok, throwIf_eq_ok, pure_eq_ok] at h
  obtain ⟨-, -, -, hvalid, hgame⟩ := h
  refine ⟨hgame, fun a ha => ?_⟩
  simpa [ha, validGuardianAptitudes] using hvalid

theorem newBossPractice_eq_ok {seed : Int} {game : Game} (h : newBossPractice seed = .ok game) :
    ∃ start, newGame seed .auto none = .ok start ∧
      { start with practice := .boss, durationMs := BOSS_PRACTICE_MS } = game := by
  unfold newBossPractice at h
  cases hnew : newGame seed .auto none with
  | error e =>
    rw [hnew] at h
    cases h
  | ok start =>
    rw [hnew] at h
    exact ⟨start, rfl, Except.ok.inj h⟩

/-- The aptitudes move the focus by one at most. -/
theorem focus_bounds {game : Game} (h : ∀ a, game.aptitudes = some a → a ∈ GUARDIAN_APTITUDES) :
    -1 ≤ game.focus ∧ game.focus ≤ 1 := by
  unfold Game.focus
  cases haptitudes : game.aptitudes with
  | none => decide
  | some a =>
    have hall : ∀ a ∈ GUARDIAN_APTITUDES, 4 ≤ a.stamp ∧ a.stamp ≤ 6 := by simp [GUARDIAN_APTITUDES]
    obtain ⟨hlow, hhigh⟩ := hall a (h a haptitudes)
    change -1 ≤ (a.stamp : Int) - 5 ∧ (a.stamp : Int) - 5 ≤ 1
    omega

/-- What the agent counts on, in a game as it is opened. -/
theorem Opened.steady {game : Game} (h : Opened game) : Steady game ∧ -1 ≤ game.focus ∧ game.focus ≤ 1 := by
  rcases h with ⟨seed, feverMode, aptitudes, hnew⟩ | ⟨seed, hdrill⟩
  · obtain ⟨rfl, hvalid⟩ := newGame_eq_ok hnew
    exact ⟨steady_of_empty (fun _ => rfl) rfl (by change (0 : Int) < 60000; decide)
      (by change (0 : Int) < 300; decide), focus_bounds hvalid⟩
  · obtain ⟨start, hnew, rfl⟩ := newBossPractice_eq_ok hdrill
    obtain ⟨rfl, hvalid⟩ := newGame_eq_ok hnew
    exact ⟨steady_of_empty (fun _ => rfl) rfl (by change (0 : Int) < 10000; decide)
      (by change (0 : Int) < 300; decide), focus_bounds hvalid⟩

/-- And in a game that was played on. -/
theorem steady_of_played {game : Game} (h : stampPlay.Reachable game) :
    Steady game ∧ -1 ≤ game.focus ∧ game.focus ≤ 1 := by
  induction h with
  | init hopened => exact Opened.steady hopened
  | step _ hmove ih =>
    obtain ⟨hsteady, hfocus⟩ := ih
    obtain ⟨move, rfl⟩ := hmove
    cases move with
    | advance deltaMs =>
      exact ⟨hsteady.advance deltaMs,
        (focus_of_aptitudes (congrArg Prod.fst (setting_advance _ deltaMs))).symm ▸ hfocus⟩
    | stamp index =>
      exact ⟨hsteady.stamp index,
        (focus_of_aptitudes (congrArg Clock.aptitudes (clock_stamp _ index))).symm ▸ hfocus⟩
    | activateFever =>
      exact ⟨hsteady.activateFever,
        (focus_of_aptitudes (congrArg Clock.aptitudes (clock_activateFever _))).symm ▸ hfocus⟩
    | setFeverMode mode =>
      obtain ⟨_, hclock⟩ := clock_setFeverMode _ mode
      exact ⟨hsteady.setFeverMode mode,
        (focus_of_aptitudes (congrArg Clock.aptitudes hclock)).symm ▸ hfocus⟩

/-! ## Frames -/

section Frames

variable {game : Game} (tempo : Tempo)

/-- A call that reaches the bell may be longer. -/
theorem advanceAgent_bell {a b : Int} (ha : 0 < a) (hb : 0 < b)
    (hbell : game.durationMs ≤ game.elapsed + a) (hbell' : game.durationMs ≤ game.elapsed + b) :
    advanceAgent game a tempo = advanceAgent game b tempo := by
  by_cases hstop : game.finished = true
  · rw [advanceAgent_of_stop (Or.inl hstop), advanceAgent_of_stop (Or.inl hstop)]
  · have hfinished := Bool.eq_false_iff.mpr hstop
    rw [advanceAgent_of_pos hfinished ha, advanceAgent_of_pos hfinished hb, Int.min_eq_left hbell,
      Int.min_eq_left hbell']

/-- **Frames of the agent are one call.** -/
theorem run_advanceAgent (h : Steady game ∧ -1 ≤ game.focus ∧ game.focus ≤ 1) {frames : List Int}
    (hne : frames ≠ []) (hpos : ∀ frame ∈ frames, 0 < frame) :
    0 < frames.sum ∧ run (fun game frame => advanceAgent game frame tempo) game frames =
      advanceAgent game frames.sum tempo := by
  refine run_sum (P := fun game => Steady game ∧ -1 ≤ game.focus ∧ game.focus ≤ 1) ?_ ?_ frames game h hne hpos
  · rintro game frame ⟨hsteady, hfocus⟩
    rw [focus_of_aptitudes aptitudes_advanceAgent]
    exact ⟨hsteady.advanceAgent, hfocus⟩
  · rintro game a b ⟨hsteady, hfocus⟩ ha hb
    exact advanceAgent_advanceAgent hsteady hfocus ha hb

end Frames

/--
**The stamp game does not depend on the frame rate.**

For a game that was played in any way, two steps are one step and two calls of the agent are one call. So
are any frames, and a round that the agent plays in frames ends as the single call over the round ends.
-/
theorem frame_rate (game : Game) (hplayed : stampPlay.Reachable game) :
    (∀ a b, 0 < a → 0 < b → advance (advance game a) b = advance game (a + b) ∧
      ∀ tempo, advanceAgent (advanceAgent game a tempo) b tempo = advanceAgent game (a + b) tempo) ∧
    ∀ tempo frames, frames ≠ [] → (∀ frame ∈ frames, 0 < frame) →
      run (fun game frame => advanceAgent game frame tempo) game frames =
        advanceAgent game frames.sum tempo ∧
      (game.elapsed = 0 → game.durationMs = ROUND_MS → ROUND_MS ≤ frames.sum →
        run (fun game frame => advanceAgent game frame tempo) game frames =
          advanceAgent game ROUND_MS tempo) := by
  have hsteady := steady_of_played hplayed
  refine ⟨fun a b ha hb => ⟨advance_advance hsteady.1.paced ha hb,
    fun tempo => advanceAgent_advanceAgent hsteady.1 hsteady.2 ha hb⟩, fun tempo frames hne hpos => ?_⟩
  obtain ⟨hsum, hrun⟩ := run_advanceAgent tempo hsteady hne hpos
  refine ⟨hrun, fun hstart hlong hround => ?_⟩
  rw [hrun]
  exact advanceAgent_bell tempo hsum (by decide) (by omega) (by omega)

/-- A round in two frames. -/
theorem frame_rate_round : advance (advance (startGame 7 .auto none) 300) 16 = advance (startGame 7 .auto none) 316 ∧
    run (fun game frame => advanceAgent game frame .careful) (startGame 7 .auto none) [16, 59984] =
      advanceAgent (startGame 7 .auto none) ROUND_MS .careful := by
  have hplayed : stampPlay.Reachable (startGame 7 .auto none) := .init (Or.inl ⟨7, .auto, none, rfl⟩)
  exact ⟨((frame_rate _ hplayed).1 300 16 (by decide) (by decide)).1,
    ((frame_rate _ hplayed).2 .careful [16, 59984] (by decide) (by decide)).2 rfl rfl (by decide)⟩

end Mapae.Arcade
