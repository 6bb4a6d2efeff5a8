import Mapae.Arcade.StampAgent

/-!
# What a play keeps

Steps of a hundred milliseconds at most, so that one actor arrives in a step at most and lives on.

* `Kept` is what holds in every state of a play
* `Short` says what a short step does, and `Struck` what a stamp does
-/

namespace Mapae.Arcade

open Mapae.Infra

/-- What a play keeps. -/
structure Kept (game : Game) : Prop where
  steady : Steady game
  alive : ∀ i actor, (game.cells i).actor = some actor → game.elapsed < actor.expiresAt
  shown : ∀ i impact, (game.cells i).impact = some impact → game.elapsed < impact.until_
  /-- An actor that is still there was guarded or cracked. -/
  marked : ∀ i actor impact, (game.cells i).actor = some actor → (game.cells i).impact = some impact →
    impact.kind = .guard ∨ (impact.kind = .crack ∧ ∃ time, actor.lastHitAt = some time ∧
      impact.until_ = time + if impact.perfect then 650 else 100)
  score : 0 ≤ game.score
  charge : game.feverCharge ≤ FEVER_TARGET
  /-- The chief loses strength with each opening that is hit. -/
  strength : ∀ i actor, (game.cells i).actor = some actor → actor.special = some .boss →
    actor.hp = some (BOSS_OPENINGS - game.bossHits) ∧ game.bossHits < BOSS_OPENINGS ∧ game.bossDefeated = 0
  unseen : game.bossSpawned = false → game.bossHits = 0 ∧ game.bossDefeated = 0
  defeated : game.bossDefeated ≤ 1 ∧ (game.bossDefeated = 1 → game.bossHits = BOSS_OPENINGS)
  round : game.practice = .full → game.durationMs = 60000
  drill : game.practice = .boss → game.durationMs = 10000 ∧
    (game.nextSpawn = 300 ∨ game.nextSpawn = game.durationMs)
  /-- The chief finds a cell long before the bell. -/
  soon : game.practice = .full → game.bossSpawned = false → game.nextSpawn < 48600 ∧
    (∀ i actor, (game.cells i).actor = some actor → actor.expiresAt < 47200) ∧
    ∀ i impact, (game.cells i).impact = some impact → impact.until_ < 47620

/-! ## Arrivals -/

/-- The game after an arrival, if there is one. -/
def Game.arrive (game : Game) (arrival : Option (Fin CELL_COUNT × Actor)) (nextSpawn : Int) : Game :=
  match arrival with
  | none => { game with nextSpawn := nextSpawn }
  | some (i, actor) =>
    { game.setCell i ⟨some actor, none⟩ with
      nextSpawn := nextSpawn
      spawnCount := game.spawnCount + 1
      bossSpawned := game.bossSpawned || actor.special = some .boss }

/-- An actor that can arrive at an instant. -/
structure Arriving (game : Game) (time : Int) (i : Fin CELL_COUNT) (actor : Actor) : Prop where
  empty : game.cells i = ⟨none, none⟩
  bornAt : actor.bornAt = time
  expiresAt : (actor.special = some .boss → time < 48600) → time + 1300 ≤ actor.expiresAt
  untouched : actor.lastOpeningHit = none
  chief : actor.special = some .boss → game.bossSpawned = false ∧ actor.hp = some BOSS_OPENINGS
  ordinary : actor.special ≠ some .boss → game.practice = .full ∧
    (game.bossSpawned = false → time < 45000) ∧ actor.expiresAt ≤ time + 2200

section Arrivals

variable {game : Game} {time end_ : Int} {i : Fin CELL_COUNT} {actor : Actor}

theorem wave_bounds (time : Int) : (stampWave time).interval ≤ 950 ∧ 1300 ≤ (stampWave time).life ∧
    (stampWave time).life ≤ 1900 ∧ 2 ≤ (stampWave time).limit := by
  have hall : ∀ k, (STAMP_WAVES.getD k ⟨0, 900, 1850, 2⟩).interval ≤ 950 ∧
      1300 ≤ (STAMP_WAVES.getD k ⟨0, 900, 1850, 2⟩).life ∧
      (STAMP_WAVES.getD k ⟨0, 900, 1850, 2⟩).life ≤ 1900 ∧ 2 ≤ (STAMP_WAVES.getD k ⟨0, 900, 1850, 2⟩).limit := by
    intro k
    match k with
    | 0 | 1 | 2 | 3 | 4 => decide
    | k + 5 => exact (by decide : (900 : Int) ≤ 950 ∧ (1300 : Int) ≤ 1850 ∧ (1850 : Int) ≤ 1900 ∧ 2 ≤ 2)
  exact hall _

/-- The actor of a round. -/
theorem arriving_arrival (hempty : game.cells i = ⟨none, none⟩) (hpractice : game.practice = .full) :
    Arriving game time i (game.arrival time) := by
  obtain ⟨-, hlow, hhigh, -⟩ := wave_bounds time
  by_cases hdue : game.bossDue time = true
  · have harrival : game.arrival time = Game.boss time (min ROUND_MS (time + BOSS_CYCLE_MS * BOSS_OPENINGS)) := by
      unfold Game.arrival
      rw [if_pos hdue]
    rw [harrival]
    refine ⟨hempty, rfl, fun hsoon => ?_, rfl, fun _ => ⟨(of_decide_eq_true hdue).2, rfl⟩, fun h => absurd rfl h⟩
    have := hsoon rfl
    change time + 1300 ≤ min 60000 (time + 7200)
    omega
  · have hnone : (game.arrival time).special ≠ some .boss := fun hboss => hdue (boss_arrival hboss).1
    have hlife : time + 1300 ≤ (game.arrival time).expiresAt ∧ (game.arrival time).expiresAt ≤ time + 2200 := by
      unfold Game.arrival
      rw [if_neg hdue]
      dsimp only
      split <;> omega
    refine ⟨hempty, bornAt_arrival, fun _ => hlife.1, lastOpeningHit_arrival, fun hboss => absurd hboss hnone,
      fun _ => ⟨hpractice, fun hfalse => ?_, hlife.2⟩⟩
    by_contra hlate
    exact hdue (decide_eq_true ⟨by omega, hfalse⟩)

/-- **What a scheduled arrival does.** -/
theorem spawn_eq_arrive (h : Paced time game) (hnext : game.nextSpawn < game.durationMs) :
    ∃ arrival nextSpawn, game.spawn time = game.arrive arrival nextSpawn ∧
      (∀ i actor, arrival = some (i, actor) → Arriving game time i actor) ∧
      (game.practice = .boss → nextSpawn = game.durationMs) ∧
      (game.practice = .full → game.nextSpawn + 430 ≤ nextSpawn ∧ nextSpawn ≤ game.nextSpawn + 950) := by
  unfold Game.spawn
  split
  · next hpractice =>
    obtain ⟨hspawned, hempty⟩ := h.drill hpractice hnext
    refine ⟨some (4, Game.boss time (time + BOSS_CYCLE_MS * BOSS_OPENINGS)), game.durationMs, ?_, ?_,
      fun _ => rfl, fun hfull => by rw [hpractice] at hfull; cases hfull⟩
    · unfold Game.spawnDrill Game.arrive
      rw [hempty 4, hspawned]
      rfl
    · intro i actor hactor
      cases hactor
      refine ⟨hempty 4, rfl, fun _ => ?_, rfl, fun _ => ⟨hspawned, rfl⟩, fun hne => absurd rfl hne⟩
      change time + 1300 ≤ time + 7200
      omega
  · next hpractice =>
    have hinterval := interval_pos time
    have hlate := (wave_bounds time).1
    have hdrill : ∀ nextSpawn, game.practice = .boss → nextSpawn = game.durationMs := by
      intro nextSpawn hboss
      rw [hpractice] at hboss
      cases hboss
    have hidle : ∀ i actor, (none : Option (Fin CELL_COUNT × Actor)) = some (i, actor) →
        Arriving game time i actor := fun _ _ hnone => nomatch hnone
    unfold Game.spawnRound
    dsimp only
    split
    · next i hplace =>
      have hempty := mem_place hplace
      split
      · refine ⟨some (i, game.arrival time), game.nextSpawn + (stampWave time).interval, ?_, ?_, hdrill _,
          fun _ => ⟨by omega, by omega⟩⟩
        · have hboss : game.bossDue time = decide ((game.arrival time).special = some .boss) := by
            rw [Bool.eq_iff_iff, decide_eq_true_eq]
            refine ⟨fun hdue => ?_, fun hb => (boss_arrival hb).1⟩
            unfold Game.arrival
            rw [if_pos hdue]
            rfl
          unfold Game.arrive
          dsimp only
          rw [hempty, hboss]
        · intro j actor hactor
          cases hactor
          exact arriving_arrival hempty hpractice
      · exact ⟨none, game.nextSpawn + (stampWave time).interval, rfl, hidle, hdrill _,
          fun _ => ⟨by omega, by omega⟩⟩
    · exact ⟨none, game.nextSpawn + (stampWave time).interval, rfl, hidle, hdrill _,
        fun _ => ⟨by omega, by omega⟩⟩

/-- A chief that is due comes if all cells are empty. -/
theorem spawn_due (hpractice : game.practice = .full) (hdue : game.bossDue time = true)
    (hempty : ∀ i, game.cells i = ⟨none, none⟩) : (game.spawn time).bossSpawned = true := by
  have hcells : game.emptyCells = List.finRange CELL_COUNT := by
    refine List.filter_eq_self.mpr fun i _ => ?_
    rw [hempty i]
    rfl
  have hplace : game.place time = some 4 := by
    have hpreferred : game.preferred time = some 4 := by
      unfold Game.preferred
      rw [if_pos hdue]
    unfold Game.place
    rw [hcells, hpreferred]
    rfl
  have hactive : game.activeCells = 0 := by
    refine List.countP_eq_zero.mpr fun i _ => ?_
    rw [hempty i]
    decide
  have hlimit := (wave_bounds time).2.2.2
  unfold Game.spawn Game.spawnRound
  rw [hpractice]
  dsimp only
  rw [hplace]
  dsimp only
  rw [if_pos (by omega)]
  change (game.bossSpawned || game.bossDue time) = true
  rw [hdue, Bool.or_true]

/-- An arrival that lives on may come before or after the expiries. -/
theorem expire_arrive {arrival : Option (Fin CELL_COUNT × Actor)} {nextSpawn : Int}
    (halive : ∀ i actor, arrival = some (i, actor) → game.cells i = ⟨none, none⟩ ∧ end_ < actor.expiresAt) :
    (game.arrive arrival nextSpawn).expire end_ = (game.expire end_).arrive arrival nextSpawn := by
  cases arrival with
  | none => rfl
  | some entry =>
    obtain ⟨i, actor⟩ := entry
    obtain ⟨hempty, hlater⟩ := halive i actor rfl
    have hstays : (⟨some actor, none⟩ : Cell).expire end_ = ⟨some actor, none⟩ := Cell.expire_alive rfl hlater
    have hmisses : (game.arrive (some (i, actor)) nextSpawn).misses end_ = game.misses end_ := by
      refine List.countP_congr fun j _ => ?_
      change (if j = i then _ else game.cells j).misses end_ = true ↔ _
      split
      · next hj =>
        rw [hj, hempty, Cell.misses_eq, Cell.misses_eq]
        constructor
        · rintro ⟨other, hother, hexpired, -⟩
          cases hother
          omega
        · rintro ⟨other, hother, -⟩
          cases hother
      · exact Iff.rfl
    have hcells : (fun j => ((game.arrive (some (i, actor)) nextSpawn).cells j).expire end_) =
        fun j => if j = i then ⟨some actor, none⟩ else (game.cells j).expire end_ := by
      funext j
      change (if j = i then _ else game.cells j).expire end_ = _
      split
      · exact hstays
      · rfl
    unfold Game.expire
    rw [hmisses, hcells]
    rfl

/-- Long after the last ordinary actor the cells are empty. -/
theorem empty_expire (hactors : ∀ i actor, (game.cells i).actor = some actor → actor.expiresAt < 47200)
    (himpacts : ∀ i impact, (game.cells i).impact = some impact → impact.until_ < 47620) (hlate : 47620 ≤ time)
    (i : Fin CELL_COUNT) : (game.expire time).cells i = ⟨none, none⟩ := by
  have hactor : ((game.cells i).expire time).actor = none := by
    refine Option.eq_none_iff_forall_ne_some.mpr fun actor hactor => ?_
    obtain ⟨hthere, halive⟩ := actor_expire.mp hactor
    have := hactors i actor hthere
    omega
  have himpact : ((game.cells i).expire time).impact = none := by
    refine Option.eq_none_iff_forall_ne_some.mpr fun impact himpact => ?_
    rcases impact_expire himpact with ⟨hthere, hshown⟩ | ⟨actor, hthere, -, -, -, hshown⟩
    · have := himpacts i impact hthere
      omega
    · have := hactors i actor hthere
      omega
  change (game.cells i).expire time = ⟨none, none⟩
  rw [← hactor, ← himpact]

/-- A short step is an expiry, perhaps an arrival, and perhaps the bell. -/
theorem advance_eq_arrive (h : Kept game) {deltaMs : Int} (hfinished : game.finished = false) (hpos : 0 < deltaMs)
    (hshort : deltaMs ≤ 100) (hend : min game.durationMs (game.elapsed + deltaMs) = end_) :
    ∃ arrival nextSpawn, advance game deltaMs = ((game.expire end_).arrive arrival nextSpawn).settle end_ ∧
      (∀ i actor, arrival = some (i, actor) → ∃ time, game.elapsed < time ∧ time ≤ end_ ∧
        Arriving (game.expire end_) time i actor ∧ end_ < actor.expiresAt ∧
        (actor.special = some .boss → end_ < game.durationMs)) ∧
      (game.practice = .boss → nextSpawn = 300 ∨ nextSpawn = game.durationMs) ∧
      (game.practice = .full → game.bossSpawned = false → nextSpawn < 48600 ∨
        ∃ i actor, arrival = some (i, actor) ∧ actor.special = some .boss) := by
  have hahead := (h.steady.ahead hfinished).2
  rw [advance_of_pos hfinished hpos, hend]
  by_cases hnext : game.nextSpawn ≤ end_ ∧ game.nextSpawn < game.durationMs
  · have hpaced : Paced end_ game := h.steady.paced.mono (by omega)
    have hthen : Paced game.nextSpawn (game.expire game.nextSpawn) :=
      (h.steady.paced.mono (by omega)).expire
    obtain ⟨arrival, nextSpawn, hspawn, harriving, hdrill, hround⟩ := spawn_eq_arrive hthen hnext.2
    have hdrill' : game.practice = .boss → nextSpawn = game.durationMs := hdrill
    have hround' : game.practice = .full → game.nextSpawn + 430 ≤ nextSpawn ∧ nextSpawn ≤ game.nextSpawn + 950 :=
      hround
    have honce : ¬ (nextSpawn ≤ end_ ∧ nextSpawn < game.durationMs) := by
      rintro ⟨hle, hlt⟩
      cases hpractice : game.practice with
      | full =>
        have := hround' hpractice
        omega
      | boss =>
        have := hdrill' hpractice
        omega
    have hliving : ∀ i actor, arrival = some (i, actor) → Arriving (game.expire game.nextSpawn) game.nextSpawn i actor ∧
        end_ < actor.expiresAt ∧ (actor.special = some .boss → end_ < game.durationMs) := by
      intro i actor hactor
      have harrives := harriving i actor hactor
      have hboss : actor.special = some .boss → game.nextSpawn < 48600 ∧ end_ < game.durationMs := by
        intro hb
        cases hpractice : game.practice with
        | full =>
          have hsoon := (h.soon hpractice (harrives.chief hb).1).1
          have := h.round hpractice
          omega
        | boss =>
          have := h.drill hpractice
          omega
      have := harrives.expiresAt fun hb => (hboss hb).1
      exact ⟨harrives, by omega, fun hb => (hboss hb).2⟩
    have hsame : (game.expire game.nextSpawn).expire end_ = game.expire end_ :=
      expire_expire (h.steady.paced.mono (by omega)) hnext.1
    refine ⟨arrival, nextSpawn, ?_, fun i actor hactor => ?_, fun hboss => Or.inr (hdrill' hboss), ?_⟩
    · have hlast : ((game.expire game.nextSpawn).arrive arrival nextSpawn).arrivals end_ =
          (game.expire game.nextSpawn).arrive arrival nextSpawn := by
        refine arrivals_neg _ ?_
        cases arrival <;> exact honce
      rw [arrivals_pos game hnext, hspawn, hlast, expire_arrive fun i actor hactor =>
        ⟨(hliving i actor hactor).1.empty, (hliving i actor hactor).2.1⟩, hsame]
    · obtain ⟨harrives, halive, hbell⟩ := hliving i actor hactor
      have hempty : (game.expire end_).cells i = ⟨none, none⟩ := by
        rw [← hsame]
        change ((game.expire game.nextSpawn).cells i).expire end_ = _
        rw [harrives.empty]
        rfl
      exact ⟨game.nextSpawn, by omega, hnext.1, { harrives with empty := hempty }, halive, hbell⟩
    · intro hfull hspawned
      obtain ⟨-, hactors, himpacts⟩ := h.soon hfull hspawned
      by_cases hlate : game.nextSpawn < 47620
      · have := hround' hfull
        exact Or.inl (by omega)
      · have hdue : (game.expire game.nextSpawn).bossDue game.nextSpawn = true :=
          decide_eq_true ⟨by omega, hspawned⟩
        have hcomes : ((game.expire game.nextSpawn).spawn game.nextSpawn).bossSpawned = true :=
          spawn_due hfull hdue fun i => empty_expire hactors himpacts (by omega) i
        rw [hspawn] at hcomes
        cases arrival with
        | none =>
          have hnone : game.bossSpawned = true := hcomes
          rw [hspawned] at hnone
          cases hnone
        | some entry =>
          have hor : (game.bossSpawned || decide (entry.2.special = some .boss)) = true := hcomes
          rw [hspawned, Bool.false_or] at hor
          exact Or.inr ⟨entry.1, entry.2, rfl, of_decide_eq_true hor⟩
  · refine ⟨none, game.nextSpawn, ?_, fun _ _ hnone => (nomatch hnone), fun hboss => (h.drill hboss).2,
      fun hfull hspawned => Or.inl (h.soon hfull hspawned).1⟩
    rw [arrivals_neg game hnext]
    rfl

end Arrivals

/-! ## A short step -/

/-- What only moves change. -/
structure Books where
  practice : Practice
  durationMs : Int
  score : Int
  hits : Nat
  mistakes : Nat
  guardedHits : Nat
  perfectHits : Nat
  bossHits : Nat
  bossDefeated : Nat
  feverActivations : Nat

def Game.books (game : Game) : Books where
  practice := game.practice
  durationMs := game.durationMs
  score := game.score
  hits := game.hits
  mistakes := game.mistakes
  guardedHits := game.guardedHits
  perfectHits := game.perfectHits
  bossHits := game.bossHits
  bossDefeated := game.bossDefeated
  feverActivations := game.feverActivations

section Books

variable {game : Game} {end_ nextSpawn : Int} {arrival : Option (Fin CELL_COUNT × Actor)}

theorem Game.books_expire : (game.expire end_).books = game.books := rfl

theorem Game.books_settle : (game.settle end_).books = game.books := rfl

theorem Game.books_arrive : (game.arrive arrival nextSpawn).books = game.books := by
  cases arrival <;> rfl

end Books

/-- A cell at the bell. -/
def Cell.cleared (cell : Cell) (finished : Bool) : Cell := if finished then { cell with actor := none } else cell

/-- A short step, in which one actor may arrive. -/
structure Short (prev next : Game) (arrival : Option (Fin CELL_COUNT × Actor)) : Prop where
  later : prev.elapsed < next.elapsed
  going : prev.finished = false
  books : next.books = prev.books
  charge : next.feverCharge ≤ prev.feverCharge
  missed : next.missed = prev.missed + prev.misses next.elapsed
  spawnCount : next.spawnCount = prev.spawnCount + arrival.isSome.toNat
  bossSpawned : next.bossSpawned = (prev.bossSpawned || arrival.any fun entry => entry.2.special = some .boss)
  arrived : ∀ i actor, arrival = some (i, actor) →
    next.cells i = Cell.cleared ⟨some actor, none⟩ next.finished ∧
      (prev.cells i).expire next.elapsed = ⟨none, none⟩ ∧ prev.elapsed < actor.bornAt ∧
      actor.bornAt ≤ next.elapsed ∧ next.elapsed < actor.expiresAt ∧ actor.lastOpeningHit = none
  chief : ∀ i actor, arrival = some (i, actor) → actor.special = some .boss →
    prev.bossSpawned = false ∧ actor.hp = some BOSS_OPENINGS ∧ next.finished = false
  ordinary : ∀ i actor, arrival = some (i, actor) → actor.special ≠ some .boss → prev.bossSpawned = false →
    actor.expiresAt < 47200
  kept : ∀ i, (∀ actor, arrival ≠ some (i, actor)) →
    next.cells i = ((prev.cells i).expire next.elapsed).cleared next.finished
  drill : prev.practice = .boss → next.nextSpawn = 300 ∨ next.nextSpawn = prev.durationMs
  soon : prev.practice = .full → next.bossSpawned = false → next.nextSpawn < 48600

theorem short_advance {game : Game} (h : Kept game) {deltaMs : Int} (hfinished : game.finished = false)
    (hpos : 0 < deltaMs) (hshort : deltaMs ≤ 100) : ∃ arrival, Short game (advance game deltaMs) arrival := by
  obtain ⟨arrival, nextSpawn, hnext, harrival, hdrill, hround⟩ := advance_eq_arrive h hfinished hpos hshort rfl
  have hahead := (h.steady.ahead hfinished).1
  generalize hend : min game.durationMs (game.elapsed + deltaMs) = end_ at hnext harrival hdrill hround
  have hcharge : (game.expire end_).feverCharge ≤ game.feverCharge := by
    change (if _ then game.feverCharge else 0) ≤ _
    split
    · exact Nat.le_refl _
    · exact Nat.zero_le _
  have hclear : ∀ (g : Game) i, ((g.settle end_).cells i) = (g.cells i).cleared (g.settle end_).finished := by
    intro g i
    change (if end_ = g.durationMs then _ else _) = if decide (end_ = g.durationMs) = true then _ else _
    by_cases hbell : end_ = g.durationMs
    · rw [if_pos hbell, if_pos (decide_eq_true hbell)]
    · rw [if_neg hbell, if_neg fun h => hbell (of_decide_eq_true h)]
  have hbooks : (((game.expire end_).arrive arrival nextSpawn).settle end_).books = game.books := by
    rw [Game.books_settle, Game.books_arrive, Game.books_expire]
  refine ⟨arrival, ?_⟩
  rw [hnext]
  cases arrival with
  | none =>
    refine ⟨by change game.elapsed < end_; omega, hfinished, hbooks, hcharge, rfl, rfl, (Bool.or_false _).symm,
      fun _ _ hnone => (nomatch hnone), fun _ _ hnone => (nomatch hnone), fun _ _ hnone => (nomatch hnone),
      fun i _ => hclear _ i, hdrill, fun hfull hspawned => ?_⟩
    refine (hround hfull hspawned).resolve_right ?_
    rintro ⟨i, actor, hentry, -⟩
    cases hentry
  | some entry =>
    obtain ⟨i, actor⟩ := entry
    obtain ⟨time, hlow, hhigh, harrives, halive, hbell⟩ := harrival i actor rfl
    refine ⟨by change game.elapsed < end_; omega, hfinished, hbooks, hcharge, rfl, rfl, rfl, fun j other hentry => ?_,
      fun j other hentry hboss => ?_, fun j other hentry hboss hspawned => ?_, fun j hother => ?_, hdrill,
      fun hfull hspawned => ?_⟩
    · cases hentry
      have hcell : ((game.expire end_).arrive (some (i, actor)) nextSpawn).cells i = ⟨some actor, none⟩ :=
        if_pos rfl
      refine ⟨by rw [hclear, hcell], harrives.empty, by rw [harrives.bornAt]; exact hlow,
        by rw [harrives.bornAt]; exact hhigh, halive, harrives.untouched⟩
    · cases hentry
      exact ⟨(harrives.chief hboss).1, (harrives.chief hboss).2, decide_eq_false (hbell hboss).ne⟩
    · cases hentry
      obtain ⟨hfull, hearly, hlife⟩ := harrives.ordinary hboss
      have := hearly hspawned
      omega
    · have hcell : ((game.expire end_).arrive (some (i, actor)) nextSpawn).cells j = (game.expire end_).cells j :=
        if_neg fun hj => hother actor (by rw [hj])
      rw [hclear, hcell]
      rfl
    · have hor : (game.bossSpawned || decide (actor.special = some .boss)) = false := hspawned
      obtain ⟨hold, hnone⟩ := Bool.or_eq_false_iff.mp hor
      refine (hround hfull hold).resolve_right ?_
      rintro ⟨j, other, hentry, hboss⟩
      cases hentry
      exact of_decide_eq_false hnone hboss

theorem Cell.actor_cleared {cell : Cell} {finished : Bool} {actor : Actor} :
    (cell.cleared finished).actor = some actor ↔ finished = false ∧ cell.actor = some actor := by
  unfold Cell.cleared
  cases finished <;> simp

theorem Cell.impact_cleared {cell : Cell} {finished : Bool} : (cell.cleared finished).impact = cell.impact := by
  unfold Cell.cleared
  cases finished <;> rfl

namespace Short

variable {prev next : Game} {arrival : Option (Fin CELL_COUNT × Actor)} {i : Fin CELL_COUNT} {actor : Actor}
  {impact : Impact}

/-- Who is there after a short step has just come or was there. -/
theorem actor_cases (h : Short prev next arrival) (hactor : (next.cells i).actor = some actor) :
    next.finished = false ∧ next.elapsed < actor.expiresAt ∧
    ((arrival = some (i, actor) ∧ (next.cells i).impact = none) ∨
      ((prev.cells i).actor = some actor ∧ next.cells i = (prev.cells i).expire next.elapsed)) := by
  by_cases hnew : ∃ new, arrival = some (i, new)
  · obtain ⟨new, hentry⟩ := hnew
    obtain ⟨hcell, -, -, -, halive, -⟩ := h.arrived i new hentry
    rw [hcell] at hactor ⊢
    obtain ⟨hgoing, hsame⟩ := Cell.actor_cleared.mp hactor
    cases hsame
    exact ⟨hgoing, halive, Or.inl ⟨hentry, Cell.impact_cleared⟩⟩
  · have hcell := h.kept i fun other hentry => hnew ⟨other, hentry⟩
    rw [hcell] at hactor ⊢
    obtain ⟨hgoing, hthere⟩ := Cell.actor_cleared.mp hactor
    obtain ⟨hold, halive⟩ := actor_expire.mp hthere
    exact ⟨hgoing, halive, Or.inr ⟨hold, by rw [hgoing]; rfl⟩⟩

/-- An impact after a short step was there or marks a miss. -/
theorem impact_cases (h : Short prev next arrival) (himpact : (next.cells i).impact = some impact) :
    ((prev.cells i).impact = some impact ∧ next.elapsed < impact.until_) ∨
    ∃ actor, (prev.cells i).actor = some actor ∧ actor.expiresAt ≤ next.elapsed ∧ actor.kind = .goblin ∧
      impact = ⟨.miss, actor.expiresAt + 300, 0, actor.face, false⟩ ∧ next.elapsed < actor.expiresAt + 300 := by
  by_cases hnew : ∃ new, arrival = some (i, new)
  · obtain ⟨new, hentry⟩ := hnew
    rw [(h.arrived i new hentry).1, Cell.impact_cleared] at himpact
    cases himpact
  · rw [h.kept i fun other hentry => hnew ⟨other, hentry⟩, Cell.impact_cleared] at himpact
    exact impact_expire himpact

end Short

/-- A short step keeps it. -/
theorem Kept.short {prev next : Game} {arrival : Option (Fin CELL_COUNT × Actor)} (h : Kept prev)
    (hstep : Short prev next arrival) (hsteady : Steady next) : Kept next := by
  obtain ⟨hpractice, hduration, hscore, -, -, -, -, hhits, hdefeated, -⟩ := Books.mk.inj hstep.books
  have hboss : ∀ i actor, (next.cells i).actor = some actor → actor.special = some .boss →
      (arrival = some (i, actor) ∨ (prev.cells i).actor = some actor) :=
    fun i actor ha _ => (hstep.actor_cases ha).2.2.imp And.left And.left
  refine
    { steady := hsteady
      alive := fun i actor ha => (hstep.actor_cases ha).2.1
      shown := fun i impact hi => ?_
      marked := fun i actor impact ha hi => ?_
      score := hscore ▸ h.score
      charge := hstep.charge.trans h.charge
      strength := fun i actor ha hb => ?_
      unseen := fun hspawned => ?_
      defeated := by rw [hhits, hdefeated]; exact h.defeated
      round := by rw [hpractice, hduration]; exact h.round
      drill := fun hdrill => ?_
      soon := fun hfull hspawned => ?_ }
  · rcases hstep.impact_cases hi with ⟨-, hshown⟩ | ⟨actor, -, -, -, rfl, hshown⟩
    · exact hshown
    · exact hshown
  · obtain ⟨-, halive, ⟨-, hnone⟩ | ⟨hold, hcell⟩⟩ := hstep.actor_cases ha
    · rw [hnone] at hi
      cases hi
    · rw [hcell, Cell.expire_alive hold halive] at hi
      exact h.marked i actor impact hold (shown_fade hi).1
  · rw [hhits, hdefeated]
    rcases hboss i actor ha hb with hentry | hold
    · obtain ⟨hfirst, hhp, -⟩ := hstep.chief i actor hentry hb
      obtain ⟨hzero, hnone⟩ := h.unseen hfirst
      rw [hzero]
      exact ⟨hhp, by decide, hnone⟩
    · exact h.strength i actor hold hb
  · rw [hhits, hdefeated]
    rw [hstep.bossSpawned] at hspawned
    exact h.unseen (Bool.or_eq_false_iff.mp hspawned).1
  · rw [hpractice] at hdrill
    rw [hduration]
    exact ⟨(h.drill hdrill).1, hstep.drill hdrill⟩
  · rw [hpractice] at hfull
    have hor := hspawned
    rw [hstep.bossSpawned] at hor
    obtain ⟨hfirst, hnone⟩ := Bool.or_eq_false_iff.mp hor
    obtain ⟨-, hactors, himpacts⟩ := h.soon hfull hfirst
    refine ⟨hstep.soon hfull hspawned, fun i actor ha => ?_, fun i impact hi => ?_⟩
    · rcases (hstep.actor_cases ha).2.2 with ⟨hentry, -⟩ | ⟨hold, -⟩
      · refine hstep.ordinary i actor hentry (fun hb => ?_) hfirst
        rw [hentry, Option.any_some] at hnone
        exact of_decide_eq_false hnone hb
      · exact hactors i actor hold
    · rcases hstep.impact_cases hi with ⟨hold, -⟩ | ⟨actor, hold, -, -, rfl, -⟩
      · exact himpacts i impact hold
      · have := hactors i actor hold
        dsimp only
        omega

/-! ## A stamp that lands -/

/-- A stamp that lands on an actor and leaves an impact. -/
structure Struck (prev next : Game) (i : Fin CELL_COUNT) (actor : Actor) (impact : Impact) : Prop where
  clock : next.clock = prev.clock
  there : (prev.cells i).actor = some actor
  others : ∀ j, j ≠ i → next.cells j = prev.cells j
  shows : (next.cells i).impact = some impact
  fresh : (prev.cells i).impact ≠ some impact
  until_ : prev.elapsed < impact.until_ ∧ (actor.special ≠ some .boss → impact.until_ ≤ prev.elapsed + 420)
  kind : impact.kind ≠ .miss
  face : impact.actor = actor.face
  gone : impact.kind = .stamp ∨ impact.kind = .wrong → (next.cells i).actor = none
  stays : ¬ (impact.kind = .stamp ∨ impact.kind = .wrong) → ∃ after, (next.cells i).actor = some after ∧
    after.bornAt = actor.bornAt ∧ after.expiresAt = actor.expiresAt ∧ after.special = actor.special ∧
    (impact.kind = .guard ∨ (impact.kind = .crack ∧ ∃ time, after.lastHitAt = some time ∧
      impact.until_ = time + if impact.perfect then 650 else 100)) ∧
    (actor.special = some .boss → after.hp = some (BOSS_OPENINGS - next.bossHits) ∧
      next.bossHits < BOSS_OPENINGS ∧ next.bossDefeated = 0)
  score : next.score = prev.score + impact.points ∧ 0 ≤ next.score
  charge : next.feverCharge ≤ FEVER_TARGET
  fever : next.feverActivations = prev.feverActivations ∨ next.feverActivations = prev.feverActivations + 1
  hits : next.hits = prev.hits + (decide (impact.kind = .stamp)).toNat
  mistakes : next.mistakes = prev.mistakes + (decide (impact.kind = .wrong)).toNat
  guardedHits : next.guardedHits = prev.guardedHits + (decide (impact.kind = .guard)).toNat
  perfectHits : next.perfectHits = prev.perfectHits + impact.perfect.toNat
  bossDefeated : next.bossDefeated = prev.bossDefeated +
    (decide (impact.kind = .stamp ∧ actor.special = some .boss)).toNat
  /-- An opening of the chief is hit, for the first time. -/
  opened : actor.special = some .boss → impact.kind ≠ .guard →
    next.bossHits = prev.bossHits + 1 ∧ (bossWindow actor prev.elapsed).phase = .open_ ∧
    (∀ after, (next.cells i).actor = some after →
      after.lastOpeningHit = some (bossWindow actor prev.elapsed).opening) ∧
    (impact.kind = .stamp → next.bossHits = BOSS_OPENINGS)
  /-- No opening is hit. -/
  closed : actor.special ≠ some .boss ∨ impact.kind = .guard →
    next.bossHits = prev.bossHits ∧ impact.perfect = false ∧
    ∀ after, (next.cells i).actor = some after → after.lastOpeningHit = actor.lastOpeningHit

section Struck

variable {game base : Game} {i : Fin CELL_COUNT} {actor struck : Actor} {points : Int}

/-- The mark of a hit is new: an earlier crack was left long enough before. -/
theorem fresh_of_kind (h : Kept game) (hactor : (game.cells i).actor = some actor)
    (hstunned : actor.stunned game.elapsed = false) {impact : Impact} (hkind : impact.kind ≠ .guard)
    (huntil : impact.kind = .crack → impact.until_ = game.elapsed + if impact.perfect then 650 else 100) :
    (game.cells i).impact ≠ some impact := by
  intro hold
  rcases h.marked i actor impact hactor hold with hguard | ⟨hcrack, time, hlast, hmark⟩
  · exact hkind hguard
  · have htime : game.elapsed = time := by
      have := huntil hcrack
      omega
    unfold Actor.stunned at hstunned
    rw [hlast, Option.any_some, decide_eq_false_iff_not] at hstunned
    omega

/-- A hit that is about to land: what was counted before, and the actor as the hit leaves it. -/
structure Landing (game base : Game) (actor struck : Actor) (points : Int) : Prop where
  cells : base.cells = game.cells
  clock : base.clock = game.clock
  books : base.books = { game.books with
    score := game.score + points
    perfectHits := game.perfectHits + (decide (0 < points)).toNat
    bossHits := game.bossHits + (decide (actor.special = some .boss)).toNat }
  charge : base.feverCharge = game.feverCharge
  pays : 0 ≤ points
  same : struck.bornAt = actor.bornAt ∧ struck.expiresAt = actor.expiresAt ∧ struck.special = actor.special
  chief : actor.special = some .boss → actor.kind = .goblin ∧
    (bossWindow actor game.elapsed).phase = .open_ ∧
    struck.lastOpeningHit = some (bossWindow actor game.elapsed).opening
  plain : actor.special ≠ some .boss → points = 0 ∧ struck.lastOpeningHit = actor.lastOpeningHit

/-- The actor takes the hit. -/
theorem struck_crack (h : Kept game) (hactor : (game.cells i).actor = some actor)
    (hstunned : actor.stunned game.elapsed = false) (hland : Landing game base actor struck points)
    (hstrong : actor.kind = .goblin ∧ 1 < actor.hp.getD 1) :
    ∃ impact, Struck game (base.crack i actor struck points) i actor impact := by
  obtain ⟨-, -, hscore, hhits, hmistakes, hguarded, hperfect, hbossHits, hdefeated, hfever⟩ :=
    Books.mk.inj hland.books
  have helapsed : base.elapsed = game.elapsed := congrArg Clock.elapsed hland.clock
  have hnonneg := h.score
  have hpays := hland.pays
  have hhp : actor.special = some .boss → base.bossHits = game.bossHits + 1 ∧
      (actor.hp.getD 1 - 1 = BOSS_OPENINGS - base.bossHits ∧ base.bossHits < BOSS_OPENINGS) ∧
      base.bossDefeated = 0 := by
    intro hboss
    obtain ⟨hp, hlt, hnone⟩ := h.strength i actor hactor hboss
    have hcount : base.bossHits = game.bossHits + 1 := by rw [hbossHits]; simp [hboss]
    rw [hp, Option.getD_some] at hstrong
    rw [hp, Option.getD_some, hcount, hdefeated]
    exact ⟨rfl, ⟨by omega, by omega⟩, hnone⟩
  have huntil : base.elapsed + (if points = 0 then 100 else 650) =
      game.elapsed + if decide (0 < points) = true then 650 else 100 := by
    rw [helapsed]
    by_cases hzero : points = 0
    · simp [hzero]
    · rw [if_neg hzero, if_pos (decide_eq_true (by omega))]
  refine ⟨⟨.crack, base.elapsed + (if points = 0 then 100 else 650), points, actor.face, 0 < points⟩,
    { clock := hland.clock
      there := hactor
      others := fun j hj => (if_neg hj).trans (congrFun hland.cells j)
      shows := congrArg Cell.impact (if_pos rfl)
      fresh := fresh_of_kind h hactor hstunned (by simp) fun _ => huntil
      until_ := ⟨by dsimp only; split <;> omega, fun hplain => ?_⟩
      kind := by simp
      face := rfl
      gone := fun hkind => by simp at hkind
      stays := fun _ => ?_
      score := ⟨hscore, by change 0 ≤ base.score; omega⟩
      charge := hland.charge.trans_le h.charge
      fever := Or.inl hfever
      hits := hhits
      mistakes := hmistakes
      guardedHits := hguarded
      perfectHits := hperfect
      bossDefeated := by rw [decide_eq_false (by simp)]; exact hdefeated
      opened := fun hboss _ => ⟨(hhp hboss).1, (hland.chief hboss).2.1, fun after ha => ?_, fun hkind => by cases hkind⟩
      closed := fun hclosed => ?_ }⟩
  · rw [(hland.plain hplain).1, if_pos rfl]
    dsimp only
    omega
  · refine ⟨_, congrArg Cell.actor (if_pos rfl), hland.same.1, hland.same.2.1, hland.same.2.2,
      Or.inr ⟨rfl, base.elapsed, rfl, ?_⟩, fun hboss => ?_⟩
    · rw [huntil, helapsed]
    · obtain ⟨-, ⟨hp, hlt⟩, hnone⟩ := hhp hboss
      exact ⟨congrArg some hp, hlt, hnone⟩
  · have hafter := (congrArg Cell.actor (if_pos rfl)).symm.trans ha
    cases hafter
    exact (hland.chief hboss).2.2
  · have hplain := hclosed.resolve_right (by simp)
    refine ⟨?_, ?_, fun after ha => ?_⟩
    · change base.bossHits = _
      rw [hbossHits]
      simp [hplain]
    · simp [(hland.plain hplain).1]
    · have hafter := (congrArg Cell.actor (if_pos rfl)).symm.trans ha
      cases hafter
      exact (hland.plain hplain).2

/-- A courier is hit. -/
theorem struck_wrong (h : Kept game) (hactor : (game.cells i).actor = some actor)
    (hstunned : actor.stunned game.elapsed = false) (hland : Landing game base actor struck points)
    (hcourier : actor.kind = .courier) : ∃ impact, Struck game (base.wrong i actor) i actor impact := by
  obtain ⟨-, -, hscore, hhits, hmistakes, hguarded, hperfect, hbossHits, hdefeated, hfever⟩ :=
    Books.mk.inj hland.books
  have helapsed : base.elapsed = game.elapsed := congrArg Clock.elapsed hland.clock
  have hnonneg := h.score
  have hplain : actor.special ≠ some .boss := by
    intro hboss
    rw [(hland.chief hboss).1] at hcourier
    cases hcourier
  obtain ⟨rfl, -⟩ := hland.plain hplain
  rw [Int.add_zero] at hscore
  refine ⟨⟨.wrong, base.elapsed + 420, -(min 100 base.score), actor.face, false⟩,
    { clock := hland.clock
      there := hactor
      others := fun j hj => (if_neg hj).trans (congrFun hland.cells j)
      shows := congrArg Cell.impact (if_pos rfl)
      fresh := fresh_of_kind h hactor hstunned (by simp) (by simp)
      until_ := ⟨by dsimp only; omega, fun _ => by dsimp only; omega⟩
      kind := by simp
      face := rfl
      gone := fun _ => congrArg Cell.actor (if_pos rfl)
      stays := fun hkind => absurd (Or.inr rfl) hkind
      score := ?_
      charge := Nat.zero_le _
      fever := Or.inl hfever
      hits := hhits
      mistakes := congrArg (· + 1) hmistakes
      guardedHits := hguarded
      perfectHits := hperfect
      bossDefeated := by rw [decide_eq_false (by simp)]; exact hdefeated
      opened := fun hboss => absurd hboss hplain
      closed := fun _ => ⟨?_, rfl, fun after ha => ?_⟩ }⟩
  · change base.score - min 100 base.score = _ ∧ 0 ≤ base.score - min 100 base.score
    dsimp only
    omega
  · change base.bossHits = _
    rw [hbossHits]
    simp [hplain]
  · have hafter := (congrArg Cell.actor (if_pos rfl)).symm.trans ha
    cases hafter

theorem earned_nonneg (game : Game) (actor : Actor) : 0 ≤ game.earned actor := by
  have hbase : 0 ≤ actor.basePoints (game.combo + 1) := by
    unfold Actor.basePoints multiplier
    refine Int.mul_nonneg ?_ (by omega)
    split
    · decide
    · split
      · decide
      · split <;> decide
  unfold Game.earned
  split <;> omega

/-- A goblin is defeated. -/
theorem struck_defeat (h : Kept game) (hactor : (game.cells i).actor = some actor)
    (hstunned : actor.stunned game.elapsed = false) (hland : Landing game base actor struck points)
    (hweak : actor.hp.getD 1 ≤ 1) : ∃ impact, Struck game (base.defeat i actor points) i actor impact := by
  obtain ⟨-, -, hscore, hhits, hmistakes, hguarded, hperfect, hbossHits, hdefeated, hfever⟩ :=
    Books.mk.inj hland.books
  have helapsed : base.elapsed = game.elapsed := congrArg Clock.elapsed hland.clock
  have hnonneg := h.score
  have hpays := hland.pays
  have hearns := earned_nonneg base actor
  have hlast : actor.special = some .boss → base.bossHits = game.bossHits + 1 ∧ base.bossHits = BOSS_OPENINGS := by
    intro hboss
    obtain ⟨hp, hlt, -⟩ := h.strength i actor hactor hboss
    rw [hp, Option.getD_some] at hweak
    have hcount : base.bossHits = game.bossHits + 1 := by rw [hbossHits]; simp [hboss]
    exact ⟨hcount, by omega⟩
  have hcell := charge_eq (base.setCell i ⟨none, some (base.defeatImpact actor points)⟩)
  obtain ⟨_, _, _, hcharge, hle, hstarts⟩ := hcell
  have hcells : (base.defeat i actor points).cells = fun j =>
      if j = i then ⟨none, some (base.defeatImpact actor points)⟩ else base.cells j :=
    congrArg Game.cells hcharge
  have hactor' : ((base.defeat i actor points).cells i).actor = none := by
    rw [hcells]
    exact congrArg Cell.actor (if_pos rfl)
  refine ⟨base.defeatImpact actor points,
    { clock := (congrArg Game.clock hcharge).trans hland.clock
      there := hactor
      others := fun j hj => by rw [hcells]; exact (if_neg hj).trans (congrFun hland.cells j)
      shows := by rw [hcells]; exact congrArg Cell.impact (if_pos rfl)
      fresh := fresh_of_kind h hactor hstunned (by simp [Game.defeatImpact]) (by simp [Game.defeatImpact])
      until_ := ⟨by unfold Game.defeatImpact; dsimp only; split <;> omega, fun hplain => ?_⟩
      kind := by simp [Game.defeatImpact]
      face := rfl
      gone := fun _ => hactor'
      stays := fun hkind => absurd (Or.inl rfl) hkind
      score := ?_
      charge := ?_
      fever := ?_
      hits := congrArg (· + 1) hhits
      mistakes := (congrArg Game.mistakes hcharge).trans hmistakes
      guardedHits := (congrArg Game.guardedHits hcharge).trans hguarded
      perfectHits := (congrArg Game.perfectHits hcharge).trans hperfect
      bossDefeated := ?_
      opened := fun hboss _ => ⟨(congrArg Game.bossHits hcharge).trans (hlast hboss).1, (hland.chief hboss).2.1,
        fun after ha => ?_, fun _ => (congrArg Game.bossHits hcharge).trans (hlast hboss).2⟩
      closed := fun hclosed => ?_ }⟩
  · unfold Game.defeatImpact
    rw [(hland.plain hplain).1, if_pos rfl]
    dsimp only
    omega
  · change base.score + base.earned actor = game.score + (base.earned actor + points) ∧
      0 ≤ base.score + base.earned actor
    change base.score = game.score + points at hscore
    omega
  · have hsame := congrArg Game.feverCharge hcharge
    change (base.defeat i actor points).feverCharge = _ at hsame
    rw [hsame]
    exact hle (hland.charge.trans_le h.charge)
  · have hsame := congrArg Game.feverActivations hcharge
    change (base.defeat i actor points).feverActivations = _ at hsame
    rw [hsame]
    exact hstarts.imp (fun heq => heq.trans hfever) fun heq => heq.trans (congrArg (· + 1) hfever)
  · change base.bossDefeated + _ = game.bossDefeated + _
    rw [show base.bossDefeated = game.bossDefeated from hdefeated]
    by_cases hboss : actor.special = some .boss
    · rw [if_pos hboss, decide_eq_true ⟨rfl, hboss⟩]
      rfl
    · rw [if_neg hboss, decide_eq_false fun hboth => hboss hboth.2]
      rfl
  · rw [hactor'] at ha
    cases ha
  · have hplain := hclosed.resolve_right (by simp [Game.defeatImpact])
    refine ⟨(congrArg Game.bossHits hcharge).trans ?_, ?_, fun after ha => ?_⟩
    · change base.bossHits = _
      rw [hbossHits]
      simp [hplain]
    · simp [Game.defeatImpact, (hland.plain hplain).1]
    · rw [hactor'] at ha
      cases ha

/-- **A hit that lands leaves an impact.** -/
theorem struck_hit (h : Kept game) (hactor : (game.cells i).actor = some actor)
    (hstunned : actor.stunned game.elapsed = false) (hland : Landing game base actor struck points) :
    ∃ impact, Struck game (base.hit i actor struck points) i actor impact := by
  unfold Game.hit
  split
  · next hstrong => exact struck_crack h hactor hstunned hland hstrong
  · next hweak =>
    split
    · next hcourier => exact struck_wrong h hactor hstunned hland hcourier
    · next hgoblin =>
      refine struck_defeat h hactor hstunned hland (not_lt.mp fun hstrong => hweak ⟨?_, hstrong⟩)
      cases hkind : actor.kind with
      | goblin => rfl
      | courier => exact absurd hkind hgoblin

/-- The chief's guard is hit, unless it shows already. -/
theorem struck_guarded (h : Kept game) (hactor : (game.cells i).actor = some actor)
    (hboss : actor.special = some .boss) (opening : Int) : game.guarded i actor opening = game ∨
      ∃ impact, Struck game (game.guarded i actor opening) i actor impact := by
  unfold Game.guarded
  split
  · exact Or.inl rfl
  · next hshows =>
    obtain ⟨hp, hlt, hnone⟩ := h.strength i actor hactor hboss
    have hnonneg := h.score
    refine Or.inr ⟨⟨.guard, game.elapsed + 240, 0, actor.face, false⟩,
      { clock := rfl
        there := hactor
        others := fun j hj => if_neg hj
        shows := congrArg Cell.impact (if_pos rfl)
        fresh := fun hold => hshows ?_
        until_ := ⟨by dsimp only; omega, fun hplain => absurd hboss hplain⟩
        kind := by simp
        face := rfl
        gone := fun hkind => by simp at hkind
        stays := fun _ => ⟨_, congrArg Cell.actor (if_pos rfl), rfl, rfl, rfl, Or.inl rfl, fun _ => ⟨hp, hlt, hnone⟩⟩
        score := ⟨(Int.add_zero _).symm, hnonneg⟩
        charge := h.charge
        fever := Or.inl rfl
        hits := rfl
        mistakes := rfl
        guardedHits := rfl
        perfectHits := rfl
        bossDefeated := by rw [decide_eq_false (by simp)]; rfl
        opened := fun _ hkind => absurd rfl hkind
        closed := fun _ => ⟨rfl, rfl, fun after ha => ?_⟩ }⟩
    · rw [hold, Option.any_some]
      exact decide_eq_true ⟨rfl, by dsimp only; omega⟩
    · have hafter := (congrArg Cell.actor (if_pos rfl)).symm.trans ha
      cases hafter
      rfl

theorem struck_strike (h : Kept game) (hactor : (game.cells i).actor = some actor)
    (hstunned : actor.stunned game.elapsed = false) :
    game.strike i actor = game ∨ ∃ impact, Struck game (game.strike i actor) i actor impact := by
  unfold Game.strike
  split
  · next hboss =>
    dsimp only
    split
    · exact Or.inl rfl
    · exact struck_guarded h hactor hboss _
    · next hphase =>
      have hpays : 0 ≤ (bossWindow actor game.elapsed).precisionPoints ∧
          decide (0 < (bossWindow actor game.elapsed).precisionPoints) = (bossWindow actor game.elapsed).perfect := by
        unfold BossWindow.precisionPoints
        cases (bossWindow actor game.elapsed).perfect <;> decide
      refine Or.inr (struck_hit h hactor hstunned
        { cells := rfl
          clock := rfl
          books := ?_
          charge := rfl
          pays := hpays.1
          same := ⟨rfl, rfl, rfl⟩
          chief := fun _ => ⟨(h.steady.paced.guarded i actor hactor hboss).1, hphase, rfl⟩
          plain := fun hplain => absurd hboss hplain })
      rw [hpays.2, decide_eq_true hboss]
      unfold Game.books Game.tally
      cases (bossWindow actor game.elapsed).perfect <;> rfl
  · next hplain =>
    refine Or.inr (struck_hit h hactor hstunned
      { cells := rfl
        clock := rfl
        books := ?_
        charge := rfl
        pays := Int.le_refl 0
        same := ⟨rfl, rfl, rfl⟩
        chief := fun hboss => absurd hboss hplain
        plain := fun _ => ⟨rfl, rfl⟩ })
    rw [decide_eq_false hplain, Int.add_zero]
    rfl

/-- **What a stamp does.** -/
theorem stamp_cases (h : Kept game) (index : Int) :
    stamp game index = game ∨ ∃ i actor impact, Struck game (stamp game index) i actor impact := by
  unfold Arcade.stamp
  split
  · exact Or.inl rfl
  · split
    · dsimp only
      split
      · exact Or.inl rfl
      · next actor hactor =>
        split
        · exact Or.inl rfl
        · next hready =>
          obtain ⟨-, hrest⟩ := not_or.mp hready
          rcases struck_strike h hactor (Bool.eq_false_iff.mpr (not_or.mp hrest).2) with hsame | ⟨impact, hstruck⟩
          · exact Or.inl hsame
          · exact Or.inr ⟨_, actor, impact, hstruck⟩
    · exact Or.inl rfl

end Struck

section Struck

variable {prev next : Game} {i j : Fin CELL_COUNT} {actor after : Actor} {impact : Impact}

/-- Who is there after a stamp was there, or is the actor that took it. -/
theorem Struck.actor_cases (h : Struck prev next i actor impact) (ha : (next.cells j).actor = some after) :
    (j ≠ i ∧ next.cells j = prev.cells j ∧ (prev.cells j).actor = some after) ∨
    (j = i ∧ after.bornAt = actor.bornAt ∧ after.expiresAt = actor.expiresAt ∧ after.special = actor.special ∧
      (impact.kind = .guard ∨ (impact.kind = .crack ∧ ∃ time, after.lastHitAt = some time ∧
        impact.until_ = time + if impact.perfect then 650 else 100)) ∧
      (actor.special = some .boss → after.hp = some (BOSS_OPENINGS - next.bossHits) ∧
        next.bossHits < BOSS_OPENINGS ∧ next.bossDefeated = 0)) := by
  by_cases hj : j = i
  · have hkind : ¬ (impact.kind = .stamp ∨ impact.kind = .wrong) := by
      intro hkind
      rw [hj, h.gone hkind] at ha
      cases ha
    obtain ⟨other, hother, hrest⟩ := h.stays hkind
    rw [hj, hother] at ha
    cases ha
    exact Or.inr ⟨hj, hrest⟩
  · have hsame := h.others j hj
    rw [hsame] at ha
    exact Or.inl ⟨hj, hsame, ha⟩

theorem Struck.impact_cases (h : Struck prev next i actor impact) {other : Impact}
    (hi : (next.cells j).impact = some other) :
    (j ≠ i ∧ (prev.cells j).impact = some other) ∨ (j = i ∧ other = impact) := by
  by_cases hj : j = i
  · rw [hj, h.shows] at hi
    exact Or.inr ⟨hj, (Option.some.inj hi).symm⟩
  · rw [h.others j hj] at hi
    exact Or.inl ⟨hj, hi⟩

/-- A stamp that lands keeps it. -/
theorem Kept.struck (h : Kept prev) (hstep : Struck prev next i actor impact) (hsteady : Steady next) :
    Kept next := by
  obtain ⟨-, hpractice, hduration, -, helapsed, hnext, -, hspawned, -, -⟩ := Clock.mk.inj hstep.clock
  have hthere := hstep.there
  -- a stamp on anyone else leaves the chief's books alone
  have hplain : actor.special ≠ some .boss →
      next.bossHits = prev.bossHits ∧ next.bossDefeated = prev.bossDefeated := by
    intro hplain
    refine ⟨(hstep.closed (Or.inl hplain)).1, ?_⟩
    rw [hstep.bossDefeated, decide_eq_false fun hboth => hplain hboth.2]
    rfl
  refine
    { steady := hsteady
      alive := fun j after ha => ?_
      shown := fun j other hi => ?_
      marked := fun j after other ha hi => ?_
      score := hstep.score.2
      charge := hstep.charge
      strength := fun j after ha hb => ?_
      unseen := fun hfirst => ?_
      defeated := ?_
      round := fun hfull => ?_
      drill := fun hdrill => ?_
      soon := fun hfull hfirst => ?_ }
  · rw [show next.elapsed = prev.elapsed from helapsed]
    rcases hstep.actor_cases ha with ⟨-, -, hold⟩ | ⟨-, -, hexpires, -⟩
    · exact h.alive j after hold
    · rw [hexpires]
      exact h.alive i actor hthere
  · rw [show next.elapsed = prev.elapsed from helapsed]
    rcases hstep.impact_cases hi with ⟨-, hold⟩ | ⟨-, rfl⟩
    · exact h.shown j other hold
    · exact hstep.until_.1
  · rcases hstep.actor_cases ha with ⟨hj, -, hold⟩ | ⟨hj, -, -, -, hmark, -⟩
    · obtain ⟨-, hold'⟩ := (hstep.impact_cases hi).resolve_right fun hsame => hj hsame.1
      exact h.marked j after other hold hold'
    · obtain ⟨-, rfl⟩ := (hstep.impact_cases hi).resolve_left fun hother => hother.1 hj
      exact hmark
  · rcases hstep.actor_cases ha with ⟨hj, -, hold⟩ | ⟨-, -, -, hspecial, -, hstrength⟩
    · have hother : actor.special ≠ some .boss := fun hboss =>
        hj (h.steady.paced.alone j i after actor hold hb hthere hboss)
      rw [(hplain hother).1, (hplain hother).2]
      exact h.strength j after hold hb
    · exact hstrength (hspecial.symm.trans hb)
  · have hfirst' : prev.bossSpawned = false := hspawned.symm.trans hfirst
    have hother : actor.special ≠ some .boss := by
      intro hboss
      rw [h.steady.paced.spawned i actor hthere hboss] at hfirst'
      cases hfirst'
    rw [(hplain hother).1, (hplain hother).2]
    exact h.unseen hfirst'
  · by_cases hboss : actor.special = some .boss
    · obtain ⟨-, -, hnone⟩ := h.strength i actor hthere hboss
      rw [hstep.bossDefeated, hnone]
      by_cases hkind : impact.kind = .stamp
      · rw [decide_eq_true ⟨hkind, hboss⟩]
        exact ⟨Nat.le_refl 1, fun _ => (hstep.opened hboss (by simp [hkind])).2.2.2 hkind⟩
      · rw [decide_eq_false fun hboth => hkind hboth.1]
        exact ⟨Nat.zero_le 1, fun hone => by cases hone⟩
    · rw [(hplain hboss).1, (hplain hboss).2]
      exact h.defeated
  · rw [show next.durationMs = prev.durationMs from hduration]
    exact h.round (hpractice.symm.trans hfull)
  · rw [show next.durationMs = prev.durationMs from hduration, show next.nextSpawn = prev.nextSpawn from hnext]
    exact h.drill (hpractice.symm.trans hdrill)
  · have hfirst' : prev.bossSpawned = false := hspawned.symm.trans hfirst
    obtain ⟨hsoon, hactors, himpacts⟩ := h.soon (hpractice.symm.trans hfull) hfirst'
    rw [show next.nextSpawn = prev.nextSpawn from hnext]
    refine ⟨hsoon, fun j after ha => ?_, fun j other hi => ?_⟩
    · rcases hstep.actor_cases ha with ⟨-, -, hold⟩ | ⟨-, -, hexpires, -⟩
      · exact hactors j after hold
      · rw [hexpires]
        exact hactors i actor hthere
    · rcases hstep.impact_cases hi with ⟨-, hold⟩ | ⟨-, rfl⟩
      · exact himpacts j other hold
      · have hother : actor.special ≠ some .boss := by
          intro hboss
          rw [h.steady.paced.spawned i actor hthere hboss] at hfirst'
          cases hfirst'
        have := hstep.until_.2 hother
        have := h.alive i actor hthere
        have := hactors i actor hthere
        omega

end Struck

/-! ## The fever -/

/-- A move about the fever. -/
structure Feverish (prev next : Game) : Prop where
  clock : ∃ feverMode, next.clock = { prev.clock with feverMode := feverMode }
  cells : next.cells = prev.cells
  books : next.books = prev.books ∨
    next.books = { prev.books with feverActivations := prev.feverActivations + 1 }
  charge : next.feverCharge ≤ prev.feverCharge

theorem feverish_activateFever (game : Game) : Feverish game (activateFever game) := by
  unfold activateFever
  split
  · exact ⟨⟨_, rfl⟩, rfl, Or.inl rfl, Nat.le_refl _⟩
  · exact ⟨⟨_, rfl⟩, rfl, Or.inr rfl, Nat.zero_le _⟩

theorem feverish_setFeverMode (game : Game) (mode : FeverMode) : Feverish game (setFeverMode game mode) := by
  unfold setFeverMode
  split
  · exact ⟨⟨_, rfl⟩, rfl, Or.inl rfl, Nat.le_refl _⟩
  · cases mode with
    | auto =>
      have hrest := feverish_activateFever { game with feverMode := .auto }
      obtain ⟨_, hclock⟩ := hrest.clock
      exact ⟨⟨_, hclock⟩, hrest.cells, hrest.books, hrest.charge⟩
    | manual => exact ⟨⟨_, rfl⟩, rfl, Or.inl rfl, Nat.le_refl _⟩

theorem Kept.feverish {prev next : Game} (h : Kept prev) (hstep : Feverish prev next) (hsteady : Steady next) :
    Kept next := by
  obtain ⟨_, hclock⟩ := hstep.clock
  obtain ⟨-, hpractice, hduration, -, helapsed, hnext, -, hspawned, -, -⟩ := Clock.mk.inj hclock
  have hbooks : next.score = prev.score ∧ next.bossHits = prev.bossHits ∧ next.bossDefeated = prev.bossDefeated := by
    rcases hstep.books with hsame | hmore
    · obtain ⟨-, -, hscore, -, -, -, -, hhits, hdefeated, -⟩ := Books.mk.inj hsame
      exact ⟨hscore, hhits, hdefeated⟩
    · obtain ⟨-, -, hscore, -, -, -, -, hhits, hdefeated, -⟩ := Books.mk.inj hmore
      exact ⟨hscore, hhits, hdefeated⟩
  obtain ⟨hscore, hhits, hdefeated⟩ := hbooks
  have helapsed' : next.elapsed = prev.elapsed := helapsed
  have hpractice' : next.practice = prev.practice := hpractice
  have hduration' : next.durationMs = prev.durationMs := hduration
  have hnext' : next.nextSpawn = prev.nextSpawn := hnext
  have hspawned' : next.bossSpawned = prev.bossSpawned := hspawned
  refine ⟨hsteady, ?_, ?_, ?_, hscore ▸ h.score, hstep.charge.trans h.charge, ?_, ?_, ?_, ?_, ?_, ?_⟩
  · rw [hstep.cells, helapsed']; exact h.alive
  · rw [hstep.cells, helapsed']; exact h.shown
  · rw [hstep.cells]; exact h.marked
  · rw [hstep.cells, hhits, hdefeated]; exact h.strength
  · rw [hspawned', hhits, hdefeated]; exact h.unseen
  · rw [hhits, hdefeated]; exact h.defeated
  · rw [hpractice', hduration']; exact h.round
  · rw [hpractice', hduration', hnext']; exact h.drill
  · rw [hpractice', hspawned', hnext', hstep.cells]; exact h.soon

end Mapae.Arcade
