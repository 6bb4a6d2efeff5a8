import Mapae.Arcade.StampMoves
import Mapae.Infra.Keyed

/-!
# Time in the stamp game

A step may be cut anywhere.

* `Paced` is what holds of the cells at an instant
* `expire_expire`: expiries are read off the later instant
* `advance_advance`: two steps are one step
-/

namespace Mapae.Arcade

open Mapae.Infra

@[simp] theorem bossCycleMs_eq : BOSS_CYCLE_MS = 2400 := rfl

@[simp] theorem bossGuardMs_eq : BOSS_GUARD_MS = 1000 := rfl

/-! ## Openings -/

section Openings

variable {actor : Actor} {time time' k : Int}

theorem opening_eq (h0 : 0 ≤ k) (hlow : actor.bornAt + 2400 * k ≤ time)
    (hhigh : time < actor.bornAt + 2400 * (k + 1)) : (bossWindow actor time).opening = k := by
  change max 0 (time - actor.bornAt) / 2400 = k
  omega

theorem phase_open_iff (h0 : 0 ≤ k) (hlow : actor.bornAt + 2400 * k ≤ time)
    (hhigh : time < actor.bornAt + 2400 * (k + 1)) :
    (bossWindow actor time).phase = .open_ ↔
      time < actor.expiresAt ∧ k < 3 ∧ actor.lastOpeningHit ≠ some k ∧
        actor.bornAt + 2400 * k + 1000 ≤ time := by
  have hopening : max 0 (time - actor.bornAt) / 2400 = k := opening_eq h0 hlow hhigh
  have hphase : max 0 (time - actor.bornAt) % 2400 = time - actor.bornAt - 2400 * k := by omega
  simp only [bossWindow, bossCycleMs_eq, bossGuardMs_eq, hopening, hphase, BOSS_OPENINGS]
  constructor
  · intro h
    split at h
    · cases h
    · next hrecover =>
      obtain ⟨hexpires, hrest⟩ := not_or.mp hrecover
      obtain ⟨hk, hlast⟩ := not_or.mp hrest
      split at h
      · cases h
      · exact ⟨by omega, by omega, hlast, by omega⟩
  · rintro ⟨hexpires, hk, hlast, hopen⟩
    rw [if_neg (not_or.mpr ⟨by omega, not_or.mpr ⟨by omega, hlast⟩⟩), if_neg (by omega)]

/-- The opening of an instant, in numbers. -/
theorem opening_bounds (hborn : actor.bornAt ≤ time) : 0 ≤ (bossWindow actor time).opening ∧
    actor.bornAt + 2400 * (bossWindow actor time).opening ≤ time ∧
    time < actor.bornAt + 2400 * ((bossWindow actor time).opening + 1) := by
  change 0 ≤ max 0 (time - actor.bornAt) / 2400 ∧ actor.bornAt + 2400 * (max 0 (time - actor.bornAt) / 2400) ≤
    time ∧ time < actor.bornAt + 2400 * (max 0 (time - actor.bornAt) / 2400 + 1)
  omega

theorem phase_guard (hborn : actor.bornAt ≤ time) (h : (bossWindow actor time).phase = .guard) :
    time < actor.bornAt + 2400 * (bossWindow actor time).opening + 1000 := by
  obtain ⟨-, hlow, hhigh⟩ := opening_bounds hborn
  generalize hk : (bossWindow actor time).opening = k at hlow hhigh ⊢
  have hopening : max 0 (time - actor.bornAt) / 2400 = k := hk
  have hage : max 0 (time - actor.bornAt) % 2400 = time - actor.bornAt - 2400 * k := by omega
  simp only [bossWindow, bossCycleMs_eq, bossGuardMs_eq, hopening, hage] at h
  split at h
  · cases h
  · split at h
    · omega
    · cases h

/-- A chief that has run out of time recovers. -/
theorem phase_of_expired (h : actor.expiresAt ≤ time) : (bossWindow actor time).phase ≠ .open_ := by
  simp [bossWindow, h]

/-- A chief that is open stays open while the cut guard would last. -/
theorem open_of_open (h0 : 0 ≤ k) (hlow : actor.bornAt + 2400 * k ≤ time) (hle : time ≤ time')
    (hhigh : time' < actor.bornAt + 2400 * k + 1240) (halive : time' < actor.expiresAt)
    (h : (bossWindow actor time).phase = .open_) : (bossWindow actor time').phase = .open_ := by
  obtain ⟨-, hk, hlast, hopen⟩ := (phase_open_iff h0 hlow (by omega)).mp h
  exact (phase_open_iff h0 (by omega) (by omega)).mpr ⟨halive, hk, hlast, by omega⟩

end Openings

/-! ## Cells -/

/-- A guard that was struck in a cycle of the chief fades soon after its opening. -/
def Cell.Guarded (cell : Cell) (time : Int) : Prop :=
  ∀ actor, cell.actor = some actor → actor.special = some .boss → actor.kind = .goblin ∧
    ∀ impact, cell.impact = some impact → impact.kind = .guard →
      ∃ k, 0 ≤ k ∧ actor.bornAt + 2400 * k ≤ time ∧ impact.until_ ≤ actor.bornAt + 2400 * k + 1240

namespace Cell

variable {cell : Cell} {time time' : Int}

theorem Guarded.mono (h : cell.Guarded time) (hle : time ≤ time') : cell.Guarded time' := by
  intro actor hactor hboss
  obtain ⟨hkind, himpact⟩ := h actor hactor hboss
  refine ⟨hkind, fun impact hi hguard => ?_⟩
  obtain ⟨k, h0, hlow, huntil⟩ := himpact impact hi hguard
  exact ⟨k, h0, by omega, huntil⟩

/-- The impact fades at an instant. -/
def Fades (cell : Cell) (time : Int) (impact : Impact) : Prop :=
  impact.until_ ≤ time ∨ (impact.kind = .guard ∧ ∃ actor, cell.actor = some actor ∧
    actor.special = some .boss ∧ (bossWindow actor time).phase = .open_)

theorem fade_eq_some {impact : Impact} :
    cell.fade time = some impact ↔ cell.impact = some impact ∧ ¬ cell.Fades time impact := by
  unfold fade Fades
  rw [Option.filter_eq_some_iff]
  simp only [decide_eq_true_eq, Option.any_eq_true]

/-- What fades by an instant has faded by a later one, unless the chief is gone then. -/
theorem Fades.later (hguard : cell.Guarded time) (hle : time ≤ time')
    (halive : ∀ actor, cell.actor = some actor → actor.special = some .boss → time' < actor.expiresAt)
    {impact : Impact} (himpact : cell.impact = some impact) (h : cell.Fades time impact) :
    cell.Fades time' impact := by
  rcases h with huntil | ⟨hkind, actor, hactor, hboss, hopen⟩
  · exact Or.inl (huntil.trans hle)
  · obtain ⟨k, h0, hlow, hshort⟩ := (hguard actor hactor hboss).2 impact himpact hkind
    by_cases huntil : impact.until_ ≤ time'
    · exact Or.inl huntil
    · exact Or.inr ⟨hkind, actor, hactor, hboss,
        open_of_open h0 hlow hle (by omega) (halive actor hactor hboss) hopen⟩

/-- Fading twice is fading at the later instant. -/
theorem fade_fade (hguard : cell.Guarded time) (hle : time ≤ time')
    (halive : ∀ actor, cell.actor = some actor → actor.special = some .boss → time' < actor.expiresAt) :
    (⟨cell.actor, cell.fade time⟩ : Cell).fade time' = cell.fade time' := by
  refine Option.ext fun impact => ?_
  have hfades : (⟨cell.actor, cell.fade time⟩ : Cell).Fades time' impact ↔ cell.Fades time' impact :=
    Iff.rfl
  rw [fade_eq_some, fade_eq_some, hfades, fade_eq_some]
  constructor
  · rintro ⟨⟨hi, -⟩, hlater⟩
    exact ⟨hi, hlater⟩
  · rintro ⟨hi, hlater⟩
    exact ⟨⟨hi, fun hnow => hlater (hnow.later hguard hle halive hi)⟩, hlater⟩

theorem expire_alive {actor : Actor} (hactor : cell.actor = some actor) (halive : time < actor.expiresAt) :
    cell.expire time = ⟨some actor, cell.fade time⟩ := by
  simp [expire, hactor, Option.filter, not_le.mpr halive]

theorem expire_none (hactor : cell.actor = none) : cell.expire time = ⟨none, cell.fade time⟩ := by
  simp [expire, hactor]

theorem expire_missed {actor : Actor} (hactor : cell.actor = some actor)
    (hexpired : actor.expiresAt ≤ time) (hkind : actor.kind = .goblin) :
    cell.expire time = ⟨none, miss time actor⟩ := by
  simp [expire, hactor, Option.filter, hexpired, hkind]

theorem expire_passed {actor : Actor} (hactor : cell.actor = some actor)
    (hexpired : actor.expiresAt ≤ time) (hkind : actor.kind = .courier) :
    cell.expire time = ⟨none, cell.fade time⟩ := by
  simp [expire, hactor, Option.filter, hexpired, hkind]

/-- The four things that can happen to a cell. -/
theorem expire_cases (cell : Cell) (time : Int) :
    (cell.actor = none ∧ cell.expire time = ⟨none, cell.fade time⟩) ∨
    ∃ actor, cell.actor = some actor ∧
      ((time < actor.expiresAt ∧ cell.expire time = ⟨some actor, cell.fade time⟩) ∨
      (actor.expiresAt ≤ time ∧ actor.kind = .goblin ∧ cell.expire time = ⟨none, miss time actor⟩) ∨
      (actor.expiresAt ≤ time ∧ actor.kind = .courier ∧ cell.expire time = ⟨none, cell.fade time⟩)) := by
  cases hactor : cell.actor with
  | none => exact Or.inl ⟨rfl, expire_none hactor⟩
  | some actor =>
    refine Or.inr ⟨actor, rfl, ?_⟩
    by_cases hexpired : actor.expiresAt ≤ time
    · cases hkind : actor.kind with
      | goblin => exact Or.inr (Or.inl ⟨hexpired, rfl, expire_missed hactor hexpired hkind⟩)
      | courier => exact Or.inr (Or.inr ⟨hexpired, rfl, expire_passed hactor hexpired hkind⟩)
    · exact Or.inl ⟨by omega, expire_alive hactor (by omega)⟩

/-- The mark of a missed goblin fades like any other. -/
theorem fade_miss {actor : Actor} (hle : time ≤ time') :
    (⟨none, miss time actor⟩ : Cell).fade time' = miss time' actor := by
  unfold fade miss
  dsimp only
  split
  · by_cases hlater : time' < actor.expiresAt + 300
    · rw [if_pos hlater]
      simp [Option.filter]
      omega
    · rw [if_neg hlater]
      simp [Option.filter]
      omega
  · rw [if_neg (show ¬ time' < actor.expiresAt + 300 by omega)]
    rfl

/-- **A cell expires at the later instant.** -/
theorem expire_expire (hguard : cell.Guarded time) (hle : time ≤ time') :
    (cell.expire time).expire time' = cell.expire time' := by
  rcases cell.expire_cases time with ⟨hactor, hnow⟩ | ⟨actor, hactor, ⟨halive, hnow⟩ |
    ⟨hexpired, hkind, hnow⟩ | ⟨hexpired, hkind, hnow⟩⟩
  · rw [hnow, expire_none rfl, expire_none hactor, ← hactor]
    rw [fade_fade hguard hle fun actor ha => by rw [hactor] at ha; cases ha]
  · rcases cell.expire_cases time' with ⟨hnone, -⟩ | ⟨actor', hactor', ⟨halive', hlater⟩ |
      ⟨hexpired', hkind', hlater⟩ | ⟨hexpired', hkind', hlater⟩⟩
    · rw [hactor] at hnone
      cases hnone
    all_goals
      obtain rfl : actor = actor' := Option.some.inj (hactor.symm.trans hactor')
    · rw [hnow, expire_alive rfl halive', hlater, ← hactor, fade_fade hguard hle]
      intro other hother _
      rw [hactor] at hother
      cases hother
      exact halive'
    · rw [hnow, expire_missed rfl hexpired' hkind', hlater]
    · rw [hnow, expire_passed rfl hexpired' hkind', hlater, ← hactor, fade_fade hguard hle]
      intro other hother hboss
      have hgoblin := (hguard other hother hboss).1
      rw [hactor] at hother
      cases hother
      rw [hkind'] at hgoblin
      cases hgoblin
  · rw [hnow, expire_none rfl, fade_miss hle, expire_missed hactor (by omega) hkind]
  · -- a chief that is gone is not open at any instant
    rw [hnow, expire_none rfl, expire_passed hactor (by omega) hkind]
    congr 1
    refine Option.ext fun impact => ?_
    have hclosed : ∀ t, actor.expiresAt ≤ t → (cell.Fades t impact ↔ impact.until_ ≤ t) := by
      intro t ht
      refine ⟨fun h => h.resolve_right ?_, Or.inl⟩
      rintro ⟨-, other, hother, -, hopen⟩
      rw [hactor] at hother
      cases hother
      exact phase_of_expired ht hopen
    have hnone : (⟨none, cell.fade time⟩ : Cell).Fades time' impact ↔ impact.until_ ≤ time' :=
      ⟨fun h => h.resolve_right fun ⟨_, _, hother, _⟩ => (nomatch hother), Or.inl⟩
    rw [fade_eq_some, hnone]
    dsimp only
    rw [fade_eq_some, fade_eq_some, hclosed time hexpired, hclosed time' (by omega)]
    constructor
    · rintro ⟨⟨hi, -⟩, hlater⟩
      exact ⟨hi, hlater⟩
    · rintro ⟨hi, hlater⟩
      exact ⟨⟨hi, by omega⟩, hlater⟩

theorem misses_eq : cell.misses time = true ↔
    ∃ actor, cell.actor = some actor ∧ actor.expiresAt ≤ time ∧ actor.kind = .goblin := by
  unfold misses
  simp only [Option.any_eq_true, decide_eq_true_eq]

/-- A goblin that gets away by the later instant does so before or after the earlier one. -/
theorem misses_split (hle : time ≤ time') :
    cell.misses time' = (cell.misses time || (cell.expire time).misses time') ∧
      ¬ (cell.misses time = true ∧ (cell.expire time).misses time' = true) := by
  have hactor : ∀ actor, (cell.expire time).actor = some actor ↔
      cell.actor = some actor ∧ ¬ actor.expiresAt ≤ time := by
    intro actor
    change cell.actor.filter _ = some actor ↔ _
    rw [Option.filter_eq_some_iff]
    simp only [decide_eq_true_eq]
  constructor
  · rw [Bool.eq_iff_iff, Bool.or_eq_true, misses_eq, misses_eq, misses_eq]
    constructor
    · rintro ⟨actor, ha, hexpires, hkind⟩
      by_cases hnow : actor.expiresAt ≤ time
      · exact Or.inl ⟨actor, ha, hnow, hkind⟩
      · exact Or.inr ⟨actor, (hactor actor).mpr ⟨ha, hnow⟩, hexpires, hkind⟩
    · rintro (⟨actor, ha, hexpires, hkind⟩ | ⟨actor, ha, hexpires, hkind⟩)
      · exact ⟨actor, ha, hexpires.trans hle, hkind⟩
      · exact ⟨actor, ((hactor actor).mp ha).1, hexpires, hkind⟩
  · rintro ⟨hnow, hlater⟩
    obtain ⟨actor, ha, hexpires, -⟩ := misses_eq.mp hnow
    obtain ⟨other, hother, -, -⟩ := misses_eq.mp hlater
    obtain ⟨hsame, hnot⟩ := (hactor other).mp hother
    rw [ha] at hsame
    cases hsame
    exact hnot hexpires

end Cell

/-! ## All cells -/

/-- What holds of the game at an instant. -/
structure Paced (time : Int) (game : Game) : Prop where
  born : ∀ i actor, (game.cells i).actor = some actor → actor.bornAt ≤ time
  guarded : ∀ i, (game.cells i).Guarded time
  /-- The chief is hit in openings that have begun. -/
  opened : ∀ i actor k, (game.cells i).actor = some actor → actor.special = some .boss →
    actor.lastOpeningHit = some k → 0 ≤ k ∧ actor.bornAt + 2400 * k ≤ time
  alone : ∀ i j a b, (game.cells i).actor = some a → a.special = some .boss →
    (game.cells j).actor = some b → b.special = some .boss → i = j
  spawned : ∀ i actor, (game.cells i).actor = some actor → actor.special = some .boss →
    game.bossSpawned = true
  /-- Nothing happens in a drill before the chief is there. -/
  drill : game.practice = .boss → game.nextSpawn < game.durationMs →
    game.bossSpawned = false ∧ ∀ i, game.cells i = ⟨none, none⟩

section Paced

variable {game : Game} {time time' : Int}

theorem Paced.mono (h : Paced time game) (hle : time ≤ time') : Paced time' game :=
  ⟨fun i actor ha => (h.born i actor ha).trans hle, fun i => (h.guarded i).mono hle,
    fun i actor k ha hboss hk => ⟨(h.opened i actor k ha hboss hk).1,
      (h.opened i actor k ha hboss hk).2.trans hle⟩,
    h.alone, h.spawned, h.drill⟩

theorem misses_expire (game : Game) (hle : time ≤ time') :
    game.misses time' = game.misses time + (game.expire time).misses time' :=
  countP_split fun i _ => (game.cells i).misses_split hle

theorem losing_losing (game : Game) (n m : Nat) (cells cells' : Fin CELL_COUNT → Cell) :
    (game.losing n cells).losing m cells' = game.losing (n + m) cells' := by
  unfold Game.losing
  by_cases hn : n = 0
  · by_cases hm : m = 0 <;> simp [hn, hm]
  · by_cases hm : m = 0 <;> simp [hn, hm, Nat.add_assoc]

/-- **Expiries are read off the later instant.** -/
theorem expire_expire (h : Paced time game) (hle : time ≤ time') :
    (game.expire time).expire time' = game.expire time' := by
  have hcells : (fun i => ((game.cells i).expire time).expire time') =
      fun i => (game.cells i).expire time' :=
    funext fun i => Cell.expire_expire (h.guarded i) hle
  calc (game.expire time).expire time'
      = game.losing (game.misses time + (game.expire time).misses time')
          (fun i => ((game.cells i).expire time).expire time') := losing_losing _ _ _ _ _
    _ = game.expire time' := by rw [hcells, ← misses_expire game hle]; rfl

theorem actor_expire {cell : Cell} {actor : Actor} :
    (cell.expire time).actor = some actor ↔ cell.actor = some actor ∧ time < actor.expiresAt := by
  change cell.actor.filter _ = some actor ↔ _
  rw [Option.filter_eq_some_iff]
  simp only [decide_eq_true_eq, not_le]

theorem shown_fade {cell : Cell} {impact : Impact} (h : cell.fade time = some impact) :
    cell.impact = some impact ∧ time < impact.until_ := by
  obtain ⟨himpact, hfades⟩ := Cell.fade_eq_some.mp h
  exact ⟨himpact, not_le.mp (not_or.mp hfades).1⟩

/-- An impact that an expiry leaves is an old one or the mark of a miss. -/
theorem impact_expire {cell : Cell} {impact : Impact} (h : (cell.expire time).impact = some impact) :
    (cell.impact = some impact ∧ time < impact.until_) ∨ ∃ actor, cell.actor = some actor ∧
      actor.expiresAt ≤ time ∧ actor.kind = .goblin ∧
      impact = ⟨.miss, actor.expiresAt + 300, 0, actor.face, false⟩ ∧ time < actor.expiresAt + 300 := by
  rcases cell.expire_cases time with ⟨-, hnow⟩ | ⟨actor, hactor, ⟨-, hnow⟩ |
    ⟨hexpired, hkind, hnow⟩ | ⟨-, -, hnow⟩⟩
  · rw [hnow] at h
    exact Or.inl (shown_fade h)
  · rw [hnow] at h
    exact Or.inl (shown_fade h)
  · rw [hnow] at h
    unfold Cell.miss at h
    dsimp only at h
    split at h
    · next hshown =>
      cases h
      exact Or.inr ⟨actor, hactor, hexpired, hkind, rfl, hshown⟩
    · cases h
  · rw [hnow] at h
    exact Or.inl (shown_fade h)

theorem Cell.Guarded.expire {cell : Cell} (h : cell.Guarded time) : (cell.expire time').Guarded time := by
  intro actor hactor hboss
  obtain ⟨hkind, himpact⟩ := h actor (actor_expire.mp hactor).1 hboss
  refine ⟨hkind, fun impact hi hguard => ?_⟩
  rcases impact_expire hi with ⟨hold, -⟩ | ⟨other, -, -, -, rfl, -⟩
  · exact himpact impact hold hguard
  · cases hguard

theorem Paced.expire (h : Paced time game) : Paced time (game.expire time') := by
  have hold : ∀ i actor, ((game.expire time').cells i).actor = some actor →
      (game.cells i).actor = some actor := fun i actor ha => (actor_expire.mp ha).1
  refine ⟨fun i actor ha => h.born i actor (hold i actor ha), fun i => (h.guarded i).expire,
    fun i actor k ha => h.opened i actor k (hold i actor ha),
    fun i j a b ha hboss hb => h.alone i j a b (hold i a ha) hboss (hold j b hb),
    fun i actor ha => h.spawned i actor (hold i actor ha), fun hpractice hnext => ?_⟩
  obtain ⟨hspawned, hempty⟩ := h.drill hpractice hnext
  refine ⟨hspawned, fun i => ?_⟩
  change (game.cells i).expire time' = _
  rw [hempty i]
  rfl

end Paced

/-! ## Arrivals -/

section Arrivals

variable {game : Game} {time end_ : Int} {i : Fin CELL_COUNT}

theorem mem_place (h : game.place time = some i) : game.cells i = ⟨none, none⟩ := by
  have hmem : i ∈ game.emptyCells := by
    rcases Option.or_eq_some_iff.mp h with hfound | ⟨-, hpicked⟩
    · exact List.mem_of_find?_eq_some hfound
    · exact List.mem_of_getElem? hpicked
  have hempty := of_decide_eq_true (List.mem_filter.mp hmem).2
  rw [Option.isNone_iff_eq_none, Option.isNone_iff_eq_none] at hempty
  cases hcell : game.cells i with
  | mk actor impact =>
    rw [hcell] at hempty
    obtain ⟨rfl, rfl⟩ : actor = none ∧ impact = none := hempty
    rfl

theorem bornAt_arrival : (game.arrival time).bornAt = time := by
  unfold Game.arrival
  split <;> rfl

theorem lastOpeningHit_arrival : (game.arrival time).lastOpeningHit = none := by
  unfold Game.arrival
  split <;> rfl

/-- Only the chief that is due is a chief. -/
theorem boss_arrival (h : (game.arrival time).special = some .boss) :
    game.bossDue time = true ∧ (game.arrival time).kind = .goblin := by
  unfold Game.arrival at h ⊢
  split
  · next hdue => exact ⟨hdue, rfl⟩
  · next hdue =>
    rw [if_neg hdue] at h
    dsimp only at h
    split at h <;> cases h

/-- A new actor in an empty cell. -/
theorem Paced.place {game' : Game} (h : Paced time game) (actor : Actor)
    (hempty : game.cells i = ⟨none, none⟩) (hborn : actor.bornAt ≤ time)
    (hlast : actor.lastOpeningHit = none)
    (hboss : actor.special = some .boss → actor.kind = .goblin ∧ game'.bossSpawned = true ∧
      ∀ j other, (game.cells j).actor = some other → other.special ≠ some .boss)
    (hcells : ∀ j, game'.cells j = if j = i then ⟨some actor, none⟩ else game.cells j)
    (hspawned : game.bossSpawned = true → game'.bossSpawned = true)
    (hdrill : game'.practice = .boss → ¬ game'.nextSpawn < game'.durationMs) : Paced time game' := by
  have hcases : ∀ j other, (game'.cells j).actor = some other →
      (j = i ∧ other = actor) ∨ (j ≠ i ∧ (game.cells j).actor = some other) := by
    intro j other hother
    rw [hcells j] at hother
    split at hother
    · next hj => exact Or.inl ⟨hj, (Option.some.inj hother).symm⟩
    · next hj => exact Or.inr ⟨hj, hother⟩
  refine ⟨fun j other ho => ?_, fun j other ho hb => ?_, fun j other k ho hb hk => ?_,
    fun j k a b ha hba hb hbb => ?_, fun j other ho hb => ?_, fun hp hn => absurd hn (hdrill hp)⟩
  · rcases hcases j other ho with ⟨-, rfl⟩ | ⟨-, ho⟩
    · exact hborn
    · exact h.born j other ho
  · rcases hcases j other ho with ⟨rfl, rfl⟩ | ⟨hj, ho⟩
    · refine ⟨(hboss hb).1, fun impact hi => ?_⟩
      rw [hcells j, if_pos rfl] at hi
      cases hi
    · rw [hcells j, if_neg hj]
      exact h.guarded j other ho hb
  · rcases hcases j other ho with ⟨-, rfl⟩ | ⟨-, ho⟩
    · rw [hlast] at hk
      cases hk
    · exact h.opened j other k ho hb hk
  · rcases hcases j a ha with ⟨rfl, rfl⟩ | ⟨-, ha⟩
    · rcases hcases k b hb with ⟨rfl, -⟩ | ⟨-, hb⟩
      · rfl
      · exact absurd hbb ((hboss hba).2.2 k b hb)
    · rcases hcases k b hb with ⟨rfl, rfl⟩ | ⟨-, hb⟩
      · exact absurd hba ((hboss hbb).2.2 j a ha)
      · exact h.alone j k a b ha hba hb hbb
  · rcases hcases j other ho with ⟨-, rfl⟩ | ⟨-, ho⟩
    · exact (hboss hb).2.1
    · exact hspawned (h.spawned j other ho hb)

theorem Paced.spawn (h : Paced end_ game) (htime : time ≤ end_)
    (hnext : game.nextSpawn < game.durationMs) : Paced end_ (game.spawn time) := by
  unfold Game.spawn
  split
  · next hpractice =>
    have hempty := (h.drill hpractice hnext).2
    have hnone : ∀ j other, (game.cells j).actor = some other → other.special ≠ some .boss := by
      intro j other ho
      rw [hempty j] at ho
      cases ho
    refine h.place (Game.boss time (time + BOSS_CYCLE_MS * BOSS_OPENINGS)) (hempty 4) htime rfl
      (fun _ => ⟨rfl, rfl, hnone⟩) (fun j => ?_) (fun _ => rfl) fun _ => Int.lt_irrefl _
    change (if j = 4 then _ else _) = _
    rw [hempty 4]
  · next hpractice =>
    unfold Game.spawnRound
    have hdrill : ∀ {game' : Game}, game'.practice = game.practice →
        game'.practice = .boss → ¬ game'.nextSpawn < game'.durationMs := by
      intro game' hsame hboss
      rw [hsame, hpractice] at hboss
      cases hboss
    have hidle : Paced end_ { game with nextSpawn := game.nextSpawn + (stampWave time).interval } :=
      ⟨h.born, h.guarded, h.opened, h.alone, h.spawned, fun hboss => by rw [hpractice] at hboss; cases hboss⟩
    dsimp only
    split
    · next i hplace =>
      split
      · have hempty := mem_place hplace
        refine h.place (game.arrival time) hempty (bornAt_arrival.le.trans htime)
          lastOpeningHit_arrival (fun hboss => ?_) (fun j => ?_) (fun hspawned => ?_) (hdrill rfl)
        · obtain ⟨hdue, hkind⟩ := boss_arrival hboss
          refine ⟨hkind, ?_, fun j other ho hb => ?_⟩
          · change (game.bossSpawned || game.bossDue time) = true
            rw [hdue, Bool.or_true]
          · have hfalse := (of_decide_eq_true hdue).2
            rw [h.spawned j other ho hb] at hfalse
            cases hfalse
        · change (if j = i then _ else _) = _
          rw [hempty]
        · change (game.bossSpawned || game.bossDue time) = true
          rw [hspawned, Bool.true_or]
      · exact hidle
    · exact hidle

/-- **The arrivals keep the pace.** -/
theorem Paced.arrivals (h : Paced end_ game) : Paced end_ (game.arrivals end_) := by
  fun_induction Game.arrivals game end_ with
  | case1 game hnext ih => exact ih ((h.expire).spawn hnext.1 hnext.2)
  | case2 game hnext => exact h

end Arrivals

/-! ## Steps -/

/-- The game at an instant of a round that goes on. -/
def Game.stopped (game : Game) (time : Int) : Game := { game with elapsed := time, finished := false }

section Steps

variable {game : Game} {mid end_ : Int}

theorem settle_eq_stopped (h : end_ ≠ game.durationMs) : game.settle end_ = game.stopped end_ := by
  simp [Game.settle, Game.stopped, h]

theorem spawn_stopped (game : Game) (mid time : Int) :
    (game.stopped mid).spawn time = (game.spawn time).stopped mid := by
  have hround : (game.stopped mid).spawnRound time = (game.spawnRound time).stopped mid := by
    have hplace : (game.stopped mid).place time = game.place time := rfl
    have hactive : (game.stopped mid).activeCells = game.activeCells := rfl
    unfold Game.spawnRound
    dsimp only
    rw [hplace, hactive]
    split
    · split <;> rfl
    · rfl
  unfold Game.spawn
  have hpractice : (game.stopped mid).practice = game.practice := rfl
  rw [hpractice]
  cases game.practice with
  | boss => rfl
  | full => exact hround

theorem arrivals_pos (game : Game) (h : game.nextSpawn ≤ end_ ∧ game.nextSpawn < game.durationMs) :
    game.arrivals end_ = ((game.expire game.nextSpawn).spawn game.nextSpawn).arrivals end_ := by
  rw [Game.arrivals, dif_pos h]

theorem arrivals_neg (game : Game) (h : ¬ (game.nextSpawn ≤ end_ ∧ game.nextSpawn < game.durationMs)) :
    game.arrivals end_ = game := by
  rw [Game.arrivals, dif_neg h]

/-- Arrivals do not look at the clock. -/
theorem arrivals_stopped (game : Game) (mid end_ : Int) :
    (game.stopped mid).arrivals end_ = (game.arrivals end_).stopped mid := by
  fun_induction Game.arrivals game end_ with
  | case1 game h ih =>
    rw [arrivals_pos (game.stopped mid) h]
    change (((game.expire game.nextSpawn).stopped mid).spawn game.nextSpawn).arrivals end_ = _
    rw [spawn_stopped, ih]
  | case2 game h => exact arrivals_neg (game.stopped mid) h

/-- Arrivals up to one instant and then up to another. -/
theorem arrivals_arrivals (game : Game) (hle : mid ≤ end_) :
    (game.arrivals mid).arrivals end_ = game.arrivals end_ := by
  fun_induction Game.arrivals game mid with
  | case1 game h ih =>
    rw [ih, arrivals_pos game ⟨h.1.trans hle, h.2⟩]
  | case2 game h => rfl

/-- No arrival is left before the instant. -/
theorem nextSpawn_arrivals (game : Game) (mid : Int) :
    mid < (game.arrivals mid).nextSpawn ∨ game.durationMs ≤ (game.arrivals mid).nextSpawn := by
  fun_induction Game.arrivals game mid with
  | case1 game h ih => rwa [durationMs_spawn, durationMs_expire] at ih
  | case2 game h => omega

/-- What expires at a cut would expire later. -/
theorem expire_arrivals_expire (h : Paced mid game) (hle : mid ≤ end_)
    (hnext : mid < game.nextSpawn ∨ game.durationMs ≤ game.nextSpawn) :
    ((game.expire mid).arrivals end_).expire end_ = (game.arrivals end_).expire end_ := by
  by_cases hmore : game.nextSpawn ≤ end_ ∧ game.nextSpawn < game.durationMs
  · have hfirst : (game.expire mid).expire game.nextSpawn = game.expire game.nextSpawn :=
      expire_expire h (by omega)
    rw [arrivals_pos (game.expire mid) hmore, arrivals_pos game hmore]
    change ((((game.expire mid).expire game.nextSpawn).spawn game.nextSpawn).arrivals end_).expire end_ = _
    rw [hfirst]
  · rw [arrivals_neg (game.expire mid) hmore, arrivals_neg game hmore, expire_expire h hle]

theorem advance_of_finished (h : game.finished = true) (deltaMs : Int) : advance game deltaMs = game := by
  unfold advance
  rw [if_pos (Or.inl h)]

theorem advance_of_pos (h : game.finished = false) {deltaMs : Int} (hpos : 0 < deltaMs) :
    advance game deltaMs = ((game.arrivals (min game.durationMs (game.elapsed + deltaMs))).expire
      (min game.durationMs (game.elapsed + deltaMs))).settle (min game.durationMs (game.elapsed + deltaMs)) := by
  unfold advance
  rw [if_neg (not_or.mpr ⟨by simp [h], by omega⟩)]

/-- **Two steps are one step.** -/
theorem advance_advance (h : Paced game.elapsed game) {a b : Int} (ha : 0 < a) (hb : 0 < b) :
    advance (advance game a) b = advance game (a + b) := by
  cases hfinished : game.finished with
  | true => rw [advance_of_finished hfinished, advance_of_finished hfinished, advance_of_finished hfinished]
  | false =>
    by_cases hbell : game.durationMs ≤ game.elapsed + a
    · -- the first step ends the round
      have hend : min game.durationMs (game.elapsed + (a + b)) = game.durationMs := by omega
      have hover : (advance game a).finished = true := by
        rw [advance_of_pos hfinished ha, Int.min_eq_left hbell]
        exact decide_eq_true (by rw [durationMs_expire, durationMs_arrivals])
      rw [advance_of_finished hover, advance_of_pos hfinished ha, advance_of_pos hfinished (by omega),
        hend, Int.min_eq_left hbell]
    · have hmid : min game.durationMs (game.elapsed + a) = game.elapsed + a := by omega
      have hpaced : Paced (game.elapsed + a) (game.arrivals (game.elapsed + a)) :=
        (h.mono (by omega)).arrivals
      have hfirst : advance game a =
          ((game.arrivals (game.elapsed + a)).expire (game.elapsed + a)).stopped (game.elapsed + a) := by
        rw [advance_of_pos hfinished ha, hmid]
        refine settle_eq_stopped ?_
        rw [durationMs_expire, durationMs_arrivals]
        omega
      have hduration : (advance game a).durationMs = game.durationMs := by
        rw [hfirst]
        change (game.arrivals (game.elapsed + a)).durationMs = _
        exact durationMs_arrivals _ _
      have helapsed : (advance game a).elapsed = game.elapsed + a := by rw [hfirst]; rfl
      rw [advance_of_pos (by rw [hfirst]; rfl) hb, advance_of_pos hfinished (by omega : 0 < a + b), hduration,
        helapsed, ← Int.add_assoc, hfirst]
      have hnext := nextSpawn_arrivals game (game.elapsed + a)
      generalize hend : min game.durationMs (game.elapsed + a + b) = end_
      rw [arrivals_stopped]
      change ((((game.arrivals (game.elapsed + a)).expire (game.elapsed + a)).arrivals end_).expire
        end_).settle end_ = _
      rw [expire_arrivals_expire hpaced (by omega) (by rwa [durationMs_arrivals]),
        arrivals_arrivals game (by omega)]

end Steps

end Mapae.Arcade
