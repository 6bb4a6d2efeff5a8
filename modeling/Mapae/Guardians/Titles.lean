import Mapae.Guardians.Honors

/-!
# Title counts

`packGuardianTitles` and `unpackGuardianTitles` translate between the weekly title counts of the
three games and the packed word that an honor carries: lane `game * 3 + tier`, 16 bits each. The
contract's `progress` reads the same lanes.
-/

namespace Mapae.Guardians

open Mapae.Infra

/-- Weekly title counts of one game. -/
structure GuardianTitleCounts where
  champion : Int
  podium : Int
  top10 : Int
  deriving DecidableEq

/-- The counts in the order of `GUARDIAN_TITLE_TIERS`. -/
def GuardianTitleCounts.tiers (c : GuardianTitleCounts) : List Int := [c.champion, c.podium, c.top10]

/-- `lane`: a count that is a uint16. -/
def isLane (v : Int) : Prop := 0 ≤ v ∧ v ≤ 0xffff

instance isLane.instDecidable (v : Int) : Decidable (isLane v) := inferInstanceAs (Decidable (_ ∧ _))

/-- The counts with their lanes, in the order of the two loops. -/
def titleLanes (titles : List GuardianTitleCounts) : List (Int × Nat) :=
  titles.zipIdx.flatMap fun (game, g) => game.tiers.zipIdx.map fun (count, t) => (count, g * 3 + t)

def packGuardianTitles (titles : List GuardianTitleCounts) : Except String Nat := do
  throwIf (titles.length ≠ 3) "Invalid guardian titles"
  (titleLanes titles).foldlM (fun packed count => do
    throwIf (¬ isLane count.1) "Invalid guardian titles"
    return packed ||| count.1.toNat <<< (16 * count.2)) 0

def unpackGuardianTitles (packed : Int) : Except String (List GuardianTitleCounts) := do
  throwIf (packed < 0 ∨ packed ≥ 2 ^ 144) "Invalid guardian titles"
  let laneAt := fun l => ((packed.toNat >>> (16 * l) &&& 0xffff : Nat) : Int)
  return [0, 1, 2].map fun g => ⟨laneAt (g * 3), laneAt (g * 3 + 1), laneAt (g * 3 + 2)⟩

/-! ## The round trip -/

section Packed

variable {titles : List GuardianTitleCounts} {packed : Nat}

/-- All counts, in the order of the lanes. -/
def allCounts (titles : List GuardianTitleCounts) : List Nat :=
  (titles.flatMap GuardianTitleCounts.tiers).map Int.toNat

theorem packGuardianTitles_eq_ok : packGuardianTitles titles = .ok packed ↔
    titles.length = 3 ∧ (∀ v ∈ titles.flatMap GuardianTitleCounts.tiers, isLane v) ∧
      packed = (allCounts titles).zipIdx.foldl (fun w p => w ||| p.1 <<< (16 * p.2)) 0 := by
  have hloop : titles.length = 3 → titleLanes titles =
      (titles.flatMap GuardianTitleCounts.tiers).zipIdx := fun hlength => by
    obtain ⟨a, b, c, rfl⟩ := List.length_eq_three.mp hlength
    rfl
  have hfold : (allCounts titles).zipIdx.foldl (fun w p => w ||| p.1 <<< (16 * p.2)) 0 =
      (titles.flatMap GuardianTitleCounts.tiers).zipIdx.foldl
        (fun w p => w ||| p.1.toNat <<< (16 * p.2)) 0 := by
    rw [allCounts, List.zipIdx_map, List.foldl_map]
    rfl
  rw [hfold]
  unfold packGuardianTitles
  constructor
  · intro h
    obtain ⟨_, hlength, h⟩ := bind_eq_ok.mp h
    have hlength := not_not.mp (throwIf_eq_ok.mp hlength)
    obtain ⟨hlanes, rfl⟩ := foldlM_throwIf_eq_ok.mp h
    rw [hloop hlength] at hlanes
    refine ⟨hlength, fun v hv => ?_, by rw [hloop hlength]⟩
    obtain ⟨i, hi⟩ := List.mem_iff_getElem?.mp hv
    have hmem := List.mk_mem_zipIdx_iff_getElem?.mpr hi
    exact not_not.mp (hlanes _ hmem)
  · rintro ⟨hlength, hlanes, rfl⟩
    refine bind_eq_ok.mpr ⟨⟨⟩, throwIf_eq_ok.mpr (not_not.mpr hlength), ?_⟩
    rw [hloop hlength]
    refine foldlM_throwIf_eq_ok.mpr ⟨fun p hp => not_not.mpr (hlanes _ ?_), rfl⟩
    exact List.fst_mem_of_mem_zipIdx hp

theorem lane_packed (h : packGuardianTitles titles = .ok packed) (l : Nat) :
    lane 16 l packed = (allCounts titles).getD l 0 := by
  obtain ⟨-, hlanes, rfl⟩ := packGuardianTitles_eq_ok.mp h
  have hcounts : ∀ v ∈ allCounts titles, v < 2 ^ 16 := fun v hv => by
    obtain ⟨count, hcount, rfl⟩ := List.mem_map.mp hv
    have := hlanes count hcount
    unfold isLane at this
    omega
  rw [lane_foldl_or l _ hcounts, lane_zero, Nat.zero_or, if_pos (Nat.zero_le _), Nat.sub_zero]

theorem packed_lt (h : packGuardianTitles titles = .ok packed) : packed < 2 ^ 144 := by
  obtain ⟨hlength, hlanes, rfl⟩ := packGuardianTitles_eq_ok.mp h
  obtain ⟨a, b, c, rfl⟩ := List.length_eq_three.mp hlength
  refine foldl_or_lt (k := 16) (m := 9) _ (fun v hv => ?_) 0 0 (Nat.le_refl 9) (Nat.two_pow_pos _)
  obtain ⟨count, hcount, rfl⟩ := List.mem_map.mp hv
  have := hlanes count hcount
  unfold isLane at this
  omega

/-- What the lanes of a packed word are, one game after the other. -/
theorem titles_of_lanes (h : packGuardianTitles titles = .ok packed) :
    [0, 1, 2].map (fun g => (⟨lane 16 (g * 3) packed, lane 16 (g * 3 + 1) packed,
      lane 16 (g * 3 + 2) packed⟩ : GuardianTitleCounts)) = titles := by
  obtain ⟨hlength, hlanes, -⟩ := packGuardianTitles_eq_ok.mp h
  simp only [lane_packed h]
  obtain ⟨a, b, c, rfl⟩ := List.length_eq_three.mp hlength
  have hcast {v : Int} (hv : v ∈ [a, b, c].flatMap GuardianTitleCounts.tiers) :
      ((v.toNat : Nat) : Int) = v := Int.toNat_of_nonneg (hlanes v hv).1
  simp only [List.flatMap_cons, List.flatMap_nil, GuardianTitleCounts.tiers, List.cons_append,
    List.nil_append, List.mem_cons, List.not_mem_nil] at hcast
  simp [allCounts, GuardianTitleCounts.tiers, hcast]

end Packed

theorem unpackGuardianTitles_eq {packed : Nat} (h : packed < 2 ^ 144) :
    unpackGuardianTitles packed = .ok ([0, 1, 2].map fun g => ⟨lane 16 (g * 3) packed,
      lane 16 (g * 3 + 1) packed, lane 16 (g * 3 + 2) packed⟩) := by
  have hmask (l : Nat) : packed >>> (16 * l) &&& 0xffff = lane 16 l packed := by
    rw [show (0xffff : Nat) = 2 ^ 16 - 1 from rfl, Nat.and_two_pow_sub_one_eq_mod, lane]
  refine bind_eq_ok.mpr ⟨⟨⟩, throwIf_eq_ok.mpr (by omega), ?_⟩
  simp only [Int.toNat_natCast, hmask]
  rfl

/-- **What was packed is unpacked.** -/
theorem unpack_of_pack {titles : List GuardianTitleCounts} {packed : Nat}
    (h : packGuardianTitles titles = .ok packed) : unpackGuardianTitles packed = .ok titles := by
  rw [unpackGuardianTitles_eq (packed_lt h), titles_of_lanes h]

/-- **What was unpacked is packed.** -/
theorem pack_of_unpack {packed : Nat} (h : packed < 2 ^ 144) :
    ∃ titles, unpackGuardianTitles packed = .ok titles ∧
      packGuardianTitles titles = .ok packed := by
  refine ⟨_, unpackGuardianTitles_eq h, ?_⟩
  generalize htitles : ([0, 1, 2].map fun g => (⟨lane 16 (g * 3) packed,
    lane 16 (g * 3 + 1) packed, lane 16 (g * 3 + 2) packed⟩ : GuardianTitleCounts)) = titles
  have hcounts : allCounts titles = (List.range 9).map fun l => lane 16 l packed := by
    rw [← htitles]
    rfl
  have hlanes : ∀ v ∈ titles.flatMap GuardianTitleCounts.tiers, isLane v := fun v hv => by
    have hmem : ∃ l, v = (lane 16 l packed : Nat) := by
      simp only [← htitles, List.map_cons, List.map_nil, List.flatMap_cons, List.flatMap_nil,
        GuardianTitleCounts.tiers, List.mem_append, List.mem_cons, List.not_mem_nil] at hv
      rcases hv with (h | h | h | h) | (h | h | h | h) | (h | h | h | h) | h <;>
        first | exact ⟨_, h⟩ | exact h.elim
    obtain ⟨l, rfl⟩ := hmem
    have := lane_lt 16 l packed
    unfold isLane
    omega
  have hpack : packGuardianTitles titles = .ok
      ((allCounts titles).zipIdx.foldl (fun w p => w ||| p.1 <<< (16 * p.2)) 0) :=
    packGuardianTitles_eq_ok.mpr ⟨by rw [← htitles]; rfl, hlanes, rfl⟩
  rw [hpack]
  refine congrArg Except.ok (eq_of_lanes (k := 16) (m := 9) (packed_lt hpack) h fun l hl => ?_)
  rw [lane_packed hpack, hcounts, List.getD_eq_getElem?_getD, List.getElem?_map,
    List.getElem?_range hl]
  rfl

/-! ## What the contract reports -/

/-- The lane of a count above the week and the streak. -/
theorem lane_titles (h : Honor) (l : Nat) :
    lane 16 (l + 2) (packHonor h).toNat = lane 16 l h.titles.toNat := by
  rw [lane_packHonor, if_neg (by omega), lane_incomingHonor, if_neg (by omega), if_neg (by omega),
    Nat.add_sub_cancel]

/-- The contract decodes the lanes of the honors one by one. -/
theorem progressOf_titles (g : Growth) (word : Word) :
    (progressOf g word).honorWeek = lane 16 0 word.toNat ∧
    (progressOf g word).longestStreak = lane 16 1 word.toNat ∧
    (progressOf g word).champion = [0, 1, 2].map (fun game => lane 16 (game * 3 + 2) word.toNat) ∧
    (progressOf g word).podium = [0, 1, 2].map (fun game => lane 16 (game * 3 + 1 + 2) word.toNat) ∧
    (progressOf g word).top10 = [0, 1, 2].map (fun game => lane 16 (game * 3 + 2 + 2) word.toNat) := by
  have hread (l : Nat) : ((word >>> (16 * l)).setWidth 16).toNat = lane 16 l word.toNat :=
    toNat_shift_setWidth word l
  have hshift (a b : Nat) : word >>> a >>> b = word >>> (a + b) := (BitVec.shiftRight_add ..).symm
  refine ⟨?_, ?_, ?_, ?_, ?_⟩
  · exact hread 0
  · exact hread 1
  · simp only [progressOf, List.map_cons, List.map_nil]
    exact congrArg₂ _ (hread 2) (congrArg₂ _ (hread 5) (congrArg₂ _ (hread 8) rfl))
  · simp only [progressOf, List.map_cons, List.map_nil, hshift]
    exact congrArg₂ _ (hread 3) (congrArg₂ _ (hread 6) (congrArg₂ _ (hread 9) rfl))
  · simp only [progressOf, List.map_cons, List.map_nil, hshift]
    exact congrArg₂ _ (hread 4) (congrArg₂ _ (hread 7) (congrArg₂ _ (hread 10) rfl))

/-- **The contract reports the counts that were packed.** -/
theorem progressOf_packed (g : Growth) {h : Honor} {titles : List GuardianTitleCounts}
    (hpack : packGuardianTitles titles = .ok h.titles.toNat) :
    (progressOf g (packHonor h)).honorWeek = h.week.toNat ∧
    (progressOf g (packHonor h)).longestStreak = h.longestStreak.toNat ∧
    (progressOf g (packHonor h)).champion = titles.map (fun game => game.champion.toNat) ∧
    (progressOf g (packHonor h)).podium = titles.map (fun game => game.podium.toNat) ∧
    (progressOf g (packHonor h)).top10 = titles.map (fun game => game.top10.toNat) := by
  obtain ⟨hweek, hstreak, hchampion, hpodium, htop10⟩ := progressOf_titles g (packHonor h)
  have htitles := titles_of_lanes hpack
  refine ⟨?_, ?_, ?_, ?_, ?_⟩
  · rw [hweek, lane_packHonor, if_pos rfl]
  · rw [hstreak, lane_packHonor, if_neg (by decide), lane_incomingHonor, if_neg (by decide),
      if_pos rfl]
  · rw [hchampion, ← htitles]
    simp only [lane_titles, List.map_map, Function.comp_def, Int.toNat_natCast]
  · rw [hpodium, ← htitles]
    simp only [lane_titles, List.map_map, Function.comp_def, Int.toNat_natCast]
  · rw [htop10, ← htitles]
    simp only [lane_titles, List.map_map, Function.comp_def, Int.toNat_natCast]

end Mapae.Guardians
