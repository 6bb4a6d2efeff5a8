import Mapae.Guardians.Calls
import Mapae.Infra.FisherYates

/-!
# The pool of ids

The packed pool behind `drawTokenId` is the array of a plain Fisher-Yates draw over
`1..MAX_SUPPLY`: a slot below what remains reads as the entry of the array, and a draw from the
pool is a draw from the array.
-/

namespace Mapae.Guardians

open Mapae.Infra GuardiansStorage

variable {erc : Erc721}

/-! ## Lanes of the pool -/

/-- What the lane of a slot holds; zero where it was never written. -/
def rawAt (idPool : Nat → Word) (slot : Nat) : Nat :=
  lane 16 (slot % 16) (idPool (slot / 16)).toNat

theorem shift_of_slot (slot : Nat) : (slot &&& 15) <<< 4 = 16 * (slot % 16) := by
  rw [show (15 : Nat) = 2 ^ 4 - 1 from rfl, Nat.and_two_pow_sub_one_eq_mod, Nat.shiftLeft_eq,
    Nat.mul_comm]

theorem word_of_slot (slot : Nat) : slot >>> 4 = slot / 16 := Nat.shiftRight_eq_div_pow slot 4

theorem poolAt_eq (idPool : Nat → Word) (slot : Nat) :
    poolAt idPool slot = if rawAt idPool slot = 0 then slot + 1 else rawAt idPool slot := by
  have hraw : ((idPool (slot >>> 4) >>> ((slot &&& 15) <<< 4)) &&& 0xffff#256).toNat =
      rawAt idPool slot := by
    rw [shift_of_slot, word_of_slot]
    exact toNat_shift_and _ (by decide) _
  simp only [poolAt, hraw]

/-- **Writing one lane disturbs no other lane.** -/
theorem rawAt_setPool (idPool : Nat → Word) {slot id : Nat} (hid : id < 2 ^ 16) (slot' : Nat) :
    rawAt (setPool idPool slot id) slot' = if slot' = slot then id else rawAt idPool slot' := by
  have hlane : slot % 16 < 16 := Nat.mod_lt _ (by decide)
  unfold rawAt setPool
  simp only [shift_of_slot, word_of_slot]
  by_cases hword : slot' / 16 = slot / 16
  · rw [hword, Function.update_self]
    have hput := lane_put (idPool (slot / 16)) (i := slot % 16) hid (by omega) (slot' % 16)
    refine hput.trans ?_
    by_cases hslot : slot' = slot
    · rw [if_pos hslot, if_pos (by rw [hslot])]
    · rw [if_neg hslot, if_neg (by omega)]
  · have hslot : slot' ≠ slot := fun h => hword (by rw [h])
    rw [Function.update_of_ne hword, if_neg hslot]

theorem poolAt_setPool (idPool : Nat → Word) {slot id : Nat} (hid : id < 2 ^ 16) (hne : id ≠ 0)
    (slot' : Nat) :
    poolAt (setPool idPool slot id) slot' = if slot' = slot then id else poolAt idPool slot' := by
  rw [poolAt_eq, poolAt_eq, rawAt_setPool idPool hid]
  by_cases hslot : slot' = slot
  · rw [if_pos hslot, if_pos hslot, if_neg hne]
  · rw [if_neg hslot, if_neg hslot]

/-! ## The array behind the pool -/

/-- The ids at the start. -/
def allIds : List Nat := List.range' 1 MAX_SUPPLY

/-- The plain draw at the same slots: the ids drawn, newest first, and the array left. -/
def plainDraw (mints : List Mint) : List Nat × List Nat :=
  FisherYates.shuffle allIds (mints.map Mint.slot)

/-- The pool reads as the array, in every slot that the array has. -/
def Represents (idPool : Nat → Word) (ids : List Nat) : Prop :=
  ∀ slot (h : slot < ids.length), poolAt idPool slot = ids[slot]

theorem mem_allIds {id : Nat} : id ∈ allIds ↔ 1 ≤ id ∧ id ≤ MAX_SUPPLY := by
  rw [allIds, List.mem_range'_1]
  omega

theorem nodup_allIds : allIds.Nodup := List.nodup_range'

theorem represents_start : Represents (fun _ => 0) allIds := by
  intro slot h
  have hraw : rawAt (fun _ => 0) slot = 0 := lane_zero 16 _
  rw [poolAt_eq, if_pos hraw]
  simp [allIds, Nat.add_comm]

/-- **A draw from the pool is a draw from the array.** -/
theorem represents_draw {idPool : Nat → Word} {ids : List Nat} (h : Represents idPool ids)
    (hids : ∀ id ∈ ids, 1 ≤ id ∧ id ≤ MAX_SUPPLY) {slot : Nat} (hslot : slot < ids.length) :
    ∃ left, FisherYates.draw ids slot = some (poolAt idPool slot, left) ∧
      Represents (if slot ≠ ids.length - 1 then
        setPool idPool slot (poolAt idPool (ids.length - 1)) else idPool) left := by
  have hlast : ids.length - 1 < ids.length := by omega
  refine ⟨(ids.set slot ids[ids.length - 1]).dropLast, ?_, ?_⟩
  · rw [FisherYates.draw_eq_some hslot, h slot hslot]
  · intro slot' hslot'
    have hlt : slot' < ids.length - 1 := by simpa using hslot'
    obtain ⟨hpos, hle⟩ := hids _ (List.getElem_mem hlast)
    have hbound : poolAt idPool (ids.length - 1) < 2 ^ 16 := by
      rw [h _ hlast]
      exact Nat.lt_of_le_of_lt hle (by decide)
    rw [List.getElem_dropLast, List.getElem_set]
    by_cases hend : slot = ids.length - 1
    · rw [if_neg (not_not.mpr hend), if_neg (by omega)]
      exact h slot' (by omega)
    · rw [if_pos hend, poolAt_setPool idPool hbound (by rw [h _ hlast]; omega), h _ hlast]
      by_cases heq : slot' = slot
      · rw [if_pos heq, if_pos heq.symm]
      · rw [if_neg heq, if_neg (Ne.symm heq)]
        exact h slot' (by omega)

/-! ## The invariant -/

structure PoolInvariant (s : GuardiansStorage erc) : Prop where
  /-- The ids that were minted are those that the plain draw drew. -/
  drawn : (plainDraw s.mints).1 = s.mints.map Mint.tokenId
  represents : Represents s.idPool (plainDraw s.mints).2
  left : (plainDraw s.mints).2.length + s.drawn = MAX_SUPPLY
  count : s.mints.length = s.drawn

namespace PoolInvariant

variable {s s' : GuardiansStorage erc}

theorem of_deployed (h : Deployed s) : PoolInvariant s where
  drawn := by rw [h.mints]; rfl
  represents := by rw [h.mints, h.idPool]; exact represents_start
  left := by rw [h.mints, h.drawn]; exact List.length_range'
  count := by rw [h.mints, h.drawn]; rfl

/-- The ids that are left can be minted, and were not. -/
theorem left_spec {id : Nat} (hinv : PoolInvariant s) (h : id ∈ (plainDraw s.mints).2) :
    (1 ≤ id ∧ id ≤ MAX_SUPPLY) ∧ ∀ m ∈ s.mints, m.tokenId ≠ id := by
  have hperm := FisherYates.shuffle_perm allIds (s.mints.map Mint.slot)
  refine ⟨mem_allIds.mp (hperm.mem_iff.mp (List.mem_append_right _ h)), fun m hm he => ?_⟩
  refine FisherYates.not_drawn_of_left nodup_allIds h ?_
  rw [show (FisherYates.shuffle allIds _).1 = _ from hinv.drawn, ← he]
  exact List.mem_map_of_mem hm

theorem minted_bounds (hinv : PoolInvariant s) {m : Mint} (hm : m ∈ s.mints) :
    1 ≤ m.tokenId ∧ m.tokenId ≤ MAX_SUPPLY := by
  refine mem_allIds.mp (FisherYates.mem_of_drawn (s.mints.map Mint.slot) ?_)
  rw [show (FisherYates.shuffle allIds _).1 = _ from hinv.drawn]
  exact List.mem_map_of_mem hm

theorem nodup_minted (hinv : PoolInvariant s) : (s.mints.map Mint.tokenId).Nodup := by
  rw [← hinv.drawn]
  exact FisherYates.nodup_drawn nodup_allIds _

theorem drawn_le (hinv : PoolInvariant s) : s.drawn ≤ MAX_SUPPLY := by
  have := hinv.left
  omega

/-- The slot of a mint is one of the array. -/
theorem slot_lt (hinv : PoolInvariant s) (hlt : s.drawn < MAX_SUPPLY) (random : Nat) :
    s.drawnSlot random < (plainDraw s.mints).2.length := by
  have hleft := hinv.left
  have hmod : random % (MAX_SUPPLY - s.drawn) < MAX_SUPPLY - s.drawn := Nat.mod_lt _ (by omega)
  unfold GuardiansStorage.drawnSlot
  omega

/-- The id of a mint is one that was left. -/
theorem drawnId_left (hinv : PoolInvariant s) (hlt : s.drawn < MAX_SUPPLY) (random : Nat) :
    s.drawnId random ∈ (plainDraw s.mints).2 := by
  have hslot := hinv.slot_lt hlt random
  unfold GuardiansStorage.drawnId
  rw [hinv.represents _ hslot]
  exact List.getElem_mem hslot

/-- **A mint draws from the plain array what it draws from the pool.** -/
theorem prepared (hinv : PoolInvariant s) (hlt : s.drawn < MAX_SUPPLY) (sender : Address)
    (random : Nat) : PoolInvariant (s.preparedMint sender random) := by
  have hleft := hinv.left
  have hslot := hinv.slot_lt hlt random
  obtain ⟨left, hdraw, hrepresents⟩ := represents_draw hinv.represents
    (fun id hid => (hinv.left_spec hid).1) hslot
  have hlast : (plainDraw s.mints).2.length - 1 = MAX_SUPPLY - s.drawn - 1 := by omega
  have hlength := FisherYates.length_of_draw hdraw
  have hplain : plainDraw (s.preparedMint sender random).mints =
      (s.drawnId random :: (plainDraw s.mints).1, left) := FisherYates.shuffle_cons hdraw
  have hdrawn : (s.preparedMint sender random).drawn = s.drawn + 1 :=
    Nat.mod_eq_of_lt (Nat.lt_of_le_of_lt hlt (by decide))
  refine { drawn := ?_, represents := ?_, left := ?_, count := ?_ }
  · rw [hplain, hinv.drawn]
    rfl
  · rw [hplain]
    rw [hlast] at hrepresents
    exact hrepresents
  · rw [hplain, hdrawn]
    show left.length + (s.drawn + 1) = MAX_SUPPLY
    omega
  · rw [hdrawn, ← hinv.count]
    rfl

/-- The invariant reads only the mints, the pool and the draw counter. -/
theorem congr (hinv : PoolInvariant s) (hmints : s'.mints = s.mints) (hpool : s'.idPool = s.idPool)
    (hdrawn : s'.drawn = s.drawn) : PoolInvariant s' where
  drawn := hmints ▸ hinv.drawn
  represents := by rw [hmints, hpool]; exact hinv.represents
  left := by rw [hmints, hdrawn]; exact hinv.left
  count := by rw [hmints, hdrawn]; exact hinv.count

end PoolInvariant

end Mapae.Guardians
