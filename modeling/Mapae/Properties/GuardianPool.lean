import Mapae.Guardians.Invariant
import Mapae.Guardians.TokenBase

/-!
# The pool of ids is a shuffle

Whatever mints, and with whatever random numbers, the packed pool is the array of a plain
Fisher-Yates draw over `1..MAX_SUPPLY`.

* every slot that is left reads as the entry of the array
* the next draw from the pool is the next draw from the array
* the ids drawn are distinct, and after `MAX_SUPPLY` draws each was drawn once
* writing the lane of one slot changes no other
-/

namespace Mapae.Guardians

open Mapae.Infra GuardiansStorage

variable {erc : Erc721} {hashes : Hashes}

/-- What the pool of a storage amounts to. -/
structure PoolRefines (s : GuardiansStorage erc) : Prop where
  /-- The ids that were minted are those that the plain draw drew at the same slots. -/
  drawn : (plainDraw s.mints).1 = s.mints.map Mint.tokenId
  represents : Represents s.idPool (plainDraw s.mints).2
  counter : s.drawn = s.mints.length ∧ (plainDraw s.mints).2.length = MAX_SUPPLY - s.drawn
  /-- Any further draw is a plain one. -/
  next : s.drawn < MAX_SUPPLY → ∀ random, ∃ left,
    FisherYates.draw (plainDraw s.mints).2 (random % (MAX_SUPPLY - s.drawn)) =
        some ((drawTokenId s random).1, left) ∧
      Represents (drawTokenId s random).2.idPool left
  distinct : (s.mints.map Mint.tokenId).Nodup
  bounds : ∀ id ∈ s.mints.map Mint.tokenId, 1 ≤ id ∧ id ≤ MAX_SUPPLY
  exhausted : s.mints.length = MAX_SUPPLY →
    ∀ id, 1 ≤ id → id ≤ MAX_SUPPLY → (s.mints.map Mint.tokenId).count id = 1
  /-- Writing a lane disturbs no other lane, of its word or of any other. -/
  lanes : ∀ slot id, id < 2 ^ 16 → ∀ slot', rawAt (setPool s.idPool slot id) slot' =
    if slot' = slot then id else rawAt s.idPool slot'

theorem PoolInvariant.next {s : GuardiansStorage erc} (hinv : PoolInvariant s)
    (hlt : s.drawn < MAX_SUPPLY) (random : Nat) : ∃ left,
    FisherYates.draw (plainDraw s.mints).2 (random % (MAX_SUPPLY - s.drawn)) =
        some ((drawTokenId s random).1, left) ∧
      Represents (drawTokenId s random).2.idPool left := by
  have hleft := hinv.left
  obtain ⟨left, hdraw, hrepresents⟩ := represents_draw hinv.represents
    (fun id hid => (hinv.left_spec hid).1) (hinv.slot_lt hlt random)
  have hlast : (plainDraw s.mints).2.length - 1 = MAX_SUPPLY - s.drawn - 1 := by omega
  rw [hlast] at hrepresents
  exact ⟨left, hdraw, hrepresents⟩

/-- When nothing is left, everything was drawn. -/
theorem PoolInvariant.exhausted {s : GuardiansStorage erc} (hinv : PoolInvariant s)
    (hall : s.mints.length = MAX_SUPPLY) {id : Nat} (hpos : 1 ≤ id) (hle : id ≤ MAX_SUPPLY) :
    (s.mints.map Mint.tokenId).count id = 1 := by
  have hleft := hinv.left
  have hcount := hinv.count
  have hempty : (plainDraw s.mints).2 = [] := List.eq_nil_of_length_eq_zero (by omega)
  have hperm := FisherYates.shuffle_perm allIds (s.mints.map Mint.slot)
  have hsplit : (FisherYates.shuffle allIds (s.mints.map Mint.slot)).1 ++
      (FisherYates.shuffle allIds (s.mints.map Mint.slot)).2 = s.mints.map Mint.tokenId := by
    rw [show (FisherYates.shuffle allIds _).2 = [] from hempty, List.append_nil]
    exact hinv.drawn
  rw [hsplit] at hperm
  rw [hperm.count_eq]
  exact List.count_eq_one_of_mem nodup_allIds (mem_allIds.mpr ⟨hpos, hle⟩)

/-- **The packed pool of the collection refines a plain Fisher-Yates shuffle.** -/
theorem guardian_pool_refines {m : Nested (GuardiansStorage erc) Suspended}
    (h : (guardians erc hashes).Reachable m) : PoolRefines m.storage := by
  have hinv := (guardian_invariant h).pool
  have hleft := hinv.left
  exact {
    drawn := hinv.drawn
    represents := hinv.represents
    counter := ⟨hinv.count.symm, by omega⟩
    next := hinv.next
    distinct := hinv.nodup_minted
    bounds := fun id hid => by
      obtain ⟨mint, hm, rfl⟩ := List.mem_map.mp hid
      exact hinv.minted_bounds hm
    exhausted := fun hall _ => hinv.exhausted hall
    lanes := fun slot id hid => rawAt_setPool _ hid }

/-- Two accounts mint, with random numbers that draw the same slot twice. -/
theorem guardian_pool_refines_twice :
    ∃ m, afterActions ⟨1, 2⟩ 7 0 [.mint 5 ⟨0, 0, 0⟩ 3, .mintRequested 9, .mint 6 ⟨0, 0, 0⟩ 3,
        .mintRequested 10] = some m ∧
      m.storage.mints.map Mint.tokenId = [10000, 4] ∧ PoolRefines m.storage := by
  have hsome : ((afterActions ⟨1, 2⟩ 7 0 [.mint 5 ⟨0, 0, 0⟩ 3, .mintRequested 9,
      .mint 6 ⟨0, 0, 0⟩ 3, .mintRequested 10]).map fun m => m.storage.mints.map Mint.tokenId) =
        some [10000, 4] := by decide +kernel
  obtain ⟨m, hm, hids⟩ := Option.map_eq_some_iff.mp hsome
  exact ⟨m, hm, hids, guardian_pool_refines (reachable_of_afterActions hm)⟩

end Mapae.Guardians
