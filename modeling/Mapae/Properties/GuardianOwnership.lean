import Mapae.Guardians.Invariant
import Mapae.Guardians.TokenBase

/-!
# The ownership index

Through mints, transfers, births and upgrades, nested in whatever way:

* the owned lanes of an account are the tokens that it owns, each once, at most three
* the assertion of `_update` never fails, and no limit is passed
* a pending mint is a token that the account minted, still owns, and that is not born
* a token that is not born stays with its minter, and every change of owner is a new epoch

The ids that are minted are a shuffle, which is the second half.
-/

namespace Mapae.Guardians

open Mapae.Infra GuardiansStorage GuardianError

variable {erc : Erc721} {hashes : Hashes}

/-- What holds of the ownership in a state. -/
structure OwnershipHeld (s : GuardiansStorage erc) : Prop where
  owned : ∀ account, account ≠ 0 →
    (tokensOfOwner (s.accounts account).owned).Nodup ∧
    (tokensOfOwner (s.accounts account).owned).length ≤ MAX_OWNED ∧
    ∀ id, id ∈ tokensOfOwner (s.accounts account).owned ↔ s.ownerOf id = account
  /-- No call can run into the assertion. -/
  asserted : (∀ sender payment random, s.mint sender payment random ≠ .error assertion) ∧
    ∀ sender owner receiver id, s.transferFrom sender owner receiver id ≠ .error assertion
  minted : ∀ account, s.mints.countP (fun m => m.minter = account) ≤ MAX_LIFETIME_MINTS ∧
    (s.accounts account).minted = s.mints.countP fun m => m.minter = account
  drawn : s.mints.length ≤ MAX_SUPPLY ∧ s.drawn = s.mints.length
  pending : ∀ account id, id ≠ 0 → ((s.accounts account).pendingMint = id ↔
    s.MintedBy id account ∧ (s.tokens id).revealed = false)
  pending_owned : ∀ account id, id ≠ 0 → (s.accounts account).pendingMint = id →
    s.ownerOf id = account
  /-- A token that is not born is with the account that minted it. -/
  unrevealed : ∀ m ∈ s.mints, (s.tokens m.tokenId).revealed = false →
    s.ownerOf m.tokenId = m.minter

/-- What a step does to the owners. -/
structure OwnersMove (s s' : GuardiansStorage erc) : Prop where
  unrevealed : ∀ id, s.ownerOf id ≠ 0 → (s.tokens id).revealed = false →
    s'.ownerOf id = s.ownerOf id
  epoch_le : ∀ id, (s.tokens id).ownershipEpoch ≤ (s'.tokens id).ownershipEpoch
  epoch_lt : ∀ id, s'.ownerOf id ≠ s.ownerOf id →
    (s.tokens id).ownershipEpoch < (s'.tokens id).ownershipEpoch

/-! ## The assertion -/

section Assertion

variable {s : GuardiansStorage erc}

theorem update_ne_assertion {receiver auth : Address} {id : Nat}
    (h : Indexed s.accounts s.ownerOf) (hid : s.ownerOf id ≠ 0 → id ≠ 0) :
    s.update receiver id auth ≠ .error assertion := by
  intro he
  rcases bind_eq_error.mp he with he | ⟨_, -, he⟩
  · exact nomatch (throwIf_eq_error.mp he).2
  rcases bind_eq_error.mp he with he | ⟨accounts, -, he⟩
  · unfold moveLanes at he
    split at he
    · exact nomatch he
    · rcases bind_eq_error.mp he with he | ⟨_, -, he⟩
      · by_cases howner : s.ownerOf id = 0
        · rw [howner] at he
          exact nomatch he
        · exact takeFrom_ne_assertion h (hid howner) he
      · exact giveTo_ne_assertion he
  · split at he
    · exact nomatch he
    · rcases bind_eq_error.mp he with he | ⟨_, -, he⟩
      · unfold increment at he
        split at he <;> exact nomatch he
      · exact nomatch he

/-- **A transfer never runs into the assertion.** -/
theorem transferFrom_ne_assertion (hinv : GuardianInvariant hashes s)
    (sender owner receiver : Address) (id : Nat) :
    s.transferFrom sender owner receiver id ≠ .error assertion := by
  intro he
  rcases bind_eq_error.mp he with he | ⟨_, -, he⟩
  · exact nomatch (throwIf_eq_error.mp he).2
  rcases bind_eq_error.mp he with he | ⟨_, -, he⟩
  · refine update_ne_assertion hinv.ownership.indexed (fun howned => ?_) he
    obtain ⟨m, hm, rfl⟩ := (hinv.ownership.owned_iff id).mp howned
    exact RequestInvariant.ne_zero hinv.pool hm
  rcases bind_eq_error.mp he with he | ⟨_, -, he⟩
  · exact nomatch (throwIf_eq_error.mp he).2
  · exact nomatch he

/-- A mint never does: nobody owns the token before. -/
theorem mint_ne_assertion (hinv : GuardianInvariant hashes s) (sender : Address)
    (payment : Payment) (random : Nat) : s.mint sender payment random ≠ .error assertion := by
  intro he
  rcases bind_eq_error.mp he with he | ⟨_, -, he⟩
  · exact nomatch (throwIf_eq_error.mp he).2
  rcases bind_eq_error.mp he with he | ⟨_, -, he⟩
  · exact nomatch (throwIf_eq_error.mp he).2
  rcases bind_eq_error.mp he with he | ⟨_, hlimit, he⟩
  · exact nomatch (throwIf_eq_error.mp he).2
  rcases bind_eq_error.mp he with he | ⟨_, -, he⟩
  · unfold checkedFee at he
    exact nomatch (throwIf_eq_error.mp he).2
  rcases bind_eq_error.mp he with he | ⟨_, -, he⟩
  · rcases bind_eq_error.mp he with he | ⟨_, -, he⟩
    · exact nomatch (throwIf_eq_error.mp he).2
    rcases bind_eq_error.mp he with he | ⟨_, -, he⟩
    · have hlimit := throwIf_eq_ok.mp hlimit
      simp only [not_or, Nat.not_le, ge_iff_le] at hlimit
      have hleft := hinv.pool.drawnId_left hlimit.1 random
      obtain ⟨⟨hpos, -⟩, -⟩ := hinv.pool.left_spec hleft
      have hindexed : Indexed (s.preparedMint sender random).accounts s.ownerOf := fun a ha => by
        have howned : ((s.preparedMint sender random).accounts a).owned = (s.accounts a).owned := by
          unfold preparedMint
          dsimp only
          rw [Function.update_apply]
          split
          · next h => rw [h]
          · rfl
        rw [howned]
        exact hinv.ownership.indexed a ha
      exact update_ne_assertion (s := s.preparedMint sender random) hindexed
        (fun _ => Nat.ne_of_gt hpos) he
    rcases bind_eq_error.mp he with he | ⟨_, -, he⟩
    · exact nomatch (throwIf_eq_error.mp he).2
    · exact nomatch he
  · exact nomatch he

end Assertion

/-! ## The result -/

section Held

variable {s s' : GuardiansStorage erc}

theorem ownershipHeld_of_invariant (hinv : GuardianInvariant hashes s) : OwnershipHeld s where
  owned account haccount := by
    obtain ⟨hnodup, hlength, hmem⟩ := (hinv.ownership.indexed account haccount).tokensOfOwner
    refine ⟨hnodup, hlength, fun id => (hmem id).trans ⟨And.right, fun ho => ⟨?_, ho⟩⟩⟩
    obtain ⟨m, hm, rfl⟩ := (hinv.ownership.owned_iff id).mp (ho ▸ haccount)
    exact RequestInvariant.ne_zero hinv.pool hm
  asserted := ⟨mint_ne_assertion hinv, transferFrom_ne_assertion hinv⟩
  minted account :=
    ⟨hinv.ownership.minted account ▸ hinv.ownership.minted_le account,
      hinv.ownership.minted account⟩
  drawn := by
    have hle := hinv.pool.drawn_le
    have hcount := hinv.pool.count
    exact ⟨by omega, hcount.symm⟩
  pending := hinv.ownership.pending
  pending_owned account id hid hp := by
    obtain ⟨⟨m, hm, rfl, rfl⟩, hr⟩ := (hinv.ownership.pending account id hid).mp hp
    exact hinv.ownership.unrevealed m hm hr
  unrevealed := hinv.ownership.unrevealed

/-- **No effect moves a token that is not born.** -/
theorem Effect.unrevealed {kind : Kind} (h : Effect hashes s kind s') {id : Nat}
    (howned : s.ownerOf id ≠ 0) (hr : (s.tokens id).revealed = false) :
    s'.ownerOf id = s.ownerOf id := by
  cases h with
  | @mint sender random accounts base epoch found updates =>
    have hne : id ≠ s.drawnId random := fun he => howned (he ▸ found.unowned)
    rw [ownerOf_moved updates, Function.update_of_ne hne]
    rfl
  | @transfer receiver auth id' accounts base epoch receiver_ne owned updates =>
    have hne : id ≠ id' := fun he => by
      rw [he, updates.revealed owned] at hr
      exact nomatch hr
    rw [ownerOf_moved updates, Function.update_of_ne hne]
  | request | birth | admin => rfl
  | approve owners => exact owners id
  | claim claimed =>
    unfold GuardiansStorage.ownerOf
    rw [(sameBirths_of_claim claimed).base]

end Held

/-- **The ownership of guardians holds in every state, and across every step.** -/
theorem guardian_ownership_held {m : Nested (GuardiansStorage erc) Suspended}
    (h : (guardians erc hashes).Reachable m) : OwnershipHeld m.storage ∧
      ∀ (a : Action erc hashes) (m' : Nested (GuardiansStorage erc) Suspended), a ≠ .fail →
        m.perform a.move = some m' → OwnersMove m.storage m'.storage := by
  refine ⟨ownershipHeld_of_invariant (guardian_invariant h), fun a m' ha hm => ?_⟩
  have hextends := guardian_extends h ha hm
  have hchanges := guardian_changes h ha hm
  refine { unrevealed := fun id howned hr => ?_, epoch_le := hextends.epoch,
           epoch_lt := hextends.moved }
  unfold Changes at hchanges
  split at hchanges
  · rw [hchanges]
  · exact Effect.unrevealed hchanges howned hr

/-- A guardian is minted and born, and its new owner sends it back while the transfer still waits
for its receiver. -/
theorem guardian_ownership_held_reentered : ∃ m m',
    afterActions ⟨1, 2⟩ 7 0 [.mint 5 ⟨0, 0, 0⟩ 3, .mintRequested 9, .entropyCallback 1 9 2 77,
      .safeTransferFrom 5 5 6 4] = some m ∧
    m.perform (.transferFrom 6 6 5 4 : Action plainErc721 pairHashes).move = some m' ∧
    m.storage.ownerOf 4 = 6 ∧ m'.storage.ownerOf 4 = 5 ∧ OwnershipHeld m.storage ∧
    OwnersMove m.storage m'.storage := by
  have hsome : ((afterActions ⟨1, 2⟩ 7 0 [.mint 5 ⟨0, 0, 0⟩ 3, .mintRequested 9,
      .entropyCallback 1 9 2 77, .safeTransferFrom 5 5 6 4]).bind fun m =>
        (m.perform (.transferFrom 6 6 5 4 : Action plainErc721 pairHashes).move).map fun m' =>
          (m.storage.ownerOf 4, m'.storage.ownerOf 4)) = some (6, 5) := by decide +kernel
  obtain ⟨m, hm, hsome⟩ := Option.bind_eq_some_iff.mp hsome
  obtain ⟨m', hm', howners⟩ := Option.map_eq_some_iff.mp hsome
  obtain ⟨hbefore, hafter⟩ := Prod.mk.inj howners
  obtain ⟨hheld, hstep⟩ := guardian_ownership_held (reachable_of_afterActions hm)
  exact ⟨m, m', hm, hm', hbefore, hafter, hheld, hstep (.transferFrom 6 6 5 4) m' (fun h => nomatch h) hm'⟩

end Mapae.Guardians
