import Mapae.Guardians.Claims
import Mapae.Guardians.Requests

/-!
# What holds of the collection in every state

`GuardianInvariant` gathers the invariants of the pool, the ownership, the requests, the growth
and the honors; `GuardianExtends` is what any step of the collection, short of a failure, leaves
of what was there before. Every effect keeps both (`invariant_of_effect`), and so does the
collection however its calls are nested (`guardians_disciplined`).
-/

namespace Mapae.Guardians

open Mapae.Infra GuardiansStorage

variable {erc : Erc721} {hashes : Hashes}

structure GuardianInvariant (hashes : Hashes) (s : GuardiansStorage erc) : Prop where
  pool : PoolInvariant s
  ownership : OwnershipInvariant s
  requests : RequestInvariant hashes s
  growth : GrowthInvariant s
  honors : HonorInvariant s
  /-- What happened to the storage since it was deployed is a run of claims. -/
  run : ∃ s₀ cs, Deployed s₀ ∧ ClaimRun hashes s₀ cs s

structure GuardianExtends (s s' : GuardiansStorage erc) : Prop where
  mints : s.mints <:+ s'.mints
  applied : s.applied <:+ s'.applied
  epoch : ∀ id, (s.tokens id).ownershipEpoch ≤ (s'.tokens id).ownershipEpoch
  /-- A change of owner is a new ownership epoch. -/
  moved : ∀ id, s'.ownerOf id ≠ s.ownerOf id →
    (s.tokens id).ownershipEpoch < (s'.tokens id).ownershipEpoch
  /-- A birth is written once. -/
  revealed : ∀ id, (s.tokens id).revealed = true →
    (s'.tokens id).revealed = true ∧ (s'.tokens id).seed = (s.tokens id).seed
  honors : HonorsForward s s'

namespace GuardianExtends

variable {s s' s'' : GuardiansStorage erc}

theorem refl (s : GuardiansStorage erc) : GuardianExtends s s where
  mints := List.suffix_refl _
  applied := List.suffix_refl _
  epoch _ := Nat.le_refl _
  moved _ hne := absurd rfl hne
  revealed _ hr := ⟨hr, rfl⟩
  honors _ _ _ := Nat.le_refl _

theorem trans (h : GuardianExtends s s') (h' : GuardianExtends s' s'') :
    GuardianExtends s s'' where
  mints := h.mints.trans h'.mints
  applied := h.applied.trans h'.applied
  epoch id := (h.epoch id).trans (h'.epoch id)
  moved id hne := by
    by_cases hfirst : s'.ownerOf id = s.ownerOf id
    · exact Nat.lt_of_le_of_lt (h.epoch id) (h'.moved id (hfirst ▸ hne))
    · exact Nat.lt_of_lt_of_le (h.moved id hfirst) (h'.epoch id)
  revealed id hr := by
    obtain ⟨hr', hseed⟩ := h.revealed id hr
    obtain ⟨hr'', hseed'⟩ := h'.revealed id hr'
    exact ⟨hr'', hseed'.trans hseed⟩
  honors id l hl := (h.honors id l hl).trans (h'.honors id l hl)

/-- What leaves the owners, the tokens and the rest alone. -/
theorem of_same (hmints : s'.mints = s.mints) (happlied : s'.applied = s.applied)
    (howner : s'.ownerOf = s.ownerOf)
    (hepoch : ∀ id, (s'.tokens id).ownershipEpoch = (s.tokens id).ownershipEpoch)
    (hrevealed : ∀ id, (s.tokens id).revealed = true →
      (s'.tokens id).revealed = true ∧ (s'.tokens id).seed = (s.tokens id).seed)
    (hhonors : s'.honors = s.honors) : GuardianExtends s s' where
  mints := hmints ▸ List.suffix_refl _
  applied := happlied ▸ List.suffix_refl _
  epoch id := Nat.le_of_eq (hepoch id).symm
  moved id hne := absurd (congrFun howner id) hne
  revealed := hrevealed
  honors id l _ := by rw [hhonors]

/-- A change of owner, after whatever left the token base, the tokens and the rest alone. -/
theorem of_updates {receiver auth : Address} {id epoch : Nat} {accounts : Address → Account}
    {base : erc.State} (hbase : s'.base = s.base) (htokens : s'.tokens = s.tokens)
    (hmints : s.mints <:+ s'.mints) (happlied : s'.applied = s.applied)
    (hhonors : s'.honors = s.honors) (hu : Updates s' receiver id auth accounts base epoch) :
    GuardianExtends s (s'.moved base accounts id epoch) where
  mints := hmints
  applied := happlied ▸ List.suffix_refl _
  epoch id' := by
    rw [moved_epoch, htokens]
    split
    · next h =>
      have hepoch := hu.epoch_eq
      rw [htokens] at hepoch
      rw [h]
      omega
    · exact Nat.le_refl _
  moved id' hne := by
    have howner : s'.ownerOf = s.ownerOf := by
      unfold GuardiansStorage.ownerOf
      rw [hbase]
    have hid : id' = id := by
      by_contra hother
      rw [ownerOf_moved hu, Function.update_of_ne hother, howner] at hne
      exact hne rfl
    have hepoch := hu.epoch_eq
    rw [htokens] at hepoch
    rw [moved_epoch, if_pos hid, hid]
    omega
  revealed id' hr := by
    have hseed : ((s'.moved base accounts id epoch).tokens id').seed = (s.tokens id').seed := by
      rw [moved_tokens, htokens, Function.update_apply]
      split
      · next h => rw [h]
      · rfl
    exact ⟨by rw [moved_revealed, htokens]; exact hr, hseed⟩
  honors id' l _ := by
    show _ ≤ lane 16 l (s'.honors id').toNat
    rw [hhonors]

end GuardianExtends

/-! ## Every effect -/

section Effects

variable {s s' : GuardiansStorage erc}

theorem run_of_effect (hinv : GuardianInvariant hashes s) {kind : Kind}
    (h : Effect hashes s kind s') : ∃ s₀ cs, Deployed s₀ ∧ ClaimRun hashes s₀ cs s' := by
  obtain ⟨s₀, cs, hdeployed, hrun⟩ := hinv.run
  by_cases hkind : kind = .claim
  · subst hkind
    cases h with
    | claim claimed => exact ⟨s₀, _, hdeployed, hrun.append (.claimed claimed (.done _))⟩
  · exact ⟨s₀, _, hdeployed, hrun.append (.other h hkind (.done _))⟩

theorem extends_of_claim (hinv : HonorInvariant s) {c : ClaimCall hashes} {n : Nat}
    (h : s.claim hashes c = .ok (n, s')) : GuardianExtends s s' := by
  have hclaimed := claimed_spec h
  have hforward := (hinv.claim h).2
  have hbirths := hclaimed.births
  exact
    { mints := hbirths.mints ▸ List.suffix_refl _
      applied := by rw [hclaimed.applied]; exact List.suffix_append ..
      epoch := fun id => by rw [hbirths.tokens]
      moved := fun id hne => by
        unfold GuardiansStorage.ownerOf at hne
        rw [hbirths.base] at hne
        exact absurd rfl hne
      revealed := fun id hr => by
        rw [hbirths.tokens]
        exact ⟨hr, rfl⟩
      honors := hforward }

/-- **Every effect keeps the invariant and leaves what was there.** -/
theorem invariant_of_effect (hinv : GuardianInvariant hashes s) {kind : Kind}
    (h : Effect hashes s kind s') : GuardianInvariant hashes s' ∧ GuardianExtends s s' := by
  have hrun := run_of_effect hinv h
  cases h with
  | mint found updates =>
    refine ⟨?_, .of_updates rfl rfl (List.suffix_cons ..) rfl rfl updates⟩
    exact
      { pool := (hinv.pool.prepared found.drawn_lt _ _).congr rfl rfl rfl
        ownership := hinv.ownership.mint hinv.pool found updates
        requests := hinv.requests.mint hinv.pool found.drawn_lt
        growth := hinv.growth.congr rfl rfl rfl
        honors := hinv.honors.congr rfl (Nat.le_refl _)
        run := hrun }
  | @request code id sequence minted _ _ _ =>
    obtain ⟨m, hm, rfl⟩ := minted
    have hsame (id' : Nat) :
        ((s.requested hashes code m.tokenId sequence).tokens id').revealed =
            (s.tokens id').revealed ∧
        ((s.requested hashes code m.tokenId sequence).tokens id').seed = (s.tokens id').seed ∧
        ((s.requested hashes code m.tokenId sequence).tokens id').ownershipEpoch =
            (s.tokens id').ownershipEpoch := by
      rw [requested_tokens, Function.update_apply]
      split
      · next h => rw [h]; exact ⟨rfl, rfl, rfl⟩
      · exact ⟨rfl, rfl, rfl⟩
    refine ⟨?_, .of_same rfl rfl rfl (fun id => (hsame id).2.2)
      (fun id hr => ⟨(hsame id).1.trans hr, (hsame id).2.1⟩) rfl⟩
    exact
      { pool := hinv.pool.congr rfl rfl rfl
        ownership := hinv.ownership.congr rfl rfl rfl fun id => (hsame id).1
        requests := hinv.requests.request hinv.pool hm
        growth := hinv.growth.congr rfl rfl rfl
        honors := hinv.honors.congr rfl (Nat.le_refl _)
        run := hrun }
  | @birth id sequence random deliverable =>
    obtain ⟨m, hm, rfl, -⟩ := hinv.requests.deliverable_spec hinv.pool deliverable
    refine ⟨?_, .of_same rfl rfl rfl (fun id => ?_) (fun id hr => ?_) rfl⟩
    · exact
        { pool := hinv.pool.congr rfl rfl rfl
          ownership := hinv.ownership.birth hinv.pool hm deliverable.unrevealed
          requests := hinv.requests.birth hinv.pool
          growth := hinv.growth.congr rfl rfl rfl
          honors := hinv.honors.congr rfl (Nat.le_refl _)
          run := hrun }
    · rw [born_tokens, Function.update_apply]
      split
      · next h => rw [h]
      · rfl
    · rw [born_tokens, Function.update_apply]
      split
      · next h =>
        rw [h, deliverable.unrevealed] at hr
        exact nomatch hr
      · exact ⟨hr, rfl⟩
  | transfer receiver_ne owned updates =>
    refine ⟨?_, .of_updates rfl rfl (List.suffix_refl _) rfl rfl updates⟩
    exact
      { pool := hinv.pool.congr rfl rfl rfl
        ownership := hinv.ownership.transfer hinv.pool receiver_ne owned updates
        requests := hinv.requests.transfer
        growth := hinv.growth.congr rfl rfl rfl
        honors := hinv.honors.congr rfl (Nat.le_refl _)
        run := hrun }
  | approve owners =>
    refine ⟨?_, .of_same rfl rfl (funext owners) (fun _ => rfl) (fun _ hr => ⟨hr, rfl⟩) rfl⟩
    exact
      { pool := hinv.pool.congr rfl rfl rfl
        ownership := hinv.ownership.congr rfl (funext owners) rfl fun _ => rfl
        requests := hinv.requests.congr rfl rfl (fun _ => rfl) fun _ => rfl
        growth := hinv.growth.congr rfl rfl rfl
        honors := hinv.honors.congr rfl (Nat.le_refl _)
        run := hrun }
  | claim claimed =>
    have hbirths := sameBirths_of_claim claimed
    have howner : s'.ownerOf = s.ownerOf := by
      unfold GuardiansStorage.ownerOf
      rw [hbirths.base]
    refine ⟨?_, extends_of_claim hinv.honors claimed⟩
    exact
      { pool := hinv.pool.congr hbirths.mints hbirths.idPool hbirths.drawn
        ownership := hinv.ownership.congr hbirths.accounts howner hbirths.mints fun id => by
          rw [hbirths.tokens]
        requests := hinv.requests.congr hbirths.requestToken hbirths.mints
          (fun id => by rw [hbirths.tokens]) fun id => by rw [hbirths.tokens]
        growth := hinv.growth.claim claimed
        honors := (hinv.honors.claim claimed).1
        run := hrun }
  | admin later =>
    refine ⟨?_, .of_same rfl rfl rfl (fun _ => rfl) (fun _ hr => ⟨hr, rfl⟩) rfl⟩
    exact
      { pool := hinv.pool.congr rfl rfl rfl
        ownership := hinv.ownership.congr rfl rfl rfl fun _ => rfl
        requests := hinv.requests.congr rfl rfl (fun _ => rfl) fun _ => rfl
        growth := hinv.growth.congr rfl rfl rfl
        honors := hinv.honors.congr rfl later
        run := hrun }

theorem invariant_of_deployed (h : Deployed s) : GuardianInvariant hashes s where
  pool := .of_deployed h
  ownership := .of_deployed h
  requests := .of_deployed h
  growth := .of_deployed h
  honors := .of_deployed h
  run := ⟨s, [], h, .done s⟩

end Effects

/-! ## Every state -/

theorem guardians_disciplined : Disciplined (@Action.move erc hashes)
    (GuardianInvariant hashes) GuardianExtends Suspended.Relies :=
  disciplined .refl (fun _ _ _ => .trans) (fun _ _ h _ hm => h.mints.mem hm)
    (fun _ hinv => hinv.ownership.pendingMinted) fun _ _ _ hinv h => invariant_of_effect hinv h

section Reachable

variable {m m' : Nested (GuardiansStorage erc) Suspended} {a : Action erc hashes}

theorem guardian_invariant (h : (guardians erc hashes).Reachable m) :
    GuardianInvariant hashes m.storage :=
  guardians_disciplined.inv_of_reachable (fun _ => invariant_of_deployed) h

theorem guardian_extends (h : (guardians erc hashes).Reachable m) (ha : a ≠ .fail)
    (hm : m.perform a.move = some m') : GuardianExtends m.storage m'.storage :=
  guardians_disciplined.related (fun _ => invariant_of_deployed) h
    (fun hmove => by cases a <;> first | exact ha rfl | exact nomatch hmove) hm

theorem guardian_changes (h : (guardians erc hashes).Reachable m) (ha : a ≠ .fail)
    (hm : m.perform a.move = some m') : Changes a m.storage m'.storage :=
  changes_of_step guardians_disciplined (fun _ => invariant_of_deployed)
    (fun _ hinv => hinv.ownership.pendingMinted) h ha hm

end Reachable

end Mapae.Guardians
