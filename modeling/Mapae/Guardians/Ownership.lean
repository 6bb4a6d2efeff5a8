import Mapae.Guardians.Pool

/-!
# The ownership index

Every account's `owned` word is an index of the tokens that the token base says it owns.
`Indexed` says so, and a change of owner keeps it: the sender's lane of the token is found,
because the index has it, and the receiver's free lane takes it.

`OwnershipInvariant` adds what the mint, reveal and transfer rules rely on: who minted what, what
is still unrevealed, and the limits.
-/

namespace Mapae.Guardians

open Mapae.Infra GuardiansStorage GuardianError

variable {erc : Erc721} {hashes : Hashes}

/-! ## Lanes of an account -/

theorem shift_of_lane (l : Nat) : l <<< 4 = 16 * l := by rw [Nat.shiftLeft_eq, Nat.mul_comm]

theorem ownedAt_eq (owned : BitVec 48) (l : Nat) : ownedAt owned l = lane 16 l owned.toNat := by
  unfold ownedAt
  rw [shift_of_lane]
  refine (toNat_shift_and _ (by decide) l).trans ?_
  rw [BitVec.toNat_setWidth_of_le (by decide)]

/-- The cast of a word to 48 bits keeps the lanes of an account. -/
theorem ownedAt_setWidth (word : Word) {l : Nat} (hl : l < MAX_OWNED) :
    ownedAt (word.setWidth 48) l = lane 16 l word.toNat := by
  have hl : l < 3 := hl
  rw [ownedAt_eq, BitVec.toNat_setWidth, lane_mod (by omega)]

theorem ownedAt_clearLane (owned : BitVec 48) {l : Nat} (hl : l < MAX_OWNED) {l' : Nat}
    (hl' : l' < MAX_OWNED) :
    ownedAt (clearLane owned l) l' = if l' = l then 0 else ownedAt owned l' := by
  have hl : l < 3 := hl
  unfold clearLane
  rw [ownedAt_setWidth _ hl', shift_of_lane]
  refine (lane_clear (k := 16) _ (by omega) l').trans ?_
  rw [BitVec.toNat_setWidth_of_le (by decide), ownedAt_eq]

theorem ownedAt_fillLane {owned : BitVec 48} {l id : Nat} (hl : l < MAX_OWNED) (hid : id < 2 ^ 16)
    (hfree : ownedAt owned l = 0) {l' : Nat} (hl' : l' < MAX_OWNED) :
    ownedAt (fillLane owned l id) l' = if l' = l then id else ownedAt owned l' := by
  have hl : l < 3 := hl
  unfold fillLane
  rw [ownedAt_setWidth _ hl', shift_of_lane, BitVec.toNat_or, toNat_ofNat_shift hid (by omega),
    lane_or_shift hid, BitVec.toNat_setWidth_of_le (by decide), ← ownedAt_eq, ← ownedAt_eq, hfree,
    Nat.zero_or]

theorem laneOf_eq_some {owned : BitVec 48} {id l : Nat} (h : laneOf owned id = some l) :
    l < MAX_OWNED ∧ ownedAt owned l = id :=
  ⟨List.mem_range.mp (List.mem_of_find?_eq_some h), by simpa using List.find?_some h⟩

theorem laneOf_eq_none {owned : BitVec 48} {id : Nat} (h : laneOf owned id = none) :
    ∀ l < MAX_OWNED, ownedAt owned l ≠ id := fun l hl he =>
  absurd (decide_eq_true he) (List.find?_eq_none.mp h l (List.mem_range.mpr hl))

/-! ## The index -/

/-- The lanes of an account are the tokens that it owns, each in one lane. -/
structure IndexedFor (owned : BitVec 48) (owns : Nat → Prop) : Prop where
  distinct : ∀ l < MAX_OWNED, ∀ l' < MAX_OWNED,
    ownedAt owned l ≠ 0 → ownedAt owned l = ownedAt owned l' → l = l'
  exact : ∀ id, id ≠ 0 → ((∃ l < MAX_OWNED, ownedAt owned l = id) ↔ owns id)

namespace IndexedFor

variable {owned : BitVec 48} {owns owns' : Nat → Prop} {l id : Nat}

theorem congr (h : IndexedFor owned owns) (hsame : ∀ id, id ≠ 0 → (owns id ↔ owns' id)) :
    IndexedFor owned owns' :=
  ⟨h.distinct, fun id hid => (h.exact id hid).trans (hsame id hid)⟩

/-- **Clearing the lane of a token removes it, and no other.** -/
theorem clear (h : IndexedFor owned owns) (hlane : laneOf owned id = some l) :
    IndexedFor (clearLane owned l) fun id' => owns id' ∧ id' ≠ id := by
  obtain ⟨hl, hat⟩ := laneOf_eq_some hlane
  constructor
  · intro l₁ h₁ l₂ h₂
    rw [ownedAt_clearLane owned hl h₁, ownedAt_clearLane owned hl h₂]
    split
    · exact fun hne => absurd rfl hne
    · intro hne he
      split at he
      · exact absurd he hne
      · exact h.distinct l₁ h₁ l₂ h₂ hne he
  · intro id' hid'
    rw [← h.exact id' hid']
    constructor
    · rintro ⟨l', hl', he⟩
      rw [ownedAt_clearLane owned hl hl'] at he
      split at he
      · exact absurd he.symm hid'
      · next hne =>
        refine ⟨⟨l', hl', he⟩, fun heq => hne ?_⟩
        exact h.distinct l' hl' l hl (he ▸ hid') (by rw [he, heq, hat])
    · rintro ⟨⟨l', hl', he⟩, hne⟩
      refine ⟨l', hl', ?_⟩
      rw [ownedAt_clearLane owned hl hl', if_neg]
      · exact he
      · rintro rfl
        exact hne (he.symm.trans hat)

/-- **Filling a free lane with a new token adds it.** -/
theorem fill (h : IndexedFor owned owns) (hlane : laneOf owned 0 = some l) (hid : id ≠ 0)
    (hbound : id < 2 ^ 16) (hnew : ¬ owns id) :
    IndexedFor (fillLane owned l id) fun id' => owns id' ∨ id' = id := by
  obtain ⟨hl, hat⟩ := laneOf_eq_some hlane
  have hnot : ∀ l' < MAX_OWNED, ownedAt owned l' ≠ id := fun l' hl' he =>
    hnew ((h.exact id hid).mp ⟨l', hl', he⟩)
  constructor
  · intro l₁ h₁ l₂ h₂
    rw [ownedAt_fillLane hl hbound hat h₁, ownedAt_fillLane hl hbound hat h₂]
    by_cases e₁ : l₁ = l <;> by_cases e₂ : l₂ = l
    · exact fun _ _ => e₁.trans e₂.symm
    · rw [if_pos e₁, if_neg e₂]
      exact fun _ he => absurd he.symm (hnot l₂ h₂)
    · rw [if_neg e₁, if_pos e₂]
      exact fun _ he => absurd he (hnot l₁ h₁)
    · rw [if_neg e₁, if_neg e₂]
      exact h.distinct l₁ h₁ l₂ h₂
  · intro id' hid'
    rw [← h.exact id' hid']
    constructor
    · rintro ⟨l', hl', he⟩
      rw [ownedAt_fillLane hl hbound hat hl'] at he
      split at he
      · exact Or.inr he.symm
      · exact Or.inl ⟨l', hl', he⟩
    · rintro (⟨l', hl', he⟩ | rfl)
      · refine ⟨l', hl', ?_⟩
        rw [ownedAt_fillLane hl hbound hat hl', if_neg]
        · exact he
        · rintro rfl
          exact hid' (he.symm.trans hat)
      · exact ⟨l, hl, by rw [ownedAt_fillLane hl hbound hat hl, if_pos rfl]⟩

/-- The listed tokens are those owned, each once, and at most three. -/
theorem tokensOfOwner (h : IndexedFor owned owns) :
    (Guardians.tokensOfOwner owned).Nodup ∧ (Guardians.tokensOfOwner owned).length ≤ MAX_OWNED ∧
      ∀ id, id ∈ Guardians.tokensOfOwner owned ↔ id ≠ 0 ∧ owns id := by
  refine ⟨?_, ?_, fun id => ?_⟩
  · unfold Guardians.tokensOfOwner
    rw [List.filter_map]
    refine List.Nodup.map_on ?_ (List.nodup_range.filter _)
    intro l₁ h₁ l₂ h₂ he
    rw [List.mem_filter, List.mem_range] at h₁ h₂
    exact h.distinct l₁ h₁.1 l₂ h₂.1 (of_decide_eq_true h₁.2) he
  · exact (List.length_filter_le _ _).trans (by simp [MAX_OWNED])
  · unfold Guardians.tokensOfOwner
    rw [List.mem_filter, List.mem_map, decide_eq_true_eq]
    constructor
    · rintro ⟨⟨l, hl, he⟩, hne⟩
      exact ⟨hne, (h.exact id hne).mp ⟨l, List.mem_range.mp hl, he⟩⟩
    · rintro ⟨hne, ho⟩
      obtain ⟨l, hl, he⟩ := (h.exact id hne).mpr ho
      exact ⟨⟨l, List.mem_range.mpr hl, he⟩, hne⟩

end IndexedFor

/-- Every account's word is the index of what it owns. -/
def Indexed (accounts : Address → Account) (ownerOf : Nat → Address) : Prop :=
  ∀ a, a ≠ 0 → IndexedFor (accounts a).owned fun id => ownerOf id = a

variable {accounts accounts' : Address → Account} {ownerOf : Nat → Address} {receiver : Address}
  {id : Nat}

/-- **The lane of an owned token is always found.** -/
theorem takeFrom_ne_assertion (h : Indexed accounts ownerOf) (hid : id ≠ 0) :
    takeFrom accounts (ownerOf id) id ≠ .error assertion := by
  unfold takeFrom
  split
  · exact nofun
  · next howner =>
    split
    · next hlane =>
      obtain ⟨l, hl, he⟩ := ((h _ howner).exact id hid).mpr rfl
      exact absurd he (laneOf_eq_none hlane l hl)
    · exact nofun

theorem giveTo_ne_assertion : giveTo accounts receiver id ≠ .error assertion := by
  unfold giveTo
  split
  · exact nofun
  · split <;> exact nofun

/-- What a change of owner does to the accounts. -/
structure Moves (accounts accounts' : Address → Account) : Prop where
  pendingMint : ∀ a, (accounts' a).pendingMint = (accounts a).pendingMint
  minted : ∀ a, (accounts' a).minted = (accounts a).minted

theorem Moves.refl : Moves accounts accounts := ⟨fun _ => rfl, fun _ => rfl⟩

theorem Moves.setOwned (a : Address) (owned : BitVec 48) :
    Moves accounts (Function.update accounts a { accounts a with owned := owned }) := by
  constructor <;>
  · intro b
    by_cases hb : b = a
    · rw [hb, Function.update_self]
    · rw [Function.update_of_ne hb]

theorem Moves.trans {accounts₁ accounts₂ accounts₃ : Address → Account}
    (h : Moves accounts₁ accounts₂) (h' : Moves accounts₂ accounts₃) : Moves accounts₁ accounts₃ :=
  ⟨fun a => (h'.pendingMint a).trans (h.pendingMint a),
    fun a => (h'.minted a).trans (h.minted a)⟩

theorem takeFrom_indexed (h : Indexed accounts ownerOf)
    (htake : takeFrom accounts (ownerOf id) id = .ok accounts') :
    Moves accounts accounts' ∧
      ∀ a, a ≠ 0 → IndexedFor (accounts' a).owned fun id' => ownerOf id' = a ∧ id' ≠ id := by
  unfold takeFrom at htake
  split at htake
  · next howner =>
    cases htake
    refine ⟨.refl, fun a ha => (h a ha).congr fun id' _ => ⟨fun ho => ⟨ho, ?_⟩, And.left⟩⟩
    rintro rfl
    exact ha (ho.symm.trans howner)
  · next howner =>
    split at htake
    · exact nomatch htake
    · next l hlane =>
      cases htake
      refine ⟨.setOwned _ _, fun a ha => ?_⟩
      by_cases hown : a = ownerOf id
      · rw [hown, Function.update_self]
        exact (h _ howner).clear hlane
      · rw [Function.update_of_ne hown]
        refine (h a ha).congr fun id' _ => ⟨fun ho => ⟨ho, ?_⟩, And.left⟩
        rintro rfl
        exact hown ho.symm

theorem giveTo_indexed {owns : Address → Nat → Prop}
    (h : ∀ a, a ≠ 0 → IndexedFor (accounts a).owned (owns a)) (hid : id ≠ 0)
    (hbound : id < 2 ^ 16) (hreceiver : receiver ≠ 0) (hnew : ¬ owns receiver id)
    (hgive : giveTo accounts receiver id = .ok accounts') :
    Moves accounts accounts' ∧ ∀ a, a ≠ 0 →
      IndexedFor (accounts' a).owned fun id' => owns a id' ∨ (a = receiver ∧ id' = id) := by
  unfold giveTo at hgive
  rw [if_neg hreceiver] at hgive
  split at hgive
  · exact nomatch hgive
  · next l hlane =>
    cases hgive
    refine ⟨.setOwned _ _, fun a ha => ?_⟩
    by_cases hrec : a = receiver
    · rw [hrec, Function.update_self]
      refine ((h _ hreceiver).fill hlane hid hbound hnew).congr fun id' _ => ?_
      simp
    · rw [Function.update_of_ne hrec]
      exact (h a ha).congr fun id' _ => by simp [hrec]

/-- **A change of owner moves the token in the index, and nothing else.** -/
theorem moveLanes_indexed (h : Indexed accounts ownerOf) (hid : id ≠ 0) (hbound : id < 2 ^ 16)
    (hreceiver : receiver ≠ 0)
    (hmove : moveLanes accounts (ownerOf id) receiver id = .ok accounts') :
    Moves accounts accounts' ∧ Indexed accounts' (Function.update ownerOf id receiver) := by
  unfold moveLanes at hmove
  split at hmove
  · next hsame =>
    cases hmove
    refine ⟨.refl, ?_⟩
    rw [← hsame, Function.update_eq_self]
    exact h
  · next hne =>
    obtain ⟨taken, htake, hgive⟩ := bind_eq_ok.mp hmove
    obtain ⟨hmoves, htaken⟩ := takeFrom_indexed h htake
    obtain ⟨hmoves', hgiven⟩ := giveTo_indexed htaken hid hbound hreceiver
      (fun ho => ho.2 rfl) hgive
    refine ⟨hmoves.trans hmoves', fun a ha => (hgiven a ha).congr fun id' _ => ?_⟩
    by_cases he : id' = id
    · rw [he, Function.update_self]
      exact ⟨fun ho => (ho.resolve_left fun h => h.2 rfl).1.symm, fun ho => Or.inr ⟨ho.symm, rfl⟩⟩
    · rw [Function.update_of_ne he]
      exact ⟨fun ho => (ho.resolve_right fun h => he h.2).1, fun ho => Or.inl ⟨ho, he⟩⟩

/-! ## The invariant -/

/-- `account` minted the token. -/
def GuardiansStorage.MintedBy (s : GuardiansStorage erc) (id : Nat) (account : Address) : Prop :=
  ∃ m ∈ s.mints, m.tokenId = id ∧ m.minter = account

structure OwnershipInvariant (s : GuardiansStorage erc) : Prop where
  indexed : Indexed s.accounts s.ownerOf
  /-- The owned tokens are the minted ones. -/
  owned_iff : ∀ id, s.ownerOf id ≠ 0 ↔ ∃ m ∈ s.mints, m.tokenId = id
  /-- A token that is not revealed is still with the account that minted it. -/
  unrevealed : ∀ m ∈ s.mints, (s.tokens m.tokenId).revealed = false →
    s.ownerOf m.tokenId = m.minter
  revealed_minted : ∀ id, (s.tokens id).revealed = true → ∃ m ∈ s.mints, m.tokenId = id
  pending : ∀ account id, id ≠ 0 → ((s.accounts account).pendingMint = id ↔
    s.MintedBy id account ∧ (s.tokens id).revealed = false)
  minted : ∀ account,
    (s.accounts account).minted = s.mints.countP (fun m => m.minter = account)
  minted_le : ∀ account, (s.accounts account).minted ≤ MAX_LIFETIME_MINTS

section Update

variable {s : GuardiansStorage erc} {auth : Address} {base : erc.State} {epoch : Nat}

theorem ownerOf_moved (h : Updates s receiver id auth accounts base epoch) :
    (s.moved base accounts id epoch).ownerOf = Function.update s.ownerOf id receiver :=
  erc.ownerOf_update h.base_eq

theorem moved_revealed (s : GuardiansStorage erc) (id' : Nat) :
    ((s.moved base accounts id epoch).tokens id').revealed = (s.tokens id').revealed := by
  rw [moved_tokens, Function.update_apply]
  split
  · next h => rw [h]
  · rfl

theorem moved_epoch (s : GuardiansStorage erc) (id' : Nat) :
    ((s.moved base accounts id epoch).tokens id').ownershipEpoch =
      if id' = id then epoch else (s.tokens id').ownershipEpoch := by
  rw [moved_tokens, Function.update_apply]
  split <;> rfl

end Update

namespace OwnershipInvariant

variable {s s' : GuardiansStorage erc}

theorem of_deployed (h : Deployed s) : OwnershipInvariant s := by
  have howner : s.ownerOf = fun _ => 0 := by
    unfold GuardiansStorage.ownerOf
    rw [h.base]
    exact funext erc.ownerOf_empty
  have hzero (l : Nat) : ownedAt 0 l = 0 := by
    rw [ownedAt_eq]
    exact lane_zero 16 l
  refine
    { indexed := fun a ha => ⟨fun l _ l' _ hne => ?_, fun id hid => ?_⟩
      owned_iff := fun id => ?_
      unrevealed := fun m hm => ?_
      revealed_minted := fun id hr => ?_
      pending := fun account id hid => ?_
      minted := fun account => ?_
      minted_le := fun account => ?_ }
  · rw [h.accounts] at hne
    exact absurd (hzero l) hne
  · rw [h.accounts, howner]
    exact ⟨fun ⟨l, _, he⟩ => absurd ((hzero l).symm.trans he) hid.symm, fun he => absurd he ha.symm⟩
  · rw [howner, h.mints]
    simp
  · rw [h.mints] at hm
    exact nomatch hm
  · rw [h.tokens] at hr
    exact nomatch hr
  · unfold GuardiansStorage.MintedBy
    rw [h.accounts, h.mints]
    simp [Ne.symm hid]
  · rw [h.accounts, h.mints]
    rfl
  · rw [h.accounts]
    exact Nat.zero_le _

/-- The invariant reads the accounts, the owners, the mints, and what is revealed. -/
theorem congr (hinv : OwnershipInvariant s) (haccounts : s'.accounts = s.accounts)
    (howner : s'.ownerOf = s.ownerOf) (hmints : s'.mints = s.mints)
    (hrevealed : ∀ id, (s'.tokens id).revealed = (s.tokens id).revealed) :
    OwnershipInvariant s' where
  indexed := by rw [haccounts, howner]; exact hinv.indexed
  owned_iff id := by rw [howner, hmints]; exact hinv.owned_iff id
  unrevealed m hm := by
    rw [hmints] at hm
    rw [hrevealed, howner]
    exact hinv.unrevealed m hm
  revealed_minted id hr := by
    rw [hrevealed] at hr
    rw [hmints]
    exact hinv.revealed_minted id hr
  pending account id hid := by
    unfold GuardiansStorage.MintedBy
    rw [haccounts, hmints, hrevealed]
    exact hinv.pending account id hid
  minted account := by rw [haccounts, hmints]; exact hinv.minted account
  minted_le account := by rw [haccounts]; exact hinv.minted_le account

theorem pendingMinted (hinv : OwnershipInvariant s) : PendingMinted s := fun account hne => by
  obtain ⟨⟨m, hm, he, -⟩, -⟩ := (hinv.pending account _ hne).mp rfl
  exact ⟨m, hm, he⟩

/-- A token was minted once. -/
theorem mint_unique (hpool : PoolInvariant s) {m m' : Mint} (hm : m ∈ s.mints)
    (hm' : m' ∈ s.mints) (he : m.tokenId = m'.tokenId) : m = m' :=
  List.inj_on_of_nodup_map hpool.nodup_minted hm hm' he

/-- **A transfer keeps the invariant: only a revealed token moves.** -/
theorem transfer (hinv : OwnershipInvariant s) (hpool : PoolInvariant s) {auth : Address}
    {base : erc.State} {epoch : Nat} (hreceiver : receiver ≠ 0) (howned : s.ownerOf id ≠ 0)
    (hu : Updates s receiver id auth accounts base epoch) :
    OwnershipInvariant (s.moved base accounts id epoch) := by
  obtain ⟨m, hm, rfl⟩ := (hinv.owned_iff id).mp howned
  obtain ⟨hpos, hle⟩ := hpool.minted_bounds hm
  obtain ⟨hmoves, hindexed⟩ := moveLanes_indexed hinv.indexed (by omega)
    (Nat.lt_of_le_of_lt hle (by decide)) hreceiver hu.moves
  have howner := ownerOf_moved hu
  have hrevealed := hu.revealed howned
  refine
    { indexed := by rw [howner]; exact hindexed
      owned_iff := fun id => ?_
      unrevealed := fun m' hm' hr => ?_
      revealed_minted := fun id hr => hinv.revealed_minted id (moved_revealed s id ▸ hr)
      pending := fun account id hid => ?_
      minted := fun account => (hmoves.minted account).trans (hinv.minted account)
      minted_le := fun account => (hmoves.minted account).symm ▸ hinv.minted_le account }
  · rw [howner]
    by_cases he : id = m.tokenId
    · rw [he, Function.update_self]
      exact ⟨fun _ => ⟨m, hm, rfl⟩, fun _ => hreceiver⟩
    · rw [Function.update_of_ne he]
      exact hinv.owned_iff id
  · rw [moved_revealed] at hr
    have hne : m'.tokenId ≠ m.tokenId := fun he => by
      rw [he, hrevealed] at hr
      exact nomatch hr
    rw [howner, Function.update_of_ne hne]
    exact hinv.unrevealed m' hm' hr
  · rw [moved_revealed]
    exact (hmoves.pendingMint account) ▸ hinv.pending account id hid

/-- **A mint keeps the invariant: its token was never minted before.** -/
theorem mint (hinv : OwnershipInvariant s) (hpool : PoolInvariant s) {sender : Address}
    {random : Nat} {base : erc.State} {epoch : Nat} (hfound : Mints s sender random)
    (hu : Updates (s.preparedMint sender random) sender (s.drawnId random) 0
      accounts base epoch) :
    OwnershipInvariant
      ((s.preparedMint sender random).moved base accounts (s.drawnId random) epoch) := by
  obtain ⟨⟨hpos, hle⟩, hnew⟩ := hpool.left_spec (hpool.drawnId_left hfound.drawn_lt random)
  generalize hid : s.drawnId random = id at *
  have hbound : id < 2 ^ 16 := Nat.lt_of_le_of_lt hle (by decide)
  have hne : id ≠ 0 := by omega
  have hunrevealed : (s.tokens id).revealed = false := by
    by_contra hr
    obtain ⟨m, hm, he⟩ := hinv.revealed_minted id (Bool.not_eq_false _ ▸ hr)
    exact hnew m hm he
  -- only `owned` is read by the index, and the mint has not touched it yet
  have hprepared : (s.preparedMint sender random).accounts = Function.update s.accounts sender
      ⟨id, (s.accounts sender).minted + 1, (s.accounts sender).owned⟩ := by
    unfold preparedMint
    rw [hid, Nat.mod_eq_of_lt hbound]
  have howned (a : Address) :
      ((s.preparedMint sender random).accounts a).owned = (s.accounts a).owned := by
    rw [hprepared]
    by_cases ha : a = sender
    · rw [ha, Function.update_self]
    · rw [Function.update_of_ne ha]
  have hindexed : Indexed (s.preparedMint sender random).accounts s.ownerOf := fun a ha => by
    rw [howned]
    exact hinv.indexed a ha
  obtain ⟨hmoves, hindexed'⟩ := moveLanes_indexed hindexed hne hbound hfound.sender_ne hu.moves
  have howner := ownerOf_moved hu
  have hmints : ((s.preparedMint sender random).moved base accounts id epoch).mints =
      ⟨s.drawnSlot random, id, sender⟩ :: s.mints := by
    unfold moved preparedMint
    rw [hid]
  have hrevealed (id' : Nat) :
      (((s.preparedMint sender random).moved base accounts id epoch).tokens id').revealed =
        (s.tokens id').revealed := moved_revealed _ id'
  have hpending (a : Address) : (accounts a).pendingMint =
      if a = sender then id else (s.accounts a).pendingMint := by
    rw [hmoves.pendingMint, hprepared]
    split
    · next ha => rw [ha, Function.update_self]
    · next ha => rw [Function.update_of_ne ha]
  have hminted (a : Address) : (accounts a).minted =
      if a = sender then (s.accounts sender).minted + 1 else (s.accounts a).minted := by
    rw [hmoves.minted, hprepared]
    split
    · next ha => rw [ha, Function.update_self]
    · next ha => rw [Function.update_of_ne ha]
  refine
    { indexed := by rw [howner]; exact hindexed'
      owned_iff := fun id' => ?_
      unrevealed := fun m hm hr => ?_
      revealed_minted := fun id' hr => ?_
      pending := fun account id' hid' => ?_
      minted := fun account => ?_
      minted_le := fun account => ?_ }
  · rw [howner, hmints]
    by_cases he : id' = id
    · rw [he, Function.update_self]
      exact ⟨fun _ => ⟨_, List.mem_cons_self, rfl⟩, fun _ => hfound.sender_ne⟩
    · rw [Function.update_of_ne he]
      refine (hinv.owned_iff id').trans ?_
      simp [Ne.symm he]
  · rw [hrevealed] at hr
    rw [hmints] at hm
    rw [howner]
    rcases List.mem_cons.mp hm with rfl | hm
    · exact Function.update_self ..
    · rw [Function.update_of_ne (hnew m hm)]
      exact hinv.unrevealed m hm hr
  · rw [hrevealed] at hr
    obtain ⟨m, hm, he⟩ := hinv.revealed_minted id' hr
    rw [hmints]
    exact ⟨m, List.mem_cons_of_mem _ hm, he⟩
  · rw [hrevealed]
    show (accounts account).pendingMint = id' ↔ _
    unfold GuardiansStorage.MintedBy
    rw [hpending, hmints]
    have hold := hinv.pending account id' hid'
    unfold GuardiansStorage.MintedBy at hold
    by_cases ha : account = sender
    · rw [if_pos ha]
      rw [ha, hfound.pending] at hold
      constructor
      · rintro rfl
        exact ⟨⟨_, List.mem_cons_self, rfl, ha.symm⟩, hunrevealed⟩
      · rintro ⟨⟨m, hm, he, hminter⟩, hr⟩
        rcases List.mem_cons.mp hm with rfl | hm
        · exact he
        · exact absurd (hold.mpr ⟨⟨m, hm, he, hminter.trans ha⟩, hr⟩) hid'.symm
    · rw [if_neg ha, hold]
      simp [Ne.symm ha]
  · show (accounts account).minted = _
    rw [hminted, hmints, List.countP_cons]
    by_cases ha : account = sender
    · rw [if_pos ha, hinv.minted, ha, if_pos (by simp)]
    · rw [if_neg ha, hinv.minted, if_neg (by simp [Ne.symm ha]), Nat.add_zero]
  · show (accounts account).minted ≤ _
    rw [hminted]
    have hlt := hfound.minted_lt
    split
    · exact hlt
    · exact hinv.minted_le account

/-- **A birth keeps the invariant: the owner of the token is the account that minted it.** -/
theorem birth (hinv : OwnershipInvariant s) (hpool : PoolInvariant s) {sequence : Nat}
    {random : Bytes32} {m : Mint} (hm : m ∈ s.mints)
    (hr : (s.tokens m.tokenId).revealed = false) :
    OwnershipInvariant (s.born hashes m.tokenId sequence random) := by
  have howner := hinv.unrevealed m hm hr
  have hbounds := hpool.minted_bounds hm
  have hne : m.tokenId ≠ 0 := by omega
  have hpending : (s.accounts m.minter).pendingMint = m.tokenId :=
    (hinv.pending m.minter _ hne).mpr ⟨⟨m, hm, rfl, rfl⟩, hr⟩
  have hrevealed (id' : Nat) : ((s.born hashes m.tokenId sequence random).tokens id').revealed =
      if id' = m.tokenId then true else (s.tokens id').revealed := by
    rw [born_tokens, Function.update_apply]
    split <;> rfl
  have haccount (a : Address) : (s.born hashes m.tokenId sequence random).accounts a =
      if a = m.minter then { s.accounts a with pendingMint := 0 } else s.accounts a := by
    rw [born_accounts, howner, Function.update_apply]
    split
    · next h => rw [h]
    · rfl
  refine
    { indexed := fun a ha => ?_
      owned_iff := hinv.owned_iff
      unrevealed := fun m' hm' hr' => ?_
      revealed_minted := fun id hr' => ?_
      pending := fun account id hid => ?_
      minted := fun account => ?_
      minted_le := fun account => ?_ }
  · rw [haccount]
    split
    · exact hinv.indexed a ha
    · exact hinv.indexed a ha
  · rw [hrevealed] at hr'
    split at hr'
    · exact nomatch hr'
    · exact hinv.unrevealed m' hm' hr'
  · rw [hrevealed] at hr'
    split at hr'
    · next he => exact ⟨m, hm, he.symm⟩
    · exact hinv.revealed_minted id hr'
  · rw [haccount, hrevealed]
    have hold := hinv.pending account id hid
    by_cases ha : account = m.minter
    · rw [if_pos ha]
      rw [ha, hpending] at hold
      refine ⟨fun h0 => absurd h0.symm hid, fun ⟨hby, hun⟩ => ?_⟩
      split at hun
      · exact nomatch hun
      · next hother => exact absurd (hold.mpr ⟨ha ▸ hby, hun⟩).symm hother
    · rw [if_neg ha]
      by_cases he : id = m.tokenId
      · rw [if_pos he]
        refine ⟨fun hp => ?_, fun ⟨_, hun⟩ => nomatch hun⟩
        obtain ⟨⟨m', hm', he', hminter⟩, -⟩ := hold.mp hp
        rw [mint_unique hpool hm' hm (he'.trans he)] at hminter
        exact absurd hminter.symm ha
      · rw [if_neg he]
        exact hold
  · rw [haccount]
    split
    · exact hinv.minted account
    · exact hinv.minted account
  · rw [haccount]
    split
    · exact hinv.minted_le account
    · exact hinv.minted_le account

end OwnershipInvariant

end Mapae.Guardians
