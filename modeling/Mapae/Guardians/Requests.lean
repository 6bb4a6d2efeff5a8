import Mapae.Guardians.Ownership

/-!
# Birth requests

An entry of `requestToken` is a request that was made: it names a minted token and an attempt
number of that token. Attempt numbers only grow, so the entries of one token differ, and only
one of them can carry the latest attempt. That one was made with the token's `sequence`.

The keys of requests are hashes of the entropy contract, the provider and the sequence number;
`KeysApart` says that they do not collide.
-/

namespace Mapae.Guardians

open Mapae.Infra GuardiansStorage

variable {erc : Erc721} {hashes : Hashes}

/-- The hash of a request's key does not collide. -/
def KeysApart (hashes : Hashes) : Prop :=
  ∀ e p q e' p' q', hashes.requestKey e p q = hashes.requestKey e' p' q' →
    e = e' ∧ p = p' ∧ q = q'

/-! ## The packed request -/

section Packed

variable {id id' attempt attempt' : Nat}

theorem request_low (hid : id < 2 ^ 16) (attempt : Nat) : request id attempt &&& 0xffff = id := by
  have hlane : lane 16 0 (request id attempt) = id := by
    unfold request
    rw [lane_or, show attempt <<< 16 = attempt * 2 ^ 16 from Nat.shiftLeft_eq _ _]
    have h₁ : lane 16 0 id = id := by
      rw [lane_eq, Nat.mul_zero, Nat.pow_zero, Nat.div_one, Nat.mod_eq_of_lt hid]
    have h₂ : lane 16 0 (attempt * 2 ^ 16) = 0 := by
      rw [lane_eq, Nat.mul_zero, Nat.pow_zero, Nat.div_one, Nat.mul_mod_left]
    rw [h₁, h₂, Nat.or_zero]
  rw [show (0xffff : Nat) = 2 ^ 16 - 1 from rfl, Nat.and_two_pow_sub_one_eq_mod]
  rw [lane_eq, Nat.mul_zero, Nat.pow_zero, Nat.div_one] at hlane
  exact hlane

theorem request_high (hid : id < 2 ^ 16) (attempt : Nat) : request id attempt >>> 16 = attempt := by
  unfold request
  rw [Nat.shiftRight_or_distrib, Nat.shiftLeft_shiftRight,
    (Nat.shiftRight_eq_div_pow id 16).trans (Nat.div_eq_of_lt hid), Nat.zero_or]

theorem request_inj (hid : id < 2 ^ 16) (hid' : id' < 2 ^ 16)
    (h : request id attempt = request id' attempt') : id = id' ∧ attempt = attempt' := by
  have hlow := congrArg (· &&& 0xffff) h
  have hhigh := congrArg (· >>> 16) h
  simp only [request_low hid, request_low hid'] at hlow
  simp only [request_high hid, request_high hid'] at hhigh
  exact ⟨hlow, hhigh⟩

theorem request_ne_zero (hid : id < 2 ^ 16) (hne : id ≠ 0) : request id attempt ≠ 0 := fun h => by
  have hlow := request_low hid attempt
  rw [h, Nat.zero_and] at hlow
  exact hne hlow.symm

end Packed

/-! ## The invariant -/

structure RequestInvariant (hashes : Hashes) (s : GuardiansStorage erc) : Prop where
  /-- An entry is a request of a minted token, up to its latest attempt. -/
  decoded : ∀ key, s.requestToken key ≠ 0 → ∃ m ∈ s.mints, ∃ attempt,
    s.requestToken key = request m.tokenId attempt ∧ attempt ≠ 0 ∧
      attempt ≤ (s.tokens m.tokenId).attempt
  unique : ∀ key key', s.requestToken key ≠ 0 → s.requestToken key = s.requestToken key' →
    key = key'
  /-- The latest request of a token was made with its sequence number. -/
  latest : ∀ m ∈ s.mints, ∀ key,
    s.requestToken key = request m.tokenId (s.tokens m.tokenId).attempt →
      ∃ code, key = requestKey hashes code (s.tokens m.tokenId).sequence

theorem moved_attempt {base : erc.State} {accounts : Address → Account} {id epoch : Nat}
    (s : GuardiansStorage erc) (id' : Nat) :
    ((s.moved base accounts id epoch).tokens id').attempt = (s.tokens id').attempt := by
  rw [moved_tokens, Function.update_apply]
  split
  · next h => rw [h]
  · rfl

theorem moved_sequence {base : erc.State} {accounts : Address → Account} {id epoch : Nat}
    (s : GuardiansStorage erc) (id' : Nat) :
    ((s.moved base accounts id epoch).tokens id').sequence = (s.tokens id').sequence := by
  rw [moved_tokens, Function.update_apply]
  split
  · next h => rw [h]
  · rfl

namespace RequestInvariant

variable {s s' : GuardiansStorage erc}

theorem of_deployed (h : Deployed s) : RequestInvariant hashes s where
  decoded key hne := absurd (congrFun h.requestToken key) hne
  unique key _ hne := absurd (congrFun h.requestToken key) hne
  latest m hm := by
    rw [h.mints] at hm
    exact nomatch hm

/-- The invariant reads the requests, the mints, and of the tokens the attempt and sequence. -/
theorem congr (hinv : RequestInvariant hashes s) (hrequest : s'.requestToken = s.requestToken)
    (hmints : s'.mints = s.mints) (hattempt : ∀ id, (s'.tokens id).attempt = (s.tokens id).attempt)
    (hsequence : ∀ id, (s'.tokens id).sequence = (s.tokens id).sequence) :
    RequestInvariant hashes s' where
  decoded key hne := by
    rw [hrequest] at hne
    simp only [hrequest, hmints, hattempt]
    exact hinv.decoded key hne
  unique key key' := by
    rw [hrequest]
    exact hinv.unique key key'
  latest m hm key := by
    rw [hmints] at hm
    simp only [hrequest, hattempt, hsequence]
    exact hinv.latest m hm key

theorem bound (hpool : PoolInvariant s) {m : Mint} (hm : m ∈ s.mints) : m.tokenId < 2 ^ 16 :=
  Nat.lt_of_le_of_lt (hpool.minted_bounds hm).2 (by decide)

theorem ne_zero (hpool : PoolInvariant s) {m : Mint} (hm : m ∈ s.mints) : m.tokenId ≠ 0 := by
  have := (hpool.minted_bounds hm).1
  omega

/-- **A request writes one entry, under an attempt number that no entry of the token has.** -/
theorem request (hinv : RequestInvariant hashes s) (hpool : PoolInvariant s) {m : Mint}
    (hm : m ∈ s.mints) {code : Implementation} {sequence : Nat} :
    RequestInvariant hashes (s.requested hashes code m.tokenId sequence) := by
  have hentry (key : Bytes32) : (s.requested hashes code m.tokenId sequence).requestToken key =
      if key = requestKey hashes code sequence then
        Guardians.request m.tokenId ((s.tokens m.tokenId).attempt + 1)
      else s.requestToken key := Function.update_apply ..
  have hattempt (id : Nat) : ((s.requested hashes code m.tokenId sequence).tokens id).attempt =
      if id = m.tokenId then (s.tokens m.tokenId).attempt + 1 else (s.tokens id).attempt := by
    rw [requested_tokens, Function.update_apply]
    split <;> rfl
  have hsequence (id : Nat) : ((s.requested hashes code m.tokenId sequence).tokens id).sequence =
      if id = m.tokenId then sequence else (s.tokens id).sequence := by
    rw [requested_tokens, Function.update_apply]
    split <;> rfl
  -- no earlier entry carries the new attempt
  have hnew (key : Bytes32) :
      s.requestToken key ≠ Guardians.request m.tokenId ((s.tokens m.tokenId).attempt + 1) := by
    intro he
    obtain ⟨m', hm', attempt, hvalue, -, hle⟩ := hinv.decoded key
      (he ▸ request_ne_zero (bound hpool hm) (ne_zero hpool hm))
    obtain ⟨hid, hat⟩ := request_inj (bound hpool hm') (bound hpool hm) (hvalue.symm.trans he)
    rw [hid] at hle
    omega
  refine { decoded := fun key hne => ?_, unique := fun key key' hne he => ?_,
           latest := fun m' hm' key he => ?_ }
  · rw [hentry] at hne ⊢
    split
    · exact ⟨m, hm, _, rfl, Nat.succ_ne_zero _, by rw [hattempt, if_pos rfl]⟩
    · next hkey =>
      rw [if_neg hkey] at hne
      obtain ⟨m', hm', attempt, hvalue, hzero, hle⟩ := hinv.decoded key hne
      refine ⟨m', hm', attempt, hvalue, hzero, ?_⟩
      rw [hattempt]
      split
      · next hid =>
        rw [hid] at hle
        omega
      · exact hle
  · rw [hentry] at hne
    rw [hentry, hentry] at he
    by_cases h₁ : key = requestKey hashes code sequence <;>
      by_cases h₂ : key' = requestKey hashes code sequence
    · exact h₁.trans h₂.symm
    · rw [if_pos h₁, if_neg h₂] at he
      exact absurd he.symm (hnew key')
    · rw [if_neg h₁, if_pos h₂] at he
      exact absurd he (hnew key)
    · rw [if_neg h₁, if_neg h₂] at he
      rw [if_neg h₁] at hne
      exact hinv.unique key key' hne he
  · rw [hentry, hattempt] at he
    rw [hsequence]
    by_cases hkey : key = requestKey hashes code sequence
    · rw [if_pos hkey] at he
      have hid := (request_inj (bound hpool hm) (bound hpool hm') he).1
      rw [if_pos hid.symm]
      exact ⟨code, hkey⟩
    · rw [if_neg hkey] at he
      by_cases hid : m'.tokenId = m.tokenId
      · rw [if_pos hid, hid] at he
        exact absurd he (hnew key)
      · rw [if_neg hid] at he ⊢
        exact hinv.latest m' hm' key he

/-- A birth takes its request out. -/
theorem birth (hinv : RequestInvariant hashes s) (hpool : PoolInvariant s) {id sequence : Nat} {random : Bytes32} :
    RequestInvariant hashes (s.born hashes id sequence random) := by
  have hentry (key : Bytes32) : (s.born hashes id sequence random).requestToken key =
      if key = requestKey hashes s.implementation sequence then 0 else s.requestToken key :=
    Function.update_apply ..
  have hattempt (id' : Nat) : ((s.born hashes id sequence random).tokens id').attempt =
      (s.tokens id').attempt := by
    rw [born_tokens, Function.update_apply]
    split
    · next h => rw [h]
    · rfl
  have hsequence (id' : Nat) : ((s.born hashes id sequence random).tokens id').sequence =
      (s.tokens id').sequence := by
    rw [born_tokens, Function.update_apply]
    split
    · next h => rw [h]
    · rfl
  have hkept {key : Bytes32} (hne : (s.born hashes id sequence random).requestToken key ≠ 0) :
      (s.born hashes id sequence random).requestToken key = s.requestToken key := by
    rw [hentry] at hne ⊢
    split
    · next h => exact absurd (if_pos h) hne
    · rfl
  refine { decoded := fun key hne => ?_, unique := fun key key' hne he => ?_,
           latest := fun m hm key he => ?_ }
  · have hsame := hkept hne
    rw [hsame] at hne ⊢
    simp only [hattempt]
    exact hinv.decoded key hne
  · have hsame := hkept hne
    have hsame' := hkept (he ▸ hne)
    rw [hsame, hsame'] at he
    exact hinv.unique key key' (hsame ▸ hne) he
  · rw [hattempt] at he
    rw [hsequence]
    refine hinv.latest m hm key ?_
    rw [← he, hkept (he ▸ request_ne_zero (bound hpool hm) (ne_zero hpool hm))]

/-- **A mint brings a token that no request names.** -/
theorem mint (hinv : RequestInvariant hashes s) (hpool : PoolInvariant s) {sender : Address}
    {random : Nat} {base : erc.State} {accounts : Address → Account} {epoch : Nat}
    (hdrawn : s.drawn < MAX_SUPPLY) :
    RequestInvariant hashes
      ((s.preparedMint sender random).moved base accounts (s.drawnId random) epoch) := by
  obtain ⟨⟨hpos, hle⟩, hnew⟩ := hpool.left_spec (hpool.drawnId_left hdrawn random)
  have hattempt (id : Nat) : (((s.preparedMint sender random).moved base accounts
      (s.drawnId random) epoch).tokens id).attempt = (s.tokens id).attempt := moved_attempt _ id
  have hsequence (id : Nat) : (((s.preparedMint sender random).moved base accounts
      (s.drawnId random) epoch).tokens id).sequence = (s.tokens id).sequence := moved_sequence _ id
  refine { decoded := fun key hne => ?_, unique := hinv.unique, latest := fun m hm key he => ?_ }
  · obtain ⟨m, hm, attempt, hvalue, hzero, hle⟩ := hinv.decoded key hne
    exact ⟨m, List.mem_cons_of_mem _ hm, attempt, hvalue, hzero, (hattempt _).symm ▸ hle⟩
  · rw [hattempt] at he
    rw [hsequence]
    rcases List.mem_cons.mp hm with rfl | hm
    · have hbound : s.drawnId random < 2 ^ 16 := Nat.lt_of_le_of_lt hle (by decide)
      have he : s.requestToken key = Guardians.request (s.drawnId random) _ := he
      obtain ⟨m, hm, attempt, hvalue, -⟩ := hinv.decoded key
        (he ▸ request_ne_zero hbound (by omega))
      exact absurd (request_inj (bound hpool hm) hbound (hvalue.symm.trans he)).1 (hnew m hm)
    · exact hinv.latest m hm key he

theorem transfer (hinv : RequestInvariant hashes s) {base : erc.State}
    {accounts : Address → Account} {id epoch : Nat} :
    RequestInvariant hashes (s.moved base accounts id epoch) :=
  hinv.congr rfl rfl (moved_attempt s) (moved_sequence s)

/-! ## Deliverable requests -/

/-- A request that can be delivered is the latest one of its token. -/
theorem deliverable_spec (hinv : RequestInvariant hashes s) (hpool : PoolInvariant s)
    {code : Implementation} {id sequence : Nat} (hd : Deliverable hashes s code id sequence) :
    ∃ m ∈ s.mints, m.tokenId = id ∧ s.requestToken (requestKey hashes code sequence) =
      Guardians.request id (s.tokens id).attempt := by
  have hne : s.requestToken (requestKey hashes code sequence) ≠ 0 := fun h => by
    have hid := hd.tokenId
    rw [h, Nat.zero_and] at hid
    exact hd.tokenId_ne hid.symm
  obtain ⟨m, hm, attempt, hvalue, -⟩ := hinv.decoded _ hne
  have hid : m.tokenId = id := by
    have := hd.tokenId
    rwa [hvalue, request_low (bound hpool hm)] at this
  have hattempt : attempt = (s.tokens id).attempt := by
    have := hd.attempt
    rwa [hvalue, request_high (bound hpool hm)] at this
  exact ⟨m, hm, hid, by rw [hvalue, hid, hattempt]⟩

theorem deliverable_of_latest (hpool : PoolInvariant s) {code : Implementation} {m : Mint}
    (hm : m ∈ s.mints) {sequence : Nat} (hr : (s.tokens m.tokenId).revealed = false)
    (h : s.requestToken (requestKey hashes code sequence) =
      Guardians.request m.tokenId (s.tokens m.tokenId).attempt) :
    Deliverable hashes s code m.tokenId sequence where
  tokenId := by rw [h, request_low (bound hpool hm)]
  tokenId_ne := ne_zero hpool hm
  attempt := by rw [h, request_high (bound hpool hm)]
  unrevealed := hr

/-- **At most one request of a token can be delivered: that of its sequence number.** -/
theorem deliverable_sequence (hinv : RequestInvariant hashes s) (hpool : PoolInvariant s)
    (hkeys : KeysApart hashes) {code : Implementation} {id sequence : Nat}
    (hd : Deliverable hashes s code id sequence) : sequence = (s.tokens id).sequence := by
  obtain ⟨m, hm, rfl, hvalue⟩ := hinv.deliverable_spec hpool hd
  obtain ⟨code', hkey⟩ := hinv.latest m hm _ hvalue
  exact (hkeys _ _ _ _ _ _ hkey).2.2

end RequestInvariant

end Mapae.Guardians
