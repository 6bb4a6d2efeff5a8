import Mapae.Guardians.Invariant
import Mapae.Guardians.TokenBase

/-!
# Births

A guardian is born once, by the callback of its latest request under the pair of entropy
contract and provider that the collection has then. Upgrades may go back and forth between
pairs, and an entropy contract may return any sequence number.

`Deliverable` is what the callback accepts. A token has at most one request that can be
delivered, and it is re-requested exactly when it has none.
-/

namespace Mapae.Guardians

open Mapae.Infra GuardiansStorage GuardianError

variable {erc : Erc721} {hashes : Hashes}

/-- The token of a suspended call. -/
def Suspended.token : Suspended → Option Nat
  | mint _ tokenId => some tokenId
  | rerequestBirth _ tokenId => some tokenId
  | safeTransferFrom => none
  | other => none

/-- The token that a step requests or writes a birth of. -/
def Action.birthOf (a : Action erc hashes) (m : Nested (GuardiansStorage erc) Suspended) :
    Option Nat :=
  match a with
  | .mintRequested _ => m.calls.head?.bind Suspended.token
  | .birthRerequested _ => m.calls.head?.bind Suspended.token
  | .entropyCallback _ sequence _ _ =>
    some (m.storage.requestToken (requestKey hashes m.storage.implementation sequence) &&& 0xffff)
  | _ => none

/-- What a birth or a request of one token leaves to another one. -/
structure Untouched (hashes : Hashes) (s s' : GuardiansStorage erc) (id : Nat) : Prop where
  token : s'.tokens id = s.tokens id
  owner : s'.ownerOf id = s.ownerOf id
  pending : ∀ account, (s'.accounts account).pendingMint = id ↔
    (s.accounts account).pendingMint = id
  deliverable : ∀ code sequence,
    Deliverable hashes s' code id sequence ↔ Deliverable hashes s code id sequence

/-- What holds of the requests in a state. -/
structure BirthsHeld (hashes : Hashes) (m : Nested (GuardiansStorage erc) Suspended) : Prop where
  /-- The callback accepts what can be delivered, from the current pair. -/
  accepted : ∀ sender sequence provider random,
    (∃ s', m.storage.entropyCallback hashes sender sequence provider random = .ok s') ↔
      (m.storage.implementation.entropy ≠ 0 ∧ sender = m.storage.implementation.entropy) ∧
        provider = m.storage.implementation.entropyProvider ∧
        ∃ id, Deliverable hashes m.storage m.storage.implementation id sequence
  /-- What can be delivered, under whichever pair, is the latest request of the token. -/
  latest : ∀ code id sequence, Deliverable hashes m.storage code id sequence →
    sequence = (m.storage.tokens id).sequence
  /-- No two requests of a token can be delivered. -/
  unique : ∀ id code sequence code' sequence', Deliverable hashes m.storage code id sequence →
    Deliverable hashes m.storage code' id sequence' → code = code' ∧ sequence = sequence'
  /-- A minter may request a birth again exactly when it cannot be delivered any more. -/
  rerequested : ∀ sender id payment,
    (m.perform (.rerequestBirth sender id payment : Action erc hashes).move).isSome ↔
      sender ≠ 0 ∧ m.calls.any Suspended.nonReentrant = false ∧
        (id ≠ 0 ∧ (m.storage.accounts sender).pendingMint = id) ∧
        (¬ ∃ sequence, Deliverable hashes m.storage m.storage.implementation id sequence) ∧
        checkedFee payment = .ok ⟨⟩
  /-- That request then succeeds with any new sequence number of the pair it was made under. -/
  finished : ∀ code id calls sequence, m.calls = .rerequestBirth code id :: calls →
    ((m.perform (.birthRerequested sequence : Action erc hashes).move).isSome ↔
      sequence ≠ 0 ∧ m.storage.requestToken (requestKey hashes code sequence) = 0 ∧
        (m.storage.tokens id).attempt + 1 < 2 ^ 32)

/-- What a step does to the births. -/
structure BirthStep (a : Action erc hashes) (m m' : Nested (GuardiansStorage erc) Suspended) :
    Prop where
  /-- Only the callback of the latest request under the current pair writes a birth. -/
  written : ∀ id,
    ((m'.storage.tokens id).revealed ≠ (m.storage.tokens id).revealed ∨
      (m'.storage.tokens id).seed ≠ (m.storage.tokens id).seed) →
    ∃ random, a = .entropyCallback m.storage.implementation.entropy (m.storage.tokens id).sequence
        m.storage.implementation.entropyProvider random ∧
      Deliverable hashes m.storage m.storage.implementation id (m.storage.tokens id).sequence ∧
      (m'.storage.tokens id).revealed = true ∧
      (m'.storage.tokens id).seed = hashes.birthSeed random id
  once : ∀ id, (m.storage.tokens id).revealed = true →
    (m'.storage.tokens id).revealed = true ∧
      (m'.storage.tokens id).seed = (m.storage.tokens id).seed
  others : ∀ id, a.birthOf m = some id → ∀ id', id' ≠ 0 → id' ≠ id →
    Untouched hashes m.storage m'.storage id'

/-! ## Requests in a state -/

section State

variable {s : GuardiansStorage erc}

/-- **Two requests of a token that can be delivered are the same one.** -/
theorem deliverable_unique (hkeys : KeysApart hashes) (hinv : GuardianInvariant hashes s)
    {id sequence sequence' : Nat} {code code' : Implementation}
    (h : Deliverable hashes s code id sequence) (h' : Deliverable hashes s code' id sequence') :
    code = code' ∧ sequence = sequence' := by
  obtain ⟨m, hm, rfl, hvalue⟩ := hinv.requests.deliverable_spec hinv.pool h
  obtain ⟨-, -, -, hvalue'⟩ := hinv.requests.deliverable_spec hinv.pool h'
  have hne : s.requestToken (requestKey hashes code sequence) ≠ 0 := by
    rw [hvalue]
    exact request_ne_zero (RequestInvariant.bound hinv.pool hm)
      (RequestInvariant.ne_zero hinv.pool hm)
  obtain ⟨hentropy, hprovider, hsequence⟩ :=
    hkeys _ _ _ _ _ _ (hinv.requests.unique _ _ hne (hvalue.trans hvalue'.symm))
  cases code
  cases code'
  exact ⟨congrArg₂ Implementation.mk hentropy hprovider, hsequence⟩

/-- **The latest request of a pending token is still there exactly when it can be delivered.** -/
theorem latest_iff_deliverable (hkeys : KeysApart hashes) (hinv : GuardianInvariant hashes s)
    {sender : Address} {id : Nat} (hne : id ≠ 0) (hpending : (s.accounts sender).pendingMint = id) :
    s.requestToken (requestKey hashes s.implementation (s.tokens id).sequence) =
        request id (s.tokens id).attempt ↔
      ∃ sequence, Deliverable hashes s s.implementation id sequence := by
  obtain ⟨⟨m, hm, rfl, -⟩, hr⟩ := (hinv.ownership.pending sender id hne).mp hpending
  constructor
  · exact fun h => ⟨_, RequestInvariant.deliverable_of_latest hinv.pool hm hr h⟩
  · rintro ⟨sequence, hd⟩
    obtain ⟨-, -, -, hvalue⟩ := hinv.requests.deliverable_spec hinv.pool hd
    rwa [hinv.requests.deliverable_sequence hinv.pool hkeys hd] at hvalue

end State

theorem birthsHeld_of_invariant (hkeys : KeysApart hashes)
    {m : Nested (GuardiansStorage erc) Suspended} (hinv : GuardianInvariant hashes m.storage) :
    BirthsHeld hashes m where
  accepted sender sequence provider random := by
    constructor
    · rintro ⟨s', h⟩
      obtain ⟨hsender, hprovider, id, hd, -⟩ := entropyCallback_eq_ok.mp h
      exact ⟨hsender, hprovider, id, hd⟩
    · rintro ⟨hsender, hprovider, id, hd⟩
      exact ⟨_, entropyCallback_eq_ok.mpr ⟨hsender, hprovider, id, hd, rfl⟩⟩
  latest _ _ _ hd := hinv.requests.deliverable_sequence hinv.pool hkeys hd
  unique _ _ _ _ _ hd hd' := deliverable_unique hkeys hinv hd hd'
  rerequested sender id payment := by
    have hperform : (m.perform (.rerequestBirth sender id payment : Action erc hashes).move).isSome ↔
        sender ≠ 0 ∧ m.calls.any Suspended.nonReentrant = false ∧
          m.storage.rerequestBirth hashes sender id payment = .ok ⟨⟩ := by
      rw [Option.isSome_iff_exists]
      constructor
      · rintro ⟨m', h⟩
        obtain ⟨r, hr, -⟩ := Option.map_eq_some_iff.mp h
        obtain ⟨hsender, hr⟩ := sentBy_eq_some.mp hr
        obtain ⟨hcalls, hr⟩ := nonReentrant_eq_some.mp hr
        obtain ⟨_, hok, -⟩ := Option.map_eq_some_iff.mp hr
        exact ⟨hsender, hcalls, toOption_eq_some.mp hok⟩
      · rintro ⟨hsender, hcalls, hok⟩
        exact ⟨_, Option.map_eq_some_iff.mpr ⟨_, sentBy_eq_some.mpr ⟨hsender,
          nonReentrant_eq_some.mpr ⟨hcalls, Option.map_eq_some_iff.mpr
            ⟨_, toOption_eq_some.mpr hok, rfl⟩⟩⟩, rfl⟩⟩
    rw [hperform, rerequestBirth_eq_ok]
    refine and_congr_right fun _ => and_congr_right fun _ => and_congr_right fun hpending => ?_
    exact and_congr_left' (not_congr (latest_iff_deliverable hkeys hinv hpending.1 hpending.2))
  finished code id calls sequence hcalls := by
    rw [Option.isSome_iff_exists]
    constructor
    · rintro ⟨m', h⟩
      obtain ⟨frame, frames, s, hframes, hf, -⟩ := Nested.perform_resume_eq_some.mp h
      have hcall : frame.call = .rerequestBirth code id := by
        unfold Nested.calls at hcalls
        rw [hframes, List.map_cons] at hcalls
        exact (List.cons.inj hcalls).1
      rw [hcall] at hf
      obtain ⟨hne, hfree, hattempt, -⟩ := requestBirth_eq_ok.mp (toOption_eq_some.mp hf)
      exact ⟨hne, hfree, hattempt⟩
    · rintro ⟨hne, hfree, hattempt⟩
      obtain ⟨frame, frames, hframes, hcall, -⟩ := List.map_eq_cons_iff.mp hcalls
      refine ⟨_, Nested.perform_resume_eq_some.mpr
        ⟨frame, frames, m.storage.requested hashes code id sequence, hframes, ?_, rfl⟩⟩
      rw [hcall]
      exact toOption_eq_some.mpr (requestBirth_eq_ok.mpr ⟨hne, hfree, hattempt, rfl⟩)

/-! ## One token and another -/

section Untouched

variable {s s' : GuardiansStorage erc} {id id' sequence : Nat} {code : Implementation}

/-- What can be delivered is read from the token and from one entry. -/
theorem deliverable_congr (htoken : s'.tokens id = s.tokens id)
    (hentry : s'.requestToken (requestKey hashes code sequence) =
      s.requestToken (requestKey hashes code sequence)) :
    Deliverable hashes s' code id sequence ↔ Deliverable hashes s code id sequence := by
  constructor
  · rintro ⟨hid, hne, hattempt, hr⟩
    rw [htoken] at hattempt hr
    rw [hentry] at hid hattempt
    exact ⟨hid, hne, hattempt, hr⟩
  · rintro ⟨hid, hne, hattempt, hr⟩
    rw [← htoken] at hattempt hr
    rw [← hentry] at hid hattempt
    exact ⟨hid, hne, hattempt, hr⟩

/-- **A request takes a free entry and touches no other token.** -/
theorem untouched_of_request (hbound : id < 2 ^ 16)
    (hfree : s.requestToken (requestKey hashes code sequence) = 0) (hzero : id' ≠ 0)
    (hne : id' ≠ id) : Untouched hashes s (s.requested hashes code id sequence) id' := by
  have htoken : (s.requested hashes code id sequence).tokens id' = s.tokens id' := by
    rw [requested_tokens, Function.update_of_ne hne]
  refine ⟨htoken, rfl, fun _ => Iff.rfl, fun code' sequence' => ?_⟩
  by_cases hkey : requestKey hashes code' sequence' = requestKey hashes code sequence
  · constructor
    · intro hd
      have hid := hd.tokenId
      rw [hkey] at hid
      change Function.update s.requestToken _ (request id _) _ &&& 0xffff = id' at hid
      rw [Function.update_self, request_low hbound] at hid
      exact absurd hid.symm hne
    · intro hd
      have hid := hd.tokenId
      rw [hkey, hfree, Nat.zero_and] at hid
      exact absurd hid.symm hzero
  · exact deliverable_congr htoken (Function.update_of_ne hkey ..)

/-- **A birth clears its own entry and touches no other token.** -/
theorem untouched_of_birth (hinv : GuardianInvariant hashes s) {random : Bytes32}
    (hd : Deliverable hashes s s.implementation id sequence) (hzero : id' ≠ 0) (hne : id' ≠ id) :
    Untouched hashes s (s.born hashes id sequence random) id' := by
  have htoken : (s.born hashes id sequence random).tokens id' = s.tokens id' := by
    rw [born_tokens, Function.update_of_ne hne]
  refine ⟨htoken, rfl, fun account => ?_, fun code' sequence' => ?_⟩
  · obtain ⟨m, hm, rfl, -⟩ := hinv.requests.deliverable_spec hinv.pool hd
    have howner := hinv.ownership.unrevealed m hm hd.unrevealed
    have hpending : (s.accounts m.minter).pendingMint = m.tokenId :=
      (hinv.ownership.pending m.minter _ hd.tokenId_ne).mpr ⟨⟨m, hm, rfl, rfl⟩, hd.unrevealed⟩
    rw [born_accounts, howner, Function.update_apply]
    split
    · next h =>
      rw [h, hpending]
      exact ⟨fun h0 => absurd h0.symm hzero, fun he => absurd he.symm hne⟩
    · exact Iff.rfl
  · by_cases hkey : requestKey hashes code' sequence' =
      requestKey hashes s.implementation sequence
    · constructor
      · intro hd'
        have hid := hd'.tokenId
        rw [hkey] at hid
        change Function.update s.requestToken _ 0 _ &&& 0xffff = id' at hid
        rw [Function.update_self, Nat.zero_and] at hid
        exact absurd hid.symm hzero
      · intro hd'
        have hid := hd'.tokenId
        rw [hkey, hd.tokenId] at hid
        exact absurd hid.symm hne
    · exact deliverable_congr htoken (Function.update_of_ne hkey ..)

/-- **No effect but a birth writes one.** -/
theorem Effect.sameSeed {kind : Kind} (h : Effect hashes s kind s') (hkind : kind ≠ .birth)
    (id : Nat) : (s'.tokens id).revealed = (s.tokens id).revealed ∧
      (s'.tokens id).seed = (s.tokens id).seed := by
  have hupdate {tokens : Nat → Token} {id' : Nat} {token : Token}
      (hr : token.revealed = (tokens id').revealed) (hs : token.seed = (tokens id').seed) :
      (Function.update tokens id' token id).revealed = (tokens id).revealed ∧
        (Function.update tokens id' token id).seed = (tokens id).seed := by
    rw [Function.update_apply]
    split
    · next h => exact ⟨hr.trans (by rw [h]), hs.trans (by rw [h])⟩
    · exact ⟨rfl, rfl⟩
  cases h with
  | mint | request | transfer => exact hupdate rfl rfl
  | birth => exact absurd rfl hkind
  | approve | admin => exact ⟨rfl, rfl⟩
  | claim claimed =>
    rw [(sameBirths_of_claim claimed).tokens]
    exact ⟨rfl, rfl⟩

end Untouched

/-! ## The result -/

section Steps

variable {m m' : Nested (GuardiansStorage erc) Suspended}

/-- What a callback did. -/
theorem perform_entropyCallback {sender provider : Address} {sequence : Nat} {random : Bytes32}
    (h : m.perform (.entropyCallback sender sequence provider random : Action erc hashes).move =
      some m') :
    sender = m.storage.implementation.entropy ∧
      provider = m.storage.implementation.entropyProvider ∧
      ∃ id, Deliverable hashes m.storage m.storage.implementation id sequence ∧
        m'.storage = m.storage.born hashes id sequence random := by
  obtain ⟨s, hs, rfl⟩ := Option.map_eq_some_iff.mp h
  obtain ⟨hsender, hprovider, id, hd, hs⟩ :=
    entropyCallback_eq_ok.mp (toOption_eq_some.mp (sentBy_eq_some.mp hs).2)
  exact ⟨hsender.2, hprovider, id, hd, hs⟩

/-- What the rest of a request did. -/
theorem perform_requested {a : Action erc hashes} {sequence : Nat}
    (ha : a = .mintRequested sequence ∨ a = .birthRerequested sequence)
    (h : m.perform a.move = some m') : ∃ frame frames code id, m.frames = frame :: frames ∧
      frame.call.token = some id ∧ (frame.call = .mint code id ∨
        frame.call = .rerequestBirth code id) ∧
      m.storage.requestToken (requestKey hashes code sequence) = 0 ∧
      m'.storage = m.storage.requested hashes code id sequence := by
  rcases ha with rfl | rfl
  · obtain ⟨frame, frames, s, hframes, hf, rfl⟩ := Nested.perform_resume_eq_some.mp h
    cases hcall : frame.call with
    | mint code id =>
      rw [hcall] at hf
      obtain ⟨-, hfree, -, rfl⟩ := requestBirth_eq_ok.mp (toOption_eq_some.mp hf)
      exact ⟨frame, frames, code, id, hframes, by rw [hcall]; rfl, .inl hcall, hfree, rfl⟩
    | rerequestBirth | safeTransferFrom | other =>
      rw [hcall] at hf
      exact nomatch hf
  · obtain ⟨frame, frames, s, hframes, hf, rfl⟩ := Nested.perform_resume_eq_some.mp h
    cases hcall : frame.call with
    | rerequestBirth code id =>
      rw [hcall] at hf
      obtain ⟨-, hfree, -, rfl⟩ := requestBirth_eq_ok.mp (toOption_eq_some.mp hf)
      exact ⟨frame, frames, code, id, hframes, by rw [hcall]; rfl, .inr hcall, hfree, rfl⟩
    | mint | safeTransferFrom | other =>
      rw [hcall] at hf
      exact nomatch hf

theorem others_of_requested (hr : (guardians erc hashes).Reachable m) {a : Action erc hashes}
    {sequence : Nat} (ha : a = .mintRequested sequence ∨ a = .birthRerequested sequence)
    (h : m.perform a.move = some m') {id : Nat}
    (hid : m.calls.head?.bind Suspended.token = some id) {id' : Nat} (hzero : id' ≠ 0)
    (hne : id' ≠ id) : Untouched hashes m.storage m'.storage id' := by
  obtain ⟨frame, frames, code, id₁, hframes, htoken, hcall, hfree, hstorage⟩ :=
    perform_requested ha h
  unfold Nested.calls at hid
  rw [hframes, List.map_cons, List.head?_cons, Option.bind_some, htoken] at hid
  cases hid
  have hsound := guardians_disciplined.sound (fun _ => invariant_of_deployed) hr
  rw [hframes] at hsound
  obtain ⟨hinv, -, hrelies, -⟩ := hsound
  have hminted : ∃ mint ∈ m.storage.mints, mint.tokenId = id := by
    rcases hcall with hcall | hcall <;> rw [hcall] at hrelies <;> exact hrelies
  obtain ⟨mint, hmint, rfl⟩ := hminted
  rw [hstorage]
  exact untouched_of_request (RequestInvariant.bound hinv.pool hmint) hfree hzero hne

/-- **A guardian is born once, by the callback of its live request.** -/
theorem guardian_births_held (hkeys : KeysApart hashes)
    (h : (guardians erc hashes).Reachable m) : BirthsHeld hashes m ∧
      ∀ (a : Action erc hashes) (m' : Nested (GuardiansStorage erc) Suspended), a ≠ .fail →
        m.perform a.move = some m' → BirthStep a m m' := by
  have hinv := guardian_invariant h
  refine ⟨birthsHeld_of_invariant hkeys hinv, fun a m' ha hm => ?_⟩
  refine { written := fun id hchanged => ?_, once := (guardian_extends h ha hm).revealed,
           others := fun id hid id' hzero hne => ?_ }
  · have hchanges := guardian_changes h ha hm
    cases a with
    | entropyCallback sender sequence provider random =>
      obtain ⟨rfl, rfl, id₁, hd, hstorage⟩ := perform_entropyCallback hm
      rw [hstorage, born_tokens, Function.update_apply] at hchanged ⊢
      by_cases hid : id = id₁
      · subst hid
        obtain rfl := hinv.requests.deliverable_sequence hinv.pool hkeys hd
        exact ⟨random, rfl, hd, by rw [if_pos rfl], by rw [if_pos rfl]⟩
      · rw [if_neg hid] at hchanged
        simp at hchanged
    | call | «return» | fail | rerequestBirth =>
      have hsame : m'.storage = m.storage := hchanges
      rw [hsame] at hchanged
      simp at hchanged
    | mint | mintRequested | birthRerequested | transferFrom | safeTransferFrom | approve | claim
      | setMintPaused | setResultSigner | upgrade | nextBlock =>
      obtain ⟨hrevealed, hseed⟩ := Effect.sameSeed hchanges (fun h => nomatch h) id
      rcases hchanged with hc | hc
      · exact absurd hrevealed hc
      · exact absurd hseed hc
  · cases a with
    | entropyCallback sender sequence provider random =>
      obtain ⟨-, -, id₁, hd, hstorage⟩ := perform_entropyCallback hm
      cases hid
      rw [hd.tokenId] at hne
      rw [hstorage]
      exact untouched_of_birth hinv hd hzero hne
    | mintRequested sequence => exact others_of_requested h (.inl rfl) hm hid hzero hne
    | birthRerequested sequence => exact others_of_requested h (.inr rfl) hm hid hzero hne
    | call | «return» | fail | mint | rerequestBirth | transferFrom | safeTransferFrom | approve
      | claim | setMintPaused | setResultSigner | upgrade | nextBlock => exact nomatch hid

end Steps

/-- A provider is replaced while a birth is pending. The birth is requested again, with the same
sequence number, and the old provider is reinstated before the new one answers. -/
def reinstated : List (Action plainErc721 pairHashes) :=
  [.mint 5 ⟨0, 0, 0⟩ 3, .mintRequested 9, .upgrade ⟨1, 3⟩, .rerequestBirth 5 4 ⟨0, 0, 0⟩,
    .birthRerequested 9, .upgrade ⟨1, 2⟩, .upgrade ⟨1, 3⟩]

theorem guardian_births_held_reinstated : ∃ m m',
    afterActions ⟨1, 2⟩ 7 0 reinstated = some m ∧
    m.perform (.entropyCallback 1 9 3 77 : Action plainErc721 pairHashes).move = some m' ∧
    (m'.storage.tokens 4).revealed = true ∧ BirthsHeld pairHashes m ∧
    BirthStep (.entropyCallback 1 9 3 77 : Action plainErc721 pairHashes) m m' := by
  have hsome : ((afterActions ⟨1, 2⟩ 7 0 reinstated).bind fun m =>
      (m.perform (.entropyCallback 1 9 3 77 : Action plainErc721 pairHashes).move).map fun m' =>
        (m'.storage.tokens 4).revealed) = some true := by decide +kernel
  obtain ⟨m, hm, hsome⟩ := Option.bind_eq_some_iff.mp hsome
  obtain ⟨m', hm', hrevealed⟩ := Option.map_eq_some_iff.mp hsome
  obtain ⟨hheld, hstep⟩ :=
    guardian_births_held keysApart_pairHashes (reachable_of_afterActions hm)
  exact ⟨m, m', hm, hm', hrevealed, hheld,
    hstep (.entropyCallback 1 9 3 77) m' (fun h => nomatch h) hm'⟩

end Mapae.Guardians
