import Mapae.Guardians.Contract

/-!
# What the functions of the collection do

One rule for each function: when it succeeds, which checks held and which storage it leaves.
Everything that is proved of the collection uses these rules, and not the functions.

`Effect` gathers them: a step of the contract is a mint, a request, a birth, a change of owner,
an approval, a claim, or a change that only the owner of the collection or the chain makes.
-/

namespace Mapae.Guardians

open Mapae.Infra GuardianError

variable {erc : Erc721} {hashes : Hashes}

namespace GuardiansStorage

variable {s s' : GuardiansStorage erc}

/-! ## Ownership -/

/-- The storage after `_update`. -/
def moved (s : GuardiansStorage erc) (base : erc.State) (accounts : Address → Account)
    (id epoch : Nat) : GuardiansStorage erc :=
  { s with
    base := base
    accounts := accounts
    tokens := Function.update s.tokens id { s.tokens id with ownershipEpoch := epoch } }

theorem moved_tokens {base : erc.State} {accounts : Address → Account} {id epoch : Nat} :
    (s.moved base accounts id epoch).tokens =
      Function.update s.tokens id { s.tokens id with ownershipEpoch := epoch } := rfl

/-- What a successful `_update` found, and what it did. -/
structure Updates (s : GuardiansStorage erc) (receiver : Address) (id : Nat) (auth : Address)
    (accounts : Address → Account) (base : erc.State) (epoch : Nat) : Prop where
  revealed : s.ownerOf id ≠ 0 → (s.tokens id).revealed = true
  moves : moveLanes s.accounts (s.ownerOf id) receiver id = .ok accounts
  base_eq : erc.update s.base receiver id auth = some base
  epoch_eq : epoch = (s.tokens id).ownershipEpoch + 1

theorem increment_eq_ok {bits value next : Nat} :
    increment bits value = .ok next ↔ value + 1 < 2 ^ bits ∧ next = value + 1 := by
  unfold increment
  split
  · next h => exact ⟨fun he => ⟨h, (Except.ok.inj he).symm⟩, fun he => by rw [he.2]⟩
  · next h => exact ⟨(fun he => nomatch he), fun he => absurd he.1 h⟩

theorem update_eq_ok {receiver auth previous : Address} {id : Nat}
    (h : s.update receiver id auth = .ok (previous, s')) :
    previous = s.ownerOf id ∧ ∃ accounts base epoch,
      Updates s receiver id auth accounts base epoch ∧ s' = s.moved base accounts id epoch := by
  obtain ⟨_, hguard, h⟩ := bind_eq_ok.mp h
  obtain ⟨accounts, haccounts, h⟩ := bind_eq_ok.mp h
  have hrevealed : s.ownerOf id ≠ 0 → (s.tokens id).revealed = true := fun hne => by
    by_contra hr
    exact throwIf_eq_ok.mp hguard ⟨hne, Bool.eq_false_iff.mpr hr⟩
  split at h
  · exact nomatch h
  · next base hbase =>
    obtain ⟨epoch, hepoch, h⟩ := bind_eq_ok.mp h
    cases pure_eq_ok.mp h
    exact ⟨rfl, accounts, base, epoch,
      ⟨hrevealed, haccounts, hbase, (increment_eq_ok.mp hepoch).2⟩, rfl⟩

theorem transferFrom_eq_ok {sender owner receiver : Address} {id : Nat}
    (h : s.transferFrom sender owner receiver id = .ok s') :
    receiver ≠ 0 ∧ s.ownerOf id = owner ∧ ∃ accounts base epoch,
      Updates s receiver id sender accounts base epoch ∧ s' = s.moved base accounts id epoch := by
  obtain ⟨_, hreceiver, h⟩ := bind_eq_ok.mp h
  obtain ⟨⟨previous, s₁⟩, hupdate, h⟩ := bind_eq_ok.mp h
  obtain ⟨_, hprevious, h⟩ := bind_eq_ok.mp h
  obtain ⟨rfl, hrest⟩ := update_eq_ok hupdate
  cases pure_eq_ok.mp h
  exact ⟨throwIf_eq_ok.mp hreceiver, not_not.mp (throwIf_eq_ok.mp hprevious), hrest⟩

/-! ## Births -/

/-- The slot that is drawn, and its id. -/
def drawnSlot (s : GuardiansStorage erc) (random : Nat) : Nat := random % (MAX_SUPPLY - s.drawn)

def drawnId (s : GuardiansStorage erc) (random : Nat) : Nat := poolAt s.idPool (s.drawnSlot random)

/-- The storage of a mint before the token is handed over. -/
def preparedMint (s : GuardiansStorage erc) (sender : Address) (random : Nat) :
    GuardiansStorage erc :=
  { (drawTokenId s random).2 with
    accounts := Function.update s.accounts sender
      { pendingMint := s.drawnId random % 2 ^ 16
        minted := (s.accounts sender).minted + 1
        owned := (s.accounts sender).owned }
    mints := ⟨s.drawnSlot random, s.drawnId random, sender⟩ :: s.mints }

/-- What a successful `mint` found. -/
structure Mints (s : GuardiansStorage erc) (sender : Address) (random : Nat) : Prop where
  sender_ne : sender ≠ 0
  pending : (s.accounts sender).pendingMint = 0
  drawn_lt : s.drawn < MAX_SUPPLY
  minted_lt : (s.accounts sender).minted < MAX_LIFETIME_MINTS
  unowned : s.ownerOf (s.drawnId random) = 0

theorem mint_eq_ok {sender : Address} {payment : Payment} {random id : Nat}
    (h : s.mint sender payment random = .ok (id, s')) :
    id = s.drawnId random ∧ Mints s sender random ∧ ∃ accounts base epoch,
      Updates (s.preparedMint sender random) sender id 0 accounts base epoch ∧
      s' = (s.preparedMint sender random).moved base accounts id epoch := by
  obtain ⟨_, -, h⟩ := bind_eq_ok.mp h
  obtain ⟨_, hpending, h⟩ := bind_eq_ok.mp h
  obtain ⟨_, hlimit, h⟩ := bind_eq_ok.mp h
  obtain ⟨_, -, h⟩ := bind_eq_ok.mp h
  obtain ⟨s₁, hsafe, h⟩ := bind_eq_ok.mp h
  obtain ⟨_, hsender, hsafe⟩ := bind_eq_ok.mp hsafe
  obtain ⟨⟨previous, s₂⟩, hupdate, hsafe⟩ := bind_eq_ok.mp hsafe
  obtain ⟨_, hprevious, hsafe⟩ := bind_eq_ok.mp hsafe
  cases pure_eq_ok.mp hsafe
  cases pure_eq_ok.mp h
  obtain ⟨rfl, hrest⟩ := update_eq_ok hupdate
  have hlimit := throwIf_eq_ok.mp hlimit
  simp only [not_or, Nat.not_le, ge_iff_le] at hlimit
  exact ⟨rfl,
    { sender_ne := throwIf_eq_ok.mp hsender
      pending := not_not.mp (throwIf_eq_ok.mp hpending)
      drawn_lt := hlimit.1
      minted_lt := hlimit.2.1
      unowned := not_not.mp (throwIf_eq_ok.mp hprevious) }, hrest⟩

/-- The storage after a request of a birth. -/
def requested (hashes : Hashes) (s : GuardiansStorage erc) (i : Implementation)
    (id sequence : Nat) : GuardiansStorage erc :=
  { s with
    requestToken := Function.update s.requestToken (requestKey hashes i sequence)
      (request id ((s.tokens id).attempt + 1))
    tokens := Function.update s.tokens id
      { s.tokens id with sequence := sequence, attempt := (s.tokens id).attempt + 1 } }

theorem requested_tokens {i : Implementation} {id sequence : Nat} :
    (s.requested hashes i id sequence).tokens = Function.update s.tokens id
      { s.tokens id with sequence := sequence, attempt := (s.tokens id).attempt + 1 } := rfl

theorem requestBirth_eq_ok {i : Implementation} {id sequence : Nat} :
    s.requestBirth hashes i id sequence = .ok s' ↔
      sequence ≠ 0 ∧ s.requestToken (requestKey hashes i sequence) = 0 ∧
        (s.tokens id).attempt + 1 < 2 ^ 32 ∧ s' = s.requested hashes i id sequence := by
  constructor
  · intro h
    obtain ⟨_, hguard, h⟩ := bind_eq_ok.mp h
    obtain ⟨attempt, hattempt, h⟩ := bind_eq_ok.mp h
    have hguard := throwIf_eq_ok.mp hguard
    obtain ⟨hlt, rfl⟩ := increment_eq_ok.mp hattempt
    simp only [not_or, not_not] at hguard
    cases pure_eq_ok.mp h
    exact ⟨hguard.1, hguard.2, hlt, rfl⟩
  · rintro ⟨hsequence, hkey, hlt, rfl⟩
    exact bind_eq_ok.mpr ⟨⟨⟩, throwIf_eq_ok.mpr (by simp [hsequence, hkey]),
      bind_eq_ok.mpr ⟨_, increment_eq_ok.mpr ⟨hlt, rfl⟩, rfl⟩⟩

/-- A birth is requested again by the minter, unless the latest request is still there. -/
theorem rerequestBirth_eq_ok {sender : Address} {id : Nat} {payment : Payment} :
    s.rerequestBirth hashes sender id payment = .ok ⟨⟩ ↔
      (id ≠ 0 ∧ (s.accounts sender).pendingMint = id) ∧
        s.requestToken (requestKey hashes s.implementation (s.tokens id).sequence) ≠
          request id (s.tokens id).attempt ∧ checkedFee payment = .ok ⟨⟩ := by
  constructor
  · intro h
    obtain ⟨_, hpending, h⟩ := bind_eq_ok.mp h
    obtain ⟨_, hlatest, h⟩ := bind_eq_ok.mp h
    have hpending := throwIf_eq_ok.mp hpending
    simp only [not_or, not_not] at hpending
    exact ⟨hpending, throwIf_eq_ok.mp hlatest, h⟩
  · rintro ⟨⟨hne, hpending⟩, hlatest, hfee⟩
    exact bind_eq_ok.mpr ⟨⟨⟩, throwIf_eq_ok.mpr (by simp [hne, hpending]),
      bind_eq_ok.mpr ⟨⟨⟩, throwIf_eq_ok.mpr hlatest, hfee⟩⟩

/-- A request that the entropy contract of the implementation may answer: it is the latest one
of a token that has no birth yet. -/
structure Deliverable (hashes : Hashes) (s : GuardiansStorage erc) (i : Implementation)
    (id sequence : Nat) : Prop where
  tokenId : s.requestToken (requestKey hashes i sequence) &&& 0xffff = id
  tokenId_ne : id ≠ 0
  attempt : s.requestToken (requestKey hashes i sequence) >>> 16 = (s.tokens id).attempt
  unrevealed : (s.tokens id).revealed = false

/-- The storage after the birth of a token. -/
def born (hashes : Hashes) (s : GuardiansStorage erc) (id sequence : Nat)
    (randomNumber : Bytes32) : GuardiansStorage erc :=
  { s with
    requestToken := Function.update s.requestToken (requestKey hashes s.implementation sequence) 0
    tokens := Function.update s.tokens id
      { s.tokens id with seed := hashes.birthSeed randomNumber id, revealed := true }
    accounts := Function.update s.accounts (s.ownerOf id)
      { s.accounts (s.ownerOf id) with pendingMint := 0 } }

theorem born_tokens {id sequence : Nat} {randomNumber : Bytes32} :
    (s.born hashes id sequence randomNumber).tokens = Function.update s.tokens id
      { s.tokens id with seed := hashes.birthSeed randomNumber id, revealed := true } := rfl

theorem born_accounts {id sequence : Nat} {randomNumber : Bytes32} :
    (s.born hashes id sequence randomNumber).accounts = Function.update s.accounts (s.ownerOf id)
      { s.accounts (s.ownerOf id) with pendingMint := 0 } := rfl

theorem entropyCallback_eq_ok {sender provider : Address} {sequence : Nat} {random : Bytes32} :
    s.entropyCallback hashes sender sequence provider random = .ok s' ↔
      (s.implementation.entropy ≠ 0 ∧ sender = s.implementation.entropy) ∧
        provider = s.implementation.entropyProvider ∧
        ∃ id, Deliverable hashes s s.implementation id sequence ∧
          s' = s.born hashes id sequence random := by
  constructor
  · intro h
    obtain ⟨_, hsender, h⟩ := bind_eq_ok.mp h
    obtain ⟨_, hguard, h⟩ := bind_eq_ok.mp h
    have hsender := throwIf_eq_ok.mp hsender
    have hguard := throwIf_eq_ok.mp hguard
    simp only [not_or, not_not] at hsender hguard
    obtain ⟨hprovider, hid, hrevealed, hattempt⟩ := hguard
    cases pure_eq_ok.mp h
    exact ⟨hsender, hprovider, _,
      ⟨rfl, hid, hattempt, Bool.eq_false_iff.mpr hrevealed⟩, rfl⟩
  · rintro ⟨hsender, hprovider, id, hd, rfl⟩
    obtain ⟨rfl, hid, hattempt, hrevealed⟩ := hd
    refine bind_eq_ok.mpr ⟨⟨⟩, throwIf_eq_ok.mpr (by simp [hsender]), bind_eq_ok.mpr ⟨⟨⟩, ?_, rfl⟩⟩
    exact throwIf_eq_ok.mpr (by simp [hprovider, hid, hrevealed, hattempt])

/-! ## Claims -/

/-- A checked result is of one of the three games, with a score that fits its lane. -/
theorem bounds_of_checkResult {r : Result} {signature : hashes.Signature}
    (h : s.checkResult hashes r signature = .ok ⟨⟩) : r.game ≤ 2 ∧ r.score ≤ MAX_SCORE := by
  obtain ⟨_, -, h⟩ := bind_eq_ok.mp h
  obtain ⟨_, -, h⟩ := bind_eq_ok.mp h
  obtain ⟨_, hfields, -⟩ := bind_eq_ok.mp h
  have hfields := throwIf_eq_ok.mp hfields
  simp only [not_or, Nat.not_lt, gt_iff_lt] at hfields
  obtain ⟨-, -, -, -, -, -, hgame, -, hscore, -⟩ := hfields
  exact ⟨hgame, hscore⟩

/-- The storage after a fresh result. -/
def grown (s : GuardiansStorage erc) (r : Result) : GuardiansStorage erc :=
  { s with
    claimedPayments := Function.update s.claimedPayments r.paymentTx true
    growth := Function.update s.growth r.tokenId
      { counters := (s.growth r.tokenId).counters + countersOf r
        bestScores := bestScoresWith (s.growth r.tokenId).bestScores r }
    applied := r :: s.applied }

theorem result_eq_ok {r : Result} {signature : hashes.Signature} {done : Bool}
    (h : s.result hashes r signature = .ok (done, s')) :
    s.checkResult hashes r signature = .ok ⟨⟩ ∧
      if s.claimedPayments r.paymentTx then done = false ∧ s' = s
      else done = true ∧ s' = s.grown r ∧
        (s.growth r.tokenId).counters.toNat + (countersOf r).toNat < 2 ^ 256 := by
  obtain ⟨_, hcheck, h⟩ := bind_eq_ok.mp h
  refine ⟨hcheck, ?_⟩
  split at h
  · next hclaimed =>
    cases pure_eq_ok.mp h
    rw [if_pos hclaimed]
    exact ⟨rfl, rfl⟩
  · next hclaimed =>
    obtain ⟨_, hfits, h⟩ := bind_eq_ok.mp h
    cases pure_eq_ok.mp h
    rw [if_neg hclaimed]
    exact ⟨rfl, rfl, Nat.not_le.mp (throwIf_eq_ok.mp hfits)⟩

/-- A checked honor is of a week that is sealed. -/
theorem sealed_of_checkHonor {h : Honor} {signature : hashes.Signature}
    (hc : s.checkHonor hashes h signature = .ok ⟨⟩) :
    h.week.toNat ≠ 0 ∧ sealedAt h.week.toNat ≤ s.timestamp := by
  obtain ⟨_, -, hc⟩ := bind_eq_ok.mp hc
  obtain ⟨_, -, hc⟩ := bind_eq_ok.mp hc
  obtain ⟨_, hweek, -⟩ := bind_eq_ok.mp hc
  have hweek := throwIf_eq_ok.mp hweek
  simp only [not_or, Nat.not_lt] at hweek
  exact hweek

/-- The week of the latest honor of a token. -/
def honorWeek (s : GuardiansStorage erc) (id : Nat) : Nat := (s.honors id &&& 0xffff#256).toNat

/-- The storage after a newer honor. -/
def honored (s : GuardiansStorage erc) (h : Honor) : GuardiansStorage erc :=
  { s with honors := Function.update s.honors h.tokenId (mergeHonor (s.honors h.tokenId) h) }

theorem honor_eq_ok {h : Honor} {signature : hashes.Signature} {done : Bool}
    (hh : s.honor hashes h signature = .ok (done, s')) :
    s.checkHonor hashes h signature = .ok ⟨⟩ ∧
      if h.week.toNat ≤ s.honorWeek h.tokenId then done = false ∧ s' = s
      else done = true ∧ s' = s.honored h := by
  obtain ⟨_, hcheck, hh⟩ := bind_eq_ok.mp hh
  refine ⟨hcheck, ?_⟩
  dsimp only at hh
  split at hh
  · next hstale =>
    cases pure_eq_ok.mp hh
    rw [if_pos (show h.week.toNat ≤ s.honorWeek h.tokenId from hstale)]
    exact ⟨rfl, rfl⟩
  · next hnew =>
    cases pure_eq_ok.mp hh
    rw [if_neg (show ¬ h.week.toNat ≤ s.honorWeek h.tokenId from hnew)]
    exact ⟨rfl, rfl⟩

section Loop

variable {α : Type} {f : GuardiansStorage erc → α → hashes.Signature →
  Except GuardianError (Bool × GuardiansStorage erc)}

theorem applyAll_cons {n : Nat} {entry : α} {signature : hashes.Signature}
    {rest : List (α × hashes.Signature)} {r : Nat × GuardiansStorage erc} :
    applyAll hashes f s n ((entry, signature) :: rest) = .ok r ↔
      ∃ done s₁, f s entry signature = .ok (done, s₁) ∧
        applyAll hashes f s₁ (if done then n + 1 else n) rest = .ok r := by
  constructor
  · intro h
    obtain ⟨⟨done, s₁⟩, hf, h⟩ := bind_eq_ok.mp h
    exact ⟨done, s₁, hf, h⟩
  · rintro ⟨done, s₁, hf, h⟩
    exact bind_eq_ok.mpr ⟨_, hf, h⟩

/-- **What one entry preserves, the loop preserves.** -/
theorem applyAll_invariant {P : GuardiansStorage erc → Prop}
    (hstep : ∀ s entry signature done s', P s → f s entry signature = .ok (done, s') → P s') :
    ∀ {entries : List (α × hashes.Signature)} {s s' : GuardiansStorage erc} {n n' : Nat}, P s →
      applyAll hashes f s n entries = .ok (n', s') → P s'
  | [], _, _, _, _, hP, h => by
    cases h
    exact hP
  | (entry, signature) :: rest, _, _, _, _, hP, h => by
    obtain ⟨done, s₁, hf, h⟩ := applyAll_cons.mp h
    exact applyAll_invariant hstep (hstep _ entry signature done s₁ hP hf) h

end Loop

/-- The parts of a successful claim. -/
theorem claim_eq_ok {c : ClaimCall hashes} {n : Nat} :
    s.claim hashes c = .ok (n, s') ↔
      ¬ (c.results.length + c.honors.length = 0 ∨
        c.results.length + c.honors.length > MAX_CLAIM_BATCH ∨
        c.resultSignatures.length ≠ c.results.length ∨
        c.honorSignatures.length ≠ c.honors.length) ∧
      ∃ n₁ s₁, applyAll hashes (fun s => s.result hashes) s 0
          (c.results.zip c.resultSignatures) = .ok (n₁, s₁) ∧
        applyAll hashes (fun s => s.honor hashes) s₁ n₁
          (c.honors.zip c.honorSignatures) = .ok (n, s') ∧ n ≠ 0 := by
  constructor
  · intro h
    obtain ⟨_, hbatch, h⟩ := bind_eq_ok.mp h
    obtain ⟨⟨n₁, s₁⟩, hresults, h⟩ := bind_eq_ok.mp h
    obtain ⟨⟨n₂, s₂⟩, hhonors, h⟩ := bind_eq_ok.mp h
    obtain ⟨_, hsome, h⟩ := bind_eq_ok.mp h
    cases pure_eq_ok.mp h
    exact ⟨throwIf_eq_ok.mp hbatch, n₁, s₁, hresults, hhonors, throwIf_eq_ok.mp hsome⟩
  · rintro ⟨hbatch, n₁, s₁, hresults, hhonors, hsome⟩
    exact bind_eq_ok.mpr ⟨⟨⟩, throwIf_eq_ok.mpr hbatch, bind_eq_ok.mpr ⟨_, hresults,
      bind_eq_ok.mpr ⟨_, hhonors, bind_eq_ok.mpr ⟨⟨⟩, throwIf_eq_ok.mpr hsome, rfl⟩⟩⟩⟩

/-- **A property that results and honors preserve, a claim preserves.** -/
theorem claim_invariant {P : GuardiansStorage erc → Prop}
    (hresult : ∀ s r signature done s', P s → s.result hashes r signature = .ok (done, s') → P s')
    (hhonor : ∀ s h signature done s', P s → s.honor hashes h signature = .ok (done, s') → P s')
    {c : ClaimCall hashes} {n : Nat} (hP : P s) (h : s.claim hashes c = .ok (n, s')) : P s' := by
  obtain ⟨-, n₁, s₁, hresults, hhonors, -⟩ := claim_eq_ok.mp h
  exact applyAll_invariant hhonor (applyAll_invariant hresult hP hresults) hhonors

/-- What a claim leaves alone. -/
structure SameBirths (s s' : GuardiansStorage erc) : Prop where
  base : s'.base = s.base
  implementation : s'.implementation = s.implementation
  resultSigner : s'.resultSigner = s.resultSigner
  drawn : s'.drawn = s.drawn
  accounts : s'.accounts = s.accounts
  tokens : s'.tokens = s.tokens
  requestToken : s'.requestToken = s.requestToken
  idPool : s'.idPool = s.idPool
  timestamp : s'.timestamp = s.timestamp
  mints : s'.mints = s.mints

theorem SameBirths.refl (s : GuardiansStorage erc) : SameBirths s s :=
  ⟨rfl, rfl, rfl, rfl, rfl, rfl, rfl, rfl, rfl, rfl⟩

namespace SameBirths

theorem trans {s'' : GuardiansStorage erc} (h : SameBirths s s') (h' : SameBirths s' s'') :
    SameBirths s s'' where
  base := h'.base.trans h.base
  implementation := h'.implementation.trans h.implementation
  resultSigner := h'.resultSigner.trans h.resultSigner
  drawn := h'.drawn.trans h.drawn
  accounts := h'.accounts.trans h.accounts
  tokens := h'.tokens.trans h.tokens
  requestToken := h'.requestToken.trans h.requestToken
  idPool := h'.idPool.trans h.idPool
  timestamp := h'.timestamp.trans h.timestamp
  mints := h'.mints.trans h.mints

/-- The checks of a result read nothing that a claim changes. -/
theorem checkResult (h : SameBirths s s') (r : Result) (signature : hashes.Signature) :
    s'.checkResult hashes r signature = s.checkResult hashes r signature := by
  unfold GuardiansStorage.checkResult requireOwned checkSigner GuardiansStorage.ownerOf
  rw [h.base, h.tokens, h.resultSigner]

theorem checkHonor (h : SameBirths s s') (e : Honor) (signature : hashes.Signature) :
    s'.checkHonor hashes e signature = s.checkHonor hashes e signature := by
  unfold GuardiansStorage.checkHonor requireOwned checkSigner GuardiansStorage.ownerOf
  rw [h.base, h.tokens, h.resultSigner, h.timestamp]

end SameBirths

/-- **Claims touch neither tokens nor births.** -/
theorem sameBirths_of_claim {c : ClaimCall hashes} {n : Nat}
    (h : s.claim hashes c = .ok (n, s')) : SameBirths s s' := by
  refine claim_invariant (P := SameBirths s) (fun s₁ r signature done s₂ hs hr => ?_)
    (fun s₁ e signature done s₂ hs he => ?_) (.refl s) h
  · obtain ⟨-, hr⟩ := result_eq_ok hr
    split at hr
    · exact hr.2 ▸ hs
    · exact hr.2.1 ▸ { hs with }
  · obtain ⟨-, he⟩ := honor_eq_ok he
    split at he
    · exact he.2 ▸ hs
    · exact he.2 ▸ { hs with }

end GuardiansStorage

end Mapae.Guardians
