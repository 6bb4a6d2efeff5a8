import Mapae.Guardians.Storage
import Mapae.Infra.Calls
import Mapae.Infra.Result

/-!
# The guardians collection

The functions of `MapaeGuardians` that change its storage.

* `update` is the hook of every ownership change; it keeps the owned lanes in step
* `mint` draws an id, hands the token over and requests its birth
* `rerequestBirth` requests a birth again that an upgrade left undeliverable
* `entropyCallback` writes the birth
* `claim` records signed results and honors

Three functions call out before they are done: `mint` and `safeTransferFrom` ask the receiver,
and `mint` and `rerequestBirth` ask the entropy contract for a sequence number. Each is cut there
into what comes before and what comes after. The part after runs the code the call started with,
whose immutables a `Suspended` call therefore remembers.
-/

namespace Mapae.Guardians

open Mapae.Infra GuardianError

variable {erc : Erc721} (hashes : Hashes)

/-- `++` and `+ 1` of a number of `bits` bits. -/
def increment (bits value : Nat) : Except GuardianError Nat :=
  if value + 1 < 2 ^ bits then .ok (value + 1) else .error overflow

namespace GuardiansStorage

variable (s : GuardiansStorage erc)

/-! ## Ownership -/

/-- The sender's side of `update`: its lane of the token is cleared. -/
def takeFrom (accounts : Address → Account) (owner : Address) (tokenId : Nat) :
    Except GuardianError (Address → Account) :=
  if owner = 0 then .ok accounts
  else
    match laneOf (accounts owner).owned tokenId with
    | none => .error assertion
    | some lane => .ok (Function.update accounts owner
        { accounts owner with owned := clearLane (accounts owner).owned lane })

/-- The receiver's side of `update`: its first free lane takes the token. -/
def giveTo (accounts : Address → Account) (receiver : Address) (tokenId : Nat) :
    Except GuardianError (Address → Account) :=
  if receiver = 0 then .ok accounts
  else
    match laneOf (accounts receiver).owned 0 with
    | none => .error MintLimit
    | some lane => .ok (Function.update accounts receiver
        { accounts receiver with owned := fillLane (accounts receiver).owned lane tokenId })

/-- The owned lanes after a change of owner. -/
def moveLanes (accounts : Address → Account) (owner receiver : Address) (tokenId : Nat) :
    Except GuardianError (Address → Account) :=
  if owner = receiver then .ok accounts
  else do
    let accounts ← takeFrom accounts owner tokenId
    giveTo accounts receiver tokenId

/-- `_update`, with the previous owner. -/
def update (receiver : Address) (tokenId : Nat) (auth : Address) :
    Except GuardianError (Address × GuardiansStorage erc) := do
  let token := s.tokens tokenId
  let owner := s.ownerOf tokenId
  throwIf (owner ≠ 0 ∧ token.revealed = false) PendingDraw
  let accounts ← moveLanes s.accounts owner receiver tokenId
  match erc.update s.base receiver tokenId auth with
  | none => .error erc721
  | some base =>
    let ownershipEpoch ← increment 64 token.ownershipEpoch
    return (owner, { s with
      base := base
      accounts := accounts
      tokens := Function.update s.tokens tokenId { token with ownershipEpoch := ownershipEpoch } })

def transferFrom (sender owner receiver : Address) (tokenId : Nat) :
    Except GuardianError (GuardiansStorage erc) := do
  throwIf (receiver = 0) erc721
  let updated ← s.update receiver tokenId sender
  throwIf (updated.1 ≠ owner) erc721
  return updated.2

/-- `_safeMint`, up to the question to the receiver. -/
def safeMint (receiver : Address) (tokenId : Nat) :
    Except GuardianError (GuardiansStorage erc) := do
  throwIf (receiver = 0) erc721
  let updated ← s.update receiver tokenId 0
  throwIf (updated.1 ≠ 0) erc721
  return updated.2

/-! ## Births -/

/-- What a call pays: the fee the entropy contract asks for, and the value and bound of the call. -/
structure Payment where
  fee : Nat
  value : Nat
  maxFee : Nat

def checkedFee (p : Payment) : Except GuardianError Unit :=
  throwIf (p.fee > p.maxFee ∨ p.value ≠ p.fee) (WrongFee p.fee p.value p.maxFee)

/-- `mint`, up to the question to the receiver. `random` is what the id is drawn with. -/
def mint (sender : Address) (payment : Payment) (random : Nat) :
    Except GuardianError (Nat × GuardiansStorage erc) := do
  throwIf (s.mintPaused = true) MintPaused
  let account := s.accounts sender
  throwIf (account.pendingMint ≠ 0) PendingDraw
  throwIf (s.drawn ≥ MAX_SUPPLY ∨ account.minted ≥ MAX_LIFETIME_MINTS ∨
    laneOf account.owned 0 = none) MintLimit
  checkedFee payment
  let slot := random % (MAX_SUPPLY - s.drawn)
  let (tokenId, s) := drawTokenId s random
  let s := { s with
    accounts := Function.update s.accounts sender
      { pendingMint := tokenId % 2 ^ 16
        minted := account.minted + 1
        owned := account.owned }
    mints := ⟨slot, tokenId, sender⟩ :: s.mints }
  let s ← s.safeMint sender tokenId
  return (tokenId, s)

/-- The key of a request that the given implementation made. -/
def requestKey (i : Implementation) (sequence : Nat) : Bytes32 :=
  hashes.requestKey i.entropy i.entropyProvider sequence

/-- `_requestBirth`, from the answer of the entropy contract on. -/
def requestBirth (i : Implementation) (tokenId sequence : Nat) :
    Except GuardianError (GuardiansStorage erc) := do
  let key := requestKey hashes i sequence
  throwIf (sequence = 0 ∨ s.requestToken key ≠ 0) InvalidEntropyRequest
  let token := s.tokens tokenId
  let attempt ← increment 32 token.attempt
  return { s with
    requestToken := Function.update s.requestToken key (request tokenId attempt)
    tokens := Function.update s.tokens tokenId
      { token with sequence := sequence, attempt := attempt } }

/-- `rerequestBirth`, up to the question to the entropy contract. It changes nothing. -/
def rerequestBirth (sender : Address) (tokenId : Nat) (payment : Payment) :
    Except GuardianError Unit := do
  throwIf (tokenId = 0 ∨ (s.accounts sender).pendingMint ≠ tokenId) InvalidEntropyRequest
  let token := s.tokens tokenId
  throwIf (s.requestToken (requestKey hashes s.implementation token.sequence) =
    request tokenId token.attempt) PendingDraw
  checkedFee payment

/-- `_entropyCallback` with `entropyCallback`. -/
def entropyCallback (sender : Address) (sequence : Nat) (provider : Address)
    (randomNumber : Bytes32) : Except GuardianError (GuardiansStorage erc) := do
  throwIf (s.implementation.entropy = 0 ∨ sender ≠ s.implementation.entropy) notEntropy
  let key := requestKey hashes s.implementation sequence
  let request := s.requestToken key
  let tokenId := request &&& 0xffff
  let token := s.tokens tokenId
  throwIf (provider ≠ s.implementation.entropyProvider ∨ tokenId = 0 ∨ token.revealed = true ∨
    request >>> 16 ≠ token.attempt) InvalidEntropyRequest
  let owner := s.ownerOf tokenId
  return { s with
    requestToken := Function.update s.requestToken key 0
    tokens := Function.update s.tokens tokenId
      { token with seed := hashes.birthSeed randomNumber tokenId, revealed := true }
    accounts := Function.update s.accounts owner { s.accounts owner with pendingMint := 0 } }

/-! ## Claims -/

/-- `_requireOwned`. -/
def requireOwned (tokenId : Nat) : Except GuardianError Unit :=
  throwIf (s.ownerOf tokenId = 0) erc721

/-- `_checkSigner`, of the account that was recovered. -/
def checkSigner (recovered : Option Address) : Except GuardianError Unit :=
  throwIf (recovered ≠ some s.resultSigner) InvalidSignature

/-- The checks of `_result`. -/
def checkResult (r : Result) (signature : hashes.Signature) : Except GuardianError Unit := do
  s.requireOwned r.tokenId
  let token := s.tokens r.tokenId
  throwIf (token.revealed = false) PendingDraw
  throwIf (r.resultId = 0 ∨ r.paymentTx = 0 ∨ r.actor = 0 ∨ r.inputsHash = 0 ∨
    r.ownershipEpoch = 0 ∨ r.ownershipEpoch > token.ownershipEpoch ∨ r.game > 2 ∨
    r.ruleset < MIN_RULESET ∨ r.score > MAX_SCORE ∨ r.traitsHash ≠ hashes.traitsHash token.seed)
    InvalidResult
  s.checkSigner (hashes.recoverResult r signature)

/-- What a result adds to the counters of its token. -/
def countersOf (r : Result) : Word :=
  (1#256 <<< (r.game * 40)) ||| (if r.victory then 1#256 <<< ((r.game + 3) * 40) else 0#256)

/-- The best scores with that of a result. -/
def bestScoresWith (scores : Word) (r : Result) : Word :=
  let shift := r.game <<< 5
  if r.score > ((scores >>> shift).setWidth 32).toNat then
    (scores &&& ~~~(0xffffffff#256 <<< shift)) ||| (BitVec.ofNat 256 r.score <<< shift)
  else scores

/-- `_result`: whether it was applied, and the storage after it. -/
def result (r : Result) (signature : hashes.Signature) :
    Except GuardianError (Bool × GuardiansStorage erc) := do
  s.checkResult hashes r signature
  if s.claimedPayments r.paymentTx then return (false, s)
  else
    let g := s.growth r.tokenId
    throwIf (2 ^ 256 ≤ g.counters.toNat + (countersOf r).toNat) overflow
    return (true, { s with
      claimedPayments := Function.update s.claimedPayments r.paymentTx true
      growth := Function.update s.growth r.tokenId
        { counters := g.counters + countersOf r
          bestScores := bestScoresWith g.bestScores r }
      applied := r :: s.applied })

/-- The end of a ranking week in Korea, with the grace for late settlements. -/
def sealedAt (week : Nat) : Nat := (week * 7 + 11) * 86400 - 9 * 3600 + HONOR_GRACE

/-- The checks of `_honor`. -/
def checkHonor (h : Honor) (signature : hashes.Signature) : Except GuardianError Unit := do
  s.requireOwned h.tokenId
  throwIf ((s.tokens h.tokenId).revealed = false) PendingDraw
  let week := h.week.toNat
  throwIf (week = 0 ∨ s.timestamp < sealedAt week) InvalidHonor
  s.checkSigner (hashes.recoverHonor h signature)

/-- The lanes of an honor above its week. -/
def incomingHonor (h : Honor) : Word :=
  (h.longestStreak.setWidth 256 <<< 16) ||| (h.titles.setWidth 256 <<< 32)

/-- The greater one of two lanes, in its place. -/
def maxLane (stored incoming : Word) (shift : Nat) : Word :=
  let a := (stored >>> shift) &&& 0xffff#256
  let b := (incoming >>> shift) &&& 0xffff#256
  (if a > b then a else b) <<< shift

/-- The shifts of the loop: 16, 32, …, 160. -/
def honorShifts : List Nat := (List.range 10).map fun n => 16 + 16 * n

/-- The week of the honor, with the lanewise maximum of what is stored and of the honor. -/
def mergeHonor (stored : Word) (h : Honor) : Word :=
  honorShifts.foldl (fun next shift => next ||| maxLane stored (incomingHonor h) shift)
    (h.week.setWidth 256)

/-- `_honor`: whether it was applied, and the storage after it. -/
def honor (h : Honor) (signature : hashes.Signature) :
    Except GuardianError (Bool × GuardiansStorage erc) := do
  s.checkHonor hashes h signature
  let stored := s.honors h.tokenId
  if h.week.toNat ≤ (stored &&& 0xffff#256).toNat then return (false, s)
  else return (true, { s with honors := Function.update s.honors h.tokenId (mergeHonor stored h) })

/-- A loop over signed entries that counts those that were applied. -/
def applyAll {α : Type} (f : GuardiansStorage erc → α → hashes.Signature →
    Except GuardianError (Bool × GuardiansStorage erc)) :
    GuardiansStorage erc → Nat → List (α × hashes.Signature) →
      Except GuardianError (Nat × GuardiansStorage erc)
  | s, applied, [] => .ok (applied, s)
  | s, applied, (entry, signature) :: rest => do
    let step ← f s entry signature
    applyAll f step.2 (if step.1 then applied + 1 else applied) rest

/-- What a claim is called with. -/
structure ClaimCall (hashes : Hashes) where
  results : List Result
  resultSignatures : List hashes.Signature
  honors : List Honor
  honorSignatures : List hashes.Signature

/-- `claim`: how many entries were applied, and the storage after them. -/
def claim (c : ClaimCall hashes) : Except GuardianError (Nat × GuardiansStorage erc) := do
  let count := c.results.length + c.honors.length
  throwIf (count = 0 ∨ count > MAX_CLAIM_BATCH ∨ c.resultSignatures.length ≠ c.results.length ∨
    c.honorSignatures.length ≠ c.honors.length) InvalidBatch
  let grown ← applyAll hashes (fun s => s.result hashes) s 0 (c.results.zip c.resultSignatures)
  let honored ← applyAll hashes (fun s => s.honor hashes) grown.2 grown.1
    (c.honors.zip c.honorSignatures)
  throwIf (honored.1 = 0) AlreadyClaimed
  return honored

end GuardiansStorage

end Mapae.Guardians
