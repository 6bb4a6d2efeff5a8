import Mapae.Infra.Lanes

/-!
# The storage of the guardians collection

The data of `MapaeGuardians` and the functions that read it.

* `Erc721` stands for the token base that the collection inherits, with what is relied on of it
* `Hashes` stands for the hash functions and for the recovery of signers
* `GuardiansStorage` is the contract's own storage, field by field

Addresses, hashes and token ids are numbers, and a packed word is a `BitVec`. The history fields
at the end of the storage are not the contract's: they record what happened, for the statements.
-/

namespace Mapae.Guardians

open Mapae.Infra

abbrev Address := Nat
abbrev Bytes32 := Nat
abbrev Word := BitVec 256

def MAX_SUPPLY : Nat := 10000
def MAX_OWNED : Nat := 3
def MAX_LIFETIME_MINTS : Nat := 3
def MIN_RULESET : Nat := 3
def MAX_SCORE : Nat := 1000000000
def MAX_CLAIM_BATCH : Nat := 32

/-- One day, in seconds. -/
def HONOR_GRACE : Nat := 86400

/-- The reverts of the collection. -/
inductive GuardianError where
  | MintPaused
  | MintLimit
  | PendingDraw
  | WrongFee (required supplied maximum : Nat)
  | InvalidEntropyRequest
  | InvalidResult
  | InvalidHonor
  | InvalidSignature
  | AlreadyClaimed
  | InvalidBatch
  /-- The token base reverts. -/
  | erc721
  /-- `Only Entropy can call this function`. -/
  | notEntropy
  /-- An `assert` fails. -/
  | assertion
  /-- Checked arithmetic overflows. -/
  | overflow

/-! ## What the contract inherits and calls -/

/-- The inherited token base: who owns what, and the hook that every change goes through. -/
structure Erc721 where
  State : Type
  Approval : Type
  empty : State
  ownerOf : State → Nat → Address
  /-- `super._update(to, tokenId, auth)`; `none` when `auth` is not authorized. -/
  update : State → Address → Nat → Address → Option State
  /-- `approve` and `setApprovalForAll`. -/
  approve : State → Approval → Option State
  /-- A token that nobody owns has no authorized account. -/
  owned_of_update : ∀ {s receiver id auth s'}, update s receiver id auth = some s' →
    auth ≠ 0 → ownerOf s id ≠ 0
  ownerOf_empty : ∀ id, ownerOf empty id = 0
  ownerOf_update : ∀ {s receiver id auth s'}, update s receiver id auth = some s' →
    ownerOf s' = Function.update (ownerOf s) id receiver
  ownerOf_approve : ∀ {s a s'}, approve s a = some s' → ownerOf s' = ownerOf s

/-- A paid result that the signer attests. -/
structure Result where
  resultId : Bytes32
  tokenId : Nat
  actor : Address
  ownershipEpoch : Nat
  paymentTx : Bytes32
  traitsHash : Bytes32
  inputsHash : Bytes32
  ruleset : Nat
  seed : Nat
  game : Nat
  score : Nat
  victory : Bool

/-- Cumulative ranking honors as of a week. -/
structure Honor where
  tokenId : Nat
  week : BitVec 16
  longestStreak : BitVec 16
  titles : BitVec 144

/-- The hash functions, of which only the arguments that vary are named, and the recovery of
the account that signed. -/
structure Hashes where
  Signature : Type
  /-- `keccak256(abi.encode(entropy, provider, sequence))`. -/
  requestKey : Address → Address → Nat → Bytes32
  /-- `GuardianTraits.birthSeed` of the random number and the token. -/
  birthSeed : Bytes32 → Nat → Bytes32
  /-- `keccak256(abi.encode(seed))`. -/
  traitsHash : Bytes32 → Bytes32
  /-- `ECDSA.tryRecover(resultDigest(result), signature)`. -/
  recoverResult : Result → Signature → Option Address
  /-- `ECDSA.tryRecover(honorDigest(honor), signature)`. -/
  recoverHonor : Honor → Signature → Option Address

/-- The immutables of an implementation. -/
structure Implementation where
  entropy : Address
  entropyProvider : Address

/-! ## Storage -/

structure Account where
  pendingMint : Nat
  minted : Nat
  owned : BitVec 48

structure Growth where
  counters : Word
  bestScores : Word

structure Token where
  seed : Bytes32
  sequence : Nat
  ownershipEpoch : Nat
  revealed : Bool
  attempt : Nat

/-- A mint: the slot it drew, the token and the account. -/
structure Mint where
  slot : Nat
  tokenId : Nat
  minter : Address

structure GuardiansStorage (erc : Erc721) where
  /-- The storage of the token base. -/
  base : erc.State
  /-- What the proxy delegates to. -/
  implementation : Implementation
  resultSigner : Address
  mintPaused : Bool
  drawn : Nat
  accounts : Address → Account
  tokens : Nat → Token
  growth : Nat → Growth
  requestToken : Bytes32 → Nat
  claimedPayments : Bytes32 → Bool
  idPool : Nat → Word
  honors : Nat → Word
  /-- The time of the block. -/
  timestamp : Nat
  /-- History: the mints, newest first. -/
  mints : List Mint
  /-- History: the results that were applied, newest first. -/
  applied : List Result

namespace GuardiansStorage

variable {erc : Erc721} (s : GuardiansStorage erc)

def ownerOf (id : Nat) : Address := erc.ownerOf s.base id

end GuardiansStorage

/-! ## The pool of ids -/

/-- The id in a slot of the pool. A zero lane stands for its default. -/
def poolAt (idPool : Nat → Word) (slot : Nat) : Nat :=
  let id := ((idPool (slot >>> 4) >>> ((slot &&& 15) <<< 4)) &&& 0xffff#256).toNat
  if id = 0 then slot + 1 else id

/-- Puts an id into a slot of the pool. -/
def setPool (idPool : Nat → Word) (slot id : Nat) : Nat → Word :=
  let shift := (slot &&& 15) <<< 4
  let word := idPool (slot >>> 4)
  Function.update idPool (slot >>> 4)
    ((word &&& ~~~(0xffff#256 <<< shift)) ||| (BitVec.ofNat 256 id <<< shift))

/-- Draws an unused id. The slot is a hash modulo what remains: `value` is the hash. -/
def drawTokenId {erc : Erc721} (s : GuardiansStorage erc) (value : Nat) :
    Nat × GuardiansStorage erc :=
  let remaining := MAX_SUPPLY - s.drawn
  let slot := value % remaining
  let last := remaining - 1
  let tokenId := poolAt s.idPool slot
  (tokenId,
    { s with
      idPool := if slot ≠ last then setPool s.idPool slot (poolAt s.idPool last) else s.idPool
      drawn := (s.drawn + 1) % 2 ^ 16 })

/-! ## Owned lanes -/

/-- The id in a lane of an account's `owned` word. -/
def ownedAt (owned : BitVec 48) (lane : Nat) : Nat :=
  ((owned.setWidth 256 >>> (lane <<< 4)) &&& 0xffff#256).toNat

/-- The first lane that holds `id`; with `0`, the first lane that is free. -/
def laneOf (owned : BitVec 48) (id : Nat) : Option Nat :=
  (List.range MAX_OWNED).find? fun lane => ownedAt owned lane = id

/-- `uint48(owned & ~(uint256(0xffff) << (lane << 4)))`. -/
def clearLane (owned : BitVec 48) (lane : Nat) : BitVec 48 :=
  (owned.setWidth 256 &&& ~~~(0xffff#256 <<< (lane <<< 4))).setWidth 48

/-- `uint48(owned | (tokenId << (lane << 4)))`. -/
def fillLane (owned : BitVec 48) (lane id : Nat) : BitVec 48 :=
  (owned.setWidth 256 ||| (BitVec.ofNat 256 id <<< (lane <<< 4))).setWidth 48

/-- The ids of an account, in the order of the lanes. -/
def tokensOfOwner (owned : BitVec 48) : List Nat :=
  ((List.range MAX_OWNED).map (ownedAt owned)).filter (· ≠ 0)

/-! ## Requests -/

/-- The token id in the low lane and the attempt above it. -/
def request (tokenId attempt : Nat) : Nat := tokenId ||| (attempt <<< 16)

/-! ## What is decoded for display -/

/-- The progress that the contract reports; a list has one entry for each game. -/
structure Progress where
  plays : Nat
  victories : Nat
  experience : Nat
  gamePlays : List Nat
  gameVictories : List Nat
  bestScores : List Nat
  honorWeek : Nat
  longestStreak : Nat
  champion : List Nat
  podium : List Nat
  top10 : List Nat

/-- `_progress`: the totals are sums over the games. -/
def progressOf (g : Growth) (honors : Word) : Progress :=
  let games := [0, 1, 2]
  let gamePlays := games.map fun game =>
    ((g.counters >>> (game * 40)) &&& 0xffffffffff#256).toNat
  let gameVictories := games.map fun game =>
    ((g.counters >>> ((game + 3) * 40)) &&& 0xffffffffff#256).toNat
  let titles := fun game => honors >>> (32 + game * 48)
  { plays := gamePlays.sum
    victories := gameVictories.sum
    experience := 10 * gamePlays.sum + 5 * gameVictories.sum
    gamePlays := gamePlays
    gameVictories := gameVictories
    bestScores := games.map fun game => ((g.bestScores >>> (game <<< 5)).setWidth 32).toNat
    honorWeek := (honors.setWidth 16).toNat
    longestStreak := ((honors >>> 16).setWidth 16).toNat
    champion := games.map fun game => ((titles game).setWidth 16).toNat
    podium := games.map fun game => ((titles game >>> 16).setWidth 16).toNat
    top10 := games.map fun game => ((titles game >>> 32).setWidth 16).toNat }

end Mapae.Guardians
