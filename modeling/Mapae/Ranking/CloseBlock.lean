import Mapae.Infra.Binary64
import Mapae.Infra.Bisect
import Mapae.Infra.CivilDate

/-!
# The close block

The raffle of a season is drawn with the hash of the first block at or after its close. `findCloseBlock`
searches the chain for it, one read after the other, while the chain may grow.

* `BlockReader` answers the reads, by their order; `Chain.reader` is the one of a chain of some height
  at each read
* `closeSearch_eq`: on a chain, the loop is a bisection
* `FindsClose`: whoever searches finds the same block, and reads the chain as often as its height has
  binary digits, and twice more
-/

namespace Mapae.Ranking

open Mapae.Infra

/-! ## The search -/

/-- A block as the chain's node describes it. -/
structure Block where
  number : Option Nat
  hash : Option String
  timestamp : Int

inductive BlockQuery where
  | blockNumber (number : Nat)
  | latest

/-- What the read of an order is answered with, or what it throws. -/
abbrev BlockReader := Nat → BlockQuery → Except String Block

inductive CloseError where
  /-- The read threw. -/
  | read (message : String)
  | error (message : String)
  /-- A number was read off `null`. -/
  | typeError

structure CloseBlock where
  number : String
  hash : String

/-- What a search comes to, after how many reads. -/
structure Searched (α : Type) where
  result : Except CloseError α
  reads : Nat

def behind : CloseError := .error "Chain has not reached the season close"

/-- `Math.ceil(at / 1000)`. -/
def closeSecond (at_ : Calendar.Instant) : Int := Binary64.ceilDiv at_.ms 1000

/-- The loop. -/
def closeSearch (getBlock : BlockReader) (second : Int) (low high reads : Nat) : Searched Nat :=
  if low < high then
    match getBlock reads (.blockNumber ((low + high) / 2)) with
    | .error message => ⟨.error (.read message), reads + 1⟩
    | .ok block =>
      if second ≤ block.timestamp then closeSearch getBlock second low ((low + high) / 2) (reads + 1)
      else closeSearch getBlock second ((low + high) / 2 + 1) high (reads + 1)
  else ⟨.ok low, reads⟩
termination_by high - low

/-- The number and the hash that are answered. -/
def closeBlock (block : Block) : Except CloseError CloseBlock :=
  match block.hash, block.number with
  | none, _ => .error (.error "Close block has no hash")
  | some _, none => .error .typeError
  | some hash, some number => .ok ⟨toString number, hash⟩

def findCloseBlock (getBlock : BlockReader) (at_ : Calendar.Instant) : Searched CloseBlock :=
  match getBlock 0 .latest with
  | .error message => ⟨.error (.read message), 1⟩
  | .ok latest =>
    match latest.number with
    | none => ⟨.error behind, 1⟩
    | some height =>
      if latest.timestamp < closeSecond at_ then ⟨.error behind, 1⟩
      else
        let search := closeSearch getBlock (closeSecond at_) 0 height 1
        match search.result with
        | .error e => ⟨.error e, search.reads⟩
        | .ok low =>
          -- the latest block is not read again
          if low = height then ⟨closeBlock latest, search.reads⟩
          else
            match getBlock search.reads (.blockNumber low) with
            | .error message => ⟨.error (.read message), search.reads + 1⟩
            | .ok block => ⟨closeBlock block, search.reads + 1⟩

/-! ## A chain -/

/-- The blocks of a chain, those that are still to come included. -/
structure Chain where
  hash : Nat → Option String
  timestamp : Nat → Int
  /-- No block is earlier than the one before it. -/
  monotone : Monotone timestamp

/-- How high the chain is at each read. -/
structure Growth where
  height : Nat → Nat
  monotone : Monotone height

namespace Chain

def block (chain : Chain) (number : Nat) : Block := ⟨some number, chain.hash number, chain.timestamp number⟩

/-- The node answers with the blocks there are. -/
def reader (chain : Chain) (growth : Growth) : BlockReader := fun reads query =>
  match query with
  | .latest => .ok (chain.block (growth.height reads))
  | .blockNumber number =>
    if number ≤ growth.height reads then .ok (chain.block number) else .error "Block not found"

variable {chain : Chain} {growth : Growth} {second : Int} {low high reads : Nat}

/-- A block that was there when the search began is there. -/
theorem reader_blockNumber {number : Nat} (h : number ≤ growth.height 0) (reads : Nat) :
    chain.reader growth reads (.blockNumber number) = .ok (chain.block number) :=
  if_pos (h.trans (growth.monotone (Nat.zero_le reads)))

/-- **The loop is a bisection** of the blocks that were there when the search began. -/
theorem closeSearch_eq (hhigh : high ≤ growth.height 0) :
    closeSearch (chain.reader growth) second low high reads =
      ⟨.ok (bisect (fun n => second ≤ chain.timestamp n) low high).found,
        reads + (bisect (fun n => second ≤ chain.timestamp n) low high).asked⟩ := by
  induction low, high using bisect.induct fun n => second ≤ chain.timestamp n generalizing reads with
  | case1 low high hlt ihpos ihneg =>
    have hmid : chain.reader growth reads (.blockNumber ((low + high) / 2)) = .ok (chain.block ((low + high) / 2)) :=
      reader_blockNumber (by omega) reads
    rw [closeSearch, if_pos hlt, hmid]
    show (if second ≤ chain.timestamp ((low + high) / 2) then _ else _) = _
    by_cases hreached : second ≤ chain.timestamp ((low + high) / 2)
    · rw [if_pos hreached, ihpos (by omega), bisect_of_pos hlt hreached, Nat.add_right_comm]
      rfl
    · rw [if_neg hreached, ihneg hhigh, bisect_of_neg hlt hreached, Nat.add_right_comm]
      rfl
  | case2 low high hle =>
    rw [closeSearch, if_neg hle, bisect_of_le (Nat.not_lt.mp hle)]
    rfl

end Chain

/-! ## The seed of the raffle -/

/-- The blocks that are not before an instant, rounded up to a second. -/
def notBefore (chain : Chain) (at_ : Calendar.Instant) : Set Nat := {n | (at_.ms + 999) / 1000 ≤ chain.timestamp n}

/-- What a search is answered with, on a chain that grows meanwhile. -/
structure FindsClose (chain : Chain) (growth : Growth) (at_ : Calendar.Instant) (answer : Searched CloseBlock) :
    Prop where
  /-- The number and the hash are those of the first block that is not before the instant. -/
  found : ∀ block, answer.result = .ok block ↔ ∃ n hash, IsLeast (notBefore chain at_) n ∧
    n ≤ growth.height 0 ∧ chain.hash n = some hash ∧ block = ⟨toString n, hash⟩
  /-- Nothing is found only when the latest block is before it, or when the hash is missing. -/
  throws : (∃ e, answer.result = .error e) ↔ chain.timestamp (growth.height 0) < (at_.ms + 999) / 1000 ∨
    ∃ n, IsLeast (notBefore chain at_) n ∧ n ≤ growth.height 0 ∧ chain.hash n = none
  reads : answer.reads ≤ Nat.clog 2 (growth.height 0 + 1) + 2

variable {chain : Chain} {growth : Growth} {at_ : Calendar.Instant}

theorem closeSecond_eq (at_ : Calendar.Instant) : closeSecond at_ = (at_.ms + 999) / 1000 := by
  have hsmall : |at_.ms| < 2 ^ 53 := by
    have hrange := at_.inRange
    have hmax : Calendar.maxTime < 2 ^ 53 := by decide
    rw [Int.abs_eq_natAbs]
    exact_mod_cast hrange.trans_lt hmax
  have hceil := Binary64.ceilDiv_eq (b := 1000) hsmall (by decide)
  rwa [Int.add_sub_assoc] at hceil

/-- Too early: the search ends with its first read. -/
theorem findCloseBlock_of_lt (h : chain.timestamp (growth.height 0) < closeSecond at_) :
    findCloseBlock (chain.reader growth) at_ = ⟨.error behind, 1⟩ := by
  show (if chain.timestamp (growth.height 0) < closeSecond at_ then _ else _) = _
  rw [if_pos h]

/-- **The block that is found** is the first that is not before the instant. -/
theorem findCloseBlock_of_le (h : closeSecond at_ ≤ chain.timestamp (growth.height 0)) :
    ∃ n reads, IsLeast (notBefore chain at_) n ∧ n ≤ growth.height 0 ∧
      reads ≤ Nat.clog 2 (growth.height 0 + 1) + 2 ∧
      findCloseBlock (chain.reader growth) at_ = ⟨closeBlock (chain.block n), reads⟩ := by
  obtain ⟨half, hhalf⟩ : ∃ half, bisect (fun n => closeSecond at_ ≤ chain.timestamp n) 0 (growth.height 0) = half :=
    ⟨_, rfl⟩
  have hbisect : closeSearch (chain.reader growth) (closeSecond at_) 0 (growth.height 0) 1 =
      ⟨.ok half.found, 1 + half.asked⟩ := by
    rw [Chain.closeSearch_eq (Nat.le_refl _), hhalf]
  have hbounds : 0 ≤ half.found ∧ half.found ≤ growth.height 0 := by
    rw [← hhalf]
    exact found_bisect_mem (Nat.zero_le _)
  have hasked : half.asked ≤ Nat.clog 2 (growth.height 0 + 1) := by
    rw [← hhalf]
    exact asked_bisect_le
  have hleast : IsLeast {n | 0 ≤ n ∧ closeSecond at_ ≤ chain.timestamp n} half.found := by
    rw [← hhalf]
    exact isLeast_bisect (fun m n hmn hm => hm.trans (chain.monotone hmn)) (Nat.zero_le _) h
  have hfirst : IsLeast (notBefore chain at_) half.found := by
    rw [closeSecond_eq] at hleast
    exact ⟨hleast.1.2, fun n hn => hleast.2 ⟨Nat.zero_le n, hn⟩⟩
  have hfind : findCloseBlock (chain.reader growth) at_ =
      if half.found = growth.height 0 then ⟨closeBlock (chain.block (growth.height 0)), 1 + half.asked⟩
      else ⟨closeBlock (chain.block half.found), 1 + half.asked + 1⟩ := by
    show (if chain.timestamp (growth.height 0) < closeSecond at_ then _ else _) = _
    rw [if_neg (not_lt.mpr h), hbisect]
    dsimp only
    split
    · rfl
    · rw [Chain.reader_blockNumber hbounds.2]
  refine ⟨half.found, if half.found = growth.height 0 then 1 + half.asked else 1 + half.asked + 1, hfirst, hbounds.2,
    ?_, ?_⟩
  · split <;> omega
  · rw [hfind]
    split
    · next hlatest => rw [hlatest]
    · rfl

theorem closeBlock_block_eq_ok {n : Nat} {block : CloseBlock} :
    closeBlock (chain.block n) = .ok block ↔ ∃ hash, chain.hash n = some hash ∧ block = ⟨toString n, hash⟩ := by
  have hnumber : (chain.block n).number = some n := rfl
  have hhash : (chain.block n).hash = chain.hash n := rfl
  rw [closeBlock, hnumber, hhash]
  cases chain.hash n with
  | none => simp
  | some hash => simp [eq_comm]

theorem closeBlock_block_eq_error {n : Nat} : (∃ e, closeBlock (chain.block n) = .error e) ↔ chain.hash n = none := by
  have hnumber : (chain.block n).number = some n := rfl
  have hhash : (chain.block n).hash = chain.hash n := rfl
  rw [closeBlock, hnumber, hhash]
  cases chain.hash n with
  | none => simp
  | some hash => simp

theorem findsClose (chain : Chain) (growth : Growth) (at_ : Calendar.Instant) :
    FindsClose chain growth at_ (findCloseBlock (chain.reader growth) at_) := by
  have hsecond := closeSecond_eq at_
  by_cases hbehind : chain.timestamp (growth.height 0) < closeSecond at_
  · rw [findCloseBlock_of_lt hbehind]
    rw [hsecond] at hbehind
    refine ⟨fun block => ⟨nofun, fun ⟨n, hash, hleast, hn, _⟩ => ?_⟩, ⟨fun _ => .inl hbehind, fun _ => ⟨_, rfl⟩⟩, ?_⟩
    · exact absurd ((hleast.1 : _ ≤ _).trans (chain.monotone hn)) (not_le.mpr hbehind)
    · exact Nat.le_trans (by decide) (Nat.le_add_left 2 _)
  · obtain ⟨n, reads, hleast, hn, hreads, hfind⟩ := findCloseBlock_of_le (not_lt.mp hbehind)
    rw [hsecond] at hbehind
    rw [hfind]
    refine ⟨fun block => ?_, ?_, hreads⟩
    · rw [closeBlock_block_eq_ok]
      constructor
      · rintro ⟨hash, hhash, rfl⟩
        exact ⟨n, hash, hleast, hn, hhash, rfl⟩
      · rintro ⟨m, hash, hleast', -, hhash, rfl⟩
        obtain rfl := hleast'.unique hleast
        exact ⟨hash, hhash, rfl⟩
    · rw [closeBlock_block_eq_error]
      constructor
      · exact fun hhash => .inr ⟨n, hleast, hn, hhash⟩
      · rintro (hlate | ⟨m, hleast', -, hhash⟩)
        · exact absurd hlate hbehind
        · exact hleast'.unique hleast ▸ hhash

/--
**The search finds the first block at or after the close.**

Two searches on one chain, each while it grows in its own way, answer with the same block.
-/
theorem raffle_seed (chain : Chain) (at_ : Calendar.Instant) :
    (∀ growth, FindsClose chain growth at_ (findCloseBlock (chain.reader growth) at_)) ∧
      ∀ growth growth' block block', (findCloseBlock (chain.reader growth) at_).result = .ok block →
        (findCloseBlock (chain.reader growth') at_).result = .ok block' → block = block' := by
  refine ⟨fun growth => findsClose chain growth at_, fun growth growth' block block' h h' => ?_⟩
  obtain ⟨n, hash, hleast, -, hhash, rfl⟩ := ((findsClose chain growth at_).found block).mp h
  obtain ⟨m, hash', hleast', -, hhash', rfl⟩ := ((findsClose chain growth' at_).found block').mp h'
  obtain rfl := hleast.unique hleast'
  rw [hhash] at hhash'
  rw [Option.some.inj hhash']

end Mapae.Ranking
