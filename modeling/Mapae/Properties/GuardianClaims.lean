import Mapae.Guardians.Invariant
import Mapae.Guardians.Ledger
import Mapae.Guardians.Titles
import Mapae.Guardians.TokenBase

/-!
# What claims make of growth and honors

Growth is exactly once, and in any order:

* each payment grows one result of one token, once
* the packed lanes of a token are the counts and the greatest scores of its results
* a claim applies its fresh entries and counts them, or changes nothing
* how the results were ordered and batched does not matter
* the contract reports what the ledger sums, once the rows are claimed

Honors only move forward:

* no week and no lane of a token's honors ever decreases, and the lanes above them stay empty
* a week is recorded only after it is sealed
* cumulative honors leave the newest of them, in whatever order and batches they are claimed
* the contract decodes the titles that were packed, and so does `unpackGuardianTitles`
-/

namespace Mapae.Guardians

open Mapae.Infra GuardiansStorage

variable {erc : Erc721} {hashes : Hashes}

/-! ## Growth -/

/-- The lanes of a token hold the counts of its results and the greatest scores. -/
structure LanesHold (s : GuardiansStorage erc) (id : Nat) : Prop where
  plays : ∀ game < 3, lane 40 game (s.growth id).counters.toNat = plays s.applied id game
  victories : ∀ game < 3,
    lane 40 (game + 3) (s.growth id).counters.toNat = victories s.applied id game
  victories_le : ∀ game, Guardians.victories s.applied id game ≤ Guardians.plays s.applied id game
  best : ∀ game < 3, lane 32 game (s.growth id).bestScores.toNat = best s.applied id game

/-- An entry of a claim that the contract does not accept. -/
def HoldsInvalid (s : GuardiansStorage erc) (c : ClaimCall hashes) : Prop :=
  (∃ e ∈ c.results.zip c.resultSignatures, s.checkResult hashes e.1 e.2 ≠ .ok ⟨⟩) ∨
    ∃ e ∈ c.honors.zip c.honorSignatures, s.checkHonor hashes e.1 e.2 ≠ .ok ⟨⟩

structure GrowthHeld (hashes : Hashes) (m : Nested (GuardiansStorage erc) Suspended) : Prop where
  /-- No two applied results have the same payment. -/
  payments : (m.storage.applied.map Result.paymentTx).Nodup
  claimed : ∀ tx, m.storage.claimedPayments tx = true ↔
    ∃ r ∈ m.storage.applied, r.paymentTx = tx
  /-- What was applied stays applied. -/
  kept : ∀ (a : Action erc hashes) (m' : Nested (GuardiansStorage erc) Suspended), a ≠ .fail →
    m.perform a.move = some m' → m.storage.applied <:+ m'.storage.applied
  lanes : ∀ id, FitsLanes m.storage.applied id → LanesHold m.storage id
  /-- A claim applies the results that are fresh, each payment once, and counts them. -/
  applied : ∀ (c : ClaimCall hashes) n s', m.storage.claim hashes c = .ok (n, s') →
    n = (freshResults m.storage.claimedPayments c.results).length +
        freshHonors m.storage.honorWeek c.honors ∧
      s'.applied =
        (freshResults m.storage.claimedPayments c.results).reverse ++ m.storage.applied
  fresh : ∀ results : List Result, (results.map Result.paymentTx).Nodup →
    freshResults m.storage.claimedPayments results =
      results.filter fun r => m.storage.claimedPayments r.paymentTx = false
  invalid : ∀ c : ClaimCall hashes, HoldsInvalid m.storage c →
    m.perform (Action.claim c : Action erc hashes).move = none
  /-- The state is what a run of claims has made of a new collection. -/
  run : ∃ s₀ cs, Deployed s₀ ∧ ClaimRun hashes s₀ cs m.storage
  /-- Another run that claims the same results, in whatever order and batches, ends with the same
  growth, and with exactly these results applied. -/
  ordered : ∀ (s₀ s₀' s' : GuardiansStorage erc) (cs cs' : List (ClaimCall hashes)),
    Deployed s₀ → ClaimRun hashes s₀ cs m.storage → Deployed s₀' →
    ClaimRun hashes s₀' cs' s' → DistinctPayments (resultsOf cs) →
    (∀ r, r ∈ resultsOf cs ↔ r ∈ resultsOf cs') →
    s'.growth = m.storage.growth ∧ ∀ r, r ∈ m.storage.applied ↔ r ∈ resultsOf cs
  /-- The contract and the ledger agree on a token whose results are its rows. -/
  ledger : ∀ (l : GuardianLedger) collection id, FitsLanes m.storage.applied id →
    (∀ r, r ∈ l.resultsOf collection id ↔ r ∈ m.storage.applied ∧ r.tokenId = id) →
    Agrees (progressOf (m.storage.growth id) (m.storage.honors id)) (l.progress collection id)

/-! ## The parts -/

section Parts

variable {s s' s₀ s₀' : GuardiansStorage erc}

theorem lanesHold_of_invariant (hinv : GrowthInvariant s) {id : Nat}
    (hfits : FitsLanes s.applied id) : LanesHold s id where
  plays game hgame := by
    rw [hinv.counters id hfits game (by omega), counterLane, if_pos hgame]
  victories game hgame := by
    rw [hinv.counters id hfits (game + 3) (by omega), counterLane, if_neg (by omega),
      if_pos (by omega), Nat.add_sub_cancel]
  victories_le := victories_le_plays s.applied id
  best game hgame := by
    rw [hinv.scores id game (by omega), scoreLane, if_pos hgame]

/-- Results of different payments are fresh when their payments are not claimed. -/
theorem freshResults_of_nodup : ∀ {results : List Result} {claimed : Bytes32 → Bool},
    (results.map Result.paymentTx).Nodup →
      freshResults claimed results = results.filter fun r => claimed r.paymentTx = false
  | [], _, _ => rfl
  | r :: rest, claimed, hnodup => by
    obtain ⟨hr, hrest⟩ := List.nodup_cons.mp hnodup
    unfold freshResults
    rw [List.filter_cons]
    split
    · next hclaimed =>
      rw [if_neg (by simp [hclaimed]), freshResults_of_nodup hrest]
    · next hclaimed =>
      rw [if_pos (by simpa using hclaimed), freshResults_of_nodup hrest]
      refine congrArg (r :: ·) (List.filter_congr fun x hx => ?_)
      rw [Function.update_of_ne fun he => hr (List.mem_map.mpr ⟨x, hx, he⟩)]

/-- **Runs that claim the same results end with the same growth.** -/
theorem growth_of_runs {cs cs' : List (ClaimCall hashes)} (hdeployed : Deployed s₀)
    (hrun : ClaimRun hashes s₀ cs s) (hdeployed' : Deployed s₀') (hrun' : ClaimRun hashes s₀' cs' s')
    (hdistinct : DistinctPayments (resultsOf cs))
    (hsame : ∀ r, r ∈ resultsOf cs ↔ r ∈ resultsOf cs') :
    s'.growth = s.growth ∧ ∀ r, r ∈ s.applied ↔ r ∈ resultsOf cs := by
  have hdistinct' : DistinctPayments (resultsOf cs') := fun r hr r' hr' =>
    hdistinct r ((hsame r).mpr hr) r' ((hsame r').mpr hr')
  have hmem := hrun.mem_applied hdeployed hdistinct
  have hmem' := hrun'.mem_applied hdeployed' hdistinct'
  obtain ⟨hinv, -⟩ := hrun.results (.of_deployed hdeployed)
  obtain ⟨hinv', -⟩ := hrun'.results (.of_deployed hdeployed')
  have hperm : s'.applied.Perm s.applied :=
    (List.perm_ext_iff_of_nodup hinv'.nodup.of_map hinv.nodup.of_map).mpr fun r =>
      (hmem' r).trans ((hsame r).symm.trans (hmem r).symm)
  exact ⟨hinv'.growth_of_perm hinv hperm, hmem⟩

theorem not_claimed_of_invalid {c : ClaimCall hashes} (h : HoldsInvalid s c) {n : Nat} :
    s.claim hashes c ≠ .ok (n, s') := fun hclaim => by
  have hspec := claimed_spec hclaim
  rcases h with ⟨e, he, hbad⟩ | ⟨e, he, hbad⟩
  · exact hbad (hspec.checkedResults e he)
  · exact hbad (hspec.checkedHonors e he)

end Parts

/-! ## The result -/

/-- **Growth is exactly once and does not depend on any order.** -/
theorem guardian_growth_held {m : Nested (GuardiansStorage erc) Suspended}
    (h : (guardians erc hashes).Reachable m) : GrowthHeld hashes m := by
  have hinv := guardian_invariant h
  exact {
    payments := hinv.growth.nodup
    claimed := hinv.growth.claimed
    kept := fun a m' ha hm => (guardian_extends h ha hm).applied
    lanes := fun id => lanesHold_of_invariant hinv.growth
    applied := fun c n s' hclaim => ⟨(claimed_spec hclaim).count, (claimed_spec hclaim).applied⟩
    fresh := fun results => freshResults_of_nodup
    invalid := fun c hc => by
      by_contra hne
      obtain ⟨m', hm⟩ := Option.ne_none_iff_exists'.mp hne
      obtain ⟨s, hs, -⟩ := Option.map_eq_some_iff.mp hm
      obtain ⟨⟨n, s'⟩, hclaim, -⟩ := Option.map_eq_some_iff.mp (nonReentrant_eq_some.mp hs).2
      exact not_claimed_of_invalid hc (toOption_eq_some.mp hclaim)
    run := hinv.run
    ordered := fun s₀ s₀' s' cs cs' hdeployed hrun hdeployed' hrun' hdistinct hsame =>
      growth_of_runs hdeployed hrun hdeployed' hrun' hdistinct hsame
    ledger := fun l collection id hfits hrows => progress_agrees hinv.growth hfits hrows }

/-- A result of the guardian `4`, which was born with the random number `77`. -/
def sampleResult (paymentTx game score : Nat) (victory : Bool) : Result where
  resultId := 1
  tokenId := 4
  actor := 5
  ownershipEpoch := 1
  paymentTx := paymentTx
  traitsHash := Nat.pair 77 4 + 2
  inputsHash := 1
  ruleset := 3
  seed := 0
  game := game
  score := score
  victory := victory

/-- Two results in one claim, with one of them twice. -/
def sampleClaim : ClaimCall pairHashes where
  results := [sampleResult 1 0 50 true, sampleResult 2 2 80 false, sampleResult 1 0 50 true]
  resultSignatures := [signedBy 7, signedBy 7, signedBy 7]
  honors := []
  honorSignatures := []

theorem guardian_growth_held_claimed : ∃ m,
    afterActions ⟨1, 2⟩ 7 0 [.mint 5 ⟨0, 0, 0⟩ 3, .mintRequested 9, .entropyCallback 1 9 2 77,
      .claim sampleClaim] = some m ∧
    (progressOf (m.storage.growth 4) (m.storage.honors 4)).experience = 25 ∧
    GrowthHeld pairHashes m := by
  have hsome : ((afterActions ⟨1, 2⟩ 7 0 [.mint 5 ⟨0, 0, 0⟩ 3, .mintRequested 9,
      .entropyCallback 1 9 2 77, .claim sampleClaim]).map fun m =>
        (progressOf (m.storage.growth 4) (m.storage.honors 4)).experience) = some 25 := by
    decide +kernel
  obtain ⟨m, hm, hexperience⟩ := Option.map_eq_some_iff.mp hsome
  exact ⟨m, hm, hexperience, guardian_growth_held (reachable_of_afterActions hm)⟩

/-! ## Honors -/

structure HonorsHeld (hashes : Hashes) (m : Nested (GuardiansStorage erc) Suspended) : Prop where
  /-- The week is lane `0`; the streak and the titles are the lanes `1` to `10`. -/
  forward : ∀ (a : Action erc hashes) (m' : Nested (GuardiansStorage erc) Suspended), a ≠ .fail →
    m.perform a.move = some m' → ∀ id, ∀ l ≤ 10,
      lane 16 l (m.storage.honors id).toNat ≤ lane 16 l (m'.storage.honors id).toNat
  high : ∀ id l, 11 ≤ l → l ≤ 15 → lane 16 l (m.storage.honors id).toNat = 0
  sealed : ∀ id, m.storage.honorWeek id ≠ 0 →
    sealedAt (m.storage.honorWeek id) ≤ m.storage.timestamp

/-- The honors that a run of claims has for a token. -/
def honorsFor (cs : List (ClaimCall hashes)) (id : Nat) : List Honor :=
  (honorsOf cs).filter fun h => h.tokenId = id

/-- What the packing functions and the contract make of title counts. -/
structure TitlesAgree : Prop where
  /-- Title counts below `2 ^ 16` can be packed, and are unpacked again. -/
  packed : ∀ titles : List GuardianTitleCounts, titles.length = 3 →
    (∀ game ∈ titles, ∀ count ∈ game.tiers, 0 ≤ count ∧ count < 2 ^ 16) →
    ∃ packed : Nat, packed < 2 ^ 144 ∧ packGuardianTitles titles = .ok packed ∧
      unpackGuardianTitles packed = .ok titles ∧
      -- the count of a tier is in its lane
      ∀ (g t : Nat) (game : GuardianTitleCounts) (count : Int), titles[g]? = some game →
        game.tiers[t]? = some count → (lane 16 (g * 3 + t) packed : Int) = count
  unpacked : ∀ packed : Nat, packed < 2 ^ 144 → ∃ titles,
    unpackGuardianTitles packed = .ok titles ∧ packGuardianTitles titles = .ok packed
  /-- The contract reports the counts of an honor that carries packed titles. -/
  decoded : ∀ (g : Growth) (h : Honor) titles, packGuardianTitles titles = .ok h.titles.toNat →
    (progressOf g (packHonor h)).champion = titles.map (fun game => game.champion.toNat) ∧
    (progressOf g (packHonor h)).podium = titles.map (fun game => game.podium.toNat) ∧
    (progressOf g (packHonor h)).top10 = titles.map (fun game => game.top10.toNat)

theorem titlesAgree : TitlesAgree where
  packed titles hlength hcounts := by
    have hlanes : ∀ v ∈ titles.flatMap GuardianTitleCounts.tiers, isLane v := fun v hv => by
      obtain ⟨game, hgame, hv⟩ := List.mem_flatMap.mp hv
      have := hcounts game hgame v hv
      unfold isLane
      omega
    have hpack := packGuardianTitles_eq_ok.mpr ⟨hlength, hlanes, rfl⟩
    refine ⟨_, packed_lt hpack, hpack, unpack_of_pack hpack, fun g t game count hgame hcount => ?_⟩
    rw [lane_packed hpack]
    obtain ⟨a, b, c, rfl⟩ := List.length_eq_three.mp hlength
    have hnonneg : 0 ≤ count :=
      (hcounts game (List.mem_of_getElem? hgame) count (List.mem_of_getElem? hcount)).1
    match g, t with
    | 0, 0 | 0, 1 | 0, 2 | 1, 0 | 1, 1 | 1, 2 | 2, 0 | 2, 1 | 2, 2 =>
      cases hgame
      cases hcount
      exact Int.toNat_of_nonneg hnonneg
    | 0, t + 3 | 1, t + 3 | 2, t + 3 =>
      cases hgame
      exact nomatch hcount
    | g + 3, _ => exact nomatch hgame
  unpacked _ := pack_of_unpack
  decoded g h titles hpack := by
    obtain ⟨-, -, hrest⟩ := progressOf_packed g hpack
    exact hrest

/-- **Honors only move forward, and end at the newest.** -/
theorem guardian_honors_forward {m : Nested (GuardiansStorage erc) Suspended}
    (h : (guardians erc hashes).Reachable m) : HonorsHeld hashes m ∧ TitlesAgree ∧
      ∀ (s s' : GuardiansStorage erc) (cs : List (ClaimCall hashes)) (id : Nat),
        ClaimRun hashes s cs s' → s.honors id = 0 → Cumulative (honorsFor cs id) →
        ∀ newest ∈ honorsFor cs id, (∀ e ∈ honorsFor cs id, e.week.toNat ≤ newest.week.toNat) →
          s'.honors id = packHonor newest := by
  have hinv := guardian_invariant h
  refine ⟨?_, titlesAgree, fun s s' cs id hrun hzero hc newest hmem hmax => ?_⟩
  · exact {
      forward := fun a m' ha hm => (guardian_extends h ha hm).honors
      high := fun id l hlow hhigh => hinv.honors.high id l (by omega) (by omega)
      sealed := fun id hne => by
        rw [honorWeek, week_eq] at hne ⊢
        exact (hinv.honors.sealed id).resolve_left hne }
  · obtain ⟨hweek, hword⟩ := hrun.honors
    rw [hword, hzero]
    exact foldl_newer hc (fun e he => hweek e (List.mem_filter.mp he).1) hmem hmax

/-- An honor of week `1` after one of week `2`, in one claim. -/
def sampleHonors : ClaimCall pairHashes where
  results := []
  resultSignatures := []
  honors := [⟨4, 2, 9, 0x10002⟩, ⟨4, 1, 5, 0x1⟩]
  honorSignatures := [signedBy 7, signedBy 7]

theorem guardian_honors_forward_claimed : ∃ m n s',
    afterActions ⟨1, 2⟩ 7 3000000 [.mint 5 ⟨0, 0, 0⟩ 3, .mintRequested 9,
      .entropyCallback 1 9 2 77] = some m ∧
    m.storage.claim pairHashes sampleHonors = .ok (n, s') ∧ HonorsHeld pairHashes m ∧
    s'.honors 4 = packHonor ⟨4, 2, 9, 0x10002⟩ := by
  have hsome : ((afterActions ⟨1, 2⟩ 7 3000000 [.mint 5 ⟨0, 0, 0⟩ 3, .mintRequested 9,
      .entropyCallback 1 9 2 77]).bind fun m =>
        (m.storage.claim pairHashes sampleHonors).toOption.map fun r =>
          (m.storage.honors 4, r.1)) = some (0, 1) := by decide +kernel
  obtain ⟨m, hm, hsome⟩ := Option.bind_eq_some_iff.mp hsome
  obtain ⟨⟨n, s'⟩, hclaim, hread⟩ := Option.map_eq_some_iff.mp hsome
  have hclaim := toOption_eq_some.mp hclaim
  obtain ⟨hheld, -, hnewest⟩ := guardian_honors_forward (reachable_of_afterActions hm)
  refine ⟨m, n, s', hm, hclaim, hheld, ?_⟩
  exact hnewest m.storage s' [sampleHonors] 4 (.claimed hclaim (.done s'))
    (Prod.mk.inj hread).1 (by unfold Cumulative; decide +kernel) _ List.mem_cons_self
    (by decide +kernel)

end Mapae.Guardians
