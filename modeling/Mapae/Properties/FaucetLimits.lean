import Mapae.Faucet.LedgerInvariant

/-!
# The limits of the faucet

What a ledger keeps over every sequence of calls with times that do not decrease:

* in every rolling day the active claims of a kind are within the limit of each address bucket,
  of each subnet and of the day, and the active ETH is within the daily amount
* an owner has at most one claim of a kind in flight, and its active claims are a window apart
* a failed or skipped claim stays inactive

A pruned claim still counts here, though its row is gone.
-/

namespace Mapae.Faucet

open Mapae.Infra Mapae.Store

variable {policy : FaucetPolicy} {h h' : LedgerHistory}

/-- The active claims of a kind in the rolling day that ends at `upTo`. -/
def LedgerHistory.activeInDay (policy : FaucetPolicy) (h : LedgerHistory) (kind : FaucetClaimKind)
    (upTo : Int) : List FaucetClaimRow :=
  h.claims.filter (FaucetClaimRow.countedIn kind (upTo - (policy.limits kind).dayMs) upTo)

/-- What holds in a state of the ledger, and of the states that follow it. -/
structure FaucetLimitsHeld (policy : FaucetPolicy) (h : LedgerHistory) : Prop where
  perIp : ∀ kind ipKey upTo,
    (h.activeInDay policy kind upTo).countP (fun claim => claim.ipKey = ipKey) ≤
      (policy.limits kind).perIp
  perSubnet : ∀ kind subnetKey upTo,
    (h.activeInDay policy kind upTo).countP (fun claim => claim.subnetKey = subnetKey) ≤
      (policy.limits kind).perSubnet
  perDay : ∀ kind n, (policy.limits kind).perDay = some n →
    ∀ upTo, (h.activeInDay policy kind upTo).length ≤ n
  dailyAmount : ∀ n : Nat, (policy.limits .eth).dailyAmount = some n →
    ∀ upTo, ((h.activeInDay policy .eth upTo).map FaucetClaimRow.amount).sum ≤ n
  inflight : ∀ claim ∈ h.claims, ∀ claim' ∈ h.claims, claim.kind = claim'.kind →
    claim.owner = claim'.owner → claim.state.inflight = true → claim'.state.inflight = true →
      claim = claim'
  spaced : ∀ claim ∈ h.claims, ∀ claim' ∈ h.claims, claim.kind = claim'.kind →
    claim.owner = claim'.owner → claim.state.active = true → claim'.state.active = true →
      claim ≠ claim' → (policy.limits claim.kind).windowMs ≤ |claim.createdAt - claim'.createdAt|
  inactive : ∀ h', (faucetLedger policy).Steps h h' → ∀ claim ∈ h.claims,
    claim.state.active = false → ∀ claim' ∈ h'.claims, claim'.id = claim.id →
      claim'.state.active = false

/-- What is used of a quota, claim by claim. -/
theorem used_eq (quota : FaucetQuota) (kind : FaucetClaimKind) (upTo : Int) :
    h.used quota kind (upTo - (policy.limits kind).dayMs) upTo =
      ((h.activeInDay policy kind upTo).map quota.weight).sum := by
  unfold LedgerHistory.used LedgerHistory.activeInDay FaucetQuota.share
  rw [List.sum_map_ite, List.map_const', List.sum_replicate, nsmul_zero, add_zero]
  simp only [Bool.decide_eq_true]

/-- **The faucet keeps its limits over every sequence of calls.** -/
theorem faucet_limits_held (hr : (faucetLedger policy).Reachable h) : FaucetLimitsHeld policy h := by
  have hinv := LedgerInvariant.of_reachable hr
  have hsum (kind : FaucetClaimKind) (quota : FaucetQuota) (n : Nat)
      (hcap : quota.cap (policy.limits kind) kind = some n) (upTo : Int) :
      ((h.activeInDay policy kind upTo).map quota.weight).sum ≤ n := by
    rw [← used_eq]
    exact hinv.quotas kind quota n hcap upTo
  have hid : ∀ claim ∈ h.claims, ∀ claim' ∈ h.claims, claim.id = claim'.id → claim = claim' :=
    fun claim hclaim claim' hclaim' => List.inj_on_of_nodup_map hinv.ids hclaim hclaim'
  exact {
    perIp := fun kind ipKey upTo => by
      have hcount := FaucetQuota.sum_indicator (fun claim => claim.ipKey = ipKey)
        (h.activeInDay policy kind upTo)
      exact Int.ofNat_le.mp (hcount ▸ hsum kind (.ip ipKey) _ rfl upTo)
    perSubnet := fun kind subnetKey upTo => by
      have hcount := FaucetQuota.sum_indicator (fun claim => claim.subnetKey = subnetKey)
        (h.activeInDay policy kind upTo)
      exact Int.ofNat_le.mp (hcount ▸ hsum kind (.subnet subnetKey) _ rfl upTo)
    perDay := fun kind n hday upTo => by
      have hcount := hsum kind .day n hday upTo
      rw [FaucetQuota.sum_weight_day] at hcount
      exact Int.ofNat_le.mp hcount
    dailyAmount := fun n hamount upTo => hsum .eth .amount n hamount upTo
    inflight := fun claim hclaim claim' hclaim' hkind howner hinflight hinflight' =>
      hid claim hclaim claim' hclaim' (hinv.inflight claim hclaim claim' hclaim'
        (isOf_iff.mpr ⟨hkind.symm, howner.symm⟩) hinflight hinflight')
    spaced := fun claim hclaim claim' hclaim' hkind howner hactive hactive' hne =>
      hinv.spaced claim hclaim claim' hclaim' (isOf_iff.mpr ⟨hkind.symm, howner.symm⟩) hactive
        hactive' fun heq => hne (hid claim hclaim claim' hclaim' heq)
    inactive := fun h' hsteps claim hclaim hinactive claim' hclaim' heq => by
      have hfinished : claim.state.inflight = false := by
        by_contra hin
        rw [FaucetClaimState.active_of_inflight (Bool.not_eq_false _ ▸ hin)] at hinactive
        cases hinactive
      have hkept := finished_mem_of_steps hr hsteps hclaim hfinished
      have hinv' := LedgerInvariant.of_reachable (hr.steps hsteps)
      rw [List.inj_on_of_nodup_map hinv'.ids hclaim' hkept heq]
      exact hinactive }

/-- A claim of the wallet `0x00…00` for the ETH grant, from one address. -/
def ethGrant : FaucetReserveInput where
  kind := .eth
  owner := "0x0000000000000000000000000000000000000000"
  recipient := "0x0000000000000000000000000000000000000000"
  ipKey := "00000000000000000000000000000000000000000000000000000000000000aa"
  subnetKey := "00000000000000000000000000000000000000000000000000000000000000bb"
  amount := 500000000000000

/-- What the grant is signed as. -/
def ethGrantSigned : SignedClaim where
  nonce := 7
  txHash := "0x00000000000000000000000000000000000000000000000000000000000000cc"
  rawTx := "0x02"
  amount := 500000000000000

/-- A grant is paid and a second one is refused a day later. After a month the first one is
pruned, and the wallet is served again. -/
theorem faucet_limits_held_month :
    ∃ s, System.performAll (LedgerHistory.act (createFaucetPolicy 500000000000000))
      ⟨Table.empty, [], 0⟩
      [⟨0, .reserve "a" ethGrant⟩, ⟨1, .markSigned "a" ethGrantSigned⟩, ⟨2, .markSent "a"⟩,
        ⟨9, .markConfirmed "a"⟩, ⟨86400000, .reserve "b" ethGrant⟩, ⟨2592000001, .prune 1⟩,
        ⟨2592000002, .reserve "c" ethGrant⟩] = some s ∧
      s.claims.map FaucetClaimRow.id = ["c", "a"] ∧
      FaucetLimitsHeld (createFaucetPolicy 500000000000000) s := by
  have hrun : (System.performAll (LedgerHistory.act (createFaucetPolicy 500000000000000))
      ⟨Table.empty, [], 0⟩
      [⟨0, .reserve "a" ethGrant⟩, ⟨1, .markSigned "a" ethGrantSigned⟩, ⟨2, .markSent "a"⟩,
        ⟨9, .markConfirmed "a"⟩, ⟨86400000, .reserve "b" ethGrant⟩, ⟨2592000001, .prune 1⟩,
        ⟨2592000002, .reserve "c" ethGrant⟩]).map (fun s => s.claims.map FaucetClaimRow.id) =
      some ["c", "a"] := by
    decide +kernel
  obtain ⟨s, hs, hids⟩ := Option.map_eq_some_iff.mp hrun
  exact ⟨s, hs, hids, faucet_limits_held (System.reachable_of_performAll (.init ⟨rfl, rfl⟩) hs)⟩

end Mapae.Faucet
