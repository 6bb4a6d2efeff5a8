import Mapae.Usdc.MockUSDC

/-!
# MockUSDC consumes an authorization at most once

Over every run of the contract's calls, whoever sends them and whatever they ask for:

* of all the calls that did not revert, at most one consumed a given authorization, be it a
  settlement or a cancellation, in either signature form
* a settlement happened strictly inside its window, and `receive` was called by the payee
* a call that reverts changes nothing, and only `mint` changes the total supply
-/

namespace Mapae.Usdc

open Mapae.Infra

variable {E : Erc20} {H : Hashing} {s : MockUSDC E}

theorem succeeded_cons_of_reverts {tx : Tx} (txs : List Tx) (h : tx.succeeds H s = false) :
    succeeded H s (tx :: txs) = succeeded H (exec H s tx) txs := by
  rw [succeeded, if_neg (by rw [h]; decide)]

theorem succeeded_cons_of_succeeds {tx : Tx} (txs : List Tx) (h : tx.succeeds H s = true) :
    succeeded H s (tx :: txs) = tx :: succeeded H (exec H s tx) txs := by
  rw [succeeded, if_pos h]

/-! ## Authorizations -/

/-- **An authorization is used when it was before the run, or a call of the run consumed it.** -/
theorem states_run (txs : List Tx) (s : MockUSDC E) (authorizer : Address) (nonce : Bytes32) :
    (run (exec H) s txs).authorizationStates authorizer nonce = true ↔
      s.authorizationStates authorizer nonce = true ∨
        ∃ tx ∈ succeeded H s txs, tx.call.consumes = some (authorizer, nonce) := by
  induction txs generalizing s with
  | nil => simp [succeeded]
  | cons tx txs ih =>
    rw [run_cons, ih]
    rcases exec_eq_or s tx with ⟨hreverts, hsame⟩ | ⟨hsucceeds, hdid⟩
    · rw [succeeded_cons_of_reverts txs hreverts, hsame]
    · rw [succeeded_cons_of_succeeds txs hsucceeds, hdid.states, List.exists_mem_cons_iff, or_assoc]

/-- **No call consumes an authorization that is used.** -/
theorem not_consumed_of_used {txs : List Tx} {s : MockUSDC E} {authorizer : Address}
    {nonce : Bytes32} (hused : s.authorizationStates authorizer nonce = true) :
    ∀ tx ∈ succeeded H s txs, tx.call.consumes ≠ some (authorizer, nonce) := by
  induction txs generalizing s with
  | nil => simp [succeeded]
  | cons tx txs ih =>
    rcases exec_eq_or s tx with ⟨hreverts, hsame⟩ | ⟨hsucceeds, hdid⟩
    · rw [succeeded_cons_of_reverts txs hreverts, hsame]
      exact ih hused
    · rw [succeeded_cons_of_succeeds txs hsucceeds, List.forall_mem_cons]
      refine ⟨fun hconsumes => ?_, ih ((hdid.states authorizer nonce).mpr (Or.inl hused))⟩
      rw [hdid.unused authorizer nonce hconsumes] at hused
      cases hused

/-- **An authorization is consumed at most once in a run.** -/
theorem consumed_once (txs : List Tx) (s : MockUSDC E) :
    (succeeded H s txs).Pairwise fun x y =>
      ∀ authorization, x.call.consumes = some authorization →
        y.call.consumes ≠ some authorization := by
  induction txs generalizing s with
  | nil => exact List.Pairwise.nil
  | cons tx txs ih =>
    rcases exec_eq_or s tx with ⟨hreverts, -⟩ | ⟨hsucceeds, hdid⟩
    · rw [succeeded_cons_of_reverts txs hreverts]
      exact ih _
    · rw [succeeded_cons_of_succeeds txs hsucceeds]
      refine List.pairwise_cons.mpr ⟨?_, ih _⟩
      rintro y hy ⟨authorizer, nonce⟩ hconsumes
      exact not_consumed_of_used ((hdid.states authorizer nonce).mpr (Or.inr hconsumes)) y hy

theorem length_consumed_le_one (txs : List Tx) (s : MockUSDC E) (authorization : Address × Bytes32) :
    ((succeeded H s txs).filter fun tx => tx.call.consumes = some authorization).length ≤ 1 := by
  have honce := (consumed_once (H := H) txs s).filter fun tx => tx.call.consumes = some authorization
  have hall : ∀ x ∈ (succeeded H s txs).filter fun tx => tx.call.consumes = some authorization,
      x.call.consumes = some authorization := by
    intro x hx
    exact of_decide_eq_true (List.mem_filter.mp hx).2
  revert honce hall
  generalize (succeeded H s txs).filter _ = consumers
  intro honce hall
  cases honce with
  | nil => simp
  | @cons x rest hx hrest =>
    cases rest with
    | nil => simp
    | cons y rest =>
      have hsame := hall x List.mem_cons_self
      exact absurd (hall y (by simp)) (hx y List.mem_cons_self authorization hsame)

/-- Two calls of a run that consume one authorization are one call. -/
theorem eq_of_consumes {txs : List Tx} {s : MockUSDC E} {x y : Tx} {authorization : Address × Bytes32}
    (hx : x ∈ succeeded H s txs) (hy : y ∈ succeeded H s txs)
    (hxa : x.call.consumes = some authorization) (hya : y.call.consumes = some authorization) :
    x = y := by
  by_contra hne
  have hsub : [x, y].Subperm
      ((succeeded H s txs).filter fun tx => tx.call.consumes = some authorization) := by
    refine List.Nodup.subperm (by simp [hne]) fun z hz => List.mem_filter.mpr ?_
    rcases List.mem_pair.mp hz with rfl | rfl
    · exact ⟨hx, decide_eq_true hxa⟩
    · exact ⟨hy, decide_eq_true hya⟩
  exact absurd (hsub.length_le.trans (length_consumed_le_one txs s authorization)) (by simp)

theorem consumes_of_settlement {call : Call} {a : Authorization} (h : call.settlement = some a) :
    call.consumes = some (a.payer, a.nonce) := by
  cases call with
  | transferWithAuthorization | receiveWithAuthorization =>
    cases h
    rfl
  | cancelAuthorization | transfer | transferFrom | approve | mint => cases h

/-! ## Settlements and the supply -/

/-- Each call that succeeded did what it says, in some state of the run. -/
theorem did_of_succeeded {txs : List Tx} {s : MockUSDC E} {tx : Tx}
    (h : tx ∈ succeeded H s txs) : ∃ s₁ : MockUSDC E, Did tx.message tx.call s₁ (exec H s₁ tx) := by
  induction txs generalizing s with
  | nil => simp [succeeded] at h
  | cons tx' txs ih =>
    rcases exec_eq_or s tx' with ⟨hreverts, -⟩ | ⟨hsucceeds, hdid⟩
    · rw [succeeded_cons_of_reverts txs hreverts] at h
      exact ih h
    · rw [succeeded_cons_of_succeeds txs hsucceeds] at h
      rcases List.mem_cons.mp h with rfl | h
      · exact ⟨s, hdid⟩
      · exact ih h

/-- **The supply grows by what the run minted.** -/
theorem supply_run (txs : List Tx) (s : MockUSDC E) :
    E.totalSupply (run (exec H) s txs).token =
      E.totalSupply s.token + ((succeeded H s txs).map fun tx => tx.call.minted).sum := by
  induction txs generalizing s with
  | nil => simp [succeeded]
  | cons tx txs ih =>
    rw [run_cons, ih]
    rcases exec_eq_or s tx with ⟨hreverts, hsame⟩ | ⟨hsucceeds, hdid⟩
    · rw [succeeded_cons_of_reverts txs hreverts, hsame]
    · rw [succeeded_cons_of_succeeds txs hsucceeds, hdid.supply, List.map_cons, List.sum_cons]
      omega

/--
**MockUSDC authorizations are consumed at most once.**

`txs` is any run of the deployed contract, `s` its last state and `succeeded` its calls that did
not revert. A cancellation and a settlement in it are never of one authorization.
-/
theorem usdc_authorizations_held (E : Erc20) (H : Hashing) (txs : List Tx) :
    let s := run (exec H) (deployed E) txs
    let done := succeeded H (deployed E) txs
    (∀ authorization,
      (done.filter fun tx => tx.call.consumes = some authorization).length ≤ 1) ∧
    (∀ authorizer nonce, s.authorizationStates authorizer nonce = true ↔
      ∃ tx ∈ done, tx.call.consumes = some (authorizer, nonce)) ∧
    (∀ x ∈ done, ∀ y ∈ done, ∀ a authorizer nonce signature, x.call.settlement = some a →
      y.call = .cancelAuthorization authorizer nonce signature →
        (a.payer, a.nonce) ≠ (authorizer, nonce)) ∧
    (∀ tx ∈ done, ∀ a, tx.call.settlement = some a →
      a.validAfter < tx.message.timestamp ∧ tx.message.timestamp < a.validBefore) ∧
    (∀ tx ∈ done, ∀ a signature, tx.call = .receiveWithAuthorization a signature →
      tx.message.sender = a.payee) ∧
    (∀ tx : Tx, tx.succeeds H s = false → exec H s tx = s) ∧
    (∀ tx : Tx, tx.call.minted = 0 →
      E.totalSupply (exec H s tx).token = E.totalSupply s.token) ∧
    E.totalSupply s.token = (done.map fun tx => tx.call.minted).sum := by
  intro s done
  refine ⟨length_consumed_le_one txs _, fun authorizer nonce => ?_, ?_, ?_, ?_, ?_, ?_, ?_⟩
  · rw [states_run]
    simp [deployed, done]
  · rintro x hx y hy a authorizer nonce signature hsettles hcancels heq
    have hxa := consumes_of_settlement hsettles
    have hya : y.call.consumes = some (a.payer, a.nonce) := by rw [hcancels, heq, Call.consumes]
    obtain rfl := eq_of_consumes hx hy hxa hya
    rw [hcancels] at hsettles
    cases hsettles
  · intro tx htx a hsettles
    obtain ⟨_, hdid⟩ := did_of_succeeded htx
    exact hdid.window a hsettles
  · intro tx htx a signature hreceives
    obtain ⟨_, hdid⟩ := did_of_succeeded htx
    exact hdid.payee a signature hreceives
  · intro tx hreverts
    rcases exec_eq_or s tx with ⟨-, hsame⟩ | ⟨hsucceeds, -⟩
    · exact hsame
    · rw [hreverts] at hsucceeds
      cases hsucceeds
  · intro tx hminted
    rcases exec_eq_or s tx with ⟨-, hsame⟩ | ⟨-, hdid⟩
    · rw [hsame]
    · rw [hdid.supply, hminted, Nat.add_zero]
  · have hempty : E.totalSupply (deployed E).token = 0 := by
      rw [E.totalSupply_eq]
      exact Finset.sum_eq_zero fun a _ => E.balanceOf_empty a
    rw [supply_run, hempty, Nat.zero_add]

/-- Anybody's signature is valid. -/
private def anySignature (sender timestamp : Nat) : Message :=
  ⟨⟨sender % 2 ^ 160, Nat.mod_lt sender (Nat.two_pow_pos 160)⟩, timestamp, fun _ _ _ => true⟩

/-- A payer with funds settles once; the cancellation and the second settlement come too late. -/
example :
    let a : Authorization := ⟨1, 2, 5, 10, 20, 7⟩
    (succeeded (E := plainErc20) ⟨fun _ => 0, id⟩ (deployed plainErc20)
      [⟨anySignature 9 15, .mint 1 8⟩,
        ⟨anySignature 9 15, .receiveWithAuthorization a (.bytes [])⟩,
        ⟨anySignature 2 15, .receiveWithAuthorization a (.bytes [])⟩,
        ⟨anySignature 9 16, .cancelAuthorization 1 7 (.vrs 27 0 0)⟩,
        ⟨anySignature 9 17, .transferWithAuthorization a (.vrs 27 0 0)⟩]).length = 2 := by
  decide +kernel

end Mapae.Usdc
