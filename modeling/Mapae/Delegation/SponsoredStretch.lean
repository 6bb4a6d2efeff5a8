import Mapae.Delegation.Sponsorship

/-!
# What a submission was answered

A submission asks one thing after the other, so that what it awaits says what it was answered.

* `Heard` are the answers that lead to a phase, and `DepositChecked` those that lead to a deposit
* `Verdict` is what the answers say of a result
* `follows_of_submitSponsored` is all that a stretch can do
-/

namespace Mapae.Delegation

open Mapae.Infra Mapae.Store Mapae.Facilitator Calendar

/-- The sender is in flight. -/
def Phase.inside : Phase → Bool
  | .registered | .done _ => false
  | _ => true

/-- The hold that is open. -/
def Phase.openHold : Phase → Option (ChainReads × Nat)
  | .sending read hold | .mining read hold => some (read, hold)
  | _ => none

/-- The deposit may have been made. -/
def Phase.mayHaveSpent : Phase → Bool
  | .sending .. | .mining .. | .simulating | .writing | .carrying _ => true
  | .leaving (.refused _) | .done (.refused _) => false
  | .leaving _ | .done _ => true
  | _ => false

/-- Nothing was asked that spends. -/
def Answer.early : Answer → Bool
  | .revoked _ | .nonce _ | .reads _ | .signature _ | .balance _ => true
  | _ => false

section Heard

variable {D : Type} (config : SponsorConfig) (submission : ValidatedRevocationSubmission D)

/-- The reads allow the operation, once the deposit is there. -/
structure Ready (reads : ChainReads) : Prop where
  baseFee : ∃ baseFee, reads.baseFeePerGas = some baseFee ∧ baseFee ≤ submission.gas.maxFeePerGas
  relayer : submission.requiredPrefund ≤ reads.relayerBalance

/-- The first three answers, where none of them refused. -/
def firstChecks (reads : ChainReads) : List Answer :=
  [.revoked false, .nonce submission.packed.nonce, .reads reads]

/-- All the answers that come before a deposit, in their order. -/
structure DepositChecked (reads : ChainReads) (heard : List Answer) : Prop where
  ready : Ready submission reads
  short : reads.deposit < submission.requiredPrefund
  heard_eq : ∃ sponsorBalance, heard = firstChecks submission reads ++ [.signature true, .balance sponsorBalance] ∧
    config.minBalance + reservation config submission reads ≤ sponsorBalance

/-- The operation can be carried: its deposit was there, or was made. -/
inductive Prepared : List Answer → Prop
  | funded {reads : ChainReads} (hready : Ready submission reads) (h : submission.requiredPrefund ≤ reads.deposit) :
      Prepared (firstChecks submission reads)
  | sponsored {reads : ChainReads} {heard : List Answer} {hash : String} {receipt : DepositReceipt}
      (h : DepositChecked config submission reads heard) (hsuccess : receipt.success = true) :
      Prepared (heard ++ [.sent hash, .mined receipt])

/-- What the answers say of a result. -/
inductive Verdict : RevokeResult → List Answer → Prop
  | revoked {heard : List Answer} {hash : String} {receipt : CarriedReceipt} (h : Prepared config submission heard)
      (hsuccess : receipt.success = true) (hevent : receipt.events.head? = some true) :
      Verdict (.revoked hash submission.delegationHash) (heard ++ [.simulated, .written hash, .carried receipt])
  | refused {refusal : SubmissionRefused} {heard : List Answer} (h : ∀ answer ∈ heard, answer.early = true) :
      Verdict (.refused refusal) heard
  | failed {heard : List Answer} : Verdict .failed heard

/-- The answers that lead to a phase. -/
inductive Heard : Phase → List Answer → Prop
  | registered : Heard .registered []
  | revoked : Heard .revoked []
  | nonce : Heard .nonce [.revoked false]
  | reads : Heard .reads [.revoked false, .nonce submission.packed.nonce]
  | signature {reads : ChainReads} (hready : Ready submission reads) (h : reads.deposit < submission.requiredPrefund) :
      Heard (.signature reads) (firstChecks submission reads)
  | balance {reads : ChainReads} {now : Instant} (hready : Ready submission reads)
      (h : reads.deposit < submission.requiredPrefund) :
      Heard (.balance reads now) (firstChecks submission reads ++ [.signature true])
  | sending {reads : ChainReads} {hold : Nat} {heard : List Answer} (h : DepositChecked config submission reads heard) :
      Heard (.sending reads hold) heard
  | mining {reads : ChainReads} {hold : Nat} {heard : List Answer} {hash : String}
      (h : DepositChecked config submission reads heard) : Heard (.mining reads hold) (heard ++ [.sent hash])
  | simulating {heard : List Answer} (h : Prepared config submission heard) : Heard .simulating heard
  | writing {heard : List Answer} (h : Prepared config submission heard) : Heard .writing (heard ++ [.simulated])
  | carrying {heard : List Answer} {hash : String} (h : Prepared config submission heard) :
      Heard (.carrying hash) (heard ++ [.simulated, .written hash])
  | leaving {result : RevokeResult} {heard : List Answer} (h : Verdict config submission result heard) :
      Heard (.leaving result) heard
  | done {result : RevokeResult} {heard : List Answer} (h : Verdict config submission result heard) :
      Heard (.done result) heard

end Heard

/-! ## What a stretch can do -/

section Stretch

variable {D : Type} {config : SponsorConfig} {submission : ValidatedRevocationSubmission D} {reads : ChainReads}
  {phase : Phase} {heard : List Answer} {answer : Answer}

theorem judgeSubmissionReadiness_eq_ok {deposit requiredPrefund maxFeePerGas relayerBalance : Nat} {baseFeePerGas : Option Nat}
    {u : Unit} :
    judgeSubmissionReadiness deposit requiredPrefund baseFeePerGas maxFeePerGas relayerBalance = .ok u ↔
      requiredPrefund ≤ deposit ∧ (∃ baseFee, baseFeePerGas = some baseFee ∧ baseFee ≤ maxFeePerGas) ∧
        requiredPrefund ≤ relayerBalance := by
  unfold judgeSubmissionReadiness
  by_cases hdeposit : deposit < requiredPrefund
  · simp [hdeposit]
  · cases baseFeePerGas with
    | none => simp [hdeposit]
    | some baseFee =>
      by_cases hfee : maxFeePerGas < baseFee
      · simp [hdeposit, hfee]
      · by_cases hrelayer : relayerBalance < requiredPrefund
        · simp [hdeposit, hfee, hrelayer]
        · simp [hdeposit, hfee, hrelayer]
          omega

theorem shortfall_pos_iff : 0 < prefundShortfall submission reads ↔ reads.deposit < submission.requiredPrefund := by
  unfold prefundShortfall
  split <;> omega

theorem readReceiptFeeField_nonneg {field : FeeField} {fee : Int} (h : readReceiptFeeField field = some fee) :
    0 ≤ fee := by
  cases field with
  | absent =>
    cases h
    exact Int.le_refl 0
  | bigint value =>
    simp only [readReceiptFeeField] at h
    split at h
    · cases h
    · cases h
      omega
  | number value =>
    simp only [readReceiptFeeField] at h
    split at h
    · next hvalue =>
      cases h
      exact hvalue.2
    · cases h
  | text value =>
    simp only [readReceiptFeeField] at h
    split at h <;> split at h <;> cases h <;> exact Int.natCast_nonneg _
  | other => cases h

theorem costOfReceipt_nonneg (receipt : DepositReceipt) {fallback : Int} (h : 0 ≤ fallback) :
    0 ≤ costOfReceipt receipt fallback := by
  unfold costOfReceipt
  split
  · exact h
  · next l1Fee hfee =>
    have hpos := readReceiptFeeField_nonneg hfee
    positivity

variable (config submission phase heard answer) in
/-- What an act is, of a submission that waits in a phase and was answered. -/
inductive Follows : Act → Prop
  | go {phase' : Phase} (hheard : Heard config submission phase' (heard ++ [answer]))
      (hinside : phase'.inside = true) (hhold : phase'.openHold = phase.openHold)
      (hspent : phase.mayHaveSpent = true → phase'.mayHaveSpent = true) : Follows (.go phase')
  | consume {reads : ChainReads} (hphase : phase = .signature reads)
      (hheard : ∀ now, Heard config submission (.balance reads now) (heard ++ [answer])) : Follows (.consume reads)
  | reserve {reads : ChainReads} {now : Instant} (hphase : phase = .balance reads now)
      (hchecked : DepositChecked config submission reads (heard ++ [answer])) : Follows (.reserve reads now)
  | settle {reads : ChainReads} {hold : Nat} {charged : Int} {returned : Bool} {phase' : Phase}
      (hphase : phase.openHold = some (reads, hold)) (hheard : Heard config submission phase' (heard ++ [answer]))
      (hinside : phase'.inside = true) (hhold : phase'.openHold = none) (hspent : phase'.mayHaveSpent = true)
      (hnonneg : 0 ≤ charged)
      (hcharged : returned = false → (prefundShortfall submission reads : Int) ≤ charged) :
      Follows (.settle hold charged returned phase')

/-- A refusal comes before anything is spent. -/
theorem heard_refuse (reason : RevokeRefusal) (detail : List (String × String)) (httpStatus : Nat)
    (h : ∀ answer ∈ heard, answer.early = true) :
    Heard config submission (refuse reason detail httpStatus) heard := .leaving (.refused h)

theorem follows_refuse {reason : RevokeRefusal} {detail : List (String × String)} {httpStatus : Nat}
    (hhold : phase.openHold = none) (hspent : phase.mayHaveSpent = false)
    (hearly : ∀ answer' ∈ heard ++ [answer], answer'.early = true) :
    Follows config submission phase heard answer (.go (refuse reason detail httpStatus)) := by
  refine .go (heard_refuse _ _ _ hearly) rfl hhold.symm fun h => ?_
  rw [hspent] at h
  cases h

theorem follows_failed (hhold : phase.openHold = none) :
    Follows config submission phase heard answer (.go (.leaving .failed)) :=
  .go (.leaving .failed) rfl hhold.symm fun _ => rfl

theorem verdict_carriedResult {hash : String} {receipt : CarriedReceipt} (h : Prepared config submission heard) :
    Verdict config submission (carriedResult submission hash receipt)
      (heard ++ [.simulated, .written hash] ++ [.carried receipt]) := by
  unfold carriedResult
  split
  · next hsuccess =>
    split
    · next hevents =>
      rw [List.append_assoc]
      exact .revoked h hsuccess (by rw [hevents]; rfl)
    · exact .failed
  · exact .failed

theorem mayHaveSpent_carriedResult {hash : String} {receipt : CarriedReceipt} :
    (Phase.leaving (carriedResult submission hash receipt)).mayHaveSpent = true := by
  unfold carriedResult
  split
  · split <;> rfl
  · rfl

theorem inside_of_submitSponsored {act : Act} (h : submitSponsored config submission phase answer = some act) :
    phase.inside = true := by
  cases phase with
  | registered => cases answer <;> cases h
  | done result => cases answer <;> cases h
  | _ => rfl

/-! ### One check after the other -/

section Checks

variable {act : Act} {hold : Nat} {now : Instant} {hash : String}

theorem follows_revoked (h : submitSponsored config submission .revoked answer = some act) :
    Follows config submission .revoked [] answer act := by
  cases answer with
  | revoked disabled =>
    cases disabled <;> cases h
    · exact .go .nonce rfl rfl fun h => h
    · exact follows_refuse rfl rfl (by simp [Answer.early])
  | threw =>
    cases h
    exact follows_failed rfl
  | _ => cases h

theorem follows_nonce (h : submitSponsored config submission .nonce answer = some act) :
    Follows config submission .nonce [.revoked false] answer act := by
  cases answer with
  | nonce current =>
    cases h
    by_cases hnonce : submission.packed.nonce = current
    · subst hnonce
      simp only [ne_eq, not_true_eq_false, if_false]
      exact .go .reads rfl rfl fun h => h
    · simp only [ne_eq, hnonce, not_false_eq_true, if_true]
      exact follows_refuse rfl rfl (by simp [Answer.early])
  | threw =>
    cases h
    exact follows_failed rfl
  | _ => cases h

theorem follows_reads (h : submitSponsored config submission .reads answer = some act) :
    Follows config submission .reads [.revoked false, .nonce submission.packed.nonce] answer act := by
  cases answer with
  | reads reads =>
    simp only [submitSponsored] at h
    split at h
    · cases h
      exact follows_refuse rfl rfl (by simp [Answer.early])
    · next hjudge =>
      cases h
      obtain ⟨-, hfee, hrelayer⟩ := judgeSubmissionReadiness_eq_ok.mp hjudge
      have hready : Ready submission reads := ⟨hfee, hrelayer⟩
      by_cases hshort : 0 < prefundShortfall submission reads
      · rw [if_pos hshort]
        exact .go (.signature hready (shortfall_pos_iff.mp hshort)) rfl rfl fun h => h
      · rw [if_neg hshort]
        rw [shortfall_pos_iff, Nat.not_lt] at hshort
        exact .go (.simulating (.funded hready hshort)) rfl rfl (absurd · Bool.false_ne_true)
  | threw =>
    cases h
    exact follows_failed rfl
  | _ => cases h

theorem follows_signature (hready : Ready submission reads) (hshort : reads.deposit < submission.requiredPrefund)
    (h : submitSponsored config submission (.signature reads) answer = some act) :
    Follows config submission (.signature reads) (firstChecks submission reads) answer act := by
  cases answer with
  | signature valid =>
    cases valid <;> cases h
    · exact follows_refuse rfl rfl (by simp [firstChecks, Answer.early])
    · exact .consume rfl fun now => .balance hready hshort
  | threw =>
    cases h
    exact follows_failed rfl
  | _ => cases h

theorem follows_balance (hready : Ready submission reads) (hshort : reads.deposit < submission.requiredPrefund)
    (h : submitSponsored config submission (.balance reads now) answer = some act) :
    Follows config submission (.balance reads now) (firstChecks submission reads ++ [.signature true]) answer act := by
  cases answer with
  | balance wei =>
    simp only [submitSponsored] at h
    split at h
    · cases h
      exact follows_refuse rfl rfl (by simp [firstChecks, Answer.early])
    · next hfunded =>
      cases h
      exact .reserve rfl ⟨hready, hshort, wei, by rw [List.append_assoc]; rfl, Nat.not_lt.mp hfunded⟩
  | threw =>
    cases h
    exact follows_failed rfl
  | _ => cases h

theorem follows_sending (hchecked : DepositChecked config submission reads heard)
    (h : submitSponsored config submission (.sending reads hold) answer = some act) :
    Follows config submission (.sending reads hold) heard answer act := by
  cases answer with
  | sent hash =>
    cases h
    exact .go (.mining hchecked) rfl rfl fun _ => rfl
  | threw =>
    cases h
    exact .settle rfl (.leaving .failed) rfl rfl rfl (Int.le_refl 0) fun h => absurd h.symm Bool.false_ne_true
  | _ => cases h

theorem follows_mining (hchecked : DepositChecked config submission reads heard)
    (h : submitSponsored config submission (.mining reads hold) answer = some act) :
    Follows config submission (.mining reads hold) (heard ++ [.sent hash]) answer act := by
  have hgas : (0 : Int) ≤ gasReservation config := Int.natCast_nonneg _
  cases answer with
  | mined receipt =>
    have hcost := costOfReceipt_nonneg receipt hgas
    simp only [submitSponsored] at h
    split at h
    · next hsuccess =>
      cases h
      refine .settle rfl (.simulating ?_) rfl rfl rfl (by omega) fun _ => by omega
      rw [List.append_assoc]
      exact .sponsored hchecked hsuccess
    · cases h
      exact .settle rfl (.leaving .failed) rfl rfl rfl hcost fun h => absurd h.symm Bool.false_ne_true
  | threw =>
    cases h
    refine .settle rfl (.leaving .failed) rfl rfl rfl (Int.natCast_nonneg _) fun _ => ?_
    simp only [reservation]
    omega
  | _ => cases h

theorem follows_simulating (hprepared : Prepared config submission heard)
    (h : submitSponsored config submission .simulating answer = some act) :
    Follows config submission .simulating heard answer act := by
  cases answer with
  | simulated =>
    cases h
    exact .go (.writing hprepared) rfl rfl fun _ => rfl
  | threw =>
    cases h
    exact follows_failed rfl
  | _ => cases h

theorem follows_writing (hprepared : Prepared config submission heard)
    (h : submitSponsored config submission .writing answer = some act) :
    Follows config submission .writing (heard ++ [.simulated]) answer act := by
  cases answer with
  | written hash =>
    cases h
    refine .go ?_ rfl rfl fun _ => rfl
    rw [List.append_assoc]
    exact .carrying hprepared
  | threw =>
    cases h
    exact follows_failed rfl
  | _ => cases h

theorem follows_carrying (hprepared : Prepared config submission heard)
    (h : submitSponsored config submission (.carrying hash) answer = some act) :
    Follows config submission (.carrying hash) (heard ++ [.simulated, .written hash]) answer act := by
  cases answer with
  | carried receipt =>
    cases h
    exact .go (.leaving (verdict_carriedResult hprepared)) rfl rfl fun _ => mayHaveSpent_carriedResult
  | threw =>
    cases h
    exact follows_failed rfl
  | _ => cases h

end Checks

/-- **What a stretch can do**, whatever it was answered. -/
theorem follows_of_submitSponsored (hheard : Heard config submission phase heard) {act : Act}
    (h : submitSponsored config submission phase answer = some act) :
    Follows config submission phase heard answer act := by
  cases hheard with
  | registered => cases answer <;> cases h
  | revoked => exact follows_revoked h
  | nonce => exact follows_nonce h
  | reads => exact follows_reads h
  | signature hready hshort => exact follows_signature hready hshort h
  | balance hready hshort => exact follows_balance hready hshort h
  | sending hchecked => exact follows_sending hchecked h
  | mining hchecked => exact follows_mining hchecked h
  | simulating hprepared => exact follows_simulating hprepared h
  | writing hprepared => exact follows_writing hprepared h
  | carrying hprepared => exact follows_carrying hprepared h
  | leaving _ => cases answer <;> cases h
  | done _ => cases answer <;> cases h

end Stretch

end Mapae.Delegation
