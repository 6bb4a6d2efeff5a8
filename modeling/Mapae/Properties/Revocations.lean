import Mapae.Delegation.RevocationSubmission

/-!
# A revocation reaches its submitter whole

A wallet signs the operation that `buildRevocationUserOperation` makes, the body carries it, and
`validateRevocationSubmission` reads it.

* Every operation below the ceiling of the wire and within the policy is read back as it was signed.
* Every submission that is accepted disables the last delegation of the chain it names, which the
  sender granted, and no other.

A delegation whose encoding is longer than the ceiling is built and signed, and then refused.
-/

namespace Mapae.Delegation

open Mapae.Infra Mapae.Store

/-- **A submission is read as it was signed, and disables what it names.** -/
theorem revocation_submissions_round_trip {D : Type} {viem : Viem} (hviem : viem.Lawful)
    (kit : RevocationKit D) (policy : RevocationSubmissionPolicy) :
    (∀ chain delegation gas signature entryPoint chainId nonce domainName,
      Submittable viem kit policy chain delegation gas signature →
      viem.isAddress entryPoint = true →
      ∃ built body submission,
        buildRevocationUserOperation viem kit delegation entryPoint chainId nonce gas domainName
          = .ok built ∧
        buildRevocationSubmissionBody viem (kit.encodeDelegations chain)
          (finalizeRevocationUserOperation built signature) = .ok body ∧
        validateRevocationSubmission viem kit body policy = .ok submission ∧
        submission.packed = finalizeRevocationUserOperation built signature ∧
        submission.gas = gas ∧ submission.requiredPrefund = revocationPrefund gas) ∧
      ∀ input submission, validateRevocationSubmission viem kit input policy = .ok submission →
        Accepted viem kit input policy submission ∧
          ∃! delegation, toLowerCase submission.packed.callData
            = toLowerCase (kit.disableDelegation delegation) := by
  refine ⟨fun chain delegation gas signature entryPoint chainId nonce domainName h hentry =>
    validate_body hviem h hentry chainId nonce domainName, fun input submission h => ?_⟩
  have haccepted := accepted_of_validate h
  exact ⟨haccepted, submission.delegation, haccepted.call_eq, fun _ => haccepted.unique⟩

/-! ## One revocation, and one that is too long -/

def payerAddress : String := "0x00000000000000000000000000000000000000aa"

def entryPointAddress : String := "0x00000000000000000000000000000000000000ee"

/-- The default limits and fees of a sponsored submitter. -/
def sponsoredGas : RevocationGas := ⟨300000, 300000, 100000, 10000000, 10000000⟩

def sponsoredPolicy : RevocationSubmissionPolicy :=
  ⟨none, 300000, 300000, 100000, 10000000, some 10000000⟩

def unaryKit : RevocationKit Nat := RevocationKit.unary payerAddress

theorem sponsoredGas_admitted : GasAdmitted sponsoredPolicy sponsoredGas where
  callGas_le := by decide
  verificationGas_le := by decide
  preVerificationGas_le := by decide
  fees := ⟨by decide, by decide, by decide, fun floor h => by cases h; decide⟩

/-- A short delegation fits. -/
theorem submittable_zero :
    Submittable Viem.plain unaryKit sponsoredPolicy [0] 0 sponsoredGas "0xab" where
  root := rfl
  delegator_isAddress := by decide
  served _ h := nomatch h
  context_length := by decide
  call_length := by decide
  signature_hex := by decide
  signature_length := by decide
  signature_ne := by decide
  callGas_lt := by decide
  verificationGas_lt := by decide
  maxFee_lt := by decide
  priorityFee_lt := by decide
  admitted := sponsoredGas_admitted

theorem revocation_submissions_round_trip_short :
    ∃ built body submission,
      buildRevocationUserOperation Viem.plain unaryKit 0 entryPointAddress 91342 7 sponsoredGas none
        = .ok built ∧
      buildRevocationSubmissionBody Viem.plain (unaryKit.encodeDelegations [0])
        (finalizeRevocationUserOperation built "0xab") = .ok body ∧
      validateRevocationSubmission Viem.plain unaryKit body sponsoredPolicy = .ok submission ∧
      submission.packed = finalizeRevocationUserOperation built "0xab" ∧
      submission.gas = sponsoredGas ∧
      submission.requiredPrefund = revocationPrefund sponsoredGas :=
  (revocation_submissions_round_trip Viem.plain_lawful unaryKit sponsoredPolicy).1 [0] 0
    sponsoredGas "0xab" entryPointAddress 91342 7 none submittable_zero (by decide)

/-- A delegation of ten thousand zero bytes is built and signed, and the submitter refuses the
text of it. -/
theorem long_revocation_refused :
    GasAdmitted sponsoredPolicy sponsoredGas ∧ Signable Viem.plain unaryKit 10000 sponsoredGas ∧
    ∃ built body,
      buildRevocationUserOperation Viem.plain unaryKit 10000 entryPointAddress 91342 7 sponsoredGas
        none = .ok built ∧
      buildRevocationSubmissionBody Viem.plain (unaryKit.encodeDelegations [10000])
        (finalizeRevocationUserOperation built "0xab") = .ok body ∧
      validateRevocationSubmission Viem.plain unaryKit body sponsoredPolicy
        = .error "permissionContext is too large" := by
  have hsignable : Signable Viem.plain unaryKit 10000 sponsoredGas :=
    ⟨by decide, by decide, by decide, by decide, by decide⟩
  obtain ⟨built, limits, fees, hbuilt, -, -, hpacked⟩ :=
    build_eq_ok hsignable (by decide) (by decide)
      (show Viem.plain.isAddress entryPointAddress = true from by decide) 91342 7 none
  refine ⟨sponsoredGas_admitted, hsignable, built, revocationSubmissionBody (unaryKit.encodeDelegations [10000]) payerAddress
    (finalizeRevocationUserOperation built "0xab"), hbuilt, ?_,
    validate_tooLarge rfl (unaryKit.encode_hex _) ?_⟩
  · have hsender : (finalizeRevocationUserOperation built "0xab").sender = payerAddress :=
      congrArg PackedUserOperation.sender hpacked
    rw [buildRevocationSubmissionBody, hsender]
    rfl
  · have hlength : (unaryKit.encodeDelegations [10000]).toList.length = 20004 := by
      simp [unaryKit, RevocationKit.unary, hexText, RevocationKit.length_unaryBytes]
    rw [hlength]
    decide

end Mapae.Delegation
