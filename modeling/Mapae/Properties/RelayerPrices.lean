import Mapae.Delegation.RevocationRelayer
import Mapae.Properties.Revocations

/-!
# What the relayer pays

The relayer pays for `handleOps` at its own tip, and is paid back at the tip of the operation. The
relayer's fee is capped by the operation's, which does not make the one price a bound on the other:
nothing compares the relayer's tip with the floor that operations are held to.

For every submission that is accepted, the relayer is not out of pocket if and only if its tip is no
more than the operation's or the operation's cap is reached.
-/

namespace Mapae.Delegation

open Mapae.Infra Mapae.Store

/-- **When the relayer is paid back what it pays**, and that a tip below the floor is enough. -/
theorem relayer_paid_back {D : Type} {viem : Viem} {kit : RevocationKit D} {compositionId : String}
    {env : ProcessEnv} {config : SubmitterConfig} {input : Json}
    {submission : ValidatedRevocationSubmission D}
    (hboot : boot viem compositionId env = .ok config) (hsponsored : config.policy.payer = none)
    (haccepted : validateRevocationSubmission viem kit input config.policy = .ok submission)
    (baseFee : Nat) :
    ((relayerFees config submission.gas).price baseFee ≤ reimbursedPrice submission.gas baseFee ↔
      config.relayerPriorityFee ≤ submission.gas.maxPriorityFeePerGas ∨
        submission.gas.maxFeePerGas ≤ baseFee + submission.gas.maxPriorityFeePerGas) ∧
    ∃ floor, config.policy.minFeePerGas = some floor ∧
      (config.relayerPriorityFee ≤ floor ∨ config.policy.maxFeePerGas ≤ floor →
        (relayerFees config submission.gas).price baseFee ≤ reimbursedPrice submission.gas baseFee) := by
  obtain ⟨floor, hfloor⟩ := boot_floor hboot hsponsored
  have hfees := (accepted_of_validate haccepted).gas_admitted.fees
  exact ⟨price_le_reimbursed_iff, floor, hfloor, price_le_reimbursed_of_floor hfees hfloor⟩

/-! ## A floor below the relayer's tip -/

/-- The sponsored mode, with the floor at 1,000 wei and every other number at its default. -/
def lowFloorEnv : ProcessEnv := fun name =>
  if name = "REVOCATION_SPONSOR_ENABLED" then some "true"
  else if name = "REVOCATION_SPONSOR_APPROVAL" then some (buildSponsoredRevocationApproval "c")
  else if name = "MIN_FEE_PER_GAS" then some "1000"
  else none

def lowFloorConfig : SubmitterConfig where
  relayerPriorityFee := 1000000
  policy := ⟨none, 300000, 300000, 100000, 10000000, some 1000⟩
  sponsor := some ⟨60000, 50000000, 1000000, 1000000000000, 700000000000000, 2⟩

/-- An operation at the ceiling, with the tip at the floor. -/
def lowTipGas : RevocationGas := ⟨300000, 300000, 100000, 10000000, 1000⟩

theorem boot_lowFloor : boot Viem.plain "c" lowFloorEnv = .ok lowFloorConfig := by
  decide +kernel

def lowTipOperation : PackedUserOperation where
  sender := payerAddress
  nonce := 7
  initCode := "0x"
  callData := "0x01"
  accountGasLimits := "0x000000000000000000000000000493e0000000000000000000000000000493e0"
  preVerificationGas := 100000
  gasFees := "0x000000000000000000000000000003e800000000000000000000000000989680"
  paymasterAndData := "0x"
  signature := "0xab"

def lowTipSubmission : ValidatedRevocationSubmission Nat where
  packed := lowTipOperation
  sender := payerAddress
  delegation := 0
  delegationHash := "0"
  gas := lowTipGas
  requiredPrefund := 7000000000000

theorem lowTip_accepted :
    validateRevocationSubmission Viem.plain unaryKit
      (revocationSubmissionBody "0x01" payerAddress lowTipOperation) lowFloorConfig.policy
        = .ok lowTipSubmission := by decide +kernel

theorem relayer_paid_back_capped :
    (relayerFees lowFloorConfig lowTipGas).price 9999000 ≤ reimbursedPrice lowTipGas 9999000 :=
  (relayer_paid_back boot_lowFloor rfl lowTip_accepted 9999000).1.mpr (.inr (by decide))

/-- At a base fee of 267 wei the relayer pays 1,000,267 wei a gas and is paid back 1,267. -/
theorem lowTip_at_a_loss :
    boot Viem.plain "c" lowFloorEnv = .ok lowFloorConfig ∧ lowFloorConfig.policy.payer = none ∧
      validateRevocationSubmission Viem.plain unaryKit
        (revocationSubmissionBody "0x01" payerAddress lowTipOperation) lowFloorConfig.policy
          = .ok lowTipSubmission ∧
      267 ≤ lowTipSubmission.gas.maxFeePerGas ∧
      ¬ (relayerFees lowFloorConfig lowTipSubmission.gas).price 267
        ≤ reimbursedPrice lowTipSubmission.gas 267 :=
  ⟨boot_lowFloor, rfl, lowTip_accepted, by decide, by decide⟩

end Mapae.Delegation
