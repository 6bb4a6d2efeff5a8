import Mapae.Delegation.UserOperation

/-!
# A revocation on the wire

`buildRevocationSubmissionBody` serialises a signed revocation, and
`validateRevocationSubmission` reads it back under the operator's policy: one operation that
disables one delegation of the sender's own, at a price the operator has agreed to.

* `validate_body`: what was built from a delegation is read back
* `Accepted` is all that acceptance says
-/

namespace Mapae.Delegation

open Mapae.Infra Mapae.Store

/-- The operator's bounds on what a submitter carries. -/
structure RevocationSubmissionPolicy where
  /-- The only sender this submitter acts for. -/
  payer : Option String
  maxCallGasLimit : Nat
  maxVerificationGasLimit : Nat
  maxPreVerificationGas : Nat
  maxFeePerGas : Nat
  /-- The lowest price, of both fee fields, this submitter carries. -/
  minFeePerGas : Option Nat
  deriving DecidableEq

structure ValidatedRevocationSubmission (D : Type) where
  packed : PackedUserOperation
  sender : String
  /-- The root permission. -/
  delegation : D
  delegationHash : String
  gas : RevocationGas
  requiredPrefund : Nat
  deriving DecidableEq

/-- The ceiling on any single hex field. -/
def MAX_HEX_CHARACTERS : Nat := 20000

def readHex (value : Option Json) (name : String) : Except String String := do
  let text ← orThrow ((value.bind Json.text).filter isHexBytes)
    s!"{name} must be 0x-prefixed hex of whole bytes"
  throwIf (MAX_HEX_CHARACTERS < text.toList.length) s!"{name} is too large"
  pure text

def readBytes32 (value : Option Json) (name : String) : Except String String := do
  let text ← readHex value name
  throwIf (text.toList.length ≠ 66) s!"{name} must be exactly 32 bytes"
  pure text

def readUint (value : Option Json) (name : String) : Except String Nat := do
  let text ← orThrow ((value.bind Json.text).filter isUintText)
    s!"{name} must be an unsigned integer string"
  pure (decimalValue text.toList)

def cap (value limit : Nat) (name : String) : Except String Unit :=
  throwIf (limit < value) s!"{name} {value} exceeds the configured cap {limit}"

/-- The checks of the price. -/
def assertFees (policy : RevocationSubmissionPolicy) (maxFeePerGas maxPriorityFeePerGas : Nat) :
    Except String Unit := do
  cap maxFeePerGas policy.maxFeePerGas "maxFeePerGas"
  throwIf (maxFeePerGas < maxPriorityFeePerGas) "maxPriorityFeePerGas must not exceed maxFeePerGas"
  throwIf (maxFeePerGas = 0) "maxFeePerGas must be non-zero"
  match policy.minFeePerGas with
  | none => pure ()
  | some minFeePerGas => do
    throwIf (maxFeePerGas < minFeePerGas)
      (s!"maxFeePerGas {maxFeePerGas} is below the required {minFeePerGas}; " ++
        "the relayer cannot recover what it fronts at that price")
    throwIf (maxPriorityFeePerGas < minFeePerGas)
      (s!"maxPriorityFeePerGas {maxPriorityFeePerGas} is below the required {minFeePerGas}; " ++
        "the EntryPoint reimburses at min(maxFeePerGas, maxPriorityFeePerGas + baseFee), " ++
        "so the relayer cannot recover what it fronts at that tip")

/-- A submitter of one payer serves no other sender. -/
def assertPayer (viem : Viem) (payer : Option String) (sender : String) : Except String Unit :=
  match payer with
  | none => pure ()
  | some payer => do
    let payer ← checksummed viem payer
    throwIf (sender ≠ payer) "userOperation.sender is not the account this submitter serves"

variable {D : Type}

/-- Accepts a signed operation only if it revokes the sender's own permission. -/
def validateRevocationSubmission (viem : Viem) (kit : RevocationKit D) (input : Json)
    (policy : RevocationSubmissionPolicy) : Except String (ValidatedRevocationSubmission D) := do
  let request ← orThrow ((some input).filter Json.isObject) "request must be an object"
  let permissionContext ← readHex (request.field "permissionContext") "permissionContext"
  let chain ← (kit.decodeDelegations permissionContext).mapError fun message =>
    s!"permissionContext is not a delegation chain: {message}"
  -- The root is last: it is the only link that the payer account delegated itself.
  let delegation ← orThrow chain.getLast? "permissionContext contains no delegations"
  let op ← orThrow ((request.field "userOperation").filter Json.isObject)
    "userOperation must be an object"
  let given ← orThrow ((op.textField "sender").filter viem.isAddress)
    "userOperation.sender must be an address"
  let sender := viem.getAddress given
  assertPayer viem policy.payer sender
  let delegator ← checksummed viem (kit.delegator delegation)
  throwIf (delegator ≠ sender) "the root permission was not granted by the sender account"
  let initCode ← readHex (op.field "initCode") "userOperation.initCode"
  throwIf (initCode ≠ "0x") "userOperation.initCode must be empty"
  let paymasterAndData ← readHex (op.field "paymasterAndData") "userOperation.paymasterAndData"
  throwIf (paymasterAndData ≠ "0x") "userOperation.paymasterAndData must be empty"
  let callData ← readHex (op.field "callData") "userOperation.callData"
  throwIf (toLowerCase callData ≠ toLowerCase (kit.disableDelegation delegation))
    "userOperation.callData is not disableDelegation for this permission"
  let accountGasLimits ← readBytes32 (op.field "accountGasLimits") "userOperation.accountGasLimits"
  let gasFees ← readBytes32 (op.field "gasFees") "userOperation.gasFees"
  let preVerificationGas ← readUint (op.field "preVerificationGas")
    "userOperation.preVerificationGas"
  let gas : RevocationGas :=
    { callGasLimit := lowHalf accountGasLimits
      verificationGasLimit := highHalf accountGasLimits
      preVerificationGas
      maxFeePerGas := lowHalf gasFees
      maxPriorityFeePerGas := highHalf gasFees }
  cap gas.callGasLimit policy.maxCallGasLimit "callGasLimit"
  cap gas.verificationGasLimit policy.maxVerificationGasLimit "verificationGasLimit"
  cap gas.preVerificationGas policy.maxPreVerificationGas "preVerificationGas"
  assertFees policy gas.maxFeePerGas gas.maxPriorityFeePerGas
  let nonce ← readUint (op.field "nonce") "userOperation.nonce"
  let signature ← readHex (op.field "signature") "userOperation.signature"
  throwIf (signature = "0x") "userOperation.signature is empty"
  pure
    { packed :=
        { sender, nonce, initCode, callData, accountGasLimits,
          preVerificationGas := gas.preVerificationGas, gasFees, paymasterAndData, signature }
      sender
      delegation
      delegationHash := kit.hashDelegation delegation
      gas
      requiredPrefund :=
        (gas.verificationGasLimit + gas.callGasLimit + gas.preVerificationGas) * gas.maxFeePerGas }

/-- The body of `POST /revoke`. Integers are decimal texts. -/
def revocationSubmissionBody (permissionContext sender : String) (packed : PackedUserOperation) :
    Json :=
  .object
    [("permissionContext", .string permissionContext),
      ("userOperation", .object
        [("sender", .string sender),
          ("nonce", .string (decimalText packed.nonce)),
          ("initCode", .string packed.initCode),
          ("callData", .string packed.callData),
          ("accountGasLimits", .string packed.accountGasLimits),
          ("preVerificationGas", .string (decimalText packed.preVerificationGas)),
          ("gasFees", .string packed.gasFees),
          ("paymasterAndData", .string packed.paymasterAndData),
          ("signature", .string packed.signature)])]

def buildRevocationSubmissionBody (viem : Viem) (permissionContext : String)
    (packed : PackedUserOperation) : Except String Json := do
  let sender ← checksummed viem packed.sender
  pure (revocationSubmissionBody permissionContext sender packed)

/-! ## What acceptance says -/

variable {viem : Viem} {kit : RevocationKit D} {policy : RevocationSubmissionPolicy} {input : Json}
  {value : Option Json} {name text : String}

theorem checksummed_eq_ok {address result : String} :
    checksummed viem address = .ok result ↔
      viem.isAddress address = true ∧ result = viem.getAddress address := by
  unfold checksummed
  split
  · next h => simp [h, eq_comm]
  · next h => simp [h]

theorem readHex_eq_ok :
    readHex value name = .ok text ↔
      value.bind Json.text = some text ∧ isHexBytes text = true ∧
        text.toList.length ≤ MAX_HEX_CHARACTERS := by
  simp only [readHex, bind_eq_ok, orThrow_eq_ok, Option.filter_eq_some_iff, throwIf_eq_ok, not_lt,
    pure_eq_ok, exists_const]
  constructor
  · rintro ⟨_, ⟨hvalue, hhex⟩, hlength, rfl⟩
    exact ⟨hvalue, hhex, hlength⟩
  · rintro ⟨hvalue, hhex, hlength⟩
    exact ⟨text, ⟨hvalue, hhex⟩, hlength, rfl⟩

theorem readHex_eq_tooLarge (htext : value.bind Json.text = some text)
    (hhex : isHexBytes text = true) (hlong : MAX_HEX_CHARACTERS < text.toList.length) :
    readHex value name = .error s!"{name} is too large" := by
  have hfilter : (some text).filter isHexBytes = some text := Option.filter_some_pos hhex
  rw [readHex, htext, hfilter]
  simp only [orThrow, bind_eq_error, throwIf_eq_error, Except.ok.injEq]
  exact .inr ⟨text, rfl, .inl ⟨hlong, trivial⟩⟩

theorem readBytes32_eq_ok :
    readBytes32 value name = .ok text ↔
      value.bind Json.text = some text ∧ isHexBytes text = true ∧ text.toList.length = 66 := by
  simp only [readBytes32, bind_eq_ok, readHex_eq_ok, throwIf_eq_ok, not_not, pure_eq_ok,
    exists_const]
  constructor
  · rintro ⟨_, ⟨hvalue, hhex, -⟩, hlength, rfl⟩
    exact ⟨hvalue, hhex, hlength⟩
  · rintro ⟨hvalue, hhex, hlength⟩
    exact ⟨text, ⟨hvalue, hhex, hlength ▸ by decide⟩, hlength, rfl⟩

theorem readUint_eq_ok {n : Nat} :
    readUint value name = .ok n ↔
      ∃ text, value.bind Json.text = some text ∧ isUintText text = true ∧
        decimalValue text.toList = n := by
  simp only [readUint, bind_eq_ok, orThrow_eq_ok, Option.filter_eq_some_iff, pure_eq_ok, and_assoc]

theorem cap_eq_ok {n limit : Nat} {u : Unit} : cap n limit name = .ok u ↔ n ≤ limit := by
  rw [cap, throwIf_eq_ok, not_lt]

theorem assertPayer_eq_ok {payer : Option String} {sender : String} {u : Unit} :
    assertPayer viem payer sender = .ok u ↔
      ∀ served, payer = some served → checksummed viem served = .ok sender := by
  cases payer with
  | none => simp [assertPayer]
  | some served =>
    simp only [assertPayer, bind_eq_ok, throwIf_eq_ok, not_not, Option.some.injEq, forall_eq']
    constructor
    · rintro ⟨_, h, rfl⟩
      exact h
    · intro h
      exact ⟨_, h, rfl⟩

/-- The price is one the operator agreed to. -/
structure FeesAdmitted (policy : RevocationSubmissionPolicy) (maxFeePerGas maxPriorityFeePerGas : Nat) :
    Prop where
  maxFee_le : maxFeePerGas ≤ policy.maxFeePerGas
  priority_le : maxPriorityFeePerGas ≤ maxFeePerGas
  maxFee_ne_zero : maxFeePerGas ≠ 0
  floor_le : ∀ floor, policy.minFeePerGas = some floor → floor ≤ maxPriorityFeePerGas

theorem assertFees_eq_ok {fee tip : Nat} {u : Unit} :
    assertFees policy fee tip = .ok u ↔ FeesAdmitted policy fee tip := by
  simp only [assertFees, bind_eq_ok, cap_eq_ok, throwIf_eq_ok, not_lt, exists_const]
  constructor
  · rintro ⟨hcap, htip, hne, hfloor⟩
    refine ⟨hcap, htip, hne, fun floor hpolicy => ?_⟩
    rw [hpolicy] at hfloor
    simp only [bind_eq_ok, throwIf_eq_ok, not_lt, exists_const] at hfloor
    exact hfloor.2
  · intro h
    refine ⟨h.maxFee_le, h.priority_le, h.maxFee_ne_zero, ?_⟩
    cases hpolicy : policy.minFeePerGas with
    | none => rfl
    | some floor =>
      have hfloor := h.floor_le floor hpolicy
      simp only [bind_eq_ok, throwIf_eq_ok, not_lt, exists_const]
      exact ⟨hfloor.trans h.priority_le, hfloor⟩

/-- The gas is within the caps of the policy. -/
structure GasAdmitted (policy : RevocationSubmissionPolicy) (gas : RevocationGas) : Prop where
  callGas_le : gas.callGasLimit ≤ policy.maxCallGasLimit
  verificationGas_le : gas.verificationGasLimit ≤ policy.maxVerificationGasLimit
  preVerificationGas_le : gas.preVerificationGas ≤ policy.maxPreVerificationGas
  fees : FeesAdmitted policy gas.maxFeePerGas gas.maxPriorityFeePerGas

/-- **What acceptance says**: the submission disables the last delegation of the chain it names,
which the sender granted, and nothing else. -/
structure Accepted (viem : Viem) (kit : RevocationKit D) (input : Json)
    (policy : RevocationSubmissionPolicy) (submission : ValidatedRevocationSubmission D) :
    Prop where
  root : ∃ context chain, input.textField "permissionContext" = some context ∧
    kit.decodeDelegations context = .ok chain ∧ chain.getLast? = some submission.delegation
  granted : checksummed viem (kit.delegator submission.delegation) = .ok submission.sender
  served : ∀ payer, policy.payer = some payer → checksummed viem payer = .ok submission.sender
  sender_eq : submission.packed.sender = submission.sender
  initCode_eq : submission.packed.initCode = "0x"
  paymaster_eq : submission.packed.paymasterAndData = "0x"
  call_eq : toLowerCase submission.packed.callData
    = toLowerCase (kit.disableDelegation submission.delegation)
  gas_eq : submission.gas =
    { callGasLimit := lowHalf submission.packed.accountGasLimits
      verificationGasLimit := highHalf submission.packed.accountGasLimits
      preVerificationGas := submission.packed.preVerificationGas
      maxFeePerGas := lowHalf submission.packed.gasFees
      maxPriorityFeePerGas := highHalf submission.packed.gasFees }
  gas_admitted : GasAdmitted policy submission.gas
  prefund_eq : submission.requiredPrefund = revocationPrefund submission.gas
  hash_eq : submission.delegationHash = kit.hashDelegation submission.delegation
  signed : submission.packed.signature ≠ "0x"

theorem mapError_eq_ok {ε ε' α : Type} {f : ε → ε'} {x : Except ε α} {a : α} :
    x.mapError f = .ok a ↔ x = .ok a := by
  cases x <;> simp [Except.mapError]

theorem accepted_of_validate {submission : ValidatedRevocationSubmission D}
    (h : validateRevocationSubmission viem kit input policy = .ok submission) :
    Accepted viem kit input policy submission := by
  simp only [validateRevocationSubmission, bind_eq_ok, orThrow_eq_ok, Option.filter_eq_some_iff,
    readHex_eq_ok, readBytes32_eq_ok, readUint_eq_ok, mapError_eq_ok, throwIf_eq_ok, cap_eq_ok,
    assertPayer_eq_ok, assertFees_eq_ok, not_not, pure_eq_ok, exists_const] at h
  obtain ⟨request, ⟨hinput, -⟩, context, ⟨hcontext, -⟩, chain, hchain, delegation, hroot, op, -,
    given, -, hserved, delegator, hgranted, hsender, initCode, -, hinit, paymaster, -, hpaymaster,
    callData, -, hcall, accountGasLimits, -, gasFees, -, preVerificationGas, -, hcallGas,
    hverificationGas, hpreGas, hfees, nonce, -, signature, -, hsigned, rfl⟩ := h
  obtain rfl := Option.some.inj hinput
  subst hsender
  exact
    { root := ⟨context, chain, hcontext, hchain, hroot⟩
      granted := hgranted
      served := hserved
      sender_eq := rfl
      initCode_eq := hinit
      paymaster_eq := hpaymaster
      call_eq := hcall
      gas_eq := rfl
      gas_admitted := ⟨hcallGas, hverificationGas, hpreGas, hfees⟩
      prefund_eq := rfl
      hash_eq := rfl
      signed := hsigned }

/-- A chain whose text is above the ceiling is not read. -/
theorem validate_tooLarge {members : List (String × Json)} {context : String}
    (hcontext : (Json.object members).textField "permissionContext" = some context)
    (hhex : isHexBytes context = true) (hlong : MAX_HEX_CHARACTERS < context.toList.length) :
    validateRevocationSubmission viem kit (.object members) policy
      = .error "permissionContext is too large" := by
  simp only [validateRevocationSubmission, bind_eq_error, orThrow_eq_ok]
  exact .inr ⟨_, rfl, .inl (readHex_eq_tooLarge hcontext hhex hlong)⟩

/-- A call that is accepted names one delegation only. -/
theorem Accepted.unique {submission : ValidatedRevocationSubmission D}
    (h : Accepted viem kit input policy submission) {delegation : D}
    (hcall : toLowerCase submission.packed.callData
      = toLowerCase (kit.disableDelegation delegation)) : delegation = submission.delegation :=
  kit.disable_injective (hcall.symm.trans h.call_eq)

/-! ## Reading back what was built -/

variable {chain : List D} {delegation : D} {gas : RevocationGas} {signature : String}

/-- A revocation that can be built: its delegator is an address, and the gas fits the two words. -/
structure Signable (viem : Viem) (kit : RevocationKit D) (delegation : D) (gas : RevocationGas) :
    Prop where
  delegator_isAddress : viem.isAddress (kit.delegator delegation) = true
  callGas_lt : gas.callGasLimit < 2 ^ 128
  verificationGas_lt : gas.verificationGasLimit < 2 ^ 128
  maxFee_lt : gas.maxFeePerGas < 2 ^ 128
  priorityFee_lt : gas.maxPriorityFeePerGas < 2 ^ 128

/-- A revocation that fits the wire and the policy: the delegation is the last of its chain, every
text is below the ceiling, and the gas is within the caps. -/
structure Submittable (viem : Viem) (kit : RevocationKit D) (policy : RevocationSubmissionPolicy)
    (chain : List D) (delegation : D) (gas : RevocationGas) (signature : String) : Prop
    extends Signable viem kit delegation gas where
  root : chain.getLast? = some delegation
  served : ∀ payer, policy.payer = some payer →
    viem.isAddress payer = true ∧ viem.getAddress payer = viem.getAddress (kit.delegator delegation)
  context_length : (kit.encodeDelegations chain).toList.length ≤ MAX_HEX_CHARACTERS
  call_length : (kit.disableDelegation delegation).toList.length ≤ MAX_HEX_CHARACTERS
  signature_hex : isHexBytes signature = true
  signature_length : signature.toList.length ≤ MAX_HEX_CHARACTERS
  signature_ne : signature ≠ "0x"
  admitted : GasAdmitted policy gas

/-- The operation that is built packs the gas into two words. -/
theorem build_eq_ok (h : Signable viem kit delegation gas) (hne : gas.maxFeePerGas ≠ 0)
    (hle : gas.maxPriorityFeePerGas ≤ gas.maxFeePerGas) {entryPoint : String}
    (hentry : viem.isAddress entryPoint = true) (chainId nonce : Nat)
    (domainName : Option String) :
    ∃ built limits fees,
      buildRevocationUserOperation viem kit delegation entryPoint chainId nonce gas domainName
        = .ok built ∧
      packHalves gas.verificationGasLimit gas.callGasLimit = .ok limits ∧
      packHalves gas.maxPriorityFeePerGas gas.maxFeePerGas = .ok fees ∧
      built.packed =
        { sender := viem.getAddress (kit.delegator delegation), nonce, initCode := "0x",
          callData := kit.disableDelegation delegation, accountGasLimits := limits,
          preVerificationGas := gas.preVerificationGas, gasFees := fees, paymasterAndData := "0x",
          signature := "0x" } := by
  obtain ⟨limits, hlimits⟩ := exists_packHalves h.verificationGas_lt h.callGas_lt
  obtain ⟨fees, hfees⟩ := exists_packHalves h.priorityFee_lt h.maxFee_lt
  simp only [buildRevocationUserOperation, toPackedUserOperation, bind_eq_ok, throwIf_eq_ok,
    checksummed_eq_ok, pure_eq_ok, hlimits, hfees, Except.ok.injEq, not_lt, exists_const]
  exact ⟨_, limits, fees,
    ⟨hne, hle, _, ⟨h.delegator_isAddress, rfl⟩, _, ⟨hentry, rfl⟩, _,
      ⟨limits, rfl, fees, rfl, rfl⟩, rfl⟩,
    rfl, rfl, rfl⟩

/-- **What was built and signed is read back**: the same operation, the same gas, the same
prefund. -/
theorem validate_body (hviem : viem.Lawful)
    (h : Submittable viem kit policy chain delegation gas signature)
    {entryPoint : String} (hentry : viem.isAddress entryPoint = true) (chainId nonce : Nat)
    (domainName : Option String) :
    ∃ built body submission,
      buildRevocationUserOperation viem kit delegation entryPoint chainId nonce gas domainName
        = .ok built ∧
      buildRevocationSubmissionBody viem (kit.encodeDelegations chain)
        (finalizeRevocationUserOperation built signature) = .ok body ∧
      validateRevocationSubmission viem kit body policy = .ok submission ∧
      submission.packed = finalizeRevocationUserOperation built signature ∧
      submission.gas = gas ∧ submission.requiredPrefund = revocationPrefund gas := by
  obtain ⟨built, limits, fees, hbuilt, hlimits, hfees, hpacked⟩ :=
    build_eq_ok h.toSignable h.admitted.fees.maxFee_ne_zero h.admitted.fees.priority_le hentry
      chainId nonce domainName
  obtain ⟨hlimitsHex, hlimitsLength, hverification, hcall⟩ := packHalves_spec hlimits
  obtain ⟨hfeesHex, hfeesLength, hpriority, hmax⟩ := packHalves_spec hfees
  have hsender := hviem.isAddress_getAddress h.delegator_isAddress
  have hsame := hviem.getAddress_getAddress h.delegator_isAddress
  have hfinal : finalizeRevocationUserOperation built signature =
      { sender := viem.getAddress (kit.delegator delegation), nonce, initCode := "0x",
        callData := kit.disableDelegation delegation, accountGasLimits := limits,
        preVerificationGas := gas.preVerificationGas, gasFees := fees, paymasterAndData := "0x",
        signature } := by
    rw [finalizeRevocationUserOperation, hpacked]
  let submission : ValidatedRevocationSubmission D :=
    { packed := finalizeRevocationUserOperation built signature
      sender := viem.getAddress (kit.delegator delegation)
      delegation
      delegationHash := kit.hashDelegation delegation
      gas
      requiredPrefund := revocationPrefund gas }
  refine ⟨built, revocationSubmissionBody (kit.encodeDelegations chain)
    (viem.getAddress (kit.delegator delegation)) (finalizeRevocationUserOperation built signature),
    submission, hbuilt, ?_, ?_, rfl, rfl, rfl⟩
  · simp only [buildRevocationSubmissionBody, hfinal, bind_eq_ok, checksummed_eq_ok, pure_eq_ok]
    exact ⟨_, ⟨hsender, hsame.symm⟩, rfl⟩
  · simp only [submission, hfinal, validateRevocationSubmission, bind_eq_ok, orThrow_eq_ok, Option.filter_eq_some_iff,
      readHex_eq_ok, readBytes32_eq_ok, readUint_eq_ok, mapError_eq_ok, throwIf_eq_ok, cap_eq_ok,
      assertPayer_eq_ok, assertFees_eq_ok, checksummed_eq_ok, not_not, pure_eq_ok, exists_const]
    refine ⟨_, ⟨rfl, rfl⟩, _, ⟨rfl, kit.encode_hex chain, h.context_length⟩, chain,
      kit.decode_encode chain, delegation, h.root, _, ⟨rfl, rfl⟩, _, ⟨rfl, hsender⟩, ?_, _,
      ⟨h.delegator_isAddress, rfl⟩, hsame.symm, "0x", ⟨rfl, rfl, by decide⟩, rfl, "0x",
      ⟨rfl, rfl, by decide⟩, rfl, _, ⟨rfl, kit.disable_hex delegation, h.call_length⟩, rfl, limits,
      ⟨rfl, hlimitsHex, hlimitsLength⟩, fees, ⟨rfl, hfeesHex, hfeesLength⟩, gas.preVerificationGas,
      ⟨_, rfl, isUintText_decimalText _, decimalValue_decimalText _⟩, ?_, ?_, ?_, ?_, nonce,
      ⟨_, rfl, isUintText_decimalText _, decimalValue_decimalText _⟩, signature,
      ⟨rfl, h.signature_hex, h.signature_length⟩, h.signature_ne, ?_⟩
    · intro payer hpayer
      obtain ⟨hpayerIs, heq⟩ := h.served payer hpayer
      exact ⟨hpayerIs, hsame.trans heq.symm⟩
    · exact hcall.symm ▸ h.admitted.callGas_le
    · exact hverification.symm ▸ h.admitted.verificationGas_le
    · exact h.admitted.preVerificationGas_le
    · exact hmax.symm ▸ hpriority.symm ▸ h.admitted.fees
    · simp only [hverification, hcall, hmax, hpriority, hsame, revocationPrefund]

end Mapae.Delegation
