import Mapae.Delegation.FacilitatorContract
import Mapae.Infra.Hex

/-!
# The user operation of a revocation

`buildRevocationUserOperation` makes the operation a payer's wallet signs to disable one of its
delegations, and `finalizeRevocationUserOperation` puts the signature in.

`RevocationKit` stands for the kit's delegation codec: a chain of delegations is written as a text
that reads back as the chain, and the call that disables a delegation names it.
-/

namespace Mapae.Delegation

open Mapae.Infra Mapae.Store

/-- `/^0x([0-9a-fA-F]{2})*$/`. -/
def isHexBytes (text : String) : Bool :=
  match text.toList with
  | '0' :: 'x' :: digits => digits.length % 2 == 0 && digits.all isHexDigit
  | _ => false

/-- The text of hex digits. -/
def hexText (digits : List Char) : String := String.ofList ('0' :: 'x' :: digits)

/-- The digits of a hex text. -/
def hexBody (text : String) : List Char := text.toList.drop 2

/-- The delegation codec of the kit. -/
structure RevocationKit (D : Type) where
  delegator : D → String
  encodeDelegations : List D → String
  /-- The message when decoding throws. -/
  decodeDelegations : String → Except String (List D)
  /-- The call data of `disableDelegation`. -/
  disableDelegation : D → String
  hashDelegation : D → String
  decode_encode (chain : List D) : decodeDelegations (encodeDelegations chain) = .ok chain
  encode_hex (chain : List D) : isHexBytes (encodeDelegations chain) = true
  disable_hex (delegation : D) : isHexBytes (disableDelegation delegation) = true
  /-- The call names the delegation. -/
  disable_injective {d d' : D} :
    toLowerCase (disableDelegation d) = toLowerCase (disableDelegation d') → d = d'

/-- What `viem` says of the addresses it checksums. -/
structure Viem.Lawful (viem : Viem) : Prop where
  isAddress_getAddress {a : String} : viem.isAddress a = true → viem.isAddress (viem.getAddress a) = true
  getAddress_getAddress {a : String} :
    viem.isAddress a = true → viem.getAddress (viem.getAddress a) = viem.getAddress a

/-- `getAddress`, which throws for a text that is no address. -/
def checksummed (viem : Viem) (address : String) : Except String String :=
  if viem.isAddress address then .ok (viem.getAddress address)
  else .error s!"Address {address} is invalid."

structure RevocationGas where
  callGasLimit : Nat
  verificationGasLimit : Nat
  preVerificationGas : Nat
  maxFeePerGas : Nat
  maxPriorityFeePerGas : Nat
  deriving DecidableEq

/-- What the EntryPoint sets aside for the operation. -/
def revocationPrefund (gas : RevocationGas) : Nat :=
  (gas.verificationGasLimit + gas.callGasLimit + gas.preVerificationGas) * gas.maxFeePerGas

/-- The struct that is signed. -/
structure PackedUserOperation where
  sender : String
  nonce : Nat
  initCode : String
  callData : String
  accountGasLimits : String
  preVerificationGas : Nat
  gasFees : String
  paymasterAndData : String
  signature : String
  deriving DecidableEq

/-- `concat([pad(numberToHex(high), {size: 16}), pad(numberToHex(low), {size: 16})])`. A number of
more than 16 bytes throws. -/
def packHalves (high low : Nat) : Except String String :=
  match hexPadded 32 high, hexPadded 32 low with
  | some high, some low => .ok (hexText (high ++ low))
  | _, _ => .error "Hex size exceeds padding size (16)."

/-- `hexToBigInt(slice(word, 0, 16))`. -/
def highHalf (word : String) : Nat := hexValue ((hexBody word).take 32)

/-- `hexToBigInt(slice(word, 16, 32))`. -/
def lowHalf (word : String) : Nat := hexValue ((hexBody word).drop 32)

/-- `toPackedUserOperation` of an operation without factory and paymaster. -/
def toPackedUserOperation (sender : String) (nonce : Nat) (callData : String) (gas : RevocationGas)
    (signature : String) : Except String PackedUserOperation := do
  let accountGasLimits ← packHalves gas.verificationGasLimit gas.callGasLimit
  let gasFees ← packHalves gas.maxPriorityFeePerGas gas.maxFeePerGas
  pure
    { sender, nonce, initCode := "0x", callData, accountGasLimits,
      preVerificationGas := gas.preVerificationGas, gasFees, paymasterAndData := "0x", signature }

/-- The EIP-712 domain the payload is signed under. -/
structure RevocationDomain where
  name : String
  chainId : Nat
  verifyingContract : String

structure RevocationUserOperation where
  entryPoint : String
  sender : String
  /-- Without a signature, until `finalizeRevocationUserOperation`. -/
  packed : PackedUserOperation
  domain : RevocationDomain
  requiredPrefund : Nat

variable {D : Type}

/-- The payload the payer's wallet signs to disable the delegation. -/
def buildRevocationUserOperation (viem : Viem) (kit : RevocationKit D) (delegation : D)
    (entryPoint : String) (chainId nonce : Nat) (gas : RevocationGas)
    (accountDomainName : Option String) : Except String RevocationUserOperation := do
  throwIf (gas.maxFeePerGas = 0)
    ("maxFeePerGas must be non-zero: a zero-fee UserOperation has requiredPrefund 0, " ++
      "which makes the EntryPoint prefund check dead code and lets handleOps succeed " ++
      "on a completely unfunded account")
  throwIf (gas.maxFeePerGas < gas.maxPriorityFeePerGas)
    "maxPriorityFeePerGas must not exceed maxFeePerGas"
  let sender ← checksummed viem (kit.delegator delegation)
  let entryPoint ← checksummed viem entryPoint
  let packed ← toPackedUserOperation sender nonce (kit.disableDelegation delegation) gas "0x"
  pure
    { entryPoint, sender, packed,
      domain := ⟨accountDomainName.getD "HybridDeleGator", chainId, sender⟩,
      requiredPrefund := revocationPrefund gas }

/-- The operation that was hashed, with the wallet's signature. -/
def finalizeRevocationUserOperation (built : RevocationUserOperation) (signature : String) :
    PackedUserOperation :=
  { built.packed with signature := signature }

/-! ## Hex texts -/

@[simp] theorem hexBody_hexText (digits : List Char) : hexBody (hexText digits) = digits := by
  rw [hexBody, hexText, String.toList_ofList]
  rfl

theorem isHexBytes_hexText {digits : List Char} :
    isHexBytes (hexText digits) = true ↔ digits.length % 2 = 0 ∧ digits.all isHexDigit = true := by
  rw [isHexBytes, hexText, String.toList_ofList]
  simp

theorem isHexDigit_digitChar {d : Nat} (h : d < 16) : isHexDigit d.digitChar = true := by
  have hall : ∀ d < 16, isHexDigit (Nat.digitChar d) = true := by decide
  exact hall d h

variable {high low : Nat} {word : String}

/-- **Two halves that fit are packed into a word**, and read back from it. -/
theorem packHalves_spec (h : packHalves high low = .ok word) :
    isHexBytes word = true ∧ word.toList.length = 66 ∧ highHalf word = high ∧ lowHalf word = low := by
  unfold packHalves at h
  split at h
  · next digits digits' hhigh hlow =>
    cases h
    have hlength := length_hexPadded hhigh
    have hlength' := length_hexPadded hlow
    have hdigits : (digits ++ digits').all isHexDigit = true := by
      refine List.all_eq_true.mpr fun c hc => ?_
      rcases List.mem_append.mp hc with hc | hc
      · obtain ⟨d, hd, rfl⟩ := mem_hexPadded hhigh hc
        exact isHexDigit_digitChar hd
      · obtain ⟨d, hd, rfl⟩ := mem_hexPadded hlow hc
        exact isHexDigit_digitChar hd
    refine ⟨isHexBytes_hexText.mpr ⟨by simp [hlength, hlength'], hdigits⟩, ?_, ?_, ?_⟩
    · rw [hexText, String.toList_ofList]
      simp [hlength, hlength']
    · rw [highHalf, hexBody_hexText, List.take_left' hlength, hexValue_hexPadded hhigh]
    · rw [lowHalf, hexBody_hexText, List.drop_left' hlength, hexValue_hexPadded hlow]
  · cases h

theorem exists_packHalves (hhigh : high < 2 ^ 128) (hlow : low < 2 ^ 128) :
    ∃ word, packHalves high low = .ok word := by
  obtain ⟨digits, hdigits⟩ := exists_hexPadded (show 0 < 32 by decide) hhigh
  obtain ⟨digits', hdigits'⟩ := exists_hexPadded (show 0 < 32 by decide) hlow
  exact ⟨hexText (digits ++ digits'), by rw [packHalves, hdigits, hdigits']⟩

/-! ## A codec in unary

A delegation is the number of zero bytes before a one, so the laws of a codec can be met. -/

/-- The addresses of 20 bytes, each its own checksummed form. -/
def Viem.plain : Viem where
  isAddress := isHexOf 20
  getAddress := id

theorem Viem.plain_lawful : Viem.plain.Lawful := ⟨id, fun _ => rfl⟩

namespace RevocationKit

/-- The bytes of one number. -/
def unaryBytes : Nat → List Char
  | 0 => ['0', '1']
  | n + 1 => '0' :: '0' :: unaryBytes n

/-- Reads numbers of which `seen` zero bytes have been read. -/
def readUnary (seen : Nat) : List Char → Option (List Nat)
  | [] => if seen = 0 then some [] else none
  | '0' :: '0' :: digits => readUnary (seen + 1) digits
  | '0' :: '1' :: digits => (readUnary 0 digits).map (seen :: ·)
  | _ => none

theorem readUnary_unaryBytes (n seen : Nat) (digits : List Char) :
    readUnary seen (unaryBytes n ++ digits) = (readUnary 0 digits).map ((seen + n) :: ·) := by
  induction n generalizing seen with
  | zero => rfl
  | succ n ih =>
    rw [unaryBytes, List.cons_append, List.cons_append, readUnary, ih, Nat.add_right_comm,
      Nat.add_assoc]

theorem readUnary_flatMap (chain : List Nat) : readUnary 0 (chain.flatMap unaryBytes) = some chain := by
  induction chain with
  | nil => rfl
  | cons n chain ih => rw [List.flatMap_cons, readUnary_unaryBytes, ih, Option.map_some, Nat.zero_add]

theorem length_unaryBytes (n : Nat) : (unaryBytes n).length = 2 * n + 2 := by
  induction n with
  | zero => rfl
  | succ n ih => rw [unaryBytes, List.length_cons, List.length_cons, ih]; omega

theorem mem_unaryBytes {n : Nat} {c : Char} (h : c ∈ unaryBytes n) : c = '0' ∨ c = '1' := by
  induction n with
  | zero => simpa [unaryBytes] using h
  | succ n ih =>
    rcases List.mem_cons.mp h with h | h
    · exact .inl h
    · rcases List.mem_cons.mp h with h | h
      · exact .inl h
      · exact ih h

theorem mem_flatMap_unaryBytes {chain : List Nat} {c : Char} (h : c ∈ chain.flatMap unaryBytes) :
    c = '0' ∨ c = '1' := by
  obtain ⟨n, -, hn⟩ := List.mem_flatMap.mp h
  exact mem_unaryBytes hn

theorem length_flatMap_unaryBytes (chain : List Nat) :
    (chain.flatMap unaryBytes).length % 2 = 0 := by
  induction chain with
  | nil => rfl
  | cons n chain ih =>
    rw [List.flatMap_cons, List.length_append, length_unaryBytes]
    omega

theorem toLowerCase_unary (chain : List Nat) :
    toLowerCase (hexText (chain.flatMap unaryBytes)) = hexText (chain.flatMap unaryBytes) := by
  have hmap : (chain.flatMap unaryBytes).map Char.toLower = chain.flatMap unaryBytes := by
    refine (List.map_congr_left fun c hc => ?_).trans (List.map_id _)
    rcases mem_flatMap_unaryBytes hc with rfl | rfl <;> rfl
  rw [toLowerCase, hexText, String.toList_ofList, List.map_cons, List.map_cons, hmap]
  rfl

theorem isHexBytes_unary (chain : List Nat) :
    isHexBytes (hexText (chain.flatMap unaryBytes)) = true := by
  refine isHexBytes_hexText.mpr
    ⟨length_flatMap_unaryBytes chain, List.all_eq_true.mpr fun c hc => ?_⟩
  rcases mem_flatMap_unaryBytes hc with rfl | rfl <;> rfl

/-- The codec in unary. Every number has one delegator. -/
def unary (delegator : String) : RevocationKit Nat where
  delegator _ := delegator
  encodeDelegations chain := hexText (chain.flatMap unaryBytes)
  decodeDelegations text :=
    match readUnary 0 (hexBody text) with
    | none => .error "decode failed"
    | some chain => .ok chain
  disableDelegation n := hexText ([n].flatMap unaryBytes)
  hashDelegation n := decimalText n
  decode_encode chain := by rw [hexBody_hexText, readUnary_flatMap]
  encode_hex := isHexBytes_unary
  disable_hex n := isHexBytes_unary [n]
  disable_injective {n m} h := by
    rw [toLowerCase_unary, toLowerCase_unary] at h
    have hbytes := congrArg (fun text => readUnary 0 (hexBody text)) h
    simpa only [hexBody_hexText, readUnary_flatMap, Option.some.injEq, List.cons.injEq, and_true]
      using hbytes

end RevocationKit

end Mapae.Delegation
