import Mapae.Infra.CivilDate
import Mapae.Infra.Result

/-!
# What the store accepts

The checks a value passes before it reaches a column. They refuse, they never convert.

A number is an `Int`. A JavaScript number that is not an integer is refused by every check
here for the same reason as one outside the safe range, so it needs no constructor.
-/

namespace Mapae.Store

open Mapae.Infra

/-- Why a claim was refused for money. -/
inductive BudgetCode where
  | budgetExhausted
  | payerBudgetExhausted
  deriving DecidableEq

/-- The word of a refused claim on the wire. -/
def BudgetCode.text : BudgetCode → String
  | .budgetExhausted => "budget_exhausted"
  | .payerBudgetExhausted => "payer_budget_exhausted"

/-- What a store operation throws. -/
inductive StoreError where
  | typeError (message : String)
  | rangeError (message : String)
  | error (message : String)
  /-- `SettlementBudgetExceeded`. -/
  | budgetExceeded (errorCode : BudgetCode)
  /-- SQLite refused a row: the constraint that fired. -/
  | constraint (name : String)
  /-- The disk or the file failed under the operation. -/
  | storage
  deriving DecidableEq

/-- `Number.MAX_SAFE_INTEGER`. -/
def maxSafeInteger : Int := 9007199254740991

/-- `Number.isSafeInteger` of an integer. -/
def isSafeInteger (n : Int) : Bool := decide (-maxSafeInteger ≤ n ∧ n ≤ maxSafeInteger)

def isHexDigit (c : Char) : Bool :=
  ('0' ≤ c ∧ c ≤ '9') ∨ ('a' ≤ c ∧ c ≤ 'f') ∨ ('A' ≤ c ∧ c ≤ 'F')

def isLetterOrDigit (c : Char) : Bool :=
  ('a' ≤ c ∧ c ≤ 'z') ∨ ('A' ≤ c ∧ c ≤ 'Z') ∨ ('0' ≤ c ∧ c ≤ '9')

/-- `/^0x[0-9a-fA-F]{2·bytes}$/`. -/
def isHexOf (bytes : Nat) (value : String) : Bool :=
  match value.toList with
  | '0' :: 'x' :: digits => digits.length == 2 * bytes && digits.all isHexDigit
  | _ => false

/-- `toLowerCase` of ASCII text. -/
def toLowerCase (value : String) : String := String.ofList (value.toList.map Char.toLower)

/-- `bytes` bytes as lowercase hex. -/
def hex (value : String) (bytes : Nat) : Except StoreError String :=
  if isHexOf bytes value then .ok (toLowerCase value)
  else .error (.typeError s!"expected {bytes}-byte hex")

def uint (value : Int) : Except StoreError Int :=
  if isSafeInteger value ∧ 0 ≤ value then .ok value
  else .error (.typeError "expected safe nonnegative integer")

def amount (value : Int) : Except StoreError Int :=
  if 0 ≤ value then .ok value else .error (.typeError "expected nonnegative bigint")

def amountText (value : Int) (name : String) : Except StoreError Int :=
  if 0 ≤ value then .ok value else .error (.rangeError s!"{name} must not be negative")

def optionalAmountText (value : Option Int) (name : String) : Except StoreError (Option Int) :=
  match value with
  | none => .ok none
  | some v => (amountText v name).map some

def millis (value : Int) (name : String) : Except StoreError Int :=
  if isSafeInteger value ∧ 0 ≤ value then .ok value
  else .error (.typeError s!"{name} must be a non-negative integer of epoch milliseconds")

def positiveInteger (value : Int) (name : String) : Except StoreError Int :=
  if isSafeInteger value ∧ 1 ≤ value then .ok value
  else .error (.typeError s!"{name} must be a positive integer")

/-- `new Date(ms).toISOString().slice(0, 10)` of a checked instant. -/
def utcDay (ms : Int) : Except StoreError String :=
  match Calendar.isoDay ms.toNat with
  | some day => .ok day
  | none => .error (.rangeError "Invalid Date")

/-! ## Spec lemmas -/

theorem hex_eq_ok {value v : String} {bytes : Nat} :
    hex value bytes = .ok v ↔ isHexOf bytes value = true ∧ v = toLowerCase value := by
  unfold hex
  split
  · next h => simp [h, eq_comm]
  · next h => simp [h]

theorem uint_eq_ok {value v : Int} :
    uint value = .ok v ↔ (isSafeInteger value = true ∧ 0 ≤ value) ∧ v = value := by
  unfold uint
  split
  · next h => simp [h, eq_comm]
  · next h => simp [h]

theorem amount_eq_ok {value v : Int} : amount value = .ok v ↔ 0 ≤ value ∧ v = value := by
  unfold amount
  split
  · next h => simp [h, eq_comm]
  · next h => simp [h]

theorem amountText_eq_ok {value v : Int} {name : String} :
    amountText value name = .ok v ↔ 0 ≤ value ∧ v = value := by
  unfold amountText
  split
  · next h => simp [h, eq_comm]
  · next h => simp [h]

theorem optionalAmountText_eq_ok {value v : Option Int} {name : String} :
    optionalAmountText value name = .ok v ↔ (∀ x, value = some x → 0 ≤ x) ∧ v = value := by
  cases value with
  | none => simp [optionalAmountText, eq_comm]
  | some x =>
    simp only [optionalAmountText, Option.some.injEq, forall_eq']
    unfold amountText
    split
    · next h => simp [Except.map, h, eq_comm]
    · next h => simp [Except.map, h]

theorem millis_eq_ok {value v : Int} {name : String} :
    millis value name = .ok v ↔ (isSafeInteger value = true ∧ 0 ≤ value) ∧ v = value := by
  unfold millis
  split
  · next h => simp [h, eq_comm]
  · next h => simp [h]

theorem positiveInteger_eq_ok {value v : Int} {name : String} :
    positiveInteger value name = .ok v ↔ (isSafeInteger value = true ∧ 1 ≤ value) ∧ v = value := by
  unfold positiveInteger
  split
  · next h => simp [h, eq_comm]
  · next h => simp [h]

/-! ## Letter case -/

theorem toNat_toLower (c : Char) :
    c.toLower.toNat = if 65 ≤ c.toNat ∧ c.toNat ≤ 90 then c.toNat + 32 else c.toNat := by
  have hupper : (c.val ≥ 'A'.val ∧ c.val ≤ 'Z'.val) ↔ (65 ≤ c.toNat ∧ c.toNat ≤ 90) := Iff.rfl
  unfold Char.toLower
  by_cases h : 65 ≤ c.toNat ∧ c.toNat ≤ 90
  · rw [if_pos h, dif_pos (hupper.mpr h)]
    show (c.val + 32).toNat = c.val.toNat + 32
    have hc : c.val.toNat ≤ 90 := h.2
    rw [UInt32.toNat_add]
    exact Nat.mod_eq_of_lt (by simp; omega)
  · rw [if_neg h, dif_neg (fun hu => h (hupper.mp hu))]

theorem toLower_toLower (c : Char) : c.toLower.toLower = c.toLower := by
  apply Char.toNat_inj.mp
  rw [toNat_toLower c.toLower, toNat_toLower c]
  by_cases h : 65 ≤ c.toNat ∧ c.toNat ≤ 90
  · rw [if_pos h, if_neg (by omega)]
  · rw [if_neg h, if_neg h]

theorem isHexDigit_iff {c : Char} :
    isHexDigit c = true ↔ (48 ≤ c.toNat ∧ c.toNat ≤ 57) ∨ (97 ≤ c.toNat ∧ c.toNat ≤ 102) ∨
      (65 ≤ c.toNat ∧ c.toNat ≤ 70) := by
  unfold isHexDigit
  rw [decide_eq_true_eq]
  exact Iff.rfl

theorem isHexDigit_toLower {c : Char} (h : isHexDigit c = true) :
    isHexDigit c.toLower = true := by
  rw [isHexDigit_iff] at h ⊢
  rw [toNat_toLower]
  split <;> omega

theorem toLowerCase_toLowerCase (value : String) :
    toLowerCase (toLowerCase value) = toLowerCase value := by
  unfold toLowerCase
  rw [String.toList_ofList, List.map_map]
  exact congrArg String.ofList (List.map_congr_left fun c _ => toLower_toLower c)

theorem isHexOf_toLowerCase {bytes : Nat} {value : String} (h : isHexOf bytes value = true) :
    isHexOf bytes (toLowerCase value) = true := by
  unfold isHexOf toLowerCase at *
  rw [String.toList_ofList]
  split at h
  · next digits hd =>
    simp only [Bool.and_eq_true, beq_iff_eq, List.all_eq_true] at h
    rw [hd]
    simp only [List.map_cons]
    show (decide _ && _) = true
    simp only [List.length_map, h.1, Bool.and_eq_true, decide_eq_true_eq, List.all_eq_true,
      List.mem_map]
    refine ⟨trivial, ?_⟩
    rintro _ ⟨c, hc, rfl⟩
    exact isHexDigit_toLower (h.2 c hc)
  · cases h

end Mapae.Store
