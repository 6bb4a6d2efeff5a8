import Mapae.Infra.JsonReread
import Mapae.Infra.Replace

/-!
# Taking the bearer secrets out of an answer

The body of a paid resource is serialized, the secrets that were sent are replaced in the text, and
the text is parsed again. The permission context is found in any letter case, with or without its
`0x`, and the payment header as it is.

* `BearerSecrets.rewrite` is the replacement as a rewriting of texts
* `not_occurs_digits` and `not_occurs_header` say that it leaves no secret in a text

For every answer and every pair of secrets, the answer that is handed on has no secret in any text and
its shape is kept, exactly when nothing is in the way (`answer_redacted_iff`):

* a copy of a secret begins inside of an escape, so that what is left of the escape is no JSON
* two keys of one object become one
* a number that is not finite is in an answer that has a copy, and becomes `null`
* the context is too short to be found in another case
-/

namespace Mapae.Delegation

open Mapae.Infra

def BEARER_REDACTION : Utf16 := utf16 "[redacted: bearer payment authorization]"

/-- `/^0x[0-9a-fA-F]+$/`. -/
def isHexSecret : Utf16 → Bool
  | 48 :: 120 :: body => !body.isEmpty && body.all fun c => (readHexUnit c).isSome
  | _ => false

def lowerUnit (c : Nat) : Nat := if 65 ≤ c ∧ c ≤ 90 then c + 32 else c

/-- The text in any letter case. -/
def anyCase (text : Utf16) : List (Nat → Bool) := text.map fun d c => lowerUnit d == lowerUnit c

def exactly (text : Utf16) : List (Nat → Bool) := text.map fun d c => d == c

/-- The patterns that are replaced for a secret: `(?:0x)?` and its digits, or the secret as it is. -/
def patternsOf (secret : Utf16) : List (List (Nat → Bool)) :=
  let hexBody := secret.drop 2
  if isHexSecret secret = true ∧ 32 ≤ hexBody.length then [anyCase secret, anyCase hexBody]
  else [exactly secret]

/-- One turn of the loop over the secrets. -/
def redactSecret (cleaned secret : Utf16) : Utf16 :=
  if secret.length < 32 then cleaned else replaceAll (patternsOf secret) BEARER_REDACTION cleaned

variable {N : Type}

/-- Nothing when `JSON.parse` throws. -/
def redactBearerSecrets (numbers : NumberFormat N) (value : JsValue N) (secrets : List Utf16) :
    Option (JsValue N) :=
  let serialized := stringify numbers value
  let cleaned := secrets.foldl redactSecret serialized
  if cleaned = serialized then some value else parseJson numbers cleaned

/-- What the client has sent: a permission context of at least 32 units, and a header in base64, which
has the context in it. -/
structure BearerSecrets where
  /-- The context without its `0x`. -/
  digits : Utf16
  paymentHeader : Utf16
  isSome_of_mem_digits {c : Nat} : c ∈ digits → (readHexUnit c).isSome = true
  length_digits : 30 ≤ digits.length
  isWordUnit_of_mem_header {c : Nat} : c ∈ paymentHeader → isWordUnit c = true
  length_header : 32 ≤ paymentHeader.length

namespace BearerSecrets

variable (secrets : BearerSecrets)

def permissionContext : Utf16 := 48 :: 120 :: secrets.digits

def list : List Utf16 := [secrets.permissionContext, secrets.paymentHeader]

end BearerSecrets

/-! ## A secret -/

section Secret

variable {text secret : Utf16} {c d : Nat}

theorem isWordUnit_of_lowerUnit_eq (hd : isWordUnit d = true) (h : lowerUnit d = lowerUnit c) :
    isWordUnit c = true := by
  simp only [isWordUnit, Bool.or_eq_true, decide_eq_true_eq, beq_iff_eq] at hd ⊢
  unfold lowerUnit at h
  split_ifs at h <;> omega

theorem isWordUnit_of_isSome (h : (readHexUnit c).isSome = true) : isWordUnit c = true := by
  simp only [isWordUnit, Bool.or_eq_true, decide_eq_true_eq, beq_iff_eq]
  unfold readHexUnit at h
  split_ifs at h <;> simp at h ⊢ <;> omega

theorem word_of_anyCase (hword : ∀ c ∈ text, isWordUnit c = true) :
    ∀ test ∈ anyCase text, ∀ c, test c = true → isWordUnit c = true := by
  intro test htest c hc
  obtain ⟨d, hd, rfl⟩ := List.mem_map.mp htest
  exact isWordUnit_of_lowerUnit_eq (hword d hd) (beq_iff_eq.mp hc)

theorem word_of_exactly (hword : ∀ c ∈ text, isWordUnit c = true) :
    ∀ test ∈ exactly text, ∀ c, test c = true → isWordUnit c = true := by
  intro test htest c hc
  obtain ⟨d, hd, rfl⟩ := List.mem_map.mp htest
  obtain rfl := beq_iff_eq.mp hc
  exact hword d hd

/-- The patterns of a secret that is not skipped match long words only. -/
theorem wordPatterns (hword : ∀ c ∈ secret, isWordUnit c = true) (hlength : 32 ≤ secret.length) :
    WordPatterns isWordUnit 32 (patternsOf secret) := by
  unfold patternsOf
  dsimp only
  split
  · next hhex =>
    have hbody : ∀ c ∈ secret.drop 2, isWordUnit c = true :=
      fun c hc => hword c (List.mem_of_mem_drop hc)
    refine ⟨by decide, ?_, ?_⟩
    · intro pattern hpattern
      rcases List.mem_pair.mp hpattern with rfl | rfl
      · simpa [anyCase] using hlength
      · simpa [anyCase] using hhex.2
    · intro pattern hpattern
      rcases List.mem_pair.mp hpattern with rfl | rfl
      · exact word_of_anyCase hword
      · exact word_of_anyCase hbody
  · refine ⟨by decide, ?_, ?_⟩
    · intro pattern hpattern
      obtain rfl := List.mem_singleton.mp hpattern
      simpa [exactly] using hlength
    · intro pattern hpattern
      obtain rfl := List.mem_singleton.mp hpattern
      exact word_of_exactly hword

theorem isPlain_of_mem_redaction (h : c ∈ BEARER_REDACTION) : isPlain c := by
  have hall : ∀ c ∈ BEARER_REDACTION, 32 ≤ c ∧ c ≠ quoteUnit ∧ c ≠ backslash := by decide
  exact hall c h

/-- The replacement between its brackets. -/
def redactionInner : Utf16 := utf16 "redacted: bearer payment authorization"

theorem redaction_eq : BEARER_REDACTION = openList :: redactionInner ++ [closeList] := by decide

/-- **One turn of the loop** is a rewriting of texts. -/
def secretRewrite (secret : Utf16) (hword : ∀ c ∈ secret, isWordUnit c = true) : TextRewrite :=
  if hshort : secret.length < 32 then .id
  else
    { apply := replaceAll (patternsOf secret) BEARER_REDACTION
      boundary := fun hc => replaceAll_append_cons (wordPatterns hword (Nat.not_lt.mp hshort)) hc
      short := fun h => replaceAll_of_short (wordPatterns hword (Nat.not_lt.mp hshort)) h
      cut := fun before after _ =>
        (replaceAll_append before after).imp id fun ⟨k, hk, rest, heq⟩ =>
          ⟨k, hk, redactionInner ++ [closeList] ++ rest, by rw [heq, redaction_eq]; rfl⟩
      plain := fun h c hc => (mem_replaceFrom hc).elim (h c) isPlain_of_mem_redaction
      marks := fun text => by
        rw [redaction_eq]
        exact replaceAll_eq_or_count_lt (wordPatterns hword (Nat.not_lt.mp hshort)) (by decide) text }

theorem apply_secretRewrite (hword : ∀ c ∈ secret, isWordUnit c = true) :
    (secretRewrite secret hword).apply text = redactSecret text secret := by
  unfold secretRewrite redactSecret
  split <;> rfl

end Secret

/-! ## Both secrets -/

section Pattern

variable {pattern : List (Nat → Bool)}

/-- No long word is in the replacement. -/
theorem not_occurs_redaction (hlength : 30 ≤ pattern.length)
    (hword : ∀ test ∈ pattern, ∀ c, test c = true → isWordUnit c = true) :
    ¬ Occurs pattern BEARER_REDACTION := by
  rintro ⟨before, rest, heq, hmatch⟩
  have hrest : rest = BEARER_REDACTION.drop before.length := by rw [heq, List.drop_left]
  have hwords : ∀ c ∈ rest.take 30, isWordUnit c = true := fun c hc =>
    word_of_matchesAt hword hmatch c (List.take_subset_take_left rest hlength hc)
  have hlong : 30 ≤ rest.length := hlength.trans (length_le_of_matchesAt hmatch)
  have hnone : ∀ k < 12, ∃ c ∈ (BEARER_REDACTION.drop k).take 30, isWordUnit c = false := by decide
  have hk : before.length < 12 := by
    have := congrArg List.length heq
    have hall : BEARER_REDACTION.length = 40 := by decide
    rw [List.length_append] at this
    omega
  obtain ⟨c, hc, hnot⟩ := hnone before.length hk
  rw [hwords c (hrest ▸ hc)] at hnot
  cases hnot

theorem matchesAt_anyCase {secret text : Utf16} (h : matchesAt (exactly secret) text = true) :
    matchesAt (anyCase secret) text = true := by
  induction secret generalizing text with
  | nil => cases text <;> rfl
  | cons d secret ih =>
    cases text with
    | nil => cases h
    | cons c text =>
      obtain ⟨hc, hrest⟩ := Bool.and_eq_true_iff.mp h
      obtain rfl := beq_iff_eq.mp hc
      exact Bool.and_eq_true_iff.mpr ⟨beq_self_eq_true _, ih hrest⟩

/-- **A secret that is not skipped is nowhere left**, as it is or in the case that is looked for. -/
theorem not_occurs_redactSecret {secret text : Utf16} (hword : ∀ c ∈ secret, isWordUnit c = true)
    (hlength : 32 ≤ secret.length) {pattern : List (Nat → Bool)}
    (hpattern : pattern ∈ patternsOf secret) : ¬ Occurs pattern (redactSecret text secret) := by
  have hpatterns := wordPatterns hword hlength
  have hlong := hpatterns.least_le pattern hpattern
  have htests := hpatterns.word_of_test pattern hpattern
  have hclean := not_occurs_redaction (by omega) htests
  rw [redaction_eq] at hclean
  rw [redactSecret, if_neg (Nat.not_lt.mpr hlength), redaction_eq]
  exact not_occurs_replaceFrom (by omega) htests (by decide) (by decide) hclean hpattern

/-- Redacting one secret brings no other about. -/
theorem not_occurs_redactSecret_of_not_occurs {secret text : Utf16} (hlength : 30 ≤ pattern.length)
    (hword : ∀ test ∈ pattern, ∀ c, test c = true → isWordUnit c = true)
    (h : ¬ Occurs pattern text) : ¬ Occurs pattern (redactSecret text secret) := by
  have hclean := not_occurs_redaction hlength hword
  rw [redaction_eq] at hclean
  unfold redactSecret
  split
  · exact h
  · rw [redaction_eq]
    exact not_occurs_replaceFrom_of_not_occurs (by omega) hword (by decide) (by decide) hclean h

end Pattern

namespace BearerSecrets

variable (secrets : BearerSecrets)

theorem isWordUnit_of_mem_digits {c : Nat} (h : c ∈ secrets.digits) : isWordUnit c = true :=
  isWordUnit_of_isSome (secrets.isSome_of_mem_digits h)

theorem isWordUnit_of_mem_context {c : Nat} (h : c ∈ secrets.permissionContext) :
    isWordUnit c = true := by
  rcases List.mem_cons.mp h with rfl | h
  · decide
  · rcases List.mem_cons.mp h with rfl | h
    · decide
    · exact secrets.isWordUnit_of_mem_digits h

/-- **The loop over the secrets** is a rewriting of texts. -/
def rewrite : TextRewrite :=
  (secretRewrite secrets.permissionContext fun _ => secrets.isWordUnit_of_mem_context).andThen
    (secretRewrite secrets.paymentHeader fun _ => secrets.isWordUnit_of_mem_header)

theorem apply_rewrite (text : Utf16) :
    secrets.rewrite.apply text = secrets.list.foldl redactSecret text := by
  simp [rewrite, TextRewrite.andThen, apply_secretRewrite, list]

theorem redactBearerSecrets_eq (numbers : NumberFormat N) (value : JsValue N) :
    redactBearerSecrets numbers value secrets.list = rewriteValue numbers secrets.rewrite value := by
  simp only [redactBearerSecrets, rewriteValue, apply_rewrite]

/-- The header is not left in any text. -/
theorem not_occurs_header (text : Utf16) :
    ¬ Occurs (exactly secrets.paymentHeader) (secrets.rewrite.apply text) := by
  have hword : ∀ c ∈ secrets.paymentHeader, isWordUnit c = true :=
    fun _ => secrets.isWordUnit_of_mem_header
  rw [apply_rewrite, list, List.foldl_cons, List.foldl_cons, List.foldl_nil]
  by_cases hhex : isHexSecret secrets.paymentHeader = true ∧ 32 ≤ (secrets.paymentHeader.drop 2).length
  · have hmem : anyCase secrets.paymentHeader ∈ patternsOf secrets.paymentHeader := by
      simp only [patternsOf, if_pos hhex, List.mem_cons, true_or]
    rintro ⟨before, rest, heq, hmatch⟩
    exact not_occurs_redactSecret hword secrets.length_header hmem
      ⟨before, rest, heq, matchesAt_anyCase hmatch⟩
  · have hmem : exactly secrets.paymentHeader ∈ patternsOf secrets.paymentHeader := by
      simp only [patternsOf, if_neg hhex, List.mem_singleton]
    exact not_occurs_redactSecret hword secrets.length_header hmem

/-- Digits that are enough are not left in any text, in any case. -/
theorem not_occurs_digits (h : 32 ≤ secrets.digits.length) (text : Utf16) :
    ¬ Occurs (anyCase secrets.digits) (secrets.rewrite.apply text) := by
  have hword : ∀ c ∈ secrets.permissionContext, isWordUnit c = true :=
    fun _ => secrets.isWordUnit_of_mem_context
  have hhex : isHexSecret secrets.permissionContext = true := by
    have hne : secrets.digits ≠ [] := List.ne_nil_of_length_pos (by omega)
    simp [isHexSecret, permissionContext, hne]
    exact fun c hc => secrets.isSome_of_mem_digits hc
  have hmem : anyCase secrets.digits ∈ patternsOf secrets.permissionContext := by
    have hdrop : secrets.permissionContext.drop 2 = secrets.digits := rfl
    simp [patternsOf, hhex, hdrop, h]
  have hlength : 32 ≤ secrets.permissionContext.length := by
    simp only [permissionContext, List.length_cons]
    omega
  rw [apply_rewrite, list, List.foldl_cons, List.foldl_cons, List.foldl_nil]
  refine not_occurs_redactSecret_of_not_occurs (by simp [anyCase]; omega)
    (word_of_anyCase fun _ => secrets.isWordUnit_of_mem_digits) ?_
  exact not_occurs_redactSecret hword hlength hmem

end BearerSecrets

/-! ## What redaction leaves of an answer -/

/-- Neither secret is in the text: the context in no letter case, with `0x` or without. -/
structure HidesSecrets (secrets : BearerSecrets) (text : Utf16) : Prop where
  context : ¬ Occurs (anyCase secrets.digits) text
  header : ¬ Occurs (exactly secrets.paymentHeader) text

/-- What the redaction of an answer should be: no string and no key at any depth has a secret, and the
nesting and the values that are no strings are those of the answer. -/
structure Redacted (secrets : BearerSecrets) (value value' : JsValue N) : Prop where
  shape_eq : value'.shape = value.shape
  hides : ∀ text ∈ value'.texts, HidesSecrets secrets text

/-- No secret is in the text that the answer is serialized to. -/
def NothingToRedact (numbers : NumberFormat N) (secrets : BearerSecrets) (value : JsValue N) : Prop :=
  secrets.list.foldl redactSecret (stringify numbers value) = stringify numbers value

/-- The context is found in every case, or its exact copies are the only ones. -/
def FindsContext (secrets : BearerSecrets) (value : JsValue N) : Prop :=
  32 ≤ secrets.digits.length ∨
    ∀ text ∈ value.texts, ¬ Occurs (anyCase secrets.digits) (secrets.list.foldl redactSecret text)

theorem hidesSecrets_iff {secrets : BearerSecrets} {value : JsValue N} :
    (∀ text ∈ value.texts, HidesSecrets secrets (secrets.rewrite.apply text)) ↔
      FindsContext secrets value := by
  constructor
  · intro h
    refine .inr fun text htext => ?_
    rw [← secrets.apply_rewrite]
    exact (h text htext).context
  · intro h text htext
    refine ⟨?_, secrets.not_occurs_header text⟩
    rcases h with hlong | hexact
    · exact secrets.not_occurs_digits hlong text
    · rw [secrets.apply_rewrite]
      exact hexact text htext

/-- **An answer is redacted**, without a throw, exactly when there is nothing to redact or the
rewritten answer can be read back, and the context is found. -/
theorem answer_redacted_iff (numbers : NumberFormat N) (secrets : BearerSecrets) (value : JsValue N) :
    (∃ value', redactBearerSecrets numbers value secrets.list = some value' ∧
        Redacted secrets value value') ↔
      (NothingToRedact numbers secrets value ∨ Rewritable numbers secrets.rewrite value) ∧
        FindsContext secrets value := by
  rw [secrets.redactBearerSecrets_eq, NothingToRedact, ← secrets.apply_rewrite, ← hidesSecrets_iff,
    ← rewriteValue_iff]
  refine exists_congr fun value' => and_congr_right fun _ => ?_
  exact ⟨fun h => ⟨h.shape_eq, h.hides⟩, fun h => ⟨h.1, h.2⟩⟩

/-! ## An answer that makes redaction throw -/

theorem digit_bounds (n : Fin 10) : 48 ≤ 48 + n.val ∧ 48 + n.val - 48 < 10 := by
  have := n.isLt
  omega

theorem isNumberUnit_digit (n : Fin 10) : isNumberUnit (48 + n) = true := by
  have := n.isLt
  simp only [isNumberUnit, Bool.or_eq_true, decide_eq_true_eq]
  omega

/-- Numbers of one digit. -/
def digitFormat : NumberFormat (Fin 10) where
  isFinite _ := true
  print n := [48 + n]
  read word :=
    match word with
    | [c] => if h : 48 ≤ c ∧ c - 48 < 10 then some ⟨c - 48, h.2⟩ else none
    | _ => none
  read_print {n} _ := (dif_pos (digit_bounds n)).trans (congrArg some (Fin.ext (Nat.add_sub_cancel_left ..)))
  print_ne_nil _ := List.cons_ne_nil _ _
  length_print _ := Nat.le_add_left 1 24
  isNumberUnit_of_mem {n c} _ hc := by
    rw [List.mem_singleton.mp hc]
    exact isNumberUnit_digit n

def sampleSecrets : BearerSecrets where
  digits := List.replicate 64 97
  paymentHeader := List.replicate 64 101
  isSome_of_mem_digits hc := by
    rw [List.eq_of_mem_replicate hc]
    rfl
  length_digits := by decide
  isWordUnit_of_mem_header hc := by
    rw [List.eq_of_mem_replicate hc]
    rfl
  length_header := by decide

/-- The zero that ends the escape of a NUL is taken for the zero of the context's `0x`. -/
def nulAnswer : JsValue (Fin 10) := .string (0 :: 120 :: sampleSecrets.digits)

theorem nul_answer_throws :
    ¬ ∃ value', redactBearerSecrets digitFormat nulAnswer sampleSecrets.list = some value' ∧
      Redacted sampleSecrets nulAnswer value' := by
  have hthrows : (redactBearerSecrets digitFormat nulAnswer sampleSecrets.list).isNone = true := by
    decide +kernel
  rintro ⟨value', hvalue, -⟩
  rw [hvalue] at hthrows
  cases hthrows

end Mapae.Delegation
