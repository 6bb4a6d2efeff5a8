import Mapae.Infra.JsonText

/-!
# Rewriting the text of a value

A `TextRewrite` changes long words only, and marks each change with a bracket. What it makes of the
text of a value is what it makes of the texts in it.

* `run_rewrite_spell`: what is read of a rewritten spelling, unless an escape is cut
* `apply_writeWith`: the texts of a value are rewritten one by one
* `spell_of_writeWith`: where nothing changes, no text does
-/

namespace Mapae.Infra

/-- A unit of a word: a letter, a digit, or one of `+ / =`. -/
def isWordUnit (c : Nat) : Bool :=
  decide (48 ≤ c ∧ c ≤ 57) || decide (65 ≤ c ∧ c ≤ 90) || decide (97 ≤ c ∧ c ≤ 122) ||
    c == 43 || c == 47 || c == 61

/-- A rewriting that changes long words only, each from its beginning on with a bracket. -/
structure TextRewrite where
  apply : Utf16 → Utf16
  boundary {before after : Utf16} {c : Nat} : isWordUnit c = false →
    apply (before ++ c :: after) = apply before ++ c :: apply after
  short {text : Utf16} : text.length < 32 → apply text = text
  /-- A change that begins in front cuts it short. -/
  cut (before after : Utf16) : before.length < 32 →
    apply (before ++ after) = before ++ apply after ∨
      ∃ k < before.length, ∃ rest, apply (before ++ after) = before.take k ++ openList :: rest
  plain {text : Utf16} : (∀ c ∈ text, isPlain c) → ∀ c ∈ apply text, isPlain c
  marks (text : Utf16) : apply text = text ∨ text.count openList < (apply text).count openList

namespace TextRewrite

/-- Nothing is changed. -/
def id : TextRewrite where
  apply text := text
  boundary _ := rfl
  short _ := rfl
  cut _ _ _ := .inl rfl
  plain h := h
  marks _ := .inl rfl

@[simp] theorem apply_id (text : Utf16) : id.apply text = text := rfl

/-- One rewriting after another. -/
def andThen (first second : TextRewrite) : TextRewrite where
  apply text := second.apply (first.apply text)
  boundary hc := by rw [first.boundary hc, second.boundary hc]
  short h := by rw [first.short h, second.short h]
  cut before after h := by
    rcases first.cut before after h with hfirst | ⟨k, hk, rest, hfirst⟩
    · rw [hfirst]
      exact second.cut before (first.apply after) h
    · refine .inr ⟨k, hk, second.apply rest, ?_⟩
      have hshort : (before.take k).length < 32 :=
        Nat.lt_of_le_of_lt (List.length_take_le k before |>.trans hk.le) h
      rw [hfirst, second.boundary (by decide), second.short hshort]
  plain h := second.plain (first.plain h)
  marks text := by
    rcases first.marks text with hfirst | hfirst
    · rw [hfirst]
      exact second.marks text
    · refine .inr (hfirst.trans_le ?_)
      rcases second.marks (first.apply text) with hsecond | hsecond
      · rw [hsecond]
      · exact hsecond.le

variable (rewrite : TextRewrite)

@[simp] theorem apply_nil : rewrite.apply [] = [] := rewrite.short (by simp)

theorem apply_cons {c : Nat} {text : Utf16} (hc : isWordUnit c = false) :
    rewrite.apply (c :: text) = c :: rewrite.apply text := by
  have h : rewrite.apply ([] ++ c :: text) = rewrite.apply [] ++ c :: rewrite.apply text :=
    rewrite.boundary hc
  rwa [rewrite.apply_nil] at h

theorem count_le (text : Utf16) : text.count openList ≤ (rewrite.apply text).count openList := by
  rcases rewrite.marks text with h | h
  · rw [h]
  · exact h.le

/-- **What is left as it is, is so on both sides of a boundary.** -/
theorem eq_of_boundary {before after : Utf16} {c : Nat} (hc : isWordUnit c = false)
    (h : rewrite.apply (before ++ c :: after) = before ++ c :: after) :
    rewrite.apply before = before ∧ rewrite.apply after = after := by
  have hcount := congrArg (List.count openList) h
  rw [rewrite.boundary hc] at hcount
  simp only [List.count_append, List.count_cons] at hcount
  have hbefore := rewrite.count_le before
  have hafter := rewrite.count_le after
  constructor
  · rcases rewrite.marks before with heq | hlt
    · exact heq
    · omega
  · rcases rewrite.marks after with heq | hlt
    · exact heq
    · omega

theorem eq_of_cons {c : Nat} {text : Utf16} (hc : isWordUnit c = false)
    (h : rewrite.apply (c :: text) = c :: text) : rewrite.apply text = text := by
  rw [rewrite.apply_cons hc] at h
  exact (List.cons.inj h).2

end TextRewrite

/-! ## One text -/

/-- Whether a change begins inside of an escape. -/
def cutsEscape (rewrite : TextRewrite) : Bool → Utf16 → Bool
  | _, [] => false
  | afterHigh, c :: rest =>
    let spelled := spellFrom (isHighSurrogate c) rest
    (isEscaped afterHigh c rest &&
        decide (rewrite.apply (escapeTail c ++ spelled) ≠ escapeTail c ++ rewrite.apply spelled)) ||
      cutsEscape rewrite (isHighSurrogate c) rest

section Text

variable {N : Type} {numbers : NumberFormat N} {stack : List (JsonFrame N)} {place : TextPlace N}
  {read : Utf16} {rewrite : TextRewrite} {c : Nat}

theorem isPlain_of_isWordUnit (h : isWordUnit c = true) : isPlain c := by
  simp only [isWordUnit, Bool.or_eq_true, decide_eq_true_eq, beq_iff_eq] at h
  unfold isPlain quoteUnit backslash
  omega

theorem length_escapeTail (c : Nat) : (escapeTail c).length < 32 := by
  unfold escapeTail
  split_ifs <;> simp

theorem openList_not_mem_escapeTail (c : Nat) : openList ∉ escapeTail c := by
  have hhex (d : Nat) : openList ≠ hexUnit d := by
    unfold hexUnit openList
    split <;> omega
  unfold escapeTail
  split_ifs <;> simp [hhex]

/-- A text without brackets is told from one that a bracket cuts short. -/
theorem take_append_cons_ne {text : Utf16} (after after' : Utf16) {k : Nat} (hmem : openList ∉ text)
    (hk : k < text.length) : text.take k ++ openList :: after ≠ text ++ after' := by
  induction text generalizing k with
  | nil => exact absurd hk (Nat.not_lt_zero k)
  | cons c text ih =>
    obtain ⟨hne, hrest⟩ := not_or.mp (mt List.mem_cons.mpr hmem)
    intro heq
    cases k with
    | zero => exact hne (List.cons.inj heq).1
    | succ k => exact ih hrest (Nat.lt_of_succ_lt_succ hk) (List.cons.inj heq).2

/-- A unit of a word is no surrogate, and is not escaped. -/
theorem not_escaped_of_isWordUnit (afterHigh : Bool) (rest : Utf16) (h : isWordUnit c = true) :
    isEscaped afterHigh c rest = false ∧ isHighSurrogate c = false := by
  simp only [isWordUnit, Bool.or_eq_true, decide_eq_true_eq, beq_iff_eq] at h
  have hhigh : isHighSurrogate c = false := by simp [isHighSurrogate]; omega
  have hlow : isLowSurrogate c = false := by simp [isLowSurrogate]; omega
  refine ⟨?_, hhigh⟩
  simp only [isEscaped, isLone, hhigh, hlow, Bool.false_and, Bool.or_false, Bool.or_eq_false_iff,
    decide_eq_false_iff_not, beq_eq_false_iff_ne, quoteUnit, backslash]
  omega

theorem isPlain_of_not_escaped {afterHigh : Bool} {rest : Utf16}
    (h : isEscaped afterHigh c rest = false) : isPlain c := by
  simp only [isEscaped, Bool.or_eq_false_iff, decide_eq_false_iff_not, beq_eq_false_iff_ne] at h
  exact ⟨Nat.not_lt.mp h.1.1.1, h.1.1.2, h.1.2⟩

/-- What is read of a rewritten spelling, which may begin with a word that is already known. -/
theorem run_rewrite_append_spellFrom {afterHigh : Bool} {word text : Utf16}
    (hword : ∀ c ∈ word, isWordUnit c = true) :
    JsonReader.run numbers ⟨stack, .text place read⟩ (rewrite.apply (word ++ spellFrom afterHigh text))
      = if cutsEscape rewrite afterHigh text then none
        else some ⟨stack, .text place (read ++ rewrite.apply (word ++ text))⟩ := by
  -- the word grows until a boundary comes
  induction text generalizing afterHigh word read with
  | nil =>
    have hplain := rewrite.plain fun c hc => isPlain_of_isWordUnit (hword c hc)
    simpa [spellFrom, cutsEscape] using run_plain hplain
  | cons c rest ih =>
    cases hc : isWordUnit c with
    | true =>
      obtain ⟨hescaped, hhigh⟩ := not_escaped_of_isWordUnit afterHigh rest hc
      have hlonger : ∀ d ∈ word ++ [c], isWordUnit d = true := by
        intro d hd
        rcases List.mem_append.mp hd with hd | hd
        · exact hword d hd
        · rwa [List.mem_singleton.mp hd]
      have hnext := @ih read false (word ++ [c]) hlonger
      simpa [spellFrom, cutsEscape, hescaped, hhigh, List.append_assoc] using hnext
    | false =>
      have hplain := rewrite.plain fun c hc => isPlain_of_isWordUnit (hword c hc)
      rw [rewrite.boundary hc]
      cases hescaped : isEscaped afterHigh c rest with
      | false =>
        have hnext := @ih (read ++ rewrite.apply word ++ [c]) (isHighSurrogate c) [] (by simp)
        rw [List.nil_append, List.nil_append] at hnext
        have hcPlain := isPlain_of_not_escaped hescaped
        simp only [spellFrom, hescaped, Bool.false_eq_true, if_false, List.singleton_append,
          rewrite.boundary hc, JsonReader.run_append, run_plain hplain, Option.bind_some,
          JsonReader.run_cons, step_plain hcPlain, hnext, cutsEscape, Bool.false_and, Bool.false_or]
        simp [List.append_assoc]
      | true =>
        have hback : isWordUnit backslash = false := by decide
        simp only [spellFrom, hescaped, if_true, List.cons_append, rewrite.boundary hback,
          JsonReader.run_append, run_plain hplain, Option.bind_some, cutsEscape, Bool.true_and]
        rcases rewrite.cut (escapeTail c) (spellFrom (isHighSurrogate c) rest) (length_escapeTail c)
          with hkept | ⟨k, hk, after, hcut⟩
        · have hnext := @ih (read ++ rewrite.apply word ++ [c]) (isHighSurrogate c) [] (by simp)
          rw [List.nil_append, List.nil_append] at hnext
          rw [hkept, ← List.cons_append, JsonReader.run_append, run_escape hescaped,
            Option.bind_some, hnext]
          simp [List.append_assoc]
        · have hne := take_append_cons_ne after (rewrite.apply (spellFrom (isHighSurrogate c) rest))
            (openList_not_mem_escapeTail c) hk
          rw [hcut, run_cut_escape hescaped hk]
          simp [hne]

/-- **What is read of a rewritten spelling** is the rewritten text, unless an escape is cut. -/
theorem run_rewrite_spell (rewrite : TextRewrite) (numbers : NumberFormat N)
    (stack : List (JsonFrame N)) (place : TextPlace N) (read text : Utf16) :
    JsonReader.run numbers ⟨stack, .text place read⟩ (rewrite.apply (spell text))
      = if cutsEscape rewrite false text then none
        else some ⟨stack, .text place (read ++ rewrite.apply text)⟩ :=
  run_rewrite_append_spellFrom (List.forall_mem_nil _)

end Text

/-! ## The text of a value -/

section Written

variable {N : Type} {numbers : NumberFormat N} (rewrite : TextRewrite) {g : Utf16 → Utf16}

theorem length_utf16_null : (utf16 "null").length < 32 := by decide

theorem length_utf16_literal (value : Bool) :
    (if value then utf16 "true" else utf16 "false").length < 32 := by
  cases value <;> decide

theorem length_number (n : N) :
    (if numbers.isFinite n then numbers.print n else utf16 "null").length < 32 := by
  cases hfinite : numbers.isFinite n with
  | true =>
    have := numbers.length_print hfinite
    simp only [if_true]
    omega
  | false => exact length_utf16_null

theorem apply_quoted (text : Utf16) :
    rewrite.apply (quoted g text) = quoted (rewrite.apply ∘ g) text := by
  have hquote : isWordUnit quoteUnit = false := by decide
  rw [quoted, rewrite.apply_cons hquote, rewrite.boundary hquote, rewrite.apply_nil]
  rfl

mutual

/-- **What becomes of the text of a value is what becomes of the texts in it.** -/
theorem apply_writeWith (value : JsValue N) :
    rewrite.apply (writeWith numbers g value) = writeWith numbers (rewrite.apply ∘ g) value := by
  cases value with
  | null => exact rewrite.short length_utf16_null
  | bool value => exact rewrite.short (length_utf16_literal value)
  | number n => exact rewrite.short (length_number n)
  | string text => exact apply_quoted rewrite text
  | array items =>
    have hlist : isWordUnit openList = false := by decide
    have hclose : isWordUnit closeList = false := by decide
    rw [writeWith, rewrite.apply_cons hlist, rewrite.boundary hclose, apply_writeItems items,
      rewrite.apply_nil]
    rfl
  | object members =>
    have hobject : isWordUnit openObject = false := by decide
    have hclose : isWordUnit closeObject = false := by decide
    rw [writeWith, rewrite.apply_cons hobject, rewrite.boundary hclose, apply_writeMembers members,
      rewrite.apply_nil]
    rfl

theorem apply_writeItems (items : List (JsValue N)) :
    rewrite.apply (writeItems numbers g items) = writeItems numbers (rewrite.apply ∘ g) items := by
  match items with
  | [] => exact rewrite.apply_nil
  | [value] => exact apply_writeWith value
  | value :: next :: rest =>
    have hcomma : isWordUnit commaUnit = false := by decide
    rw [writeItems, rewrite.boundary hcomma, apply_writeWith value, apply_writeItems (next :: rest)]
    rfl

theorem apply_writeMembers (members : List (Utf16 × JsValue N)) :
    rewrite.apply (writeMembers numbers g members)
      = writeMembers numbers (rewrite.apply ∘ g) members := by
  have hcolon : isWordUnit colonUnit = false := by decide
  match members with
  | [] => exact rewrite.apply_nil
  | [(key, value)] =>
    rw [writeMembers, rewrite.boundary hcolon, apply_quoted, apply_writeWith value]
    rfl
  | (key, value) :: next :: rest =>
    have hcomma : isWordUnit commaUnit = false := by decide
    rw [writeMembers, rewrite.boundary hcolon, rewrite.boundary hcomma, apply_quoted,
      apply_writeWith value, apply_writeMembers (next :: rest)]
    rfl

end

variable {rewrite}

theorem spell_of_quoted {text : Utf16} (h : rewrite.apply (quoted id text) = quoted id text) :
    rewrite.apply (spell text) = spell text := by
  have hquote : isWordUnit quoteUnit = false := by decide
  exact (rewrite.eq_of_boundary hquote (rewrite.eq_of_cons hquote h)).1

mutual

/-- **Where nothing changes, no text does.** -/
theorem spell_of_writeWith (value : JsValue N)
    (h : rewrite.apply (writeWith numbers id value) = writeWith numbers id value) :
    ∀ text ∈ value.texts, rewrite.apply (spell text) = spell text := by
  cases value with
  | string text => simpa using spell_of_quoted h
  | array items =>
    have hlist : isWordUnit openList = false := by decide
    have hclose : isWordUnit closeList = false := by decide
    have hrest := rewrite.eq_of_cons hlist h
    have hitems := spell_of_writeItems items (rewrite.eq_of_boundary hclose hrest).1
    intro text htext
    obtain ⟨value, hvalue, htext⟩ := mem_texts_array.mp htext
    exact hitems value hvalue text htext
  | object members =>
    have hobject : isWordUnit openObject = false := by decide
    have hclose : isWordUnit closeObject = false := by decide
    have hrest := rewrite.eq_of_cons hobject h
    have hmembers := spell_of_writeMembers members (rewrite.eq_of_boundary hclose hrest).1
    intro text htext
    obtain ⟨member, hmember, htext⟩ := mem_texts_object.mp htext
    exact hmembers member hmember text htext
  | _ => simp [JsValue.texts, JsValue.nodes, JsValue.ownTexts]

theorem spell_of_writeItems (items : List (JsValue N))
    (h : rewrite.apply (writeItems numbers id items) = writeItems numbers id items) :
    ∀ value ∈ items, ∀ text ∈ value.texts, rewrite.apply (spell text) = spell text := by
  match items with
  | [] => simp
  | [value] => simpa using spell_of_writeWith value h
  | value :: next :: rest =>
    have hcomma : isWordUnit commaUnit = false := by decide
    obtain ⟨hvalue, hrest⟩ := rewrite.eq_of_boundary hcomma h
    exact List.forall_mem_cons.mpr
      ⟨spell_of_writeWith value hvalue, spell_of_writeItems (next :: rest) hrest⟩

theorem spell_of_writeMembers (members : List (Utf16 × JsValue N))
    (h : rewrite.apply (writeMembers numbers id members) = writeMembers numbers id members) :
    ∀ member ∈ members, ∀ text, text = member.1 ∨ text ∈ member.2.texts →
      rewrite.apply (spell text) = spell text := by
  have hcolon : isWordUnit colonUnit = false := by decide
  match members with
  | [] => simp
  | [(key, value)] =>
    obtain ⟨hkey, hvalue⟩ := rewrite.eq_of_boundary hcolon h
    refine List.forall_mem_cons.mpr ⟨?_, by simp⟩
    rintro text (rfl | htext)
    · exact spell_of_quoted hkey
    · exact spell_of_writeWith value hvalue text htext
  | (key, value) :: next :: rest =>
    have hcomma : isWordUnit commaUnit = false := by decide
    obtain ⟨hkey, hfollowing⟩ := rewrite.eq_of_boundary hcolon h
    obtain ⟨hvalue, hrest⟩ := rewrite.eq_of_boundary hcomma hfollowing
    refine List.forall_mem_cons.mpr ⟨?_, spell_of_writeMembers (next :: rest) hrest⟩
    rintro text (rfl | htext)
    · exact spell_of_quoted hkey
    · exact spell_of_writeWith value hvalue text htext

end

end Written

end Mapae.Infra
