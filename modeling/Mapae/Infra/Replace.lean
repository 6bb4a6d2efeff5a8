import Mathlib.Data.List.Basic

/-!
# Replacing every match in a text

`text.replace(pattern, replacement)` with a global pattern, and `text.split(part).join(replacement)`:
the matches are found from left to right, and do not overlap.

A pattern has one test for each unit that it matches. Of several patterns the first that matches is
taken.

* `replaceAll_append_cons`: a unit that no test passes is a boundary
* `replaceAll_append`: what a match begins in is cut short
* `not_occurs_replaceAll`: no match is left
* `not_occurs_replaceAll_of_not_occurs`: and none appears
-/

namespace Mapae.Infra

universe u

variable {α : Type u}

/-- Whether a text begins with a match. -/
def matchesAt : List (α → Bool) → List α → Bool
  | [], _ => true
  | _ :: _, [] => false
  | test :: pattern, c :: text => test c && matchesAt pattern text

/-- There is a match somewhere in the text. -/
def Occurs (pattern : List (α → Bool)) (text : List α) : Prop :=
  ∃ before rest, text = before ++ rest ∧ matchesAt pattern rest = true

/-- The length of the match that a text begins with. -/
def firstMatch (patterns : List (List (α → Bool))) (text : List α) : Option Nat :=
  (patterns.find? (matchesAt · text)).map List.length

/-- The text with its matches replaced, from where `skip` units of a match are passed. -/
def replaceFrom (patterns : List (List (α → Bool))) (replacement : List α) : Nat → List α → List α
  | _, [] => []
  | skip + 1, _ :: text => replaceFrom patterns replacement skip text
  | 0, c :: text =>
    match firstMatch patterns (c :: text) with
    | some n => replacement ++ replaceFrom patterns replacement (n - 1) text
    | none => c :: replaceFrom patterns replacement 0 text

def replaceAll (patterns : List (List (α → Bool))) (replacement text : List α) : List α :=
  replaceFrom patterns replacement 0 text

/-- Patterns whose matches are words, of some length at least. -/
structure WordPatterns (word : α → Bool) (least : Nat) (patterns : List (List (α → Bool))) : Prop where
  least_pos : 0 < least
  least_le : ∀ pattern ∈ patterns, least ≤ pattern.length
  word_of_test : ∀ pattern ∈ patterns, ∀ test ∈ pattern, ∀ c, test c = true → word c = true

/-! ## One pattern -/

section Pattern

variable {pattern : List (α → Bool)} {word : α → Bool} {text before after : List α} {c : α}

theorem length_le_of_matchesAt (h : matchesAt pattern text = true) : pattern.length ≤ text.length := by
  induction pattern generalizing text with
  | nil => exact Nat.zero_le _
  | cons test pattern ih =>
    cases text with
    | nil => cases h
    | cons c text => exact Nat.succ_le_succ (ih (Bool.and_eq_true_iff.mp h).2)

/-- The units of a match are words. -/
theorem word_of_matchesAt (hword : ∀ test ∈ pattern, ∀ c, test c = true → word c = true)
    (h : matchesAt pattern text = true) : ∀ c ∈ text.take pattern.length, word c = true := by
  induction pattern generalizing text with
  | nil => simp
  | cons test pattern ih =>
    cases text with
    | nil => cases h
    | cons c text =>
      obtain ⟨hc, hrest⟩ := Bool.and_eq_true_iff.mp h
      obtain ⟨hhead, htail⟩ := List.forall_mem_cons.mp hword
      exact List.forall_mem_cons.mpr ⟨hhead c hc, ih htail hrest⟩

/-- A match does not reach past a boundary. -/
theorem matchesAt_append_cons (hword : ∀ test ∈ pattern, ∀ c, test c = true → word c = true)
    (hc : word c = false) :
    matchesAt pattern (before ++ c :: after) = matchesAt pattern before := by
  induction pattern generalizing before with
  | nil => cases before <;> rfl
  | cons test pattern ih =>
    obtain ⟨hhead, htail⟩ := List.forall_mem_cons.mp hword
    cases before with
    | nil =>
      have hfails : test c = false := by
        by_contra hpass
        rw [hhead c ((Bool.not_eq_false _).mp hpass)] at hc
        cases hc
      simp [matchesAt, hfails]
    | cons d before => simp only [List.cons_append, matchesAt, ih htail]

theorem occurs_cons :
    Occurs pattern (c :: text) ↔ matchesAt pattern (c :: text) = true ∨ Occurs pattern text := by
  constructor
  · rintro ⟨before, rest, heq, hmatch⟩
    cases before with
    | nil => exact .inl (heq ▸ hmatch)
    | cons d before => exact .inr ⟨before, rest, (List.cons.inj heq).2, hmatch⟩
  · rintro (hmatch | ⟨before, rest, rfl, hmatch⟩)
    · exact ⟨[], _, rfl, hmatch⟩
    · exact ⟨c :: before, rest, rfl, hmatch⟩

theorem not_occurs_nil (h : 0 < pattern.length) : ¬ Occurs pattern [] := by
  rintro ⟨before, rest, heq, hmatch⟩
  obtain ⟨-, rfl⟩ := List.append_eq_nil_iff.mp heq.symm
  exact absurd (length_le_of_matchesAt hmatch) (Nat.not_le.mpr h)

/-- An occurrence is on one side of a boundary. -/
theorem occurs_append_cons (hpos : 0 < pattern.length)
    (hword : ∀ test ∈ pattern, ∀ c, test c = true → word c = true) (hc : word c = false) :
    Occurs pattern (before ++ c :: after) ↔ Occurs pattern before ∨ Occurs pattern after := by
  induction before with
  | nil =>
    have hhead : matchesAt pattern ([] ++ c :: after) = matchesAt pattern [] :=
      matchesAt_append_cons hword hc
    have hnil : matchesAt pattern [] = false := by
      cases pattern with
      | nil => exact absurd hpos (Nat.lt_irrefl 0)
      | cons test pattern => rfl
    rw [List.nil_append] at hhead ⊢
    rw [occurs_cons, hhead, hnil]
    simp [not_occurs_nil hpos]
  | cons d before ih =>
    rw [List.cons_append, occurs_cons, ← List.cons_append, matchesAt_append_cons hword hc, ih,
      occurs_cons, or_assoc]

end Pattern

/-! ## The replacement -/

section Replacement

variable {patterns : List (List (α → Bool))} {pattern : List (α → Bool)} {word : α → Bool}
  {least n skip : Nat} {text before after : List α} {c : α}

theorem exists_of_firstMatch (h : firstMatch patterns text = some n) :
    ∃ pattern ∈ patterns, matchesAt pattern text = true ∧ pattern.length = n := by
  obtain ⟨pattern, hfind, hlength⟩ := Option.map_eq_some_iff.mp h
  exact ⟨pattern, List.mem_of_find?_eq_some hfind,
    List.find?_some (p := fun pattern => matchesAt pattern text) hfind, hlength⟩

theorem firstMatch_eq_none :
    firstMatch patterns text = none ↔ ∀ pattern ∈ patterns, matchesAt pattern text = false := by
  simp [firstMatch]

theorem firstMatch_congr {a b : List α}
    (h : ∀ pattern ∈ patterns, matchesAt pattern a = matchesAt pattern b) :
    firstMatch patterns a = firstMatch patterns b := by
  have hfind : patterns.find? (matchesAt · a) = patterns.find? (matchesAt · b) := by
    induction patterns with
    | nil => rfl
    | cons pattern patterns ih =>
      obtain ⟨hhead, htail⟩ := List.forall_mem_cons.mp h
      rw [List.find?_cons, List.find?_cons, hhead, ih htail]
  rw [firstMatch, firstMatch, hfind]

/-- A match has its length, and consists of words. -/
theorem WordPatterns.bounds (hpatterns : WordPatterns word least patterns)
    (h : firstMatch patterns text = some n) :
    least ≤ n ∧ n ≤ text.length ∧ ∀ c ∈ text.take n, word c = true := by
  obtain ⟨pattern, hmem, hmatch, rfl⟩ := exists_of_firstMatch h
  exact ⟨hpatterns.least_le pattern hmem, length_le_of_matchesAt hmatch,
    word_of_matchesAt (hpatterns.word_of_test pattern hmem) hmatch⟩

theorem WordPatterns.firstMatch_append_cons (hpatterns : WordPatterns word least patterns)
    (hc : word c = false) :
    firstMatch patterns (before ++ c :: after) = firstMatch patterns before :=
  firstMatch_congr fun pattern hmem => matchesAt_append_cons (hpatterns.word_of_test pattern hmem) hc

theorem WordPatterns.firstMatch_of_short (hpatterns : WordPatterns word least patterns)
    (h : text.length < least) : firstMatch patterns text = none := by
  cases hmatch : firstMatch patterns text with
  | none => rfl
  | some n =>
    obtain ⟨hleast, hle, -⟩ := hpatterns.bounds hmatch
    omega

variable {replacement : List α}

theorem replaceFrom_append_cons (hpatterns : WordPatterns word least patterns)
    (hc : word c = false) (hskip : skip ≤ before.length) :
    replaceFrom patterns replacement skip (before ++ c :: after)
      = replaceFrom patterns replacement skip before ++ c :: replaceAll patterns replacement after := by
  induction before generalizing skip with
  | nil =>
    obtain rfl : skip = 0 := Nat.le_zero.mp hskip
    have hnone : firstMatch patterns (c :: after) = none := by
      rw [← List.nil_append (c :: after), hpatterns.firstMatch_append_cons hc]
      exact hpatterns.firstMatch_of_short hpatterns.least_pos
    simp [replaceFrom, replaceAll, hnone]
  | cons d before ih =>
    cases skip with
    | succ skip => exact ih (Nat.le_of_succ_le_succ hskip)
    | zero =>
      have hmatch : firstMatch patterns (d :: (before ++ c :: after))
          = firstMatch patterns (d :: before) := by
        rw [← List.cons_append]
        exact hpatterns.firstMatch_append_cons hc
      cases hfirst : firstMatch patterns (d :: before) with
      | none => simp [replaceFrom, hmatch, hfirst, ih (Nat.zero_le _)]
      | some n =>
        have hle := (hpatterns.bounds hfirst).2.1
        rw [List.length_cons] at hle
        have hrest := @ih (n - 1) (by omega)
        simp [replaceFrom, hmatch, hfirst, hrest]

/-- **A boundary stays**, and no match reaches past it. -/
theorem replaceAll_append_cons (hpatterns : WordPatterns word least patterns)
    (hc : word c = false) :
    replaceAll patterns replacement (before ++ c :: after)
      = replaceAll patterns replacement before ++ c :: replaceAll patterns replacement after :=
  replaceFrom_append_cons hpatterns hc (Nat.zero_le _)

/-- A short text has no match. -/
theorem replaceAll_of_short (hpatterns : WordPatterns word least patterns)
    (h : text.length < least) : replaceAll patterns replacement text = text := by
  unfold replaceAll
  induction text with
  | nil => rfl
  | cons c text ih =>
    have hrest := ih (Nat.lt_of_succ_lt h)
    simp [replaceFrom, hpatterns.firstMatch_of_short h, hrest]

/-- **A match that begins in front cuts it short.** -/
theorem replaceAll_append (before after : List α) :
    replaceAll patterns replacement (before ++ after)
        = before ++ replaceAll patterns replacement after ∨
      ∃ k < before.length, ∃ rest, replaceAll patterns replacement (before ++ after)
        = before.take k ++ (replacement ++ rest) := by
  induction before with
  | nil => exact .inl rfl
  | cons c before ih =>
    rw [replaceAll, List.cons_append, replaceFrom]
    cases firstMatch patterns (c :: (before ++ after)) with
    | some n => exact .inr ⟨0, Nat.succ_pos _, _, rfl⟩
    | none =>
      rcases ih with heq | ⟨k, hk, rest, heq⟩
      · exact .inl (congrArg (c :: ·) heq)
      · exact .inr ⟨k + 1, Nat.succ_lt_succ hk, rest, congrArg (c :: ·) heq⟩

/-- What is there afterwards was there before, or is in the replacement. -/
theorem mem_replaceFrom (h : c ∈ replaceFrom patterns replacement skip text) :
    c ∈ text ∨ c ∈ replacement := by
  induction text generalizing skip with
  | nil => simp [replaceFrom] at h
  | cons d text ih =>
    cases skip with
    | succ skip => exact (ih h).imp (List.mem_cons_of_mem d) id
    | zero =>
      rw [replaceFrom] at h
      cases hfirst : firstMatch patterns (d :: text) with
      | some n =>
        rw [hfirst] at h
        rcases List.mem_append.mp h with hreplacement | hrest
        · exact .inr hreplacement
        · exact (ih hrest).imp (List.mem_cons_of_mem d) id
      | none =>
        rw [hfirst] at h
        rcases List.mem_cons.mp h with rfl | hrest
        · exact .inl List.mem_cons_self
        · exact (ih hrest).imp (List.mem_cons_of_mem d) id

end Replacement

/-! ## What the replacement leaves

The replacement begins and ends with a boundary.
-/

section Bracketed

variable {patterns : List (List (α → Bool))} {pattern : List (α → Bool)} {word : α → Bool}
  {mark close : α} {inner text after : List α}

variable (patterns inner) in
/-- A match in what is left was in the text. -/
theorem matchesAt_of_replaceAll (hword : ∀ test ∈ pattern, ∀ c, test c = true → word c = true)
    (hmark : word mark = false)
    (h : matchesAt pattern (replaceAll patterns (mark :: inner) text) = true) :
    matchesAt pattern text = true := by
  induction pattern generalizing text with
  | nil => cases text <;> rfl
  | cons test pattern ih =>
    obtain ⟨hhead, htail⟩ := List.forall_mem_cons.mp hword
    cases text with
    | nil => cases h
    | cons c text =>
      rw [replaceAll, replaceFrom] at h
      cases hfirst : firstMatch patterns (c :: text) with
      | none =>
        rw [hfirst] at h
        obtain ⟨hc, hrest⟩ := Bool.and_eq_true_iff.mp h
        exact Bool.and_eq_true_iff.mpr ⟨hc, ih htail hrest⟩
      | some n =>
        rw [hfirst] at h
        have hpass := hhead mark (Bool.and_eq_true_iff.mp h).1
        rw [hmark] at hpass
        cases hpass

/-- After the replacement there is a boundary. -/
theorem occurs_replacement_append (hpos : 0 < pattern.length)
    (hword : ∀ test ∈ pattern, ∀ c, test c = true → word c = true) (hclose : word close = false)
    (hclean : ¬ Occurs pattern (inner ++ [close])) :
    Occurs pattern (inner ++ [close] ++ after) ↔ Occurs pattern after := by
  have hinner : ¬ Occurs pattern inner := fun h =>
    hclean ((occurs_append_cons hpos hword hclose).mpr (.inl h))
  rw [List.append_assoc, List.singleton_append, occurs_append_cons hpos hword hclose]
  simp [hinner]

variable (hpos : 0 < pattern.length)
  (hword : ∀ test ∈ pattern, ∀ c, test c = true → word c = true) (hmark : word mark = false)
  (hclose : word close = false) (hclean : ¬ Occurs pattern (mark :: inner ++ [close]))

include hpos hword hmark hclose hclean

/-- **Replacing one pattern makes no match of another.** -/
theorem not_occurs_replaceFrom_of_not_occurs {skip : Nat} (h : ¬ Occurs pattern text) :
    ¬ Occurs pattern (replaceFrom patterns (mark :: inner ++ [close]) skip text) := by
  induction text generalizing skip with
  | nil => cases skip <;> exact not_occurs_nil hpos
  | cons c text ih =>
    obtain ⟨hhead, htail⟩ := not_or.mp (mt occurs_cons.mpr h)
    cases skip with
    | succ skip => exact ih htail
    | zero =>
      rw [replaceFrom]
      cases hfirst : firstMatch patterns (c :: text) with
      | none =>
        intro hoccurs
        rcases occurs_cons.mp hoccurs with hmatch | hrest
        · refine hhead (matchesAt_of_replaceAll patterns (inner ++ [close]) hword hmark ?_)
          rw [replaceAll, replaceFrom, hfirst]
          exact hmatch
        · exact ih htail hrest
      | some n =>
        exact fun hoccurs =>
          ih htail ((occurs_replacement_append hpos hword hclose hclean).mp hoccurs)

/-- **No match is left.** -/
theorem not_occurs_replaceFrom {skip : Nat} (hmem : pattern ∈ patterns) :
    ¬ Occurs pattern (replaceFrom patterns (mark :: inner ++ [close]) skip text) := by
  induction text generalizing skip with
  | nil => cases skip <;> exact not_occurs_nil hpos
  | cons c text ih =>
    cases skip with
    | succ skip => exact ih
    | zero =>
      rw [replaceFrom]
      cases hfirst : firstMatch patterns (c :: text) with
      | none =>
        intro hoccurs
        rcases occurs_cons.mp hoccurs with hmatch | hrest
        · have hat : matchesAt pattern (c :: text) = true := by
            refine matchesAt_of_replaceAll patterns (inner ++ [close]) hword hmark ?_
            rw [replaceAll, replaceFrom, hfirst]
            exact hmatch
          rw [firstMatch_eq_none.mp hfirst pattern hmem] at hat
          cases hat
        · exact ih hrest
      | some n =>
        exact fun hoccurs => ih ((occurs_replacement_append hpos hword hclose hclean).mp hoccurs)

end Bracketed

section Count

variable [DecidableEq α] {patterns : List (List (α → Bool))} {word : α → Bool} {least : Nat}
  {mark : α} {inner text : List α}

theorem count_le_replaceFrom (hpatterns : WordPatterns word least patterns)
    (hmark : word mark = false) {skip : Nat} (h : ∀ c ∈ text.take skip, word c = true) :
    text.count mark ≤ (replaceFrom patterns (mark :: inner) skip text).count mark := by
  induction text generalizing skip with
  | nil => exact Nat.zero_le _
  | cons c text ih =>
    have hne (hc : word c = true) : c ≠ mark := by
      rintro rfl
      rw [hmark] at hc
      cases hc
    cases skip with
    | succ skip =>
      obtain ⟨hc, hrest⟩ := List.forall_mem_cons.mp h
      rw [List.count_cons_of_ne (hne hc)]
      exact ih hrest
    | zero =>
      rw [replaceFrom]
      cases hfirst : firstMatch patterns (c :: text) with
      | none =>
        simp only [List.count_cons]
        exact Nat.add_le_add_right (ih (by simp)) _
      | some n =>
        obtain ⟨hleast, -, hwords⟩ := hpatterns.bounds hfirst
        obtain ⟨k, rfl⟩ : ∃ k, n = k + 1 := ⟨n - 1, by have := hpatterns.least_pos; omega⟩
        obtain ⟨hc, hrest⟩ := List.forall_mem_cons.mp hwords
        rw [List.count_cons_of_ne (hne hc), List.count_append]
        exact Nat.le_add_left_of_le (ih hrest)

/-- **A text that is changed has more marks than before.** -/
theorem replaceAll_eq_or_count_lt (hpatterns : WordPatterns word least patterns)
    (hmark : word mark = false) (text : List α) :
    replaceAll patterns (mark :: inner) text = text ∨
      text.count mark < (replaceAll patterns (mark :: inner) text).count mark := by
  induction text with
  | nil => exact .inl rfl
  | cons c text ih =>
    rw [replaceAll, replaceFrom]
    cases hfirst : firstMatch patterns (c :: text) with
    | none =>
      rcases ih with heq | hlt
      · exact .inl (congrArg (c :: ·) heq)
      · refine .inr ?_
        simp only [List.count_cons]
        exact Nat.add_lt_add_right hlt _
    | some n =>
      refine .inr ?_
      have hwords := (hpatterns.bounds hfirst).2.2
      have hle : (c :: text).count mark
          ≤ (replaceFrom patterns (mark :: inner) n (c :: text)).count mark :=
        count_le_replaceFrom hpatterns hmark hwords
      obtain ⟨k, rfl⟩ : ∃ k, n = k + 1 :=
        ⟨n - 1, by have := hpatterns.least_pos; have := (hpatterns.bounds hfirst).1; omega⟩
      rw [replaceFrom] at hle
      simp only [List.count_append, List.count_cons_self, Nat.add_sub_cancel]
      omega

end Count

end Mapae.Infra
