import Mapae.Infra.Hex
import Mapae.Infra.Text

/-!
# Network addresses and their spellings

An IPv4 address has one spelling, in dotted decimals. An IPv6 address has many: its groups are hex
in either letter case and may have zeros in front, `::` stands for one or more zero groups, and the
last two groups may be written as an IPv4 address.

* `Ipv4.text_injective`: two IPv4 addresses are written differently
* `Ipv6Text.parts_injective`: what an IPv6 text is made of can be read off it
-/

namespace Mapae.Infra

/-! ## Joined texts -/

theorem mem_intercalate {c sep : Char} {parts : List (List Char)}
    (h : c ∈ [sep].intercalate parts) : c = sep ∨ ∃ part ∈ parts, c ∈ part := by
  induction parts with
  | nil => simp at h
  | cons part rest ih =>
    cases rest with
    | nil => exact .inr ⟨part, by simp, by simpa using h⟩
    | cons next rest =>
      rw [List.intercalate_cons_cons, List.mem_append, List.mem_append, List.mem_singleton] at h
      rcases h with (h | h) | h
      · exact .inr ⟨part, by simp, h⟩
      · exact .inl h
      · rcases ih h with h | ⟨other, hmem, h⟩
        · exact .inl h
        · exact .inr ⟨other, by simp [hmem], h⟩

theorem sep_mem_intercalate {sep : Char} {parts : List (List Char)} (h : 2 ≤ parts.length) :
    sep ∈ [sep].intercalate parts := by
  match parts, h with
  | part :: next :: rest, _ => simp [List.intercalate_cons_cons]

theorem mem_intercalate_of_mem {c sep : Char} {parts : List (List Char)} {part : List Char}
    (hpart : part ∈ parts) (h : c ∈ part) : c ∈ [sep].intercalate parts := by
  induction parts with
  | nil => simp at hpart
  | cons first rest ih =>
    cases rest with
    | nil =>
      obtain rfl : part = first := by simpa using hpart
      simpa using h
    | cons next rest =>
      rw [List.intercalate_cons_cons, List.mem_append]
      rcases List.mem_cons.mp hpart with rfl | hpart
      · exact .inl (List.mem_append_left _ h)
      · exact .inr (ih hpart)

/-- Parts without the separator can be told from the joined text, where none of them is empty. -/
theorem intercalate_injective {sep : Char} {xs ys : List (List Char)}
    (hx : ∀ part ∈ xs, sep ∉ part ∧ part ≠ []) (hy : ∀ part ∈ ys, sep ∉ part ∧ part ≠ [])
    (h : [sep].intercalate xs = [sep].intercalate ys) : xs = ys := by
  have hempty : ∀ {parts : List (List Char)}, (∀ part ∈ parts, sep ∉ part ∧ part ≠ []) →
      [sep].intercalate parts = [] → parts = [] := by
    intro parts hparts h
    cases parts with
    | nil => rfl
    | cons part rest =>
      have hpart := hparts part List.mem_cons_self
      obtain ⟨c, hc⟩ := List.exists_mem_of_ne_nil part hpart.2
      have hc' : c ∈ [sep].intercalate (part :: rest) :=
        mem_intercalate_of_mem List.mem_cons_self hc
      simp [h] at hc'
  by_cases hxs : xs = []
  · subst hxs
    exact (hempty hy (by simpa using h.symm)).symm
  · have hys : ys ≠ [] := by
      rintro rfl
      exact hxs (hempty hx (by simpa using h))
    rw [← List.splitOn_intercalate sep (fun part hmem => (hx part hmem).1) hxs, h,
      List.splitOn_intercalate sep (fun part hmem => (hy part hmem).1) hys]

/-! ## Splitting at a doubled separator -/

/-- `text.split(sep + sep)`. -/
def splitDoubled (sep : Char) : List Char → List (List Char)
  | [] => [[]]
  | [c] => [[c]]
  | c :: next :: rest =>
    if c = sep ∧ next = sep then [] :: splitDoubled sep rest
    else (splitDoubled sep (next :: rest)).modifyHead (c :: ·)

theorem splitDoubled_cons {sep c : Char} (h : c ≠ sep) (text : List Char) :
    splitDoubled sep (c :: text) = (splitDoubled sep text).modifyHead (c :: ·) := by
  cases text <;> simp [splitDoubled, h]

theorem splitDoubled_sep {sep c : Char} (h : c ≠ sep) (text : List Char) :
    splitDoubled sep (sep :: c :: text) = (splitDoubled sep (c :: text)).modifyHead (sep :: ·) := by
  simp [splitDoubled, h]

theorem splitDoubled_part {sep : Char} {part : List Char} (h : sep ∉ part) (text : List Char) :
    splitDoubled sep (part ++ text) = (splitDoubled sep text).modifyHead (part ++ ·) := by
  induction part with
  | nil => cases htext : splitDoubled sep text <;> simp [htext]
  | cons c part ih =>
    rw [List.mem_cons, not_or] at h
    rw [List.cons_append, splitDoubled_cons (Ne.symm h.1), ih h.2, List.modifyHead_modifyHead]
    rfl

/-- **Joined parts are not split**, whatever follows them. -/
theorem splitDoubled_intercalate {sep : Char} {parts : List (List Char)}
    (h : ∀ part ∈ parts, sep ∉ part ∧ part ≠ []) (text : List Char) :
    splitDoubled sep ([sep].intercalate parts ++ text) =
      (splitDoubled sep text).modifyHead ([sep].intercalate parts ++ ·) := by
  induction parts with
  | nil => cases htext : splitDoubled sep text <;> simp [htext]
  | cons part rest ih =>
    have hpart := h part List.mem_cons_self
    have hrest := ih fun other hmem => h other (List.mem_cons_of_mem _ hmem)
    cases rest with
    | nil => simpa using splitDoubled_part hpart.1 text
    | cons next rest =>
      -- the separator stands alone, since the next part begins with something else
      obtain ⟨hclean, hne⟩ := h next (by simp)
      obtain ⟨c, more, hmore⟩ : ∃ c more,
          [sep].intercalate (next :: rest) ++ text = c :: more ∧ c ≠ sep := by
        obtain ⟨c, digits, rfl⟩ := List.exists_cons_of_ne_nil hne
        have hc : c ≠ sep := by
          rintro rfl
          exact hclean List.mem_cons_self
        cases rest with
        | nil => exact ⟨c, digits ++ text, by simp, hc⟩
        | cons last rest => exact ⟨c, _, by rw [List.intercalate_cons_cons]; rfl, hc⟩
      rw [List.intercalate_cons_cons, List.append_assoc, List.append_assoc,
        splitDoubled_part hpart.1, List.singleton_append, hmore.1, splitDoubled_sep hmore.2,
        ← hmore.1, hrest, List.modifyHead_modifyHead, List.modifyHead_modifyHead]
      congr 1
      funext text
      simp

/-! ## IPv4 -/

/-- Four bytes. -/
structure Ipv4 where
  a : Fin 256
  b : Fin 256
  c : Fin 256
  d : Fin 256
deriving DecidableEq

namespace Ipv4

def octets (q : Ipv4) : List (Fin 256) := [q.a, q.b, q.c, q.d]

/-- The numbers of the first `count` bytes. -/
def parts (q : Ipv4) (count : Nat) : List (List Char) :=
  (q.octets.take count).map fun octet : Fin 256 => decimalDigits octet

/-- The dotted decimals. -/
def text (q : Ipv4) : List Char := ['.'].intercalate (q.parts 4)

/-- The /24 of the address. -/
def block (q : Ipv4) : List (Fin 256) := q.octets.take 3

theorem decimalDigits_clean {n : Nat} : ∀ c ∈ decimalDigits n, c ≠ '.' ∧ c ≠ ':' := by
  intro c hc
  have hdigit := isDigit_of_mem_decimalDigits hc
  constructor <;> rintro rfl <;> exact absurd hdigit (by decide)

theorem parts_clean (q : Ipv4) (count : Nat) :
    ∀ part ∈ q.parts count, ('.' ∉ part ∧ part ≠ []) ∧ ':' ∉ part := by
  intro part hpart
  obtain ⟨octet, -, rfl⟩ := List.mem_map.mp hpart
  exact ⟨⟨fun h => (decimalDigits_clean _ h).1 rfl, Nat.toDigits_ne_nil⟩,
    fun h => (decimalDigits_clean _ h).2 rfl⟩

theorem parts_injective {q r : Ipv4} {count : Nat} (h : q.parts count = r.parts count) :
    q.octets.take count = r.octets.take count := by
  have hinj : Function.Injective fun octet : Fin 256 => decimalDigits octet := by
    intro x y hxy
    have hvalue := congrArg decimalValue hxy
    simp only [decimalValue_decimalDigits] at hvalue
    exact Fin.ext hvalue
  unfold parts at h
  exact List.map_injective_iff.mpr hinj h

/-- The joined numbers tell the bytes. -/
theorem joined_inj {q r : Ipv4} {count : Nat} :
    ['.'].intercalate (q.parts count) = ['.'].intercalate (r.parts count) ↔
      q.octets.take count = r.octets.take count := by
  constructor
  · intro h
    exact parts_injective (intercalate_injective (fun part hpart => (q.parts_clean count part hpart).1)
      (fun part hpart => (r.parts_clean count part hpart).1) h)
  · intro h
    rw [parts, parts, h]

/-- **Two IPv4 addresses are written differently.** -/
theorem text_injective {q r : Ipv4} (h : q.text = r.text) : q = r := by
  have := joined_inj.mp h
  simp only [octets, List.take_succ_cons, List.take_zero, List.cons.injEq, and_true] at this
  obtain ⟨ha, hb, hc, hd⟩ := this
  cases q
  cases r
  simp_all

theorem dot_mem_text (q : Ipv4) : '.' ∈ q.text := sep_mem_intercalate (by simp [parts, octets])

theorem colon_notMem_text (q : Ipv4) : ':' ∉ q.text := by
  intro h
  rcases mem_intercalate h with h | ⟨part, hpart, h⟩
  · simp at h
  · exact (q.parts_clean 4 part hpart).2 h

theorem text_ne_nil (q : Ipv4) : q.text ≠ [] := List.ne_nil_of_mem q.dot_mem_text

end Ipv4

/-! ## IPv6 -/

/-- Eight groups of sixteen bits. -/
structure Ipv6 where
  groups : List (Fin 65536)
  length_eq : groups.length = 8
deriving DecidableEq

namespace Ipv6

/-- The prefix `::ffff:0:0/96` of the addresses that stand for an IPv4 address. -/
def IsMapped (a : Ipv6) : Prop := a.groups.take 6 = [0, 0, 0, 0, 0, 65535]

instance (a : Ipv6) : Decidable a.IsMapped := inferInstanceAs (Decidable (_ = _))

def highByte (group : Fin 65536) : Fin 256 := ⟨group / 256, by omega⟩

def lowByte (group : Fin 65536) : Fin 256 := ⟨group % 256, by omega⟩

/-- The last 32 bits. -/
def low (a : Ipv6) : Ipv4 where
  a := highByte (a.groups.getD 6 0)
  b := lowByte (a.groups.getD 6 0)
  c := highByte (a.groups.getD 7 0)
  d := lowByte (a.groups.getD 7 0)

end Ipv6

/-- The group that two bytes make. -/
def groupOf (high low : Fin 256) : Fin 65536 := ⟨256 * high + low, by omega⟩

theorem highByte_groupOf (high low : Fin 256) : Ipv6.highByte (groupOf high low) = high := by
  simp only [Ipv6.highByte, groupOf, Fin.ext_iff]
  omega

theorem lowByte_groupOf (high low : Fin 256) : Ipv6.lowByte (groupOf high low) = low := by
  simp only [Ipv6.lowByte, groupOf, Fin.ext_iff]
  omega

/-- The two groups that an IPv4 address makes. -/
def Ipv4.groups (q : Ipv4) : List (Fin 65536) := [groupOf q.a q.b, groupOf q.c q.d]

/-! ## How an IPv6 address is written -/

/-- A hex digit in either letter case. -/
def isHexChar (c : Char) : Bool :=
  c.isDigit || decide ('a' ≤ c ∧ c ≤ 'f') || decide ('A' ≤ c ∧ c ≤ 'F')

/-- A group as it may be written: one to four hex digits. -/
structure GroupText where
  digits : List Char
  isHexChar : ∀ c ∈ digits, isHexChar c = true
  width : 1 ≤ digits.length ∧ digits.length ≤ 4

theorem hexDigitValue_lt {c : Char} (h : isHexChar c = true) : hexDigitValue c < 16 := by
  have hbounds : ∀ a b : Char, (a ≤ b) = (a.toNat ≤ b.toNat) := fun _ _ => rfl
  simp only [isHexChar, Char.isDigit, Bool.or_eq_true, Bool.and_eq_true, decide_eq_true_eq,
    hbounds] at h
  have h0 : c.val.toNat = c.toNat := rfl
  have ha : 'a'.toNat = 97 := rfl
  have hf : 'f'.toNat = 102 := rfl
  have hA : 'A'.toNat = 65 := rfl
  have hF : 'F'.toNat = 70 := rfl
  unfold hexDigitValue
  rcases h with (h | h) | h
  · have : 48 ≤ c.toNat ∧ c.toNat ≤ 57 := h
    split <;> omega
  · split <;> (try split) <;> omega
  · split <;> (try split) <;> omega

theorem hexValue_lt {digits : List Char} (h : ∀ c ∈ digits, isHexChar c = true) :
    hexValue digits < 16 ^ digits.length := by
  induction digits using List.reverseRecOn with
  | nil => simp [hexValue]
  | append_singleton digits c ih =>
    have hrest := ih fun c hc => h c (List.mem_append_left _ hc)
    have hlast := hexDigitValue_lt (h c (by simp))
    rw [hexValue_append, List.length_append, List.length_singleton, Nat.pow_succ]
    omega

namespace GroupText

def value (g : GroupText) : Fin 65536 :=
  ⟨hexValue g.digits, (hexValue_lt g.isHexChar).trans_le
    (Nat.pow_le_pow_right (n := 16) (by omega) g.width.2)⟩

theorem ne_nil (g : GroupText) : g.digits ≠ [] := by
  intro h
  have := g.width.1
  simp [h] at this

theorem clean (g : GroupText) : ':' ∉ g.digits ∧ '.' ∉ g.digits := by
  constructor <;> intro h <;> exact absurd (g.isHexChar _ h) (by decide)

end GroupText

/-- A textual form: the groups before `::` and those after it, where it is there, and the dotted
tail, where there is one. -/
structure Ipv6Text where
  before : List GroupText
  after : Option (List GroupText)
  dotted : Option Ipv4
  /-- All groups are there, or `::` stands for at least one. -/
  full : match after with
    | none => before.length + 2 * dotted.toList.length = 8
    | some after => before.length + after.length + 2 * dotted.toList.length ≤ 7

namespace Ipv6Text

/-- What follows the last `::`, or the whole of it. -/
def tail (s : Ipv6Text) (groups : List GroupText) : List (List Char) :=
  groups.map (·.digits) ++ s.dotted.toList.map Ipv4.text

def text (s : Ipv6Text) : List Char :=
  match s.after with
  | none => [':'].intercalate (s.tail s.before)
  | some after =>
    [':'].intercalate (s.before.map (·.digits)) ++ ':' :: ':' :: [':'].intercalate (s.tail after)

/-- The groups that are written out. -/
def written (s : Ipv6Text) : Nat :=
  s.before.length + (s.after.getD []).length + 2 * s.dotted.toList.length

theorem written_le (s : Ipv6Text) : s.written ≤ 8 := by
  have hfull := s.full
  unfold written
  cases hafter : s.after with
  | none =>
    simp only [hafter] at hfull
    simp only [Option.getD_none, List.length_nil]
    omega
  | some after =>
    simp only [hafter] at hfull
    simp only [Option.getD_some]
    omega

/-- The address that is spelled. -/
def address (s : Ipv6Text) : Ipv6 where
  groups := s.before.map (·.value) ++ List.replicate (8 - s.written) 0 ++
    (s.after.getD []).map (·.value) ++ (s.dotted.map Ipv4.groups).getD []
  length_eq := by
    have hle := s.written_le
    have hdotted : ((s.dotted.map Ipv4.groups).getD []).length = 2 * s.dotted.toList.length := by
      cases s.dotted <;> rfl
    simp only [List.length_append, List.length_map, List.length_replicate, hdotted]
    unfold written at *
    omega

theorem mem_tail {s : Ipv6Text} {groups : List GroupText} {part : List Char}
    (h : part ∈ s.tail groups) :
    (∃ g ∈ groups, part = g.digits) ∨ ∃ q, s.dotted = some q ∧ part = q.text := by
  rcases List.mem_append.mp h with h | h
  · obtain ⟨g, hg, rfl⟩ := List.mem_map.mp h
    exact .inl ⟨g, hg, rfl⟩
  · obtain ⟨q, hq, rfl⟩ := List.mem_map.mp h
    exact .inr ⟨q, Option.mem_toList.mp hq, rfl⟩

/-- No part is empty or has a colon. -/
theorem tail_clean (s : Ipv6Text) (groups : List GroupText) :
    ∀ part ∈ s.tail groups, ':' ∉ part ∧ part ≠ [] := by
  intro part hpart
  rcases mem_tail hpart with ⟨g, -, rfl⟩ | ⟨q, -, rfl⟩
  · exact ⟨g.clean.1, g.ne_nil⟩
  · exact ⟨q.colon_notMem_text, q.text_ne_nil⟩

theorem before_clean (s : Ipv6Text) :
    ∀ part ∈ s.before.map (·.digits), ':' ∉ part ∧ part ≠ [] := by
  intro part hpart
  obtain ⟨g, -, rfl⟩ := List.mem_map.mp hpart
  exact ⟨g.clean.1, g.ne_nil⟩

theorem colon_mem_text (s : Ipv6Text) : ':' ∈ s.text := by
  have hfull := s.full
  unfold text
  cases hafter : s.after with
  | none =>
    simp only [hafter] at hfull
    refine sep_mem_intercalate ?_
    cases hdotted : s.dotted with
    | none => simp_all [tail]
    | some q => simp_all [tail]
  | some after => simp

/-- There is a dot exactly where the tail is dotted. -/
theorem dot_mem_text (s : Ipv6Text) : '.' ∈ s.text ↔ s.dotted.isSome = true := by
  have htail : ∀ groups, '.' ∈ [':'].intercalate (s.tail groups) ↔ s.dotted.isSome = true := by
    intro groups
    constructor
    · intro h
      rcases mem_intercalate h with h | ⟨part, hpart, h⟩
      · simp at h
      · rcases mem_tail hpart with ⟨g, -, rfl⟩ | ⟨q, hq, -⟩
        · exact absurd h g.clean.2
        · simp [hq]
    · intro h
      obtain ⟨q, hq⟩ := Option.isSome_iff_exists.mp h
      have hlast : q.text ∈ s.tail groups := by simp [tail, hq]
      exact mem_intercalate_of_mem hlast q.dot_mem_text
  have hbefore : '.' ∉ [':'].intercalate (s.before.map (·.digits)) := by
    intro h
    rcases mem_intercalate h with h | ⟨part, hpart, h⟩
    · simp at h
    · obtain ⟨g, -, rfl⟩ := List.mem_map.mp hpart
      exact g.clean.2 h
  unfold text
  cases s.after with
  | none => exact htail s.before
  | some after => simp [hbefore, htail]

/-- The `::` splits a text in two. -/
theorem splitDoubled_text (s : Ipv6Text) :
    splitDoubled ':' s.text = match s.after with
      | none => [[':'].intercalate (s.tail s.before)]
      | some after => [[':'].intercalate (s.before.map (·.digits)), [':'].intercalate (s.tail after)] := by
  have hjoined : ∀ groups, splitDoubled ':' ([':'].intercalate (s.tail groups)) =
      [[':'].intercalate (s.tail groups)] := by
    intro groups
    have := splitDoubled_intercalate (s.tail_clean groups) []
    simpa [splitDoubled] using this
  unfold text
  cases s.after with
  | none => exact hjoined s.before
  | some after =>
    simp only
    rw [splitDoubled_intercalate s.before_clean, splitDoubled, if_pos ⟨rfl, rfl⟩, hjoined]
    simp

theorem tail_injective {s t : Ipv6Text} {xs ys : List GroupText}
    (hdotted : s.dotted.isSome = t.dotted.isSome) (h : s.tail xs = t.tail ys) :
    xs.map (·.digits) = ys.map (·.digits) ∧ s.dotted = t.dotted := by
  unfold tail at h
  cases hs : s.dotted with
  | none =>
    have ht : t.dotted = none := by simpa [hs] using hdotted.symm
    simpa [hs, ht] using h
  | some q =>
    obtain ⟨r, ht⟩ := Option.isSome_iff_exists.mp (hdotted.symm.trans (by simp [hs]))
    simp only [hs, ht, Option.toList_some, List.map_cons, List.map_nil] at h
    obtain ⟨hgroups, hlast⟩ := List.append_inj' h rfl
    rw [List.cons.injEq] at hlast
    exact ⟨hgroups, ht ▸ congrArg some (Ipv4.text_injective hlast.1)⟩

/-- **What a text is made of can be read off it.** -/
theorem parts_injective {s t : Ipv6Text} (h : s.text = t.text) :
    s.before.map (·.digits) = t.before.map (·.digits) ∧
      s.after.map (·.map (·.digits)) = t.after.map (·.map (·.digits)) ∧ s.dotted = t.dotted := by
  have hdotted : s.dotted.isSome = t.dotted.isSome := by
    rw [Bool.eq_iff_iff, ← s.dot_mem_text, ← t.dot_mem_text, h]
  have hsplit := s.splitDoubled_text
  rw [h, t.splitDoubled_text] at hsplit
  cases hs : s.after with
  | none =>
    cases ht : t.after with
    | none =>
      simp only [hs, ht, List.cons.injEq, and_true] at hsplit
      obtain ⟨hbefore, htail⟩ := tail_injective hdotted
        (intercalate_injective (s.tail_clean _) (t.tail_clean _) hsplit.symm)
      exact ⟨hbefore, rfl, htail⟩
    | some _ => simp [hs, ht] at hsplit
  | some xs =>
    cases ht : t.after with
    | none => simp [hs, ht] at hsplit
    | some ys =>
      simp only [hs, ht, List.cons.injEq, and_true] at hsplit
      obtain ⟨hafter, htail⟩ := tail_injective hdotted
        (intercalate_injective (s.tail_clean _) (t.tail_clean _) hsplit.2.symm)
      exact ⟨intercalate_injective s.before_clean t.before_clean hsplit.1.symm,
        congrArg some hafter, htail⟩

theorem values_eq {xs ys : List GroupText} (h : xs.map (·.digits) = ys.map (·.digits)) :
    xs.map (·.value) = ys.map (·.value) ∧ xs.length = ys.length := by
  have hlength : xs.length = ys.length := by simpa using congrArg List.length h
  refine ⟨?_, hlength⟩
  have hvalue := congrArg (List.map hexValue) h
  rw [List.map_map, List.map_map] at hvalue
  refine List.map_injective_iff.mpr (fun _ _ => Fin.ext) ?_
  rw [List.map_map, List.map_map]
  exact hvalue

/-- **A text spells one address.** -/
theorem address_eq {s t : Ipv6Text} (h : s.text = t.text) : s.address = t.address := by
  obtain ⟨hbefore, hafter, hdotted⟩ := parts_injective h
  have hafter' : (s.after.getD []).map (·.digits) = (t.after.getD []).map (·.digits) := by
    cases hs : s.after <;> cases ht : t.after <;> simp_all
  obtain ⟨hvalues, hlength⟩ := values_eq hbefore
  obtain ⟨hvalues', hlength'⟩ := values_eq hafter'
  unfold address
  simp only [written, hvalues, hvalues', hlength, hlength', hdotted]

/-- A dotted tail is the last 32 bits. -/
theorem low_address {s : Ipv6Text} {q : Ipv4} (h : s.dotted = some q) : s.address.low = q := by
  have hlength := s.address.length_eq
  obtain ⟨front, hgroups⟩ : ∃ front, s.address.groups = front ++ q.groups := by
    have hq : (s.dotted.map Ipv4.groups).getD [] = q.groups := by rw [h]; rfl
    exact ⟨_, congrArg (_ ++ ·) hq⟩
  have hfront : front.length = 6 := by
    rw [hgroups, List.length_append] at hlength
    exact Nat.add_right_cancel (m := 2) hlength
  unfold Ipv6.low
  rw [hgroups]
  simp [List.getD_eq_getElem?_getD, hfront, Ipv4.groups, highByte_groupOf, lowByte_groupOf]

/-- A dotted tail follows the last colon. -/
theorem exists_text_eq {s : Ipv6Text} {q : Ipv4} (h : s.dotted = some q) :
    ∃ front, s.text = front ++ ':' :: q.text := by
  have hlast : ∀ parts : List (List Char), parts ≠ [] →
      ∃ front, [':'].intercalate (parts ++ [q.text]) = front ++ ':' :: q.text := by
    intro parts hne
    induction parts with
    | nil => exact absurd rfl hne
    | cons part rest ih =>
      by_cases hrest : rest = []
      · subst hrest
        exact ⟨part, by simp [List.intercalate_cons_cons]⟩
      · obtain ⟨front, hfront⟩ := ih hrest
        obtain ⟨next, more, rfl⟩ := List.exists_cons_of_ne_nil hrest
        refine ⟨part ++ [':'] ++ front, ?_⟩
        rw [List.cons_append, List.cons_append, List.intercalate_cons_cons, ← List.cons_append,
          hfront, List.append_assoc, List.append_assoc, List.append_assoc]
  have hfull := s.full
  unfold text tail
  rw [h]
  cases hafter : s.after with
  | none =>
    simp only [hafter, h] at hfull
    have hbefore : s.before ≠ [] := by
      intro hnil
      simp [hnil] at hfull
    exact hlast _ (by simpa using hbefore)
  | some after =>
    by_cases hnil : after = []
    · subst hnil
      exact ⟨[':'].intercalate (s.before.map (·.digits)) ++ [':'], by simp⟩
    · obtain ⟨front, hfront⟩ := hlast (after.map (·.digits)) (by simpa using hnil)
      refine ⟨[':'].intercalate (s.before.map (·.digits)) ++ ':' :: ':' :: front, ?_⟩
      simp only [Option.toList_some, List.map_cons, List.map_nil, hfront]
      simp

end Ipv6Text

/-! ## Prefixes -/

/-- The first groups, without zeros in front. -/
def Ipv6.joined (a : Ipv6) (count : Nat) : List Char :=
  [':'].intercalate ((a.groups.take count).map fun group : Fin 65536 => hexDigits group)

theorem hexDigits_clean {n : Nat} : (':' ∉ hexDigits n ∧ '.' ∉ hexDigits n) ∧ hexDigits n ≠ [] := by
  have hdigit : ∀ c ∈ hexDigits n, c ≠ ':' ∧ c ≠ '.' := by
    intro c hc
    obtain ⟨d, hd, rfl⟩ := mem_hexDigits hc
    have hall : ∀ d < 16, Nat.digitChar d ≠ ':' ∧ Nat.digitChar d ≠ '.' := by decide
    exact hall d hd
  exact ⟨⟨fun h => (hdigit _ h).1 rfl, fun h => (hdigit _ h).2 rfl⟩, Nat.toDigits_ne_nil⟩

theorem Ipv6.dot_notMem_joined (a : Ipv6) (count : Nat) : '.' ∉ a.joined count := by
  intro h
  rcases mem_intercalate h with h | ⟨part, hpart, h⟩
  · simp at h
  · obtain ⟨group, -, rfl⟩ := List.mem_map.mp hpart
    exact hexDigits_clean.1.2 h

/-- **The joined groups tell the prefix.** -/
theorem Ipv6.joined_inj {a b : Ipv6} {count : Nat} :
    a.joined count = b.joined count ↔ a.groups.take count = b.groups.take count := by
  constructor
  · intro h
    have hclean : ∀ groups : List (Fin 65536),
        ∀ part ∈ groups.map (fun group : Fin 65536 => hexDigits group), ':' ∉ part ∧ part ≠ [] := by
      intro groups part hpart
      obtain ⟨group, -, rfl⟩ := List.mem_map.mp hpart
      exact ⟨hexDigits_clean.1.1, hexDigits_clean.2⟩
    have hinj : Function.Injective fun group : Fin 65536 => hexDigits group := by
      intro x y hxy
      have hvalue := congrArg hexValue hxy
      simp only [hexValue_hexDigits] at hvalue
      exact Fin.ext hvalue
    exact List.map_injective_iff.mpr hinj (intercalate_injective (hclean _) (hclean _) h)
  · intro h
    rw [joined, joined, h]

end Mapae.Infra
