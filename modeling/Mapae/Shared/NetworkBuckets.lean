import Mapae.Infra.Address

/-!
# Client network buckets

A rate limit counts an IPv4 address as itself and an IPv6 address as its /64; the wider count is of
the /24 or the /48. Neither function checks that the text is an address. An address is a list of
characters here, and `Number.parseInt` is exact: it rounds a group of more than thirteen digits in
the source, which no address has.

* `ipBucket_plain` and `subnetBucket_plain`: a text without a dot is read into its groups
* `ipBucket_dotted` and `subnetBucket_dotted`: a text with a dotted tail is not
-/

namespace Mapae.Shared

open Infra

/-! ## Numbers -/

/-- `Number.parseInt(text, 16)`: the sign, the prefix and the digits in front, and `NaN` where
there is no digit. -/
def parseInt16 (text : List Char) : Option Int :=
  let text := text.dropWhile isSpace
  let sign : Int := if text.head? = some '-' then -1 else 1
  let text := if text.head? = some '-' ∨ text.head? = some '+' then text.tail else text
  let text := if text.take 2 = ['0', 'x'] ∨ text.take 2 = ['0', 'X'] then text.drop 2 else text
  match text.takeWhile isHexChar with
  | [] => none
  | digits => some (sign * hexValue digits)

/-- `number.toString(16)`. -/
def toString16 : Option Int → List Char
  | none => ['N', 'a', 'N']
  | some n => if n < 0 then '-' :: hexDigits n.natAbs else hexDigits n.natAbs

/-! ## Buckets -/

def v4Prefix (address : List Char) : List Char := ['.'].intercalate ((address.splitOn '.').take 3)

/-- `text === "" ? [] : text.split(":")`. -/
def groupsIn (text : List Char) : List (List Char) := if text = [] then [] else text.splitOn ':'

def v6Prefix (address : List Char) (groupCount : Nat) : List Char :=
  let pieces := (splitDoubled ':' address).take 2
  let headGroups := groupsIn (pieces[0]?.getD [])
  let tailGroups := groupsIn (pieces[1]?.getD [])
  let elided := match pieces[1]? with
    | none => 0
    | some _ => 8 - headGroups.length - tailGroups.length
  let groups := headGroups ++ List.replicate elided ['0'] ++ tailGroups
  [':'].intercalate ((groups.take groupCount).map fun group => toString16 (parseInt16 group))

/-- The network a client address is rate-limited as. -/
def ipBucket (address : List Char) : List Char :=
  if ':' ∉ address ∨ '.' ∈ address then address else v6Prefix address 4 ++ "::/64".toList

/-- `address.slice(address.lastIndexOf(":") + 1)`. -/
def afterColon (address : List Char) : List Char := (address.reverse.takeWhile (· ≠ ':')).reverse

/-- The wider network around a client. -/
def subnetBucket (address : List Char) : List Char :=
  if ':' ∉ address then v4Prefix address ++ ".0/24".toList
  else if '.' ∈ address then "::ffff:".toList ++ v4Prefix (afterColon address) ++ ".0/24".toList
  else v6Prefix address 3 ++ "::/48".toList

/-! ## What the buckets of an address are -/

theorem v4Prefix_text (q : Ipv4) : v4Prefix q.text = ['.'].intercalate (q.parts 3) := by
  have hne : q.parts 4 ≠ [] := by simp [Ipv4.parts, Ipv4.octets]
  rw [v4Prefix, Ipv4.text, List.splitOn_intercalate '.' (fun part h => (q.parts_clean 4 part h).1.1) hne]
  rfl

/-- A digit is what `parseInt` reads. -/
theorem hexDigit_read {c : Char} (h : isHexChar c = true) :
    isSpace c = false ∧ c ≠ '-' ∧ c ≠ '+' ∧ c ≠ 'x' ∧ c ≠ 'X' := by
  refine ⟨?_, ?_⟩
  · have hbounds : ∀ a b : Char, (a ≤ b) = (a.toNat ≤ b.toNat) := fun _ _ => rfl
    have hrange : (48 ≤ c.toNat ∧ c.toNat ≤ 57) ∨ (97 ≤ c.toNat ∧ c.toNat ≤ 102) ∨
        (65 ≤ c.toNat ∧ c.toNat ≤ 70) := by
      simp only [isHexChar, Char.isDigit, Bool.or_eq_true, Bool.and_eq_true, decide_eq_true_eq,
        hbounds, or_assoc] at h
      exact h
    unfold isSpace
    simp only [List.mem_cons, List.not_mem_nil, or_false, decide_eq_false_iff_not]
    omega
  · refine ⟨?_, ?_, ?_, ?_⟩ <;> rintro rfl <;> exact absurd h (by decide)

theorem parseInt16_digits (g : GroupText) : parseInt16 g.digits = some (g.value : Int) := by
  obtain ⟨c, rest, hdigits⟩ := List.exists_cons_of_ne_nil g.ne_nil
  have hread : ∀ d ∈ c :: rest, isSpace d = false ∧ d ≠ '-' ∧ d ≠ '+' ∧ d ≠ 'x' ∧ d ≠ 'X' := by
    intro d hd
    exact hexDigit_read (g.isHexChar d (hdigits ▸ hd))
  have hc := hread c List.mem_cons_self
  have hspace : (c :: rest).dropWhile isSpace = c :: rest :=
    List.dropWhile_cons_of_neg (by simp [hc.1])
  have hsign : (c :: rest).head? ≠ some '-' ∧ (c :: rest).head? ≠ some '+' := by
    simp [hc.2.1, hc.2.2.1]
  have hnothex : ¬ ((c :: rest).take 2 = ['0', 'x'] ∨ (c :: rest).take 2 = ['0', 'X']) := by
    intro h
    cases rest with
    | nil => simp at h
    | cons d rest =>
      have hd := hread d (by simp)
      simp [hd.2.2.2] at h
  have htake : (c :: rest).takeWhile isHexChar = c :: rest :=
    List.takeWhile_eq_self_iff.mpr fun d hd => g.isHexChar d (hdigits ▸ hd)
  unfold parseInt16
  simp only [hdigits, hspace, if_neg hsign.1, if_neg (not_or.mpr hsign), if_neg hnothex, htake]
  simp [GroupText.value, hdigits]

theorem toString16_natCast (n : Nat) : toString16 (some n) = hexDigits n := by
  simp [toString16]

theorem groupsIn_intercalate {parts : List (List Char)}
    (h : ∀ part ∈ parts, ':' ∉ part ∧ part ≠ []) : groupsIn ([':'].intercalate parts) = parts := by
  cases parts with
  | nil => rfl
  | cons part rest =>
    obtain ⟨c, hc⟩ := List.exists_mem_of_ne_nil part (h part List.mem_cons_self).2
    have hne : [':'].intercalate (part :: rest) ≠ [] :=
      List.ne_nil_of_mem (mem_intercalate_of_mem List.mem_cons_self hc)
    rw [groupsIn, if_neg hne,
      List.splitOn_intercalate ':' (fun part hmem => (h part hmem).1) (List.cons_ne_nil _ _)]

/-- **A text without a dotted tail is read into its groups.** -/
theorem v6Prefix_text {s : Ipv6Text} (h : s.dotted = none) (groupCount : Nat) :
    v6Prefix s.text groupCount = s.address.joined groupCount := by
  have htail : ∀ groups, s.tail groups = groups.map (·.digits) := by
    intro groups
    simp [Ipv6Text.tail, h]
  have hgroups : ∀ groups : List GroupText,
      (groups.map (·.digits)).map (fun group => toString16 (parseInt16 group)) =
        (groups.map (·.value)).map fun group : Fin 65536 => hexDigits group := by
    intro groups
    rw [List.map_map, List.map_map]
    refine List.map_congr_left fun g _ => ?_
    show toString16 (parseInt16 g.digits) = hexDigits g.value
    rw [parseInt16_digits]
    exact toString16_natCast g.value
  have hzero : toString16 (parseInt16 ['0']) = hexDigits (0 : Fin 65536) := by decide
  have hfull := s.full
  have hsplit := s.splitDoubled_text
  unfold v6Prefix Ipv6.joined
  rw [hsplit]
  cases hafter : s.after with
  | none =>
    simp only [hafter, h] at hfull
    have hwritten : 8 - s.written = 0 := by
      simp only [Option.toList_none, List.length_nil] at hfull
      simp only [Ipv6Text.written, hafter, h, Option.getD_none, Option.toList_none, List.length_nil]
      omega
    have haddress : s.address.groups = s.before.map (·.value) := by
      simp [Ipv6Text.address, hafter, h, hwritten]
    have hbefore : groupsIn ([':'].intercalate (s.before.map (·.digits))) = s.before.map (·.digits) :=
      groupsIn_intercalate s.before_clean
    simp only [htail, List.take_succ_cons, List.take_nil, List.getElem?_cons_zero, Option.getD_some,
      hbefore, haddress]
    simp [groupsIn, List.map_take, hgroups]
  | some after =>
    have hwritten : s.written = s.before.length + after.length := by
      simp [Ipv6Text.written, hafter, h]
    have haddress : s.address.groups = s.before.map (·.value) ++
        List.replicate (8 - s.written) 0 ++ after.map (·.value) := by
      simp [Ipv6Text.address, hafter, h]
    have hbefore : groupsIn ([':'].intercalate (s.before.map (·.digits))) = s.before.map (·.digits) :=
      groupsIn_intercalate s.before_clean
    have hafter' : groupsIn ([':'].intercalate (after.map (·.digits))) = after.map (·.digits) :=
      groupsIn_intercalate (htail after ▸ s.tail_clean after)
    simp only [htail, List.take_succ_cons, List.take_zero, List.getElem?_cons_zero,
      List.getElem?_cons_succ, Option.getD_some, hbefore, hafter', haddress, List.length_map,
      hwritten, List.map_take, List.map_append, List.map_replicate, hgroups, hzero,
      Nat.sub_sub]

theorem ipBucket_quad (q : Ipv4) : ipBucket q.text = q.text :=
  if_pos (.inl q.colon_notMem_text)

theorem subnetBucket_quad (q : Ipv4) :
    subnetBucket q.text = ['.'].intercalate (q.parts 3) ++ ".0/24".toList := by
  rw [subnetBucket, if_pos q.colon_notMem_text, v4Prefix_text]

variable {s : Ipv6Text}

theorem ipBucket_plain (h : s.dotted = none) :
    ipBucket s.text = s.address.joined 4 ++ "::/64".toList := by
  have hdot : '.' ∉ s.text := by simp [s.dot_mem_text, h]
  rw [ipBucket, if_neg (not_or.mpr ⟨not_not.mpr s.colon_mem_text, hdot⟩), v6Prefix_text h]

theorem subnetBucket_plain (h : s.dotted = none) :
    subnetBucket s.text = s.address.joined 3 ++ "::/48".toList := by
  have hdot : '.' ∉ s.text := by simp [s.dot_mem_text, h]
  rw [subnetBucket, if_neg (not_not.mpr s.colon_mem_text), if_neg hdot, v6Prefix_text h]

/-- **A text with a dotted tail is its own bucket**, however it is spelled. -/
theorem ipBucket_dotted (h : s.dotted.isSome = true) : ipBucket s.text = s.text :=
  if_pos (.inr (s.dot_mem_text.mpr h))

theorem afterColon_text {q : Ipv4} (h : s.dotted = some q) : afterColon s.text = q.text := by
  obtain ⟨front, hfront⟩ := Ipv6Text.exists_text_eq h
  have hclean : ∀ c ∈ q.text.reverse, decide (c ≠ ':') = true := by
    intro c hc
    refine decide_eq_true fun hcolon => q.colon_notMem_text ?_
    exact hcolon ▸ List.mem_reverse.mp hc
  rw [afterColon, hfront, List.reverse_append, List.reverse_cons, List.append_assoc,
    List.singleton_append, List.takeWhile_append_of_pos hclean, List.takeWhile_cons_of_neg (by simp),
    List.append_nil, List.reverse_reverse]

theorem subnetBucket_dotted {q : Ipv4} (h : s.dotted = some q) :
    subnetBucket s.text =
      "::ffff:".toList ++ ['.'].intercalate (q.parts 3) ++ ".0/24".toList := by
  have hdot : '.' ∈ s.text := s.dot_mem_text.mpr (by simp [h])
  rw [subnetBucket, if_neg (not_not.mpr s.colon_mem_text), if_pos hdot, afterColon_text h,
    v4Prefix_text]

example : ipBucket "2001:0DB8:0001:0002::1".toList = "2001:db8:1:2::/64".toList ∧
    subnetBucket "::ffff:203.0.113.5".toList = "::ffff:203.0.113.0/24".toList := by decide

end Mapae.Shared
