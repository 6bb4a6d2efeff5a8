import Mapae.Shared.NetworkBuckets

/-!
# Network buckets and spellings

A bucket should tell addresses by what they are. It does so for IPv4 addresses and for IPv6
addresses without a dotted tail that stand for no IPv4 address. A text with a dotted tail is kept
as it was sent, and an IPv4-mapped address in hex falls into the /64 of all of them.

* `JudgedRightly`: what the buckets of two spellings should say
* `judgedRightly_iff`: the pairs of spellings for which they say it
* `mapped_in_hex`: two mapped addresses in one bucket, and one of them in two
-/

namespace Mapae.Shared

open Infra

/-! ## Spellings of addresses -/

inductive Address where
  | v4 (q : Ipv4)
  | v6 (a : Ipv6)
deriving DecidableEq

/-- A valid textual form of an address. -/
inductive Spelling where
  | v4 (q : Ipv4)
  | v6 (s : Ipv6Text)

namespace Spelling

def text : Spelling → List Char
  | v4 q => q.text
  | v6 s => s.text

def address : Spelling → Address
  | v4 q => .v4 q
  | v6 s => .v6 s.address

end Spelling

/-- The two spellings are counted together. -/
def ShareIp (s t : Spelling) : Prop := ipBucket s.text = ipBucket t.text

def ShareSubnet (s t : Spelling) : Prop := subnetBucket s.text = subnetBucket t.text

instance (s t : Spelling) : Decidable (ShareIp s t) := inferInstanceAs (Decidable (_ = _))

instance (s t : Spelling) : Decidable (ShareSubnet s t) := inferInstanceAs (Decidable (_ = _))

/-- What the buckets of two spellings should say. -/
structure JudgedRightly (s t : Spelling) : Prop where
  /-- One address has one bucket, however it is spelled. -/
  spelling : s.address = t.address → ShareIp s t ∧ ShareSubnet s t
  /-- IPv6 addresses are told by their /64 and their /48. -/
  plain : ∀ a b, s.address = .v6 a → t.address = .v6 b → ¬ a.IsMapped → ¬ b.IsMapped →
    (ShareIp s t ↔ a.groups.take 4 = b.groups.take 4) ∧
      (ShareSubnet s t ↔ a.groups.take 3 = b.groups.take 3)
  /-- IPv4-mapped addresses are told by themselves and their /24. -/
  mapped : ∀ a b, s.address = .v6 a → t.address = .v6 b → a.IsMapped → b.IsMapped →
    (ShareIp s t ↔ a = b) ∧ (ShareSubnet s t ↔ a.low.block = b.low.block)
  /-- IPv4 addresses likewise. -/
  quads : ∀ q r, s.address = .v4 q → t.address = .v4 r →
    (ShareIp s t ↔ q = r) ∧ (ShareSubnet s t ↔ q.block = r.block)
  /-- Who shares the narrow bucket shares the wide one. -/
  wider : ShareIp s t → ShareSubnet s t

/-- Of two IPv6 spellings that are both mapped, or both not, a dotted tail is kept as it was sent
and a mapped address in hex is no longer told from the others. -/
def WellSpelled : Spelling → Spelling → Prop
  | .v6 s, .v6 t =>
    if s.address.IsMapped ∧ t.address.IsMapped then
      match s.dotted.isSome, t.dotted.isSome with
      | false, false => s.address = t.address
      | true, true => s.text = t.text ∨ s.address ≠ t.address
      | _, _ => s.address.low.block ≠ t.address.low.block
    else if ¬ s.address.IsMapped ∧ ¬ t.address.IsMapped then
      match s.dotted.isSome, t.dotted.isSome with
      | false, false => True
      | true, true => s.text = t.text ∨
          s.address.groups.take 4 ≠ t.address.groups.take 4 ∧
            (s.address.low.block = t.address.low.block ↔
              s.address.groups.take 3 = t.address.groups.take 3)
      | _, _ => s.address.groups.take 3 ≠ t.address.groups.take 3
    else True
  | _, _ => True

/-! ## Who shares a bucket -/

theorem shareIp_quads {q r : Ipv4} : ShareIp (.v4 q) (.v4 r) ↔ q = r := by
  show ipBucket q.text = ipBucket r.text ↔ q = r
  rw [ipBucket_quad, ipBucket_quad]
  exact ⟨Ipv4.text_injective, congrArg _⟩

theorem shareSubnet_quads {q r : Ipv4} : ShareSubnet (.v4 q) (.v4 r) ↔ q.block = r.block := by
  show subnetBucket q.text = subnetBucket r.text ↔ q.block = r.block
  rw [subnetBucket_quad, subnetBucket_quad, List.append_left_inj]
  exact Ipv4.joined_inj

theorem not_shareIp_quad {q : Ipv4} {s : Ipv6Text} : ¬ ShareIp (.v4 q) (.v6 s) := by
  intro h
  have h : ipBucket q.text = ipBucket s.text := h
  rw [ipBucket_quad] at h
  cases hs : s.dotted.isSome with
  | true =>
    rw [ipBucket_dotted hs] at h
    exact q.colon_notMem_text (h ▸ s.colon_mem_text)
  | false =>
    rw [ipBucket_plain (by simpa using hs)] at h
    have hdot := h ▸ q.dot_mem_text
    simp [Ipv6.dot_notMem_joined] at hdot

variable {s t : Ipv6Text}

theorem shareIp_plain (hs : s.dotted = none) (ht : t.dotted = none) :
    ShareIp (.v6 s) (.v6 t) ↔ s.address.groups.take 4 = t.address.groups.take 4 := by
  show ipBucket s.text = ipBucket t.text ↔ _
  rw [ipBucket_plain hs, ipBucket_plain ht, List.append_left_inj, Ipv6.joined_inj]

theorem shareSubnet_plain (hs : s.dotted = none) (ht : t.dotted = none) :
    ShareSubnet (.v6 s) (.v6 t) ↔ s.address.groups.take 3 = t.address.groups.take 3 := by
  show subnetBucket s.text = subnetBucket t.text ↔ _
  rw [subnetBucket_plain hs, subnetBucket_plain ht, List.append_left_inj, Ipv6.joined_inj]

theorem shareIp_dotted (hs : s.dotted.isSome = true) (ht : t.dotted.isSome = true) :
    ShareIp (.v6 s) (.v6 t) ↔ s.text = t.text := by
  show ipBucket s.text = ipBucket t.text ↔ _
  rw [ipBucket_dotted hs, ipBucket_dotted ht]

theorem shareSubnet_dotted (hs : s.dotted.isSome = true) (ht : t.dotted.isSome = true) :
    ShareSubnet (.v6 s) (.v6 t) ↔ s.address.low.block = t.address.low.block := by
  obtain ⟨q, hq⟩ := Option.isSome_iff_exists.mp hs
  obtain ⟨r, hr⟩ := Option.isSome_iff_exists.mp ht
  show subnetBucket s.text = subnetBucket t.text ↔ _
  rw [subnetBucket_dotted hq, subnetBucket_dotted hr, List.append_left_inj, List.append_right_inj,
    Ipv6Text.low_address hq, Ipv6Text.low_address hr]
  exact Ipv4.joined_inj

/-- A dotted tail stays in the bucket, and no other bucket has a dot. -/
theorem not_shareIp (hs : s.dotted = none) (ht : t.dotted.isSome = true) :
    ¬ ShareIp (.v6 s) (.v6 t) := by
  intro h
  have h : ipBucket s.text = ipBucket t.text := h
  rw [ipBucket_plain hs, ipBucket_dotted ht] at h
  have hdot := h ▸ t.dot_mem_text.mpr ht
  simp [Ipv6.dot_notMem_joined] at hdot

theorem not_shareSubnet (hs : s.dotted = none) (ht : t.dotted.isSome = true) :
    ¬ ShareSubnet (.v6 s) (.v6 t) := by
  intro h
  obtain ⟨r, hr⟩ := Option.isSome_iff_exists.mp ht
  have h : subnetBucket s.text = subnetBucket t.text := h
  rw [subnetBucket_plain hs, subnetBucket_dotted hr] at h
  have hdot : '.' ∈ s.address.joined 3 ++ "::/48".toList := by
    rw [h]
    simp
  simp [Ipv6.dot_notMem_joined] at hdot

/-- Addresses that share a /64 share its /48. -/
theorem take_three {a b : Ipv6} (h : a.groups.take 4 = b.groups.take 4) :
    a.groups.take 3 = b.groups.take 3 := by
  have htake := congrArg (List.take 3) h
  simpa [List.take_take] using htake

theorem ShareIp.symm {s t : Spelling} (h : ShareIp s t) : ShareIp t s := Eq.symm h

theorem ShareSubnet.symm {s t : Spelling} (h : ShareSubnet s t) : ShareSubnet t s := Eq.symm h

/-- **Who shares the narrow bucket shares the wide one.** -/
theorem ShareIp.shareSubnet (h : ShareIp (.v6 s) (.v6 t)) : ShareSubnet (.v6 s) (.v6 t) := by
  cases hs : s.dotted with
  | none =>
    cases ht : t.dotted with
    | none =>
      rw [shareIp_plain hs ht] at h
      exact (shareSubnet_plain hs ht).mpr (take_three h)
    | some r => exact absurd h (not_shareIp hs (by simp [ht]))
  | some q =>
    cases ht : t.dotted with
    | none => exact absurd h.symm (not_shareIp ht (by simp [hs]))
    | some r =>
      have hs' : s.dotted.isSome = true := by simp [hs]
      have ht' : t.dotted.isSome = true := by simp [ht]
      rw [shareIp_dotted hs' ht'] at h
      rw [shareSubnet_dotted hs' ht', Ipv6Text.address_eq h]

/-! ## When the buckets judge rightly -/

theorem JudgedRightly.of_v6
    (hspelling : s.address = t.address → ShareIp (.v6 s) (.v6 t) ∧ ShareSubnet (.v6 s) (.v6 t))
    (hplain : ¬ s.address.IsMapped → ¬ t.address.IsMapped →
      (ShareIp (.v6 s) (.v6 t) ↔ s.address.groups.take 4 = t.address.groups.take 4) ∧
        (ShareSubnet (.v6 s) (.v6 t) ↔ s.address.groups.take 3 = t.address.groups.take 3))
    (hmapped : s.address.IsMapped → t.address.IsMapped →
      (ShareIp (.v6 s) (.v6 t) ↔ s.address = t.address) ∧
        (ShareSubnet (.v6 s) (.v6 t) ↔ s.address.low.block = t.address.low.block)) :
    JudgedRightly (.v6 s) (.v6 t) where
  spelling h := hspelling (Address.v6.inj h)
  plain := by
    rintro _ _ ⟨⟩ ⟨⟩ hs ht
    exact hplain hs ht
  mapped := by
    rintro _ _ ⟨⟩ ⟨⟩ hs ht
    exact hmapped hs ht
  quads := by
    rintro _ _ ⟨⟩
  wider := ShareIp.shareSubnet

theorem judgedRightly_mapped (hs : s.address.IsMapped) (ht : t.address.IsMapped) :
    JudgedRightly (.v6 s) (.v6 t) ↔
      (ShareIp (.v6 s) (.v6 t) ↔ s.address = t.address) ∧
        (ShareSubnet (.v6 s) (.v6 t) ↔ s.address.low.block = t.address.low.block) := by
  constructor
  · intro h
    exact h.mapped _ _ rfl rfl hs ht
  · rintro ⟨hip, hsubnet⟩
    refine .of_v6 (fun h => ?_) (fun hplain => absurd hs hplain) (fun _ _ => ⟨hip, hsubnet⟩)
    exact ⟨hip.mpr h, hsubnet.mpr (by rw [h])⟩

theorem judgedRightly_neither (hs : ¬ s.address.IsMapped) (ht : ¬ t.address.IsMapped) :
    JudgedRightly (.v6 s) (.v6 t) ↔
      (ShareIp (.v6 s) (.v6 t) ↔ s.address.groups.take 4 = t.address.groups.take 4) ∧
        (ShareSubnet (.v6 s) (.v6 t) ↔ s.address.groups.take 3 = t.address.groups.take 3) := by
  constructor
  · intro h
    exact h.plain _ _ rfl rfl hs ht
  · rintro ⟨hip, hsubnet⟩
    refine .of_v6 (fun h => ?_) (fun _ _ => ⟨hip, hsubnet⟩) (fun hmapped => absurd hmapped hs)
    exact ⟨hip.mpr (by rw [h]), hsubnet.mpr (by rw [h])⟩

/-- Nothing is asked of a mapped address and one that is not. -/
theorem judgedRightly_mixed (h : ¬ (s.address.IsMapped ↔ t.address.IsMapped)) :
    JudgedRightly (.v6 s) (.v6 t) := by
  refine .of_v6 (fun heq => ?_) (fun hs ht => ?_) (fun hs ht => ?_)
  · exact absurd (by rw [heq]) h
  · exact absurd (iff_of_false hs ht) h
  · exact absurd (iff_of_true hs ht) h

theorem wellSpelled_mapped (hs : s.address.IsMapped) (ht : t.address.IsMapped) :
    ((ShareIp (.v6 s) (.v6 t) ↔ s.address = t.address) ∧
        (ShareSubnet (.v6 s) (.v6 t) ↔ s.address.low.block = t.address.low.block)) ↔
      WellSpelled (.v6 s) (.v6 t) := by
  -- the first four groups of a mapped address are zero
  have htake : s.address.groups.take 4 = t.address.groups.take 4 := by
    have := congrArg (List.take 4) (hs.trans ht.symm)
    simpa [List.take_take] using this
  simp only [WellSpelled, if_pos (And.intro hs ht)]
  cases hdotted : s.dotted with
  | none =>
    cases hdotted' : t.dotted with
    | none =>
      rw [shareIp_plain hdotted hdotted', shareSubnet_plain hdotted hdotted']
      simp only [htake, take_three htake, true_iff, Option.isSome_none]
      exact and_iff_left_of_imp fun h => by rw [h]
    | some r =>
      have hsome : t.dotted.isSome = true := by simp [hdotted']
      simp only [not_shareIp hdotted hsome, not_shareSubnet hdotted hsome, false_iff,
        Option.isSome_none, Option.isSome_some]
      exact and_iff_right_of_imp fun hblock h => hblock (by rw [h])
  | some q =>
    have hsome : s.dotted.isSome = true := by simp [hdotted]
    cases hdotted' : t.dotted with
    | none =>
      have hip : ¬ ShareIp (.v6 s) (.v6 t) := fun h => not_shareIp hdotted' hsome h.symm
      have hsubnet : ¬ ShareSubnet (.v6 s) (.v6 t) := fun h => not_shareSubnet hdotted' hsome h.symm
      simp only [hip, hsubnet, false_iff, Option.isSome_none, Option.isSome_some]
      exact and_iff_right_of_imp fun hblock h => hblock (by rw [h])
    | some r =>
      have hsome' : t.dotted.isSome = true := by simp [hdotted']
      rw [shareIp_dotted hsome hsome', shareSubnet_dotted hsome hsome']
      simp only [Option.isSome_some, and_true]
      constructor
      · intro h
        by_cases htext : s.text = t.text
        · exact .inl htext
        · exact .inr fun haddress => htext (h.mpr haddress)
      · rintro (htext | haddress)
        · exact iff_of_true htext (Ipv6Text.address_eq htext)
        · exact iff_of_false (fun htext => haddress (Ipv6Text.address_eq htext)) haddress

theorem wellSpelled_neither (hs : ¬ s.address.IsMapped) (ht : ¬ t.address.IsMapped) :
    ((ShareIp (.v6 s) (.v6 t) ↔ s.address.groups.take 4 = t.address.groups.take 4) ∧
        (ShareSubnet (.v6 s) (.v6 t) ↔ s.address.groups.take 3 = t.address.groups.take 3)) ↔
      WellSpelled (.v6 s) (.v6 t) := by
  simp only [WellSpelled, if_neg (fun h : _ ∧ _ => hs h.1), if_pos (And.intro hs ht)]
  cases hdotted : s.dotted with
  | none =>
    cases hdotted' : t.dotted with
    | none =>
      rw [shareIp_plain hdotted hdotted', shareSubnet_plain hdotted hdotted']
      simp only [Option.isSome_none, and_self]
    | some r =>
      have hsome : t.dotted.isSome = true := by simp [hdotted']
      simp only [not_shareIp hdotted hsome, not_shareSubnet hdotted hsome, false_iff,
        Option.isSome_none, Option.isSome_some]
      exact and_iff_right_of_imp fun hsite h => hsite (take_three h)
  | some q =>
    have hsome : s.dotted.isSome = true := by simp [hdotted]
    cases hdotted' : t.dotted with
    | none =>
      have hip : ¬ ShareIp (.v6 s) (.v6 t) := fun h => not_shareIp hdotted' hsome h.symm
      have hsubnet : ¬ ShareSubnet (.v6 s) (.v6 t) := fun h => not_shareSubnet hdotted' hsome h.symm
      simp only [hip, hsubnet, false_iff, Option.isSome_none, Option.isSome_some]
      exact and_iff_right_of_imp fun hsite h => hsite (take_three h)
    | some r =>
      have hsome' : t.dotted.isSome = true := by simp [hdotted']
      rw [shareIp_dotted hsome hsome', shareSubnet_dotted hsome hsome']
      simp only [Option.isSome_some]
      constructor
      · rintro ⟨hip, hsubnet⟩
        by_cases htext : s.text = t.text
        · exact .inl htext
        · exact .inr ⟨fun h => htext (hip.mpr h), hsubnet⟩
      · rintro (htext | ⟨hnetwork, hsubnet⟩)
        · have haddress := Ipv6Text.address_eq htext
          exact ⟨iff_of_true htext (by rw [haddress]), iff_of_true (by rw [haddress]) (by rw [haddress])⟩
        · exact ⟨iff_of_false (fun htext => hnetwork (by rw [Ipv6Text.address_eq htext])) hnetwork,
            hsubnet⟩

/-- **The buckets judge a pair of spellings rightly exactly where it is well spelled.** -/
theorem judgedRightly_iff (s t : Spelling) : JudgedRightly s t ↔ WellSpelled s t := by
  cases s with
  | v4 q =>
    cases t with
    | v4 r =>
      refine iff_of_true ⟨fun h => ?_, ?_, ?_, ?_, fun h => ?_⟩ trivial
      · obtain rfl : q = r := Address.v4.inj h
        exact ⟨rfl, rfl⟩
      · rintro _ _ h
        cases h
      · rintro _ _ h
        cases h
      · intro q' r' hq hr
        obtain rfl : q = q' := Address.v4.inj hq
        obtain rfl : r = r' := Address.v4.inj hr
        exact ⟨shareIp_quads, shareSubnet_quads⟩
      · rw [shareSubnet_quads, shareIp_quads.mp h]
    | v6 t =>
      refine iff_of_true ⟨fun h => ?_, ?_, ?_, ?_, fun h => absurd h not_shareIp_quad⟩ trivial
      · cases h
      · rintro _ _ h
        cases h
      · rintro _ _ h
        cases h
      · rintro _ _ - h
        cases h
  | v6 s =>
    cases t with
    | v4 r =>
      refine iff_of_true ⟨fun h => ?_, ?_, ?_, ?_, fun h => absurd h.symm not_shareIp_quad⟩ trivial
      · cases h
      · rintro _ _ - h
        cases h
      · rintro _ _ - h
        cases h
      · rintro _ _ h
        cases h
    | v6 t =>
      by_cases hs : s.address.IsMapped
      · by_cases ht : t.address.IsMapped
        · rw [judgedRightly_mapped hs ht, wellSpelled_mapped hs ht]
        · refine iff_of_true (judgedRightly_mixed fun h => ht (h.mp hs)) ?_
          simp [WellSpelled, hs, ht]
      · by_cases ht : t.address.IsMapped
        · refine iff_of_true (judgedRightly_mixed fun h => hs (h.mpr ht)) ?_
          simp [WellSpelled, hs, ht]
        · rw [judgedRightly_neither hs ht, wellSpelled_neither hs ht]

/-! ## Mapped addresses in hex -/

/-- `::ffff:102:304`. -/
def mappedInHex : Ipv6Text where
  before := []
  after := some [⟨"ffff".toList, List.all_eq_true.mp (by decide), by decide⟩,
    ⟨"102".toList, List.all_eq_true.mp (by decide), by decide⟩,
    ⟨"304".toList, List.all_eq_true.mp (by decide), by decide⟩]
  dotted := none
  full := by decide

/-- `::ffff:1.2.3.4`. -/
def mappedDotted : Ipv6Text where
  before := []
  after := some [⟨"ffff".toList, List.all_eq_true.mp (by decide), by decide⟩]
  dotted := some ⟨1, 2, 3, 4⟩
  full := by decide

/-- One address has two buckets, of which the first is that of every mapped address. -/
theorem mapped_in_hex :
    (Spelling.v6 mappedInHex).address = (Spelling.v6 mappedDotted).address ∧
      ipBucket mappedInHex.text = "0:0:0:0::/64".toList ∧
      ipBucket mappedDotted.text = "::ffff:1.2.3.4".toList ∧
      ¬ JudgedRightly (.v6 mappedInHex) (.v6 mappedDotted) := by
  have haddress : (Spelling.v6 mappedInHex).address = (Spelling.v6 mappedDotted).address := by decide
  refine ⟨haddress, by decide, by decide, fun h => ?_⟩
  exact absurd (h.spelling haddress).1 (by decide)

end Mapae.Shared
