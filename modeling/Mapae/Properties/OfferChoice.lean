import Mapae.Delegation.OfferSelection
import Mapae.Delegation.UserOperation

/-!
# What choosing an offer ends with

For every 402 document of any shape, the choice ends with the first payable offer or with a failure
where no offer is payable, unless the document makes it throw. There are two such documents:

* one whose version is not 2 and cannot be printed
* one with an offer that advertises `null` as its manager, before any payable offer
-/

namespace Mapae.Delegation

open Mapae.Infra Mapae.Shared

variable {viem : Viem}

/-- The offers of a document of version 2. -/
def offersOf (body : Json) : List Json :=
  if isX402Version (body.field "x402Version") then
    match body.field "accepts" with
    | some (.array accepts) => accepts
    | _ => []
  else []

/-- What the choice should end with. -/
inductive RightChoice (config : OfferConfig viem) (body : Json) : OfferSelection → Prop where
  | accepted {before after : List Json} {offer : Json} : offersOf body = before ++ offer :: after →
      (∀ candidate ∈ before, ¬ Payable config candidate) → Payable config offer →
      RightChoice config body (.accepted offer)
  | failed {code : OfferFailureCode} {detail : String} :
      (∀ candidate ∈ offersOf body, ¬ Payable config candidate) →
      RightChoice config body (.failed code detail)

/-- The document's version can be printed. -/
def PrintableVersion (body : Json) : Prop :=
  (body.field "x402Version").any Json.unprintable = false

/-- A payable offer comes before every offer that advertises `null` as its manager. -/
def NullsAfterPayable (config : OfferConfig viem) (body : Json) : Prop :=
  ∀ before offer after, offersOf body = before ++ offer :: after → NullManaged config offer →
    ∃ candidate ∈ before, Payable config candidate

/-- A payable offer has no null manager. -/
theorem Payable.not_nullManaged {config : OfferConfig viem} {offer : Json}
    (h : Payable config offer) : ¬ NullManaged config offer := fun hnull => by
  rcases h.agrees with hnone | hagrees
  · rw [hnull.null_eq] at hnone
    cases hnone
  · rw [hnull.null_eq] at hagrees
    cases hagrees

theorem printableVersion_of_isX402Version {body : Json}
    (h : isX402Version (body.field "x402Version") = true) : PrintableVersion body := by
  unfold PrintableVersion
  cases hversion : body.field "x402Version" with
  | none => rfl
  | some version =>
    rw [hversion] at h
    cases version with
    | array items => cases h
    | object members => cases h
    | _ => rfl

/-- The first payable offer is before any later one. -/
theorem mem_of_append_eq {before after before' after' : List Json} {a b : Json}
    (h : before ++ a :: after = before' ++ b :: after') (hb : b ∉ before) (hab : b ≠ a) :
    a ∈ before' := by
  rcases List.append_eq_append_iff.mp h with ⟨skipped, hskipped, heq⟩ | ⟨skipped, hskipped, heq⟩
  · cases skipped with
    | nil => exact absurd (List.cons.inj heq).1.symm hab
    | cons c skipped =>
      obtain ⟨rfl, -⟩ := List.cons.inj heq
      simp [hskipped]
  · cases skipped with
    | nil => exact absurd (List.cons.inj heq).1 hab
    | cons c skipped =>
      obtain ⟨rfl, -⟩ := List.cons.inj heq
      exact absurd (by simp [hskipped]) hb

/-- **The loop returns when no null manager comes first**, and then what it returns is right. -/
theorem Selected.right_iff {config : OfferConfig viem} {body : Json}
    {outcome : Except Escape (Option OfferSelection)}
    (h : Selected config (offersOf body) outcome) (otherwise : OfferFailureCode × String) :
    (∃ onRail, outcome = .ok onRail ∧
      RightChoice config body (onRail.getD (.failed otherwise.1 otherwise.2))) ↔
      NullsAfterPayable config body := by
  cases h with
  | payable heq hbefore hoffer =>
    refine ⟨fun _ before' nulled after' heq' hnull => ?_, fun _ => ⟨_, rfl, ?_⟩⟩
    · refine ⟨_, mem_of_append_eq (heq.symm.trans heq') (fun hmem => (hbefore _ hmem).2 hnull) ?_,
        hoffer⟩
      rintro rfl
      exact hoffer.not_nullManaged hnull
    · exact .accepted heq (fun candidate hmem => (hbefore candidate hmem).1) hoffer
  | @refused onRail hall hfailed =>
    refine ⟨fun _ before' nulled after' heq' hnull => ?_, fun _ => ⟨_, rfl, ?_⟩⟩
    · exact absurd hnull (hall nulled (by simp [heq'])).2
    · have hnone : ∀ candidate ∈ offersOf body, ¬ Payable config candidate :=
        fun candidate hmem => (hall candidate hmem).1
      rcases onRail with _ | ⟨offer⟩ | _
      · exact .failed hnone
      · exact absurd rfl (hfailed offer)
      · exact .failed hnone
  | escaped heq hbefore hoffer =>
    refine ⟨nofun, fun hafter => ?_⟩
    obtain ⟨candidate, hmem, hpayable⟩ := hafter _ _ _ heq hoffer
    exact absurd hpayable (hbefore candidate hmem).1

/-- Where there is no offer, failing is right, and no null manager is in the way. -/
theorem right_of_no_offers (config : OfferConfig viem) {body : Json} (h : offersOf body = []) :
    (∀ code detail, RightChoice config body (.failed code detail)) ∧ NullsAfterPayable config body := by
  refine ⟨fun code detail => .failed (by simp [h]), fun before nulled after heq => ?_⟩
  rw [h] at heq
  exact absurd heq (by simp)

theorem selectOffer_right_iff (texts : FailureTexts) (config : OfferConfig viem) {body : Json}
    (hversion : isX402Version (body.field "x402Version") = true) :
    (∃ selection, selectOffer texts config (body.field "accepts") = .ok selection ∧
      RightChoice config body selection) ↔ NullsAfterPayable config body := by
  have hoffers : offersOf body = match body.field "accepts" with
    | some (.array accepts) => accepts
    | _ => [] := if_pos hversion
  unfold selectOffer
  split at hoffers
  · next accepts haccepts =>
    rw [haccepts]
    cases accepts with
    | nil =>
      obtain ⟨hright, hafter⟩ := right_of_no_offers config hoffers
      exact ⟨fun _ => hafter, fun _ => ⟨_, rfl, hright _ _⟩⟩
    | cons candidate rest =>
      have hselected : Selected config (candidate :: rest)
          (selectFrom texts config none (candidate :: rest)) := selectFrom_cases texts config nofun
      rw [← hoffers] at hselected
      have hiff := hselected.right_iff (.SELLER_OFFER_INVALID,
        s!"no exact ERC-7710 offer on GIWA among {rest.length + 1} accepts")
      rw [hoffers] at hiff
      constructor
      · rintro ⟨selection, hselection, hright⟩
        obtain ⟨onRail, hloop, heq⟩ := bind_eq_ok.mp hselection
        obtain rfl := pure_eq_ok.mp heq
        exact hiff.mp ⟨onRail, hloop, hright⟩
      · intro hafter
        obtain ⟨onRail, hloop, hright⟩ := hiff.mpr hafter
        exact ⟨_, bind_eq_ok.mpr ⟨onRail, hloop, rfl⟩, hright⟩
  · next haccepts =>
    obtain ⟨hright, hafter⟩ := right_of_no_offers config hoffers
    refine ⟨fun _ => hafter, fun _ => ?_⟩
    split
    · next candidate rest heq => exact absurd heq (haccepts _)
    · exact ⟨_, rfl, hright _ _⟩

/-- **Choosing an offer returns, and returns the right choice**, exactly when the version is
printable and a payable offer comes before every null manager. -/
theorem offer_chosen_iff (texts : FailureTexts) (config : OfferConfig viem) (body : Json) :
    (∃ selection, chooseOffer texts config body = .ok selection ∧ RightChoice config body selection) ↔
      PrintableVersion body ∧ NullsAfterPayable config body := by
  cases hversion : isX402Version (body.field "x402Version") with
  | false =>
    simp only [chooseOffer, hversion, if_true]
    have hoffers : offersOf body = [] := by simp [offersOf, hversion]
    obtain ⟨hright, hafter⟩ := right_of_no_offers config hoffers
    cases hobject : body.isObject with
    | false =>
      have hprintable : PrintableVersion body := by
        cases body with
        | object members => cases hobject
        | _ => rfl
      exact ⟨fun _ => ⟨hprintable, hafter⟩, fun _ => ⟨_, rfl, hright _ _⟩⟩
    | true =>
      unfold PrintableVersion
      cases hprintable : (body.field "x402Version").any Json.unprintable with
      | true =>
        constructor
        · rintro ⟨_, hthrows, -⟩
          cases hthrows
        · rintro ⟨hprints, -⟩
          cases hprints
      | false => exact ⟨fun _ => ⟨rfl, hafter⟩, fun _ => ⟨_, rfl, hright _ _⟩⟩
  | true =>
    have hobject : body.isObject = true := by
      cases body with
      | object members => rfl
      | _ => cases hversion
    simp only [chooseOffer, hversion, hobject, printableVersion_of_isX402Version hversion, true_and,
      Bool.true_eq_false, if_false]
    exact selectOffer_right_iff texts config hversion

/-! ## An offer with a null manager -/

def clientAddress : String := "0x00000000000000000000000000000000000000aa"

def clientConfig : OfferConfig Viem.plain := ⟨[clientAddress], clientAddress, by decide⟩

def clientTexts : FailureTexts := ⟨fun _ => "", fun _ => ""⟩

def nullManagedOffer : Json :=
  .object
    [("scheme", .string "exact"), ("network", .string GIWA_SEPOLIA_CAIP2),
      ("amount", .string "1000"), ("payTo", .string clientAddress),
      ("maxTimeoutSeconds", .number 60 0), ("asset", .string MOCK_USDC_ADDRESS),
      ("extra", .object
        [("assetTransferMethod", .string "erc7710"), ("delegationManager", .null),
          ("facilitatorAddresses", .array [.string clientAddress])])]

def nullManagedDocument : Json :=
  .object [("x402Version", .number 2 0), ("accepts", .array [nullManagedOffer])]

/-- `getAddress(null)` escapes. -/
theorem null_manager_escapes :
    ¬ ∃ selection, chooseOffer clientTexts clientConfig nullManagedDocument = .ok selection ∧
      RightChoice clientConfig nullManagedDocument selection := by
  have hescapes : chooseOffer clientTexts clientConfig nullManagedDocument
      = .error .invalidAddress := by rfl
  rintro ⟨selection, hchosen, -⟩
  rw [hescapes] at hchosen
  cases hchosen

end Mapae.Delegation
