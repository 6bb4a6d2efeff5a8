import Mapae.Arcade.BotAnswers
import Mapae.Arcade.ShopOutcome

/-!
# The bots are legal, and a game ends

* `movesLeft` bounds the moves that are left, whoever plays, and every move uses one up
* `Fair` is what holds while the owner plays a bot: what is on the table can be carried out
* `Fair.seller` and `Fair.buyer`: the answers of the bots are taken
* `playOut_finishes`: so the bots come to an end
-/

namespace Mapae.Arcade

open Mapae.Infra Mapae.Guardians

variable {s s' s₀ : ShopState}

/-! ## Moves that are left -/

/-- The moves of the customers to come, of whom the last one may be patient for six rounds. -/
def movesAfter : Fin 3 → Int
  | 0 => 24
  | 1 => 14
  | 2 => 0

/-- The most moves that are left. -/
def movesLeft (s : ShopState) : Int :=
  match s.phase with
  | .buyer => 2 * (s.patience - s.rounds) + 2 + movesAfter s.customer
  | .seller => 2 * (s.patience - s.rounds) + 1 + movesAfter s.customer
  | .transition => 1 + movesAfter s.customer
  | .finished => 0

theorem patience_le (h : ∀ aptitudes, s.aptitudes = some aptitudes → aptitudes.shop ≤ 6) :
    s.patience ≤ if s.customer = 2 then 6 else 4 := by
  have hshop : (s.aptitudes.map fun aptitudes => (aptitudes.shop : Int)).getD 5 ≤ 6 := by
    cases haptitudes : s.aptitudes with
    | none => decide
    | some aptitudes => exact Int.ofNat_le.mpr (h aptitudes haptitudes)
  unfold ShopState.patience
  dsimp only
  generalize (s.aptitudes.map fun aptitudes => (aptitudes.shop : Int)).getD 5 = shop at hshop ⊢
  by_cases hlast : s.customer = 2
  · repeat' split
    all_goals omega
  · have hnone : ¬ (s.config.role = .seller ∧ s.customer = 2) := fun hboth => hlast hboth.2
    rw [if_neg hnone, if_neg hlast]
    split <;> omega

theorem movesAfter_nonneg (customer : Fin 3) : 0 ≤ movesAfter customer := by
  revert customer
  decide

/-- A game that is not finished has moves left. -/
theorem movesLeft_pos (h : Meeting s) (hphase : s.phase ≠ .finished) : 1 ≤ movesLeft s := by
  have hafter := movesAfter_nonneg s.customer
  have hrounds := h.rounds
  unfold movesLeft
  cases hs : s.phase with
  | buyer => dsimp only; omega
  | seller => dsimp only; omega
  | transition => dsimp only; omega
  | finished => exact absurd hs hphase

/-- **A seller's move** uses one up. -/
theorem movesLeft_applySellerAction {raw : Json} (h : Meeting s) (hs' : applySellerAction s raw = .ok s') :
    movesLeft s' + 1 ≤ movesLeft s := by
  obtain ⟨action, offer, hphase, -, -, rfl⟩ := applySellerAction_eq_ok hs'
  have hturn := h.turn hphase
  have hleft : movesLeft s = 2 * (s.patience - s.rounds) + 1 + movesAfter s.customer := by
    unfold movesLeft
    rw [hphase]
  rw [hleft]
  cases action.closes with
  | false =>
    show 2 * (s.patience - (s.rounds + 1)) + 2 + movesAfter s.customer + 1 ≤ _
    omega
  | true =>
    show 1 + movesAfter s.customer + 1 ≤ _
    omega

/-- **A buyer's move** uses one up. -/
theorem movesLeft_applyBuyerAction {raw : Json} (h : Meeting s) (hs' : applyBuyerAction s raw = .ok s') :
    movesLeft s' + 1 ≤ movesLeft s := by
  obtain ⟨hphase, wants, -, hs'⟩ := applyBuyerAction_eq_ok hs'
  have hrounds := h.rounds
  have hleft : movesLeft s = 2 * (s.patience - s.rounds) + 2 + movesAfter s.customer := by
    unfold movesLeft
    rw [hphase]
  have hpatience : (s.setBuyer (s.buyer.disclose wants)).patience = s.patience := patience_setBuyer rfl
  -- what is left when the meeting goes on, and when it is over
  have hover : 1 + movesAfter s.customer + 1 ≤ movesLeft s := by omega
  have hon : 2 * (s.patience - s.rounds) + 1 + movesAfter s.customer + 1 ≤ movesLeft s := by omega
  obtain rfl | ⟨offer, -, -, -, -, rfl⟩ | ⟨reason, rfl⟩ := hs'
  · unfold ShopState.blocked
    cases (s.setBuyer (s.buyer.disclose wants)).lastRound with
    | true => exact hover
    | false =>
      show 2 * ((s.setBuyer (s.buyer.disclose wants)).patience - s.rounds) + 1 + movesAfter s.customer + 1 ≤ _
      rw [hpatience]
      exact hon
  · exact hover
  · unfold ShopState.declined
    dsimp only
    split
    · exact hover
    · show 2 * ((s.setBuyer (s.buyer.disclose wants)).patience - s.rounds) + 1 + movesAfter s.customer + 1 ≤ _
      rw [hpatience]
      exact hon

theorem movesLeft_greet (s : ShopState) : movesLeft s.greet = movesLeft s := by
  unfold ShopState.greet
  dsimp only
  repeat' split
  all_goals rfl

/-- **The next customer** uses one up. -/
theorem movesLeft_nextShopCustomer (h : ∀ aptitudes, s.aptitudes = some aptitudes → aptitudes.shop ≤ 6)
    (hs' : nextShopCustomer s = .ok s') : movesLeft s' + 1 ≤ movesLeft s := by
  simp only [nextShopCustomer, bind_eq_ok, throwIf_eq_ok] at hs'
  obtain ⟨-, hphase, hs'⟩ := hs'
  have hleft : movesLeft s = 1 + movesAfter s.customer := by
    unfold movesLeft
    rw [not_not.mp hphase]
  rw [hleft]
  split at hs'
  · next hlast =>
    obtain rfl := pure_eq_ok.mp hs'
    show (0 : Int) + 1 ≤ 1 + movesAfter s.customer
    rw [hlast]
    decide
  · next hlast =>
    obtain rfl := pure_eq_ok.mp hs'
    rw [movesLeft_greet]
    have hnext : ∀ (customer : Fin 3) (patience : Int), customer ≠ 2 →
        patience ≤ (if customer + 1 = 2 then 6 else 4) →
          2 * (patience - 0) + 2 + movesAfter (customer + 1) + 1 ≤ 1 + movesAfter customer := by
      intro customer patience hne hle
      have hcustomers : ∀ customer : Fin 3, customer = 0 ∨ customer = 1 ∨ customer = 2 := by decide
      obtain rfl | rfl | rfl := hcustomers customer
      · change patience ≤ 4 at hle
        change 2 * (patience - 0) + 2 + 14 + 1 ≤ 1 + 24
        omega
      · change patience ≤ 6 at hle
        change 2 * (patience - 0) + 2 + 0 + 1 ≤ 1 + 14
        omega
      · exact absurd rfl hne
    exact hnext s.customer _ hlast (patience_le h)

/-! ## What is on the table -/

/-- What the bots have to do with: an offer can be carried out, and a bid is for something that is wanted. -/
structure Fair (s s₀ : ShopState) : Prop where
  sound : s.Sound s₀
  speech : s.Speech
  stocked : ∀ offer, s.offer = some offer → ∀ item ∈ offer.items, item.quantity ≤ s.inventory item.id
  wanted : s.counterOffer ≠ none → s.sellerObservation.wanted ≠ []

/-- What a seller offers is in stock. -/
theorem stocked_of_applySellerAction {raw : Json} (hs' : applySellerAction s raw = .ok s') :
    ∀ offer, s'.offer = some offer → ∀ item ∈ offer.items, item.quantity ≤ s'.inventory item.id := by
  simp only [applySellerAction, bind_eq_ok, throwIf_eq_ok, pure_eq_ok] at hs'
  obtain ⟨-, -, action, -, offer, -, -, hstock, rfl⟩ := hs'
  rintro made rfl item hitem
  refine not_lt.mp fun hlt => hstock ?_
  exact List.any_eq_true.mpr ⟨item, hitem, decide_eq_true hlt⟩

theorem Fair.applySellerAction {raw : Json} (h : Fair s s₀) (hs' : Arcade.applySellerAction s raw = .ok s') :
    Fair s' s₀ := by
  refine ⟨h.sound.applySellerAction hs', h.speech.applySellerAction h.sound hs', stocked_of_applySellerAction hs',
    fun hcounter => ?_⟩
  obtain ⟨action, offer, -, -, -, rfl⟩ := applySellerAction_eq_ok hs'
  exact absurd rfl hcounter

/-- A buyer takes the offer off the table, and a bid must be wanted. -/
theorem Fair.applyBuyerAction {raw : Json} (h : Fair s s₀) (hs' : Arcade.applyBuyerAction s raw = .ok s')
    (hwanted : s'.counterOffer ≠ none → s'.sellerObservation.wanted ≠ []) : Fair s' s₀ := by
  refine ⟨h.sound.applyBuyerAction hs', h.speech.applyBuyerAction h.sound hs', fun offer hoffer => ?_, hwanted⟩
  obtain ⟨-, wants, -, rfl | ⟨_, -, -, -, -, rfl⟩ | ⟨reason, rfl⟩⟩ := applyBuyerAction_eq_ok hs'
  all_goals cases hoffer

/-- A meeting begins with nothing on the table. -/
theorem nextShopCustomer_eq_ok (hs' : nextShopCustomer s = .ok s') :
    s' = { s with phase := .finished } ∨ (s'.offer = none ∧ s'.counterOffer = none) := by
  simp only [nextShopCustomer, bind_eq_ok, throwIf_eq_ok] at hs'
  obtain ⟨-, -, hs'⟩ := hs'
  split at hs'
  · exact .inl (pure_eq_ok.mp hs').symm
  · obtain rfl := pure_eq_ok.mp hs'
    refine .inr ?_
    unfold ShopState.greet
    dsimp only
    repeat' split
    all_goals exact ⟨rfl, rfl⟩

theorem Fair.nextShopCustomer (h : Fair s s₀) (hs' : Arcade.nextShopCustomer s = .ok s') : Fair s' s₀ := by
  refine ⟨h.sound.nextShopCustomer hs', h.speech.nextShopCustomer hs', fun offer hoffer => ?_, fun hcounter => ?_⟩
  · obtain rfl | ⟨hnone, -⟩ := nextShopCustomer_eq_ok hs'
    · exact h.stocked offer hoffer
    · rw [hnone] at hoffer
      cases hoffer
  · obtain rfl | ⟨-, hnone⟩ := nextShopCustomer_eq_ok hs'
    · exact h.wanted hcounter
    · exact absurd hnone hcounter

/-! ## The seller's bot -/

/-- A seller whose answer can be read, and made, is taken. -/
theorem exists_applySellerAction {raw : Json} {action : SellerAction} {offer : Option Offer}
    (hphase : s.phase = .seller) (hparse : parseSellerAction raw = .ok action)
    (hoffer : offerOf s action = .ok offer)
    (hstock : ∀ made, offer = some made → ∀ item ∈ made.items, item.quantity ≤ s.inventory item.id) :
    ∃ s', applySellerAction s raw = .ok s' := by
  have hany : ¬ (offer.any fun offer => offer.items.any fun item => s.inventory item.id < item.quantity) = true := by
    intro hany
    obtain ⟨made, hmade, hitems⟩ := (Option.any_eq_true _ _).mp hany
    obtain ⟨item, hitem, hlt⟩ := List.any_eq_true.mp hitems
    exact absurd (of_decide_eq_true hlt) (not_lt.mpr (hstock made hmade item hitem))
  refine ⟨_, bind_eq_ok.mpr ⟨⟨⟩, throwIf_eq_ok.mpr (not_not.mpr hphase), bind_eq_ok.mpr ⟨action, hparse,
    bind_eq_ok.mpr ⟨offer, hoffer, bind_eq_ok.mpr ⟨⟨⟩, throwIf_eq_ok.mpr hany, rfl⟩⟩⟩⟩⟩

namespace SellerObservation

variable {o : SellerObservation} {locale : Guardians.Locale} {choice : ShopOfferChoice}

/-- A tactic that is offered in one language is offered in the other. -/
theorem exists_choice (hmem : choice ∈ o.offerChoices locale) (havailable : choice.available = true) :
    ∃ choice' ∈ o.offerChoices .en, choice'.tactic = choice.tactic ∧ choice'.available = true := by
  unfold offerChoices at hmem ⊢
  split at hmem
  · exact nomatch hmem
  · next hwanted =>
    rw [if_neg hwanted]
    obtain rfl | hmem := List.mem_cons.mp hmem
    · exact ⟨_, List.mem_cons_self, rfl, havailable⟩
    · obtain rfl | hmem := List.mem_cons.mp hmem
      · exact ⟨_, List.mem_cons_of_mem _ List.mem_cons_self, rfl, havailable⟩
      · obtain rfl := List.mem_singleton.mp hmem
        exact ⟨_, List.mem_cons_of_mem _ (List.mem_cons_of_mem _ List.mem_cons_self), rfl, havailable⟩

/-- What is available is in stock. -/
theorem stocked_of_available (hmem : choice ∈ o.offerChoices locale) (havailable : choice.available = true) :
    ∀ item ∈ choice.items, item.quantity ≤ o.inventory item.id := by
  have hall : choice.items.all (fun item => item.quantity ≤ o.inventory item.id) = true := by
    unfold offerChoices at hmem
    split at hmem
    · exact nomatch hmem
    · obtain rfl | hmem := List.mem_cons.mp hmem
      · exact havailable
      · obtain rfl | hmem := List.mem_cons.mp hmem
        · exact havailable
        · obtain rfl := List.mem_singleton.mp hmem
          exact havailable
  exact fun item hitem => of_decide_eq_true (List.all_eq_true.mp hall item hitem)

/-- A bid that is worth taking can be settled for. -/
theorem exists_settle (hwanted : o.wanted ≠ []) {counter : CounterOffer} (h : o.goodBid = some counter) :
    ∃ choice ∈ o.offerChoices .en, choice.tactic = .settle ∧ choice.available = true := by
  obtain ⟨hcounter, hgood⟩ := Option.filter_eq_some_iff.mp h
  have hsettled : o.settled = counter.items := by
    unfold settled
    rw [hcounter]
    rfl
  have havailable : (o.settled.all fun item => item.quantity ≤ o.inventory item.id) = true := by
    rw [hsettled]
    exact (of_decide_eq_true hgood).1
  unfold offerChoices
  rw [if_neg hwanted]
  exact ⟨_, List.mem_cons_of_mem _ (List.mem_cons_of_mem _ List.mem_cons_self), rfl, havailable⟩

/-- What is left of the wishes is in stock. -/
theorem remaining_stocked : ∀ item ∈ o.remaining, item.quantity ≤ o.inventory item.id := by
  have hall : ∀ item ∈ (o.requestedItems.filter fun id =>
      0 < o.inventory id ∧ 0 < (o.requestedQuantities id).getD 1).map (fun id =>
        (⟨id, min (min 3 (o.inventory id)) ((o.requestedQuantities id).getD 1)⟩ : Item)),
      item.quantity ≤ o.inventory item.id := by
    intro item hitem
    obtain ⟨id, -, rfl⟩ := List.mem_map.mp hitem
    exact (min_le_left _ _).trans (min_le_right _ _)
  intro item hitem
  unfold remaining at hitem
  dsimp only at hitem
  split at hitem
  · exact hall item (List.dropLast_subset _ hitem)
  · exact hall item hitem

end SellerObservation

/-- A tactic that is offered can be served. -/
theorem exists_offerOf_serve {tactic : ShopTactic} (message : String)
    (h : ∃ choice ∈ s.sellerObservation.offerChoices .en, choice.tactic = tactic ∧ choice.available = true) :
    ∃ made, offerOf s (.serve tactic message) = .ok (some made) ∧
      ∀ item ∈ made.items, item.quantity ≤ s.inventory item.id := by
  obtain ⟨choice, hmem, htactic, havailable⟩ := h
  obtain ⟨found, hfound⟩ : ∃ found, (s.sellerObservation.offerChoices .en).find? (fun option =>
      option.tactic = tactic ∧ option.available) = some found :=
    Option.isSome_iff_exists.mp (List.find?_isSome.mpr ⟨choice, hmem, decide_eq_true ⟨htactic, havailable⟩⟩)
  have hok : found.tactic = tactic ∧ found.available = true := by simpa using List.find?_some hfound
  refine ⟨⟨found.items, found.price, message⟩, ?_, ?_⟩
  · unfold offerOf
    dsimp only
    rw [hfound]
  · exact SellerObservation.stocked_of_available (List.mem_of_find?_eq_some hfound) hok.2

/-- **The seller's bot is legal.** -/
theorem Fair.seller (h : Fair s s₀) (hphase : s.phase = .seller) (locale : Guardians.Locale) :
    ∃ s', Arcade.applySellerAction s (ruleSellerAction s.sellerObservation locale).json = .ok s' := by
  have hparse := (sayable_ruleSellerAction (seen_sellerObservation h.sound h.speech) locale).passes.2
  have hmade : ∃ offer, offerOf s (ruleSellerAction s.sellerObservation locale).trimmed = .ok offer ∧
      ∀ made, offer = some made → ∀ item ∈ made.items, item.quantity ≤ s.inventory item.id := by
    have hserved : ∀ (tactic : ShopTactic) (message : String),
        (∃ choice ∈ s.sellerObservation.offerChoices .en, choice.tactic = tactic ∧ choice.available = true) →
          ∃ offer, offerOf s (SellerAction.serve tactic message).trimmed = .ok offer ∧
            ∀ made, offer = some made → ∀ item ∈ made.items, item.quantity ≤ s.inventory item.id := by
      intro tactic message hchoice
      obtain ⟨made, hok, hstock⟩ := exists_offerOf_serve (String.ofList (trim message)) hchoice
      exact ⟨some made, hok, fun made' hmade' => Option.some.inj hmade' ▸ hstock⟩
    unfold ruleSellerAction
    split
    · exact ⟨none, rfl, nofun⟩
    · split
      · next counter hcounter =>
        have hbid : s.counterOffer ≠ none := by
          have hsome := (Option.filter_eq_some_iff.mp hcounter).1
          exact fun hnone => Option.some_ne_none counter (hsome.symm.trans hnone)
        exact hserved _ _ (SellerObservation.exists_settle (h.wanted hbid) hcounter)
      · split
        · next chosen hchosen =>
          have hmem := List.mem_of_find?_eq_some (Option.filter_eq_some_iff.mp hchosen).1
          obtain ⟨hmem, havailable⟩ := List.mem_filter.mp hmem
          exact hserved _ _ (SellerObservation.exists_choice hmem havailable)
        · split
          · exact ⟨none, rfl, nofun⟩
          · refine ⟨some _, rfl, fun made hmade => ?_⟩
            obtain rfl := Option.some.inj hmade
            exact SellerObservation.remaining_stocked
  obtain ⟨offer, hoffer, hstock⟩ := hmade
  exact exists_applySellerAction hphase hparse hoffer hstock

/-! ## The buyer's bot -/

/-- The buyer's bots buy what is offered, or say what they need. -/
theorem buyerBot_cases (style : BuyerStyle) (s : ShopState) :
    (∃ offer, s.offer = some offer ∧ (buyerBot style s).type.text = some "buy" ∧ (buyerBot style s).wants = none) ∨
      ((buyerBot style s).type.text ≠ some "buy" ∧ (buyerBot style s).wants = some (needs s.buyer) ∧
        (needs s.buyer = [] → (buyerBot style s).reason.text = some "done")) := by
  have hneeds : s.buyerObservation.wants = needs s.buyer := rfl
  have hoffer : s.buyerObservation.offer = s.offer := rfl
  have hdecline : some "decline" ≠ some "buy" := by decide
  have hrequest : some "request" ≠ some "buy" := by decide
  unfold buyerBot
  split
  · next himpulsive =>
    obtain ⟨offer, hsome⟩ := Option.isSome_iff_exists.mp himpulsive.2
    exact .inl ⟨offer, hsome, rfl, rfl⟩
  · unfold ruleBuyerAction
    rw [hneeds, hoffer]
    split
    · exact .inr ⟨hdecline, rfl, fun _ => rfl⟩
    · next hne =>
      cases s.offer with
      | none => exact .inr ⟨hrequest, rfl, fun h => absurd h hne⟩
      | some offer =>
        dsimp only
        split
        · exact .inr ⟨hdecline, rfl, fun h => absurd h hne⟩
        · split
          · exact .inr ⟨hdecline, rfl, fun h => absurd h hne⟩
          · exact .inl ⟨offer, rfl, rfl, rfl⟩

theorem buyerBot_passes (style : BuyerStyle) (s : ShopState) :
    parseBuyerAction (buyerBot style s).json = .ok (buyerBot style s) := by
  unfold buyerBot
  split
  · exact parseBuyerAction_iff.mpr ⟨wishes_json nofun, IsWord.prints ⟨"buy", by decide, rfl⟩,
      IsWord.prints ⟨"need", by decide, rfl⟩⟩
  · exact (ruleBuyerAction_passes s.buyerObservation).2

/-- Whoever says what is needed wants it. -/
theorem wanted_of_needs (hneeds : needs s.buyer ≠ [])
    (hb : s'.buyer = s.buyer.disclose (needs s.buyer)) : s'.sellerObservation.wanted ≠ [] := by
  have hall : s'.sellerObservation.wanted = needs s.buyer := by
    unfold SellerObservation.wanted
    have hrequested : s'.sellerObservation.requestedItems = needs s.buyer := by
      show s'.buyer.disclosed = needs s.buyer
      rw [hb]
      rfl
    have hquantities : s'.sellerObservation.requestedQuantities =
        fun id => if id ∈ needs s.buyer then some (s.buyer.missing id) else none := by
      show s'.buyer.requested = _
      rw [hb]
      rfl
    rw [hrequested, hquantities]
    refine List.filter_eq_self.mpr fun id hid => decide_eq_true ?_
    have hmissing := of_decide_eq_true (List.mem_filter.mp hid).2
    dsimp only
    rw [if_pos hid, Option.getD_some]
    unfold Buyer.missing
    omega
  rw [hall]
  exact hneeds

/-- A buyer whose answer can be read says what it wants, or buys what is in stock. -/
theorem exists_applyBuyerAction {raw : Json} {action : BuyerAction} (hphase : s.phase = .buyer)
    (hparse : parseBuyerAction raw = .ok action)
    (hoffer : action.type.text = some "buy" → s.offer ≠ none)
    (hstock : ∀ offer, s.offer = some offer → ∀ item ∈ offer.items, item.quantity ≤ s.inventory item.id) :
    ∃ s', applyBuyerAction s raw = .ok s' ∧ (s'.counterOffer = none ∨
      (action.type.text ≠ some "buy" ∧
        s' = (s.setBuyer (s.buyer.disclose (action.wants.getD (needs s.buyer)))).declined
          (action.wants.getD (needs s.buyer)) action.reason)) := by
  by_cases hbuy : action.type.text = some "buy"
  · cases hsome : s.offer with
    | none => exact absurd hsome (hoffer hbuy)
    | some offer =>
      by_cases hlimit : s.buyer.cap - s.buyer.spent < offer.price ∨ s.buyer.balance - s.buyer.spent < offer.price
      · refine ⟨(s.setBuyer (s.buyer.disclose (action.wants.getD (needs s.buyer)))).blocked, bind_eq_ok.mpr
          ⟨⟨⟩, throwIf_eq_ok.mpr (not_not.mpr hphase), bind_eq_ok.mpr ⟨action, hparse, ?_⟩⟩, .inl rfl⟩
        simp only [hbuy, hsome, hlimit, if_true]
        rfl
      · have hany : ¬ (offer.items.any fun item => s.inventory item.id < item.quantity) = true := by
          intro hany
          obtain ⟨item, hitem, hlt⟩ := List.any_eq_true.mp hany
          exact absurd (of_decide_eq_true hlt) (not_lt.mpr (hstock offer hsome item hitem))
        refine ⟨s.bought offer (s.buyer.disclose (action.wants.getD (needs s.buyer))), bind_eq_ok.mpr
          ⟨⟨⟩, throwIf_eq_ok.mpr (not_not.mpr hphase), bind_eq_ok.mpr ⟨action, hparse, ?_⟩⟩, .inl rfl⟩
        simp only [hbuy, hsome, hlimit, if_true, if_false]
        exact bind_eq_ok.mpr ⟨⟨⟩, throwIf_eq_ok.mpr hany, rfl⟩
  · refine ⟨_, bind_eq_ok.mpr ⟨⟨⟩, throwIf_eq_ok.mpr (not_not.mpr hphase), bind_eq_ok.mpr ⟨action, hparse, ?_⟩⟩,
      .inr ⟨hbuy, rfl⟩⟩
    simp only [hbuy, if_false]
    rfl

/-- **The buyer's bots are legal**, and what they bid for is wanted. -/
theorem Fair.buyer (h : Fair s s₀) (hphase : s.phase = .buyer) (style : BuyerStyle) :
    ∃ s', Arcade.applyBuyerAction s (buyerBot style s).json = .ok s' ∧ Fair s' s₀ := by
  have hcases := buyerBot_cases style s
  have hoffer : (buyerBot style s).type.text = some "buy" → s.offer ≠ none := by
    intro hbuy
    obtain ⟨offer, hsome, -⟩ | ⟨hother, -⟩ := hcases
    · rw [hsome]
      exact Option.some_ne_none offer
    · exact absurd hbuy hother
  obtain ⟨s', hs', hnone | ⟨hother, hdeclined⟩⟩ :=
    exists_applyBuyerAction hphase (buyerBot_passes style s) hoffer h.stocked
  · exact ⟨s', hs', h.applyBuyerAction hs' fun hcounter => absurd hnone hcounter⟩
  · refine ⟨s', hs', h.applyBuyerAction hs' fun hcounter => ?_⟩
    obtain ⟨_, -, hbuy, -⟩ | ⟨-, hwants, hdone⟩ := hcases
    · exact absurd hbuy hother
    · rw [hwants, Option.getD_some] at hdeclined
      subst hdeclined
      refine wanted_of_needs (s := s) (fun hneeds => hcounter ?_)
        (show (s.setBuyer (s.buyer.disclose (needs s.buyer))).buyer = _ from buyer_setBuyer _)
      -- who needs nothing is done, and does not bid
      show (s.setBuyer (s.buyer.disclose (needs s.buyer))).counter (buyerBot style s).reason = none
      unfold ShopState.counter
      split
      · rfl
      · rw [hdone hneeds]
        exact if_neg fun hall => absurd hall.2.1 (by decide)

/-! ## Games against a bot -/

/-- The states of a game in which the owner answers what it likes, and the other side is a bot. -/
inductive Faced (s₀ : ShopState) : ShopState → Prop
  | opened : Faced s₀ s₀
  | seller {s s' : ShopState} {raw : Json} (h : Faced s₀ s) (hrole : s.config.role = .seller)
      (hs' : applySellerAction s raw = .ok s') : Faced s₀ s'
  | buyerBot {s s' : ShopState} (style : BuyerStyle) (h : Faced s₀ s) (hrole : s.config.role = .seller)
      (hs' : applyBuyerAction s (buyerBot style s).json = .ok s') : Faced s₀ s'
  | buyer {s s' : ShopState} {raw : Json} (h : Faced s₀ s) (hrole : s.config.role = .buyer)
      (hs' : applyBuyerAction s raw = .ok s') : Faced s₀ s'
  | sellerBot {s s' : ShopState} (locale : Guardians.Locale) (h : Faced s₀ s) (hrole : s.config.role = .buyer)
      (hs' : applySellerAction s (ruleSellerAction s.sellerObservation locale).json = .ok s') : Faced s₀ s'
  | advance {s s' : ShopState} (h : Faced s₀ s) (hs' : nextShopCustomer s = .ok s') : Faced s₀ s'

/-- The owner who buys gets no bids. -/
theorem counterOffer_eq_none {raw : Json} (hrole : s.config.role = .buyer)
    (hs' : applyBuyerAction s raw = .ok s') : s'.counterOffer = none := by
  obtain ⟨-, wants, -, rfl | ⟨_, -, -, -, -, rfl⟩ | ⟨reason, rfl⟩⟩ := applyBuyerAction_eq_ok hs'
  · rfl
  · rfl
  · show (s.setBuyer (s.buyer.disclose wants)).counter reason = none
    unfold ShopState.counter
    split
    · rfl
    · refine if_neg fun hall => ?_
      have hseller : s.config.role = .seller := hall.1
      rw [hrole] at hseller
      cases hseller

theorem fair_openShop {seed : Int} {config : ShopConfig} {memory : Option ShopMemory}
    {aptitudes : Option GuardianAptitudes} (h : createShop seed config memory aptitudes = .ok s₀) :
    Fair s₀ s₀ := by
  obtain ⟨checked, hchecked, hcap, haptitudes, rfl⟩ := createShop_eq_ok h
  exact ⟨sound_openShop hcap fun a ha => (haptitudes a ha).1,
    speech_openShop (length_name hchecked) fun a ha => (haptitudes a ha).2, nofun, fun hnone => absurd rfl hnone⟩

/-- **In every state of such a game**, what is on the table is fair. -/
theorem Faced.fair (hopen : Fair s₀ s₀) (h : Faced s₀ s) : Fair s s₀ := by
  induction h with
  | opened => exact hopen
  | seller _ _ hs' ih => exact ih.applySellerAction hs'
  | buyerBot style _ _ hs' ih =>
    have hphase := (applyBuyerAction_eq_ok hs').1
    obtain ⟨s'', hs'', hfair⟩ := ih.buyer hphase style
    rw [hs'] at hs''
    cases hs''
    exact hfair
  | buyer _ hrole hs' ih =>
    exact ih.applyBuyerAction hs' fun hcounter => absurd (counterOffer_eq_none hrole hs') hcounter
  | sellerBot _ _ _ hs' ih => exact ih.applySellerAction hs'
  | advance _ hs' ih => exact ih.nextShopCustomer hs'

theorem exists_nextShopCustomer (hphase : s.phase = .transition) : ∃ s', nextShopCustomer s = .ok s' := by
  have hturn : (throwIf (s.phase ≠ .transition) ShopError.customerNotFinished : Except ShopError Unit) = .ok ⟨⟩ :=
    throwIf_eq_ok.mpr (not_not.mpr hphase)
  unfold nextShopCustomer
  rw [hturn]
  by_cases hlast : s.customer = 2
  · exact ⟨{ s with phase := .finished }, if_pos hlast⟩
  · exact ⟨_, if_neg hlast⟩

/-- **A turn of the bots** is taken, and brings the end nearer. -/
theorem Faced.botTurn (hopen : Fair s₀ s₀) (h : Faced s₀ s) (hphase : s.phase ≠ .finished) (style : BuyerStyle)
    (locale : Guardians.Locale) :
    ∃ s', Arcade.botTurn style locale s = .ok s' ∧ Faced s₀ s' ∧ movesLeft s' + 1 ≤ movesLeft s := by
  have hfair := h.fair hopen
  unfold Arcade.botTurn
  cases hs : s.phase with
  | buyer =>
    obtain ⟨s', hs', -⟩ := hfair.buyer hs style
    refine ⟨s', hs', ?_, movesLeft_applyBuyerAction hfair.sound.meeting hs'⟩
    cases hrole : s.config.role with
    | seller => exact .buyerBot style h hrole hs'
    | buyer => exact .buyer h hrole hs'
  | seller =>
    obtain ⟨s', hs'⟩ := hfair.seller hs locale
    refine ⟨s', hs', ?_, movesLeft_applySellerAction hfair.sound.meeting hs'⟩
    cases hrole : s.config.role with
    | seller => exact .seller h hrole hs'
    | buyer => exact .sellerBot locale h hrole hs'
  | transition =>
    obtain ⟨s', hs'⟩ := exists_nextShopCustomer hs
    exact ⟨s', hs', .advance h hs', movesLeft_nextShopCustomer hfair.speech.able hs'⟩
  | finished => exact absurd hs hphase

/-- **The bots come to an end** in as many turns as there are moves left. -/
theorem playOut_finishes (hopen : Fair s₀ s₀) (style : BuyerStyle) (locale : Guardians.Locale) (turns : Nat) :
    ∀ {s : ShopState}, Faced s₀ s → movesLeft s ≤ turns →
      ∃ s', playOut style locale turns s = .ok s' ∧ s'.phase = .finished ∧ Faced s₀ s' := by
  induction turns with
  | zero =>
    intro s h hleft
    refine ⟨s, rfl, ?_, h⟩
    by_contra hphase
    have hpos := movesLeft_pos (h.fair hopen).sound.meeting hphase
    exact absurd hleft (by push_cast; omega)
  | succ turns ih =>
    intro s h hleft
    unfold playOut
    by_cases hphase : s.phase = .finished
    · exact ⟨s, if_pos hphase, hphase, h⟩
    · rw [if_neg hphase]
      obtain ⟨s', hs', hfaced, hless⟩ := h.botTurn hopen hphase style locale
      obtain ⟨last, hlast, hfinished⟩ := ih hfaced (by push_cast at hleft; omega)
      exact ⟨last, bind_eq_ok.mpr ⟨s', hs', hlast⟩, hfinished⟩

/-- There are 34 moves in a game, at most. -/
theorem movesLeft_createShop {seed : Int} {config : ShopConfig} {memory : Option ShopMemory}
    {aptitudes : Option GuardianAptitudes} (h : createShop seed config memory aptitudes = .ok s₀) :
    movesLeft s₀ ≤ 34 := by
  have hpatience := patience_le (fair_openShop h).speech.able
  obtain ⟨checked, -, -, -, rfl⟩ := createShop_eq_ok h
  change 2 * ((openShop seed checked memory aptitudes).patience - 0) + 2 + 24 ≤ 34
  change (openShop seed checked memory aptitudes).patience ≤ 4 at hpatience
  omega

/-- **The bots play every shop that opens to its end.** -/
theorem simulateShop_finishes {seed : Int} {config : ShopConfig} {memory : Option ShopMemory}
    {aptitudes : Option GuardianAptitudes} (h : createShop seed config memory aptitudes = .ok s₀)
    (style : BuyerStyle) : ∃ s, simulateShop seed config style memory aptitudes = .ok s ∧
      s.phase = .finished ∧ Faced s₀ s := by
  have hleft := movesLeft_createShop h
  obtain ⟨s, hs, hphase, hfaced⟩ := playOut_finishes (fair_openShop h) style .en 40 .opened (by push_cast; omega)
  refine ⟨s, ?_, hphase, hfaced⟩
  unfold simulateShop
  rw [h]
  refine bind_eq_ok.mpr ⟨s₀, rfl, bind_eq_ok.mpr ⟨s, ?_, bind_eq_ok.mpr ⟨⟨⟩, throwIf_eq_ok.mpr (not_not.mpr hphase), rfl⟩⟩⟩
  rw [hs]
  rfl

end Mapae.Arcade
