import Mapae.Arcade.BotAnswers

/-!
# What the players see is small

* `Replied`: the answer on record is a word, as it is where the buyers answer with words
* both observations stay within the bounds of the model service
-/

namespace Mapae.Arcade

open Mapae.Infra Mapae.Guardians

/-! ## Small values -/

section Values

variable {depth : Nat}

theorem bounded_null (h : depth ≤ 10) : jsonBounded depth .null = true := by simp [jsonBounded, h]

theorem bounded_bool (h : depth ≤ 10) (b : Bool) : jsonBounded depth (.bool b) = true := by
  simp [jsonBounded, h]

theorem bounded_number (h : depth ≤ 10) (mantissa exponent : Int) :
    jsonBounded depth (.number mantissa exponent) = true := by
  simp [jsonBounded, h]

theorem bounded_text (h : depth ≤ 10) {n : Nat} {text : String} (htext : unitLength text ≤ n)
    (hn : n ≤ 4000) : jsonBounded depth (.string text) = true :=
  bounded_string h (htext.trans hn)

theorem bounded_orNull (h : depth ≤ 10) {α : Type} {value : Option α} {f : α → Json}
    (hvalue : ∀ found, value = some found → jsonBounded depth (f found) = true) :
    jsonBounded depth (orNull (value.map f)) = true := by
  cases value with
  | none => exact bounded_null h
  | some found => exact hvalue found rfl

theorem bounded_productId (h : depth ≤ 10) (id : ProductId) :
    jsonBounded depth (.string id.text) = true :=
  bounded_text (n := 10) h (by cases id <;> decide) (by decide)

theorem bounded_basketJson (h : depth < 10) (basket : Basket) :
    jsonBounded depth (basketJson basket) = true := by
  refine bounded_object h.le (by simp [SHOP_PRODUCTS])
    (by simp [SHOP_PRODUCTS, ProductId.text]) fun member hmember => ?_
  obtain ⟨id, -, rfl⟩ := List.mem_map.mp hmember
  exact bounded_number h _ _

theorem bounded_itemsJson (h : depth + 2 ≤ 10) {items : List Item} (hitems : Bundle items) :
    jsonBounded depth (itemsJson items) = true := by
  have hlength := hitems.length_le
  refine bounded_array (by omega) (by omega) fun item _ => ?_
  refine bounded_object (by omega) (by simp) (by simp) ?_
  simp only [List.forall_mem_cons]
  exact ⟨bounded_productId h item.id, bounded_number h _ _, List.forall_mem_nil _⟩

theorem bounded_counterJson (h : depth + 3 ≤ 10) {counter : CounterOffer}
    (hitems : Bundle counter.items) : jsonBounded depth (counterJson counter) = true := by
  refine bounded_object (by omega) (by simp) (by simp) ?_
  simp only [List.forall_mem_cons]
  exact ⟨bounded_number (by omega) _ _, bounded_itemsJson (by omega) hitems, List.forall_mem_nil _⟩

theorem bounded_linesJson (h : depth + 2 ≤ 10) {conversation : List (Speaker × String)}
    (hcount : conversation.length ≤ 100)
    (hlines : ∀ line ∈ conversation, unitLength line.2 ≤ 400) :
    jsonBounded depth (linesJson conversation) = true := by
  refine bounded_array (by omega) hcount fun line hline => ?_
  refine bounded_object (by omega) (by simp) (by simp) ?_
  simp only [List.forall_mem_cons]
  exact ⟨bounded_text (n := 10) h (by cases line.1 <;> decide) (by decide),
    bounded_text h (hlines line hline) (by decide), List.forall_mem_nil _⟩

end Values

/-! ## The answer on record -/

/-- The answer on record is a word. -/
def ShopState.Replied (s : ShopState) : Prop :=
  ∀ reply, s.rejected = some reply → ∃ text, reply = .string text ∧ unitLength text ≤ 20

/-- What an answer of the buyer leaves on record. -/
theorem rejected_applyBuyerAction {s s' : ShopState} {raw : Json}
    (h : applyBuyerAction s raw = .ok s') :
    s'.rejected = none ∨ s'.rejected = some (.string "CAP_BLOCKED") ∨
      ∃ action, parseBuyerAction raw = .ok action ∧ s'.rejected = some action.reason := by
  simp only [applyBuyerAction, bind_eq_ok, throwIf_eq_ok] at h
  obtain ⟨-, -, action, haction, h⟩ := h
  split at h
  · split at h
    · cases h
    · split at h
      · obtain rfl := pure_eq_ok.mp h
        exact Or.inr (Or.inl rfl)
      · obtain ⟨-, -, h⟩ := bind_eq_ok.mp h
        obtain rfl := pure_eq_ok.mp h
        exact Or.inl rfl
  · obtain rfl := pure_eq_ok.mp h
    exact Or.inr (Or.inr ⟨action, haction, rfl⟩)

theorem ShopState.Replied.applyBuyerAction {s s' : ShopState} {raw : Json}
    (hword : ∀ action, parseBuyerAction raw = .ok action → IsWord buyerReasons action.reason)
    (h : Arcade.applyBuyerAction s raw = .ok s') : s'.Replied := by
  intro reply hreply
  rcases rejected_applyBuyerAction h with hnone | hblocked | ⟨action, haction, hreason⟩
  · rw [hnone] at hreply
    cases hreply
  · rw [hblocked] at hreply
    cases hreply
    exact ⟨_, rfl, by decide⟩
  · rw [hreason] at hreply
    cases hreply
    obtain ⟨word, hmem, hword⟩ := hword action haction
    have hall : ∀ word ∈ buyerReasons, unitLength word ≤ 20 := by decide
    exact ⟨word, hword, hall word hmem⟩

theorem ShopState.Replied.applySellerAction {s s' : ShopState} {raw : Json}
    (h : Arcade.applySellerAction s raw = .ok s') : s'.Replied := by
  obtain ⟨action, offer, -, -, -, rfl⟩ := applySellerAction_eq_ok h
  intro reply hreply
  cases hreply

theorem rejected_greet (s : ShopState) : s.greet.rejected = s.rejected := by
  unfold ShopState.greet
  dsimp only
  split
  · split <;> rfl
  · split <;> rfl

theorem ShopState.Replied.nextShopCustomer {s s' : ShopState} (hreplied : s.Replied)
    (h : Arcade.nextShopCustomer s = .ok s') : s'.Replied := by
  simp only [Arcade.nextShopCustomer, bind_eq_ok, throwIf_eq_ok] at h
  obtain ⟨-, -, h⟩ := h
  split at h
  · obtain rfl := pure_eq_ok.mp h
    exact hreplied
  · obtain rfl := pure_eq_ok.mp h
    intro reply hreply
    rw [rejected_greet] at hreply
    cases hreply

/-! ## The observations -/

theorem bounded_guestJson (guest : ShopForecast) :
    jsonBounded 1 (SellerObservation.guestJson guest) = true := by
  refine bounded_object (by decide) (by simp) (by simp) ?_
  simp only [List.forall_mem_cons]
  exact ⟨bounded_text (n := 10) (by decide) (by cases guest.npc <;> decide) (by decide),
    bounded_text (n := 60) (by decide) (by cases guest.goal <;> decide +kernel) (by decide),
    bounded_number (by decide) _ _, bounded_bool (by decide) _, List.forall_mem_nil _⟩

section Views

variable {s s₀ : ShopState} (hsound : s.Sound s₀) (h : s.Speech) (hreplied : s.Replied)

include hsound h

/-- A meeting has few lines. -/
theorem length_conversation : s.conversation.length ≤ 100 := by
  have hpatience : s.patience ≤ 6 := by
    have hshop : (s.aptitudes.map fun aptitudes => (aptitudes.shop : Int)).getD 5 ≤ 6 := by
      cases haptitudes : s.aptitudes with
      | none => decide
      | some aptitudes => exact Int.ofNat_le.mpr (h.able aptitudes haptitudes)
    unfold ShopState.patience
    dsimp only
    generalize (s.aptitudes.map fun aptitudes => (aptitudes.shop : Int)).getD 5 = shop at hshop ⊢
    repeat' split
    all_goals omega
  have hrounds := hsound.meeting.rounds
  have hcount := h.count
  have hspare : s.phase.spare ≤ 4 := by cases s.phase <;> decide
  omega

theorem bounded_conversation {depth : Nat} (hdepth : depth + 2 ≤ 10) :
    jsonBounded depth (linesJson (s.conversation.map fun line => (line.speaker, line.text.en))) = true := by
  refine bounded_linesJson hdepth ?_ ?_
  · rw [List.length_map]
    exact length_conversation hsound h
  · exact List.forall_mem_map.mpr h.lines

omit hsound in
theorem clear_customerName : Clear 20 (s.customerName s.customer .en) := by
  unfold ShopState.customerName
  split
  · exact h.customers s.customer
  · split
    · next forecast _ _ => cases forecast.npc <;> decide
    · decide
    · decide

omit hsound h in
theorem bounded_reply (hreplied : s.Replied) {depth : Nat} (hdepth : depth ≤ 10) :
    jsonBounded depth (orNull s.rejected) = true := by
  cases hreply : s.rejected with
  | none => exact bounded_null hdepth
  | some reply =>
    obtain ⟨text, rfl, htext⟩ := hreplied reply hreply
    exact bounded_text hdepth htext (by decide)

/-- An entry of `legalTactics`. -/
theorem bounded_tacticJson {option : ShopOfferChoice}
    (hmem : option ∈ s.sellerObservation.offerChoices .en) :
    jsonBounded 2 (SellerObservation.tacticJson option) = true := by
  have hseen := seen_sellerObservation hsound h
  have hpriced := SellerObservation.offerChoices_priced hseen.wishes
    (fun counter hcounter => (hseen.counter counter hcounter).1) hmem
  have hhint : unitLength option.hint ≤ 100 := by
    unfold SellerObservation.offerChoices at hmem
    split at hmem
    · cases hmem
    · simp only [List.mem_cons, List.not_mem_nil, or_false] at hmem
      obtain rfl | rfl | rfl := hmem
      · dsimp only [SellerObservation.choice]
        split <;> decide +kernel
      · dsimp only [SellerObservation.choice]
        split <;> decide +kernel
      · dsimp only [SellerObservation.choice]
        decide +kernel
  refine bounded_object (by decide) (by simp) (by simp) ?_
  simp only [List.forall_mem_cons]
  exact ⟨bounded_text (n := 10) (by decide) (by cases option.tactic <;> decide) (by decide),
    bounded_itemsJson (by decide) hpriced.toBundle, bounded_number (by decide) _ _,
    bounded_number (by decide) _ _, bounded_bool (by decide) _, bounded_basketJson (by decide) _,
    bounded_bool (by decide) _, bounded_text (by decide) hhint (by decide), List.forall_mem_nil _⟩

/-- **What the seller sees is small.** -/
theorem bounded_sellerObservation (hreplied : s.Replied) :
    jsonBounded 0 s.sellerObservation.json = true := by
  have hseen := seen_sellerObservation hsound h
  have hwishes := length_le_three hseen.wishes
  refine bounded_object (by decide) (by simp) (by simp) ?_
  simp only [List.forall_mem_cons]
  refine ⟨bounded_text (by decide) h.name (by decide),
    bounded_text (n := 10) (by decide) (by cases s.sellerObservation.focus <;> decide) (by decide),
    bounded_number (by decide) _ _,
    bounded_text (n := 10) (by decide) (by cases s.sellerObservation.negotiation <;> decide) (by decide),
    bounded_number (by decide) _ _, bounded_number (by decide) _ _, bounded_basketJson (by decide) _,
    bounded_text (by decide) (clear_customerName h).length (by decide), ?finalGuest, ?finalGuestReserve,
    bounded_bool (by decide) _, ?requestedItems, bounded_number (by decide) _ _,
    bounded_reply hreplied (by decide),
    bounded_text (n := 10) (by decide) (by cases s.sellerObservation.temperament <;> decide) (by decide),
    ?counterOffer, ?requestedQuantities, ?situation, ?needHint, bounded_bool (by decide) _, ?referral,
    ?lastOffer, ?products, bounded_conversation hsound h (by decide), ?legalTactics, List.forall_mem_nil _⟩
  case finalGuest => exact bounded_orNull (by decide) fun guest _ => bounded_guestJson guest
  case finalGuestReserve => exact bounded_orNull (by decide) fun reserve _ => bounded_basketJson (by decide) reserve
  case requestedItems => exact bounded_array (by decide) (by omega) fun id _ => bounded_productId (by decide) id
  case counterOffer =>
    exact bounded_orNull (by decide) fun counter hcounter =>
      bounded_counterJson (by decide) (hseen.counter counter hcounter).1.toBundle
  case requestedQuantities =>
    refine bounded_object (by decide) ?_ ?_ fun member hmember => ?_
    · exact (List.length_filterMap_le _ _).trans (by decide)
    · refine List.all_eq_true.mpr fun member hmember => ?_
      obtain ⟨id, -, hmember⟩ := List.mem_filterMap.mp hmember
      obtain ⟨quantity, -, rfl⟩ := Option.map_eq_some_iff.mp hmember
      cases id <;> simp [ProductId.text]
    · obtain ⟨id, -, hmember⟩ := List.mem_filterMap.mp hmember
      obtain ⟨quantity, -, rfl⟩ := Option.map_eq_some_iff.mp hmember
      exact bounded_number (by decide) _ _
  case situation | needHint =>
    refine bounded_orNull (by decide) fun text htext => ?_
    dsimp only [ShopState.sellerObservation] at htext
    split at htext
    · cases htext
    · cases htext
      exact bounded_text (n := 100) (by decide) (by cases s.buyer.story <;> decide +kernel) (by decide)
  case referral =>
    refine bounded_orNull (by decide) fun name hname => ?_
    obtain ⟨referral, hreferral, rfl⟩ := Option.map_eq_some_iff.mp hname
    refine bounded_object (by decide) (by simp) (by simp) ?_
    simp only [List.forall_mem_cons]
    exact ⟨bounded_text (by decide) (h.referral referral hreferral).length (by decide),
      bounded_number (by decide) _ _, List.forall_mem_nil _⟩
  case lastOffer =>
    refine bounded_orNull (by decide) fun quote hquote => ?_
    obtain ⟨offer, hoffer, rfl⟩ := Option.map_eq_some_iff.mp hquote
    exact bounded_counterJson (by decide) (h.lastOffer offer hoffer).toBundle
  case products =>
    refine bounded_array (by decide) (by decide) fun id _ => ?_
    refine bounded_object (by decide) (by simp) (by simp) ?_
    simp only [List.forall_mem_cons]
    exact ⟨bounded_productId (by decide) id, bounded_number (by decide) _ _,
      bounded_number (by decide) _ _, List.forall_mem_nil _⟩
  case legalTactics =>
    have hlength : (s.sellerObservation.offerChoices .en).length ≤ 3 := by
      unfold SellerObservation.offerChoices
      split <;> simp
    refine bounded_array (by decide) ?_ fun option hoption => bounded_tacticJson hsound h (List.mem_filter.mp hoption).1
    have := List.length_filter_le (fun option : ShopOfferChoice => option.available)
      (s.sellerObservation.offerChoices .en)
    omega

/-- **What the buyer sees is small.** -/
theorem bounded_buyerObservation (hreplied : s.Replied) :
    jsonBounded 0 s.buyerObservation.json = true := by
  refine bounded_object (by decide) (by simp) (by simp) ?_
  simp only [List.forall_mem_cons]
  refine ⟨bounded_text (n := 10) (by decide) (by cases s.buyerObservation.temperament <;> decide)
      (by decide), bounded_number (by decide) _ _,
    bounded_text (n := 60) (by decide) ?objective (by decide),
    bounded_basketJson (by decide) _, bounded_basketJson (by decide) _, bounded_bool (by decide) _,
    bounded_bool (by decide) _, ?maxGoods, bounded_number (by decide) _ _,
    bounded_number (by decide) _ _, bounded_number (by decide) _ _, ?products, ?offer,
    bounded_reply hreplied (by decide), bounded_conversation hsound h (by decide), List.forall_mem_nil _⟩
  case objective =>
    change unitLength (SHOP_GOALS s.buyer.goal).en ≤ 60
    cases s.buyer.goal <;> decide +kernel
  case maxGoods => exact bounded_orNull (by decide) fun most _ => bounded_number (by decide) _ _
  case products =>
    refine bounded_array (by decide) (by decide) fun id _ => ?_
    refine bounded_object (by decide) (by simp) (by simp) ?_
    simp only [List.forall_mem_cons]
    exact ⟨bounded_productId (by decide) id, bounded_number (by decide) _ _, List.forall_mem_nil _⟩
  case offer =>
    refine bounded_orNull (by decide) fun offer hoffer => ?_
    have hquoted := h.offer offer hoffer
    refine bounded_object (by decide) (by simp) (by simp) ?_
    simp only [List.forall_mem_cons]
    exact ⟨bounded_itemsJson (by decide) hquoted.toBundle, bounded_number (by decide) _ _,
      bounded_text (by decide) hquoted.message (by decide), List.forall_mem_nil _⟩

end Views

end Mapae.Arcade
