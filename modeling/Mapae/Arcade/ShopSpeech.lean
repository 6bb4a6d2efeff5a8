import Mapae.Arcade.Answers
import Mapae.Arcade.ShopBots
import Mapae.Arcade.ShopInvariant

/-!
# How much is said in a shop

The texts of a meeting are short and few, so that what the players see stays within the bounds of the
model service.

* `Speech` is the invariant beside the books
* a buyer's answer keeps it if its reason is a word
-/

namespace Mapae.Arcade

open Mapae.Infra Mapae.Guardians

variable {s s' s₀ : ShopState} {items : List Item}

/-! ## Lengths -/

/-- A text of at most `n` units without control characters. -/
structure Clear (n : Nat) (text : String) : Prop where
  length : unitLength text ≤ n
  clean : ∀ c ∈ text.toList, 32 ≤ c.toNat

/-- `Clear`, computed from the characters. -/
def isClear (n : Nat) (text : List Char) : Bool :=
  (text.map units).sum.ble n && text.all fun c => Nat.ble 32 c.toNat

theorem clear_iff {n : Nat} {text : String} : Clear n text ↔ isClear n text.toList = true := by
  rw [isClear, Bool.and_eq_true, Nat.ble_eq, List.all_eq_true]
  constructor
  · exact fun h => ⟨h.length, fun c hc => Nat.ble_eq.mpr (h.clean c hc)⟩
  · exact fun ⟨hlength, hclean⟩ => ⟨hlength, fun c hc => Nat.ble_eq.mp (hclean c hc)⟩

instance (n : Nat) (text : String) : Decidable (Clear n text) := decidable_of_iff _ clear_iff.symm

/-- A constant text is checked by its characters. -/
theorem clear_ofList {n : Nat} {text : List Char} (h : isClear n text = true) :
    Clear n (String.ofList text) := by
  rwa [clear_iff, String.toList_ofList]

section Clear

variable {a b text separator : String} {m n : Nat}

theorem Clear.mono (h : Clear m text) (hle : m ≤ n) : Clear n text := ⟨h.length.trans hle, h.clean⟩

theorem Clear.append (ha : Clear m a) (hb : Clear n b) : Clear (m + n) (a ++ b) := by
  refine ⟨?_, fun c hc => ?_⟩
  · rw [unitLength_append]
    exact Nat.add_le_add ha.length hb.length
  · rw [String.toList_append] at hc
    rcases List.mem_append.mp hc with hc | hc
    · exact ha.clean c hc
    · exact hb.clean c hc

/-- The amounts that are spoken of are small. -/
theorem clear_toString {n : Int} (hlow : 0 ≤ n) (hhigh : n < 300) : Clear 3 (toString n) := by
  have hall : (List.range 300).all (fun k => isClear 3 (Nat.toDigits 10 k)) = true := by
    decide +kernel
  obtain ⟨k, rfl⟩ := Int.eq_ofNat_of_zero_le hlow
  exact clear_ofList (List.all_eq_true.mp hall k (List.mem_range.mpr (Int.ofNat_lt.mp hhigh)))

theorem clear_intercalate {texts : List String} (hseparator : Clear m separator)
    (h : ∀ text ∈ texts, Clear n text) :
    Clear ((n + m) * texts.length) (String.intercalate separator texts) := by
  induction texts with
  | nil =>
    rw [String.intercalate_nil]
    exact ⟨Nat.zero_le _, nofun⟩
  | cons text texts ih =>
    obtain ⟨htext, htexts⟩ := List.forall_mem_cons.mp h
    cases texts with
    | nil =>
      rw [String.intercalate_singleton]
      refine htext.mono ?_
      simp only [List.length_singleton]
      omega
    | cons next rest =>
      rw [String.intercalate_cons_cons]
      refine ((htext.append hseparator).append (ih htexts)).mono (Nat.le_of_eq ?_)
      rw [List.length_cons (a := text), Nat.mul_succ, Nat.add_comm]

/-- Up to three texts. -/
theorem clear_intercalate_three {texts : List String} (hseparator : Clear m separator)
    (h : ∀ text ∈ texts, Clear n text) (hlength : texts.length ≤ 3) :
    Clear ((n + m) * 3) (String.intercalate separator texts) :=
  (clear_intercalate hseparator h).mono (Nat.mul_le_mul_left _ hlength)

end Clear

/-- A text is no longer for being trimmed. -/
theorem length_trim_le (text : String) : unitLength (String.ofList (trim text)) ≤ unitLength text := by
  unfold unitLength
  rw [String.toList_ofList]
  exact ((trim_sublist text).map units).sum_le_sum fun _ _ => Nat.zero_le _

/-! ## Goods and prices -/

/-- Different products are at most three. -/
theorem length_le_three {ids : List ProductId} (h : ids.Nodup) : ids.length ≤ 3 :=
  have hsub : ids ⊆ SHOP_PRODUCTS := fun id _ => by cases id <;> decide
  (h.subperm hsub).length_le

theorem Bundle.length_le (h : Bundle items) : items.length ≤ 3 := by
  have := length_le_three h.nodup
  rwa [List.length_map] at this

theorem sum_le_of_le {f : Item → Int} {n : Int} (h : ∀ item ∈ items, f item ≤ n) :
    (items.map f).sum ≤ n * items.length := by
  induction items with
  | nil => simp
  | cons head rest ih =>
    obtain ⟨hhead, hrest⟩ := List.forall_mem_cons.mp h
    have := ih hrest
    rw [List.map_cons, List.sum_cons, List.length_cons, Nat.cast_add, Nat.cast_one, Int.mul_add,
      Int.mul_one]
    omega

/-- What a bundle is worth at most. -/
theorem Bundle.retail_le (h : Bundle items) : retail items ≤ 72 := by
  have hsum : retail items ≤ 24 * items.length := by
    refine sum_le_of_le fun item hitem => ?_
    obtain ⟨hlow, hhigh⟩ := h.quantity item hitem
    have hretail : item.id.retail ≤ 8 := by cases item.id <;> decide
    nlinarith [item.id.retail_pos]
  have hlength := h.length_le
  omega

theorem Bundle.stockCost_le (h : Bundle items) : stockCost items ≤ 36 := by
  have hsum : stockCost items ≤ 12 * items.length := by
    refine sum_le_of_le fun item hitem => ?_
    obtain ⟨hlow, hhigh⟩ := h.quantity item hitem
    have hcost : item.id.cost ≤ 4 := by cases item.id <;> decide
    nlinarith [item.id.cost_pos]
  have hlength := h.length_le
  omega

theorem round_nonneg {x : ℚ} (h : 0 ≤ x) : 0 ≤ Binary64.round x := by
  simpa using Binary64.le_round (n := 0) (by norm_num) (by simpa using h)

theorem round_hundredths_le {hundredths : Int} (h : hundredths ≤ 200) :
    Binary64.round (hundredths / 100) ≤ 2 := by
  have hcast : (hundredths : ℚ) ≤ 200 := by exact_mod_cast h
  have htwo : (hundredths : ℚ) / 100 ≤ ((2 : Int) : ℚ) := by
    push_cast
    linarith
  exact_mod_cast Binary64.round_le (n := 2) (by norm_num) htwo

/-- Up to twice an amount. -/
theorem scaled_le {amount hundredths : Int} (h0 : 0 ≤ amount) (h : amount ≤ 72)
    (hh : hundredths ≤ 200) : scaled amount hundredths ≤ 144 := by
  have hfactor := round_hundredths_le hh
  have hamount : (0 : ℚ) ≤ amount := by exact_mod_cast h0
  have hamount' : (amount : ℚ) ≤ 72 := by exact_mod_cast h
  have hproduct : (amount : ℚ) * Binary64.round (hundredths / 100) ≤ ((144 : Int) : ℚ) := by
    push_cast
    nlinarith
  have hround := Binary64.round_le (n := 144) (by norm_num) hproduct
  unfold scaled
  simpa using hround

theorem floor_scaled_le {amount hundredths : Int} (h0 : 0 ≤ amount) (h : amount ≤ 72)
    (hh : hundredths ≤ 200) : ⌊scaled amount hundredths⌋ ≤ 144 := by
  have hle := scaled_le h0 h hh
  exact Int.lt_add_one_iff.mp (Int.floor_lt.mpr (lt_of_le_of_lt hle (by norm_num)))

theorem mathRound_le {x : ℚ} {n : Int} (h : x ≤ n) : Binary64.mathRound x ≤ n := by
  unfold Binary64.mathRound
  refine Int.lt_add_one_iff.mp (Int.floor_lt.mpr ?_)
  push_cast
  linarith

theorem Bundle.retail_nonneg (h : Bundle items) : 0 ≤ retail items := by
  by_cases hnil : items = []
  · rw [hnil]
    exact Int.le_refl 0
  · have := h.retail_pos hnil
    omega

theorem Pricing.percent_le (pricing : Pricing) : pricing.percent ≤ 200 := by cases pricing <;> decide

namespace SellerObservation

variable {o : SellerObservation}

/-- **The shop's own prices are small.** -/
theorem offerChoices_price_le {locale : Guardians.Locale} (h : o.requestedItems.Nodup)
    (hcounter : ∀ counter, o.counterOffer = some counter → counter.price ≤ 288)
    {choice : ShopOfferChoice} (hchoice : choice ∈ o.offerChoices locale) : choice.price ≤ 288 := by
  unfold offerChoices at hchoice
  split at hchoice
  · exact nomatch hchoice
  · have hfull := full_priced h
    have hsmall := small_priced h
    have hretail := hfull.retail_le
    have hcost := hfull.stockCost_le
    rcases List.mem_cons.mp hchoice with rfl | hchoice
    · change o.essentialsPrice ≤ 288
      refine max_le (by decide) (mathRound_le ?_)
      refine (scaled_le hsmall.retail_nonneg hsmall.retail_le o.pricing.percent_le).trans ?_
      norm_num
    · rcases List.mem_cons.mp hchoice with rfl | hchoice
      · change o.generousPrice ≤ 288
        unfold generousPrice
        split
        · omega
        · have hsmaller := hsmall.retail_le
          refine max_le (by omega) ((min_le_right _ _).trans (by omega))
      · obtain rfl := List.mem_singleton.mp hchoice
        change o.settlePrice ≤ 288
        unfold settlePrice
        cases hbid : o.counterOffer with
        | some counter => exact hcounter counter hbid
        | none =>
          refine max_le (by omega) (Int.lt_add_one_iff.mp (Int.floor_lt.mpr ?_))
          have hscaled := scaled_le hfull.retail_nonneg hretail (by decide : (95 : Int) ≤ 200)
          have hfactor := round_hundredths_le o.pricing.percent_le
          have hfactor' : (0 : ℚ) ≤ Binary64.round (o.pricing.percent / 100) :=
            round_nonneg (by cases o.pricing <;> norm_num [Pricing.percent])
          have hproduct : scaled (retail o.full) 95 * Binary64.round (o.pricing.percent / 100) ≤
              ((288 : Int) : ℚ) := by
            push_cast
            nlinarith
          exact lt_of_le_of_lt (Binary64.round_le (n := 288) (by norm_num) hproduct) (by norm_num)

end SellerObservation

/-! ## What is said -/

/-- An offer as it was made. -/
structure Quoted (offer : Offer) : Prop extends Bundle offer.items where
  price : 0 ≤ offer.price ∧ offer.price ≤ 288
  message : unitLength offer.message ≤ 180

/-- The lines that may be spoken in a phase beyond two for each round. -/
def ShopPhase.spare : ShopPhase → Int
  | .buyer => 2
  | .seller => 3
  | .transition => 4
  | .finished => 4

/-- What the texts of a shop come to. -/
structure ShopState.Speech (s : ShopState) : Prop where
  name : unitLength s.config.name ≤ 36
  able : ∀ aptitudes, s.aptitudes = some aptitudes → aptitudes.shop ≤ 6
  customers : ∀ i, Clear 20 (s.buyers i).name
  acquired : ∀ i id, 0 ≤ (s.buyers i).acquired id
  receipts : ∀ receipt ∈ s.receipts, Clear 20 receipt.customer
  referral : ∀ referral, s.referral = some referral → Clear 20 referral.from_
  offer : ∀ offer, s.offer = some offer → Quoted offer
  lastOffer : ∀ offer, s.lastOffer = some offer → Quoted offer
  counter : ∀ counter, s.counterOffer = some counter → counter.price ≤ 288
  lines : ∀ line ∈ s.conversation, unitLength line.text.en ≤ 400
  count : (s.conversation.length : Int) ≤ 2 * s.rounds + s.phase.spare

/-- Something is said, for which there is room. -/
theorem ShopState.Speech.line {speaker : Speaker} {text : Text} (h : s.Speech)
    (hcount : (s.conversation.length : Int) + 1 ≤ 2 * s.rounds + s.phase.spare)
    (htext : unitLength text.en ≤ 400) : (s.line speaker text).Speech := by
  refine ⟨h.name, h.able, h.customers, h.acquired, h.receipts, h.referral, h.offer, h.lastOffer,
    h.counter, fun line hline => ?_, ?_⟩
  · rcases List.mem_append.mp hline with hline | hline
    · exact h.lines line hline
    · rw [List.mem_singleton.mp hline]
      exact htext
  · rw [ShopState.line]
    simpa using hcount

/-! ### The seller -/

theorem message_trimmed (action : SellerAction) :
    action.trimmed.message = String.ofList (trim action.message) := by cases action <;> rfl

theorem length_message {raw : Json} {action : SellerAction}
    (h : parseSellerAction raw = .ok action) : unitLength action.message ≤ 180 := by
  obtain ⟨said, -, hlength, -, rfl⟩ := parseSellerAction_iff.mp h
  rw [message_trimmed]
  exact (length_trim_le _).trans hlength

theorem offerOf_quoted {raw : Json} {action : SellerAction} (hsound : s.Sound s₀) (h : s.Speech)
    (haction : parseSellerAction raw = .ok action) {offer : Offer}
    (hoffer : offerOf s action = .ok (some offer)) : Quoted offer := by
  have hpriced := offerOf_priced hsound haction hoffer
  have hmessage := length_message haction
  have hpos := hpriced.price
  cases action with
  | ask message => cases hoffer
  | close message => cases hoffer
  | offer made =>
    cases hoffer
    obtain ⟨-, -, -, hprice⟩ := parseSellerAction_offer haction
    exact ⟨hpriced.toBundle, ⟨by omega, by omega⟩, hmessage⟩
  | serve tactic message =>
    unfold offerOf at hoffer
    dsimp only at hoffer
    split at hoffer
    · cases hoffer
    · next choice hchoice =>
      cases hoffer
      have hprice := SellerObservation.offerChoices_price_le (hsound.wishes s.customer) h.counter
        (List.mem_of_find?_eq_some hchoice)
      exact ⟨hpriced.toBundle, ⟨Int.le_trans (by decide) hpos, hprice⟩, hmessage⟩

theorem ShopState.Speech.applySellerAction {raw : Json} (hsound : s.Sound s₀) (h : s.Speech)
    (hs' : Arcade.applySellerAction s raw = .ok s') : s'.Speech := by
  obtain ⟨action, offer, hphase, haction, hoffer, rfl⟩ := applySellerAction_eq_ok hs'
  have hoffer' : ∀ made, offer = some made → Quoted made := by
    rintro made rfl
    exact offerOf_quoted hsound h haction hoffer
  have hcount := h.count
  rw [hphase] at hcount
  have hroom : (s.conversation.length : Int) + 1 ≤ 2 * (s.rounds + 1) +
      (if action.closes then ShopPhase.transition else .buyer).spare := by
    have hspare : ShopPhase.spare .seller = 3 := rfl
    split <;> simp only [ShopPhase.spare] at hcount ⊢ <;> omega
  refine ShopState.Speech.line ?_ hroom ((length_message haction).trans (by decide))
  refine ⟨h.name, h.able, h.customers, h.acquired, h.receipts, h.referral, hoffer', fun made hmade => ?_,
    fun _ hnone => (nomatch hnone), h.lines, (Int.le_add_one (Int.le_refl _)).trans hroom⟩
  rcases Option.or_eq_some_iff.mp hmade with hmade | ⟨-, hmade⟩
  · exact hoffer' made hmade
  · exact h.lastOffer made hmade

/-! ### The buyer -/

/-- A customer who has at least as much as before. -/
theorem ShopState.Speech.setBuyer {b : Buyer} (h : s.Speech) (hname : b.name = s.buyer.name)
    (hacquired : ∀ id, 0 ≤ b.acquired id) : (s.setBuyer b).Speech := by
  refine ⟨h.name, h.able, fun i => ?_, fun i => ?_, h.receipts, h.referral, h.offer, h.lastOffer,
    h.counter, h.lines, h.count⟩
  · unfold ShopState.setBuyer
    dsimp only
    split
    · exact hname ▸ h.customers s.customer
    · exact h.customers i
  · unfold ShopState.setBuyer
    dsimp only
    split
    · exact hacquired
    · exact h.acquired i

theorem ShopState.Speech.blocked (h : s.Speech) (hphase : s.phase = .buyer) : s.blocked.Speech := by
  have hcount := h.count
  rw [hphase] at hcount
  have hroom : (s.conversation.length : Int) + 1 ≤ 2 * s.rounds +
      (if s.lastRound then ShopPhase.transition else .seller).spare := by
    split <;> simp only [ShopPhase.spare] at hcount ⊢ <;> omega
  unfold ShopState.blocked
  refine ShopState.Speech.line ?_ hroom (by decide)
  exact ⟨h.name, h.able, h.customers, h.acquired, h.receipts, h.referral,
    fun _ hnone => (nomatch hnone), h.lastOffer, fun _ hnone => (nomatch hnone), h.lines,
    (Int.le_add_one (Int.le_refl _)).trans hroom⟩

theorem objectives_bounds (goal : ShopGoal) (id : ProductId) :
    0 ≤ objectives goal id ∧ objectives goal id ≤ 2 := by
  cases goal <;> cases id <;> decide

theorem Buyer.missing_bounds {buyer : Buyer} (h : ∀ id, 0 ≤ buyer.acquired id) (id : ProductId) :
    0 ≤ buyer.missing id ∧ buyer.missing id ≤ 2 := by
  have hgoal := objectives_bounds buyer.goal id
  have hacquired := h id
  unfold Buyer.missing
  omega

theorem ProductId.clear_name (id : ProductId) : Clear 17 id.name.en := by cases id <;> decide

theorem bid_bounds {offer : Offer} (hbundle : Bundle offer.items) :
    0 ≤ s.bid offer ∧ s.bid offer ≤ 288 := by
  have htolerance : s.tolerance ≤ 200 := by
    unfold ShopState.tolerance
    split
    · decide
    · cases s.buyer.temperament <;> decide
  have hfloor := floor_scaled_le hbundle.retail_nonneg hbundle.retail_le htolerance
  unfold ShopState.bid
  omega

set_option maxRecDepth 2000 in
/-- An answer is short. -/
theorem clear_response {wants : List ProductId} (h : s.Speech) (hwants : wants.Nodup)
    (reason : Json) {counter : Option CounterOffer}
    (hcounter : ∀ bid, counter = some bid → 0 ≤ bid.price ∧ bid.price ≤ 288) :
    Clear 200 (s.response wants reason counter).en := by
  unfold ShopState.response
  cases counter with
  | some bid =>
    obtain ⟨hlow, hhigh⟩ := hcounter bid rfl
    exact (((by decide : Clear 12 "I can offer ").append (clear_toString hlow (by omega))).append
      (by decide : Clear 35 " coins for that exact bundle. Deal?")).mono (by decide)
  | none =>
    dsimp only
    split
    · exact clear_ofList (by decide +kernel)
    · exact clear_ofList (by decide +kernel)
    · exact clear_ofList (by decide +kernel)
    · have hstory : Clear 100 (SHOP_STORIES s.buyer.story).line.en := by
        cases s.buyer.story <;> exact clear_ofList (by decide +kernel)
      have hlist : Clear 80 (ShopState.listed
          (wants.map fun id => s!"{s.buyer.missing id} {id.name.en}") "useful supplies") := by
        unfold ShopState.listed
        split
        · decide
        · refine (clear_intercalate_three (by decide : Clear 2 ", ") (n := 21) ?_ ?_).mono (by decide)
          · refine List.forall_mem_map.mpr fun id _ => ?_
            obtain ⟨hlow, hhigh⟩ := Buyer.missing_bounds (h.acquired s.customer) id
            exact ((clear_toString hlow (by omega)).append (by decide : Clear 1 " ")).append
              id.clear_name
          · rw [List.length_map]
            exact length_le_three hwants
      exact (((hstory.append (by decide : Clear 8 " I need ")).append hlist).append
        (by decide : Clear 1 ".")).mono (by decide)

set_option maxRecDepth 2000 in
theorem clear_farewell {response : Text} (h : Clear 200 response.en) :
    Clear 240 (s.farewell response).en := by
  unfold ShopState.farewell
  split
  · exact clear_ofList (by decide +kernel)
  · split
    · split
      · exact (h.append (by decide : Clear 15 " I have to run!")).mono (by decide)
      · exact (h.append (by decide : Clear 28 " I'll try again another day.")).mono (by decide)
    · exact h.mono (by decide)

theorem ShopState.Speech.declined {wants : List ProductId} (h : s.Speech) (hphase : s.phase = .buyer)
    (hwants : wants.Nodup) (reason : Json) : (s.declined wants reason).Speech := by
  have hcount := h.count
  rw [hphase] at hcount
  have hroom : (s.conversation.length : Int) + 1 ≤ 2 * s.rounds +
      (if reason.text = some "done" ∨ s.lastRound then ShopPhase.transition else .seller).spare := by
    split <;> simp only [ShopPhase.spare] at hcount ⊢ <;> omega
  have hcounter : ∀ bid, s.counter reason = some bid → 0 ≤ bid.price ∧ bid.price ≤ 288 := by
    intro bid hbid
    obtain ⟨offer, hoffer, rfl⟩ := counter_eq_some hbid
    exact bid_bounds (h.offer offer hoffer).toBundle
  unfold ShopState.declined
  refine ShopState.Speech.line ?_ hroom ((clear_farewell (clear_response h hwants reason
    hcounter)).length.trans (by decide))
  exact ⟨h.name, h.able, h.customers, h.acquired, h.receipts, h.referral,
    fun _ hnone => (nomatch hnone), h.lastOffer, fun bid hbid => (hcounter bid hbid).2, h.lines,
    (Int.le_add_one (Int.le_refl _)).trans hroom⟩

/-- How much of an errand is done is a percentage. -/
theorem achievement_bounds {buyer : Buyer} (h : ∀ id, 0 ≤ buyer.acquired id) :
    0 ≤ achievement buyer ∧ achievement buyer ≤ 100 := by
  have hall : 1 ≤ (SHOP_PRODUCTS.map (objectives buyer.goal)).sum := by cases buyer.goal <;> decide
  have hdone : 0 ≤ (SHOP_PRODUCTS.map fun id => min (objectives buyer.goal id) (buyer.acquired id)).sum ∧
      (SHOP_PRODUCTS.map fun id => min (objectives buyer.goal id) (buyer.acquired id)).sum ≤
        (SHOP_PRODUCTS.map (objectives buyer.goal)).sum := by
    have hmin : ∀ id, 0 ≤ min (objectives buyer.goal id) (buyer.acquired id) ∧
        min (objectives buyer.goal id) (buyer.acquired id) ≤ objectives buyer.goal id :=
      fun id => ⟨le_min (objectives_bounds buyer.goal id).1 (h id), min_le_left _ _⟩
    have hwater := hmin .water
    have hsnack := hmin .snack
    have hcharm := hmin .charm
    simp only [SHOP_PRODUCTS, List.map_cons, List.map_nil, List.sum_cons, List.sum_nil]
    omega
  unfold achievement
  dsimp only
  generalize (SHOP_PRODUCTS.map fun id => min (objectives buyer.goal id) (buyer.acquired id)).sum = done at hdone ⊢
  generalize (SHOP_PRODUCTS.map (objectives buyer.goal)).sum = all at hall hdone ⊢
  have hall' : (0 : ℚ) < all := by exact_mod_cast hall
  have hlow : (0 : ℚ) ≤ done := by exact_mod_cast hdone.1
  have hhigh : (done : ℚ) ≤ all := by exact_mod_cast hdone.2
  have hshare : (0 : ℚ) ≤ done / all := div_nonneg hlow hall'.le
  have hshare' : (done : ℚ) / all ≤ ((1 : Int) : ℚ) := by
    rw [div_le_iff₀ hall']
    simpa using hhigh
  have hround := round_nonneg hshare
  have hround' := Binary64.round_le (n := 1) (by norm_num) hshare'
  have hpercent : Binary64.round ((done : ℚ) / all) * 100 ≤ ((100 : Int) : ℚ) := by
    push_cast at hround' ⊢
    linarith
  have htotal := round_nonneg (mul_nonneg hround (by norm_num : (0 : ℚ) ≤ 100))
  constructor
  · unfold Binary64.mathRound
    exact Int.floor_nonneg.mpr (by linarith)
  · exact mathRound_le (Binary64.round_le (n := 100) (by norm_num) hpercent)

theorem quantities_nonneg (h : Bundle items) (id : ProductId) : 0 ≤ quantities items id := by
  refine List.sum_nonneg fun quantity hquantity => ?_
  obtain ⟨item, hitem, rfl⟩ := List.mem_map.mp hquantity
  have := (h.quantity item (List.mem_filter.mp hitem).1).1
  omega

theorem clear_receiptText {offer : Offer} {receipt : ShopReceipt} (h : Quoted offer)
    (hvalue : 0 ≤ receipt.value ∧ receipt.value ≤ 100)
    (hachievement : 0 ≤ receipt.goalAchievement ∧ receipt.goalAchievement ≤ 100) :
    Clear 200 (ShopState.receiptText offer receipt).en := by
  have hlist : Clear 75 (String.intercalate " + "
      (offer.items.map fun item => s!"{item.id.name.en} ×{item.quantity}")) := by
    refine clear_intercalate_three (n := 22) (by decide : Clear 3 " + ") ?_ ?_
    · refine List.forall_mem_map.mpr fun item hitem => ?_
      obtain ⟨hlow, hhigh⟩ := h.quantity item hitem
      exact (item.id.clear_name.append (by decide : Clear 2 " ×")).append
        (clear_toString (by omega) (by omega))
    · rw [List.length_map]
      exact h.toBundle.length_le
  have hprice : Clear 3 (toString offer.price) := clear_toString h.price.1 (by have := h.price.2; omega)
  have hvalue' : Clear 3 (toString receipt.value) := clear_toString hvalue.1 (by omega)
  have hachievement' : Clear 3 (toString receipt.goalAchievement) :=
    clear_toString hachievement.1 (by omega)
  have hreceipt := (by decide : Clear 10 "Receipt · ").append hlist
  have hmoney := (hreceipt.append (by decide : Clear 3 " · ")).append hprice
  have hworth := (hmoney.append (by decide : Clear 24 " coins · purchase value ")).append hvalue'
  have herrand := (hworth.append (by decide : Clear 11 "% · errand ")).append hachievement'
  exact (herrand.append (by decide : Clear 1 "%")).mono (by decide)

theorem ShopState.Speech.bought (hsound : s.Sound s₀) (h : s.Speech) (hphase : s.phase = .buyer)
    (wants : List ProductId) {offer : Offer} (hoffer : s.offer = some offer) :
    (s.bought offer (s.buyer.disclose wants)).Speech := by
  have hpriced := hsound.meeting.offer offer hoffer
  have hquoted := h.offer offer hoffer
  have hcount := h.count
  rw [hphase] at hcount
  have hacquired : ∀ id, 0 ≤ ((s.buyer.disclose wants).take offer.items offer.price).acquired id :=
    fun id => Int.add_nonneg (h.acquired s.customer id) (quantities_nonneg hpriced.toBundle id)
  have hroom : (s.conversation.length : Int) + 2 ≤ 2 * s.rounds + ShopPhase.transition.spare := by
    simp only [ShopPhase.spare] at hcount ⊢
    omega
  have hbuyers := h.setBuyer (b := (s.buyer.disclose wants).take offer.items offer.price) rfl hacquired
  have hdeal : Clear 40 s!"Deal! I'll take it for {offer.price} coins." := by
    have hprice : Clear 3 (toString offer.price) :=
      clear_toString hquoted.price.1 (by have := hquoted.price.2; omega)
    exact (((by decide : Clear 23 "Deal! I'll take it for ").append hprice).append
      (by decide : Clear 7 " coins.")).mono (by decide)
  have hreceipt := clear_receiptText hquoted (value_receipt (s := s) hpriced _)
    (achievement_bounds hacquired)
  unfold ShopState.bought
  refine ShopState.Speech.line (ShopState.Speech.line ?_ ?_ (hdeal.length.trans (by decide))) ?_
    (hreceipt.length.trans (by decide))
  · refine ⟨h.name, h.able, hbuyers.customers, hbuyers.acquired, fun receipt hmem => ?_, h.referral,
      fun _ hnone => (nomatch hnone), h.lastOffer, fun _ hnone => (nomatch hnone), h.lines,
      (Int.le_add_of_nonneg_right (by decide)).trans hroom⟩
    rcases List.mem_append.mp hmem with hmem | hmem
    · exact h.receipts receipt hmem
    · exact List.mem_singleton.mp hmem ▸ h.customers s.customer
  · change (s.conversation.length : Int) + 1 ≤ 2 * s.rounds + ShopPhase.transition.spare
    omega
  · simp only [ShopState.line, List.length_append, List.length_singleton]
    push_cast
    change (s.conversation.length : Int) + 1 + 1 ≤ 2 * s.rounds + ShopPhase.transition.spare
    omega

theorem ShopState.Speech.applyBuyerAction {raw : Json} (hsound : s.Sound s₀) (h : s.Speech)
    (hs' : Arcade.applyBuyerAction s raw = .ok s') : s'.Speech := by
  obtain ⟨hphase, wants, hwants, hs'⟩ := applyBuyerAction_eq_ok hs'
  have hdisclosed := h.setBuyer (b := s.buyer.disclose wants) rfl (h.acquired s.customer)
  obtain rfl | ⟨offer, hoffer, -, -, -, rfl⟩ | ⟨reason, rfl⟩ := hs'
  · exact hdisclosed.blocked hphase
  · exact h.bought hsound hphase wants hoffer
  · exact hdisclosed.declined hphase hwants reason

/-! ### The next customer -/

theorem ShopState.Speech.enter (h : s.Speech) (customer : Fin 3) {referral : Option Referral}
    (hreferral : ∀ found, referral = some found → Clear 20 found.from_) :
    (s.enter customer referral).Speech := by
  refine ⟨h.name, h.able, fun i => ?_, fun i => ?_, h.receipts, hreferral,
    fun _ hnone => (nomatch hnone), fun _ hnone => (nomatch hnone), fun _ hnone => (nomatch hnone),
    fun _ hline => (nomatch hline), (by decide : (0 : Int) ≤ 2 * 0 + 2)⟩
  · change Clear 20 (advancedBuyers s customer i).name
    unfold advancedBuyers
    split
    · exact h.customers customer
    · exact h.customers i
  · change ∀ id, 0 ≤ (advancedBuyers s customer i).acquired id
    unfold advancedBuyers
    split
    · exact h.acquired s.customer
    · exact h.acquired i

set_option maxRecDepth 2000 in
theorem clear_shopReturnLine (forecast : ShopForecast) : Clear 200 (shopReturnLine forecast).en := by
  unfold shopReturnLine
  dsimp only
  split
  · have hname : Clear 4 (SHOP_REGULARS forecast.npc).name.en := by cases forecast.npc <;> decide
    exact (hname.append (clear_ofList (by decide +kernel) :
      Clear 64 "'s first visit · Save the requested stock for your final guest.")).mono (by decide)
  · split <;> cases forecast.npc <;> exact clear_ofList (by decide +kernel)

set_option maxRecDepth 2000 in
/-- Up to two lines greet. -/
theorem ShopState.Speech.greet (h : s.Speech) (hphase : s.phase = .buyer) (hrounds : s.rounds = 0)
    (hnone : s.conversation = []) : s.greet.Speech := by
  have hannounced : ∀ forecast, (s.line .buyer (shopReturnLine forecast)).Speech := by
    intro forecast
    refine h.line ?_ ((clear_shopReturnLine forecast).length.trans (by decide))
    rw [hnone, hphase, hrounds]
    decide
  have hreferral : ∀ referral, s.referral = some referral →
      Clear 200 s!"{referral.from_} recommended your shop. They said you filled their whole order! I'll hear one extra offer." :=
    fun referral hreferral => ((h.referral referral hreferral).append (clear_ofList (by decide +kernel) :
      Clear 100 " recommended your shop. They said you filled their whole order! I'll hear one extra offer.")).mono
      (by decide)
  unfold ShopState.greet
  dsimp only
  split
  · next referral hfrom =>
    have htext := (hreferral referral hfrom).length.trans (by decide : 200 ≤ 400)
    split
    · next forecast _ =>
      refine (hannounced forecast).line ?_ htext
      change (((s.line .buyer (shopReturnLine forecast)).conversation.length : Nat) : Int) + 1 ≤
        2 * s.rounds + s.phase.spare
      simp [ShopState.line, hnone, hphase, hrounds, ShopPhase.spare]
    · refine h.line ?_ htext
      simp [hnone, hphase, hrounds, ShopPhase.spare]
  · split
    · next forecast _ => exact hannounced forecast
    · exact h

theorem mem_recommendation {receipts : List ShopReceipt} {receipt : ShopReceipt}
    (h : recommendation receipts = some receipt) : receipt ∈ receipts := by
  have hmem := List.mem_of_head? h
  exact (List.mem_filter.mp (List.mem_mergeSort.mp hmem)).1

theorem ShopState.Speech.nextShopCustomer (h : s.Speech)
    (hs' : Arcade.nextShopCustomer s = .ok s') : s'.Speech := by
  simp only [Arcade.nextShopCustomer, bind_eq_ok, throwIf_eq_ok] at hs'
  obtain ⟨-, hphase, hs'⟩ := hs'
  have hphase := not_not.mp hphase
  split at hs'
  · obtain rfl := pure_eq_ok.mp hs'
    have hcount := h.count
    rw [hphase] at hcount
    exact ⟨h.name, h.able, h.customers, h.acquired, h.receipts, h.referral, h.offer, h.lastOffer,
      h.counter, h.lines, hcount⟩
  · obtain rfl := pure_eq_ok.mp hs'
    refine (h.enter _ fun found hfound => ?_).greet rfl rfl rfl
    split at hfound
    · obtain ⟨receipt, hreceipt, rfl⟩ := Option.map_eq_some_iff.mp hfound
      exact h.receipts receipt (mem_recommendation hreceipt)
    · cases hfound

/-! ### The opening -/

theorem length_name {config checked : ShopConfig} (h : parseShopConfig config = some checked) :
    unitLength checked.name ≤ 36 := by
  unfold parseShopConfig at h
  dsimp only at h
  split at h
  · cases h
  · next hvalid =>
    cases h
    have hlength : (trim config.name).length ≤ 18 := by
      simp only [not_or, not_lt] at hvalid
      exact hvalid.2.2
    have hbound := (unitLength_bounds (String.ofList (trim config.name))).2
    rw [String.toList_ofList] at hbound
    dsimp only
    omega

/-- **What is said in a shop that opens.** -/
theorem speech_openShop {seed : Int} {config : ShopConfig} {memory : Option ShopMemory}
    {aptitudes : Option GuardianAptitudes} (hname : unitLength config.name ≤ 36)
    (haptitudes : ∀ a, aptitudes = some a → a.shop ≤ 6) :
    (openShop seed config memory aptitudes).Speech := by
  refine ⟨hname, haptitudes, fun i => ?_, fun i id => ?_, fun _ hreceipt => (nomatch hreceipt),
    fun _ hnone => (nomatch hnone), fun _ hnone => (nomatch hnone), fun _ hnone => (nomatch hnone),
    fun _ hnone => (nomatch hnone), fun _ hline => (nomatch hline), (by decide : (0 : Int) ≤ 2 * 0 + 2)⟩
  · unfold openShop
    cases config.role with
    | seller =>
      change Clear 20 (systemBuyer seed config (shopForecast seed (memory.bind parseShopMemory)) i).name
      unfold systemBuyer
      dsimp only
      split
      · decide
      · decide
      · cases (shopForecast seed (memory.bind parseShopMemory)).npc <;> decide
    | buyer =>
      change Clear 20 (ownedBuyer config i).name
      unfold ownedBuyer
      dsimp only
      split <;> decide
  · have hnothing : 0 ≤ emptyBasket id := by cases id <;> decide
    unfold openShop
    cases config.role with
    | seller => exact hnothing
    | buyer => exact hnothing

end Mapae.Arcade
