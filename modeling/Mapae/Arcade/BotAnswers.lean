import Mapae.Arcade.ShopSpeech

/-!
# What the bots answer

* `says_json` and `wishes_json`: an answer that is sent says what it is
* `sayable_ruleSellerAction` and `wishes_ruleBuyerAction`: the bots only say what can be sent
-/

namespace Mapae.Arcade

open Mapae.Infra Mapae.Guardians

/-! ## Texts -/

/-- There is something to hear. -/
def Audible (text : String) : Prop := ∃ c ∈ text.toList, isSpace c = false

instance (text : String) : Decidable (Audible text) :=
  decidable_of_iff (text.toList.any (fun c => !isSpace c) = true) (by simp [Audible])

theorem Audible.append_right {a b : String} (h : Audible b) : Audible (a ++ b) := by
  obtain ⟨c, hmem, hc⟩ := h
  exact ⟨c, by rw [String.toList_append]; exact List.mem_append_right _ hmem, hc⟩

theorem Audible.trim_ne_nil {text : String} (h : Audible text) : trim text ≠ [] := by
  obtain ⟨c, hmem, hc⟩ := h
  exact Infra.trim_ne_nil hmem hc

/-! ## The seller -/

/-- What can be sent as a seller's answer. -/
structure Sayable (action : SellerAction) : Prop where
  text : Clear 180 action.message
  audible : Audible action.message
  offer : ∀ made, action = .offer made →
    Priced made.items made.price ∧ made.price ≤ 99

theorem product_text (id : ProductId) : product (.string id.text) = some id := by
  cases id <;> rfl

theorem integer_numberJson {n low high : Int} (hlow : low ≤ n) (hhigh : n ≤ high) :
    (numberJson n).integer low high = some n := by
  simp [numberJson, Json.integer, Json.int, hlow, hhigh]

theorem readItem_itemJson {item : Item} (h : 1 ≤ item.quantity ∧ item.quantity ≤ 3) :
    readItem (itemJson item) = some item := by
  refine readItem_eq_some.mpr ⟨?_, ?_, ?_⟩
  · simp [itemJson, Json.onlyKeys]
  · simpa [itemJson, Json.field] using product_text item.id
  · simpa [itemJson, Json.field] using integer_numberJson h.1 h.2

theorem mapM_readItem {items : List Item} (h : ∀ item ∈ items, 1 ≤ item.quantity ∧ item.quantity ≤ 3) :
    (items.map itemJson).mapM readItem = some items := by
  induction items with
  | nil => rfl
  | cons item items ih =>
    obtain ⟨hitem, hitems⟩ := List.forall_mem_cons.mp h
    exact mapM_cons_eq_some.mpr ⟨item, items, readItem_itemJson hitem, ih hitems, rfl⟩

/-- **An answer that is sent says what it is.** -/
theorem says_json {action : SellerAction} (h : Sayable action) : Says action.json action := by
  cases action with
  | ask message => simp [Says, SellerAction.json, Json.textField, Json.field, Json.text, Json.onlyKeys]
  | close message => simp [Says, SellerAction.json, Json.textField, Json.field, Json.text, Json.onlyKeys]
  | serve tactic message =>
    have htactic : SHOP_TACTICS.find? (fun other => other.text = tactic.text) = some tactic := by
      cases tactic <;> rfl
    simp [Says, SellerAction.json, Json.textField, Json.field, Json.text, Json.onlyKeys, tacticOf,
      htactic]
  | offer made =>
    obtain ⟨hpriced, hprice⟩ := h.offer made rfl
    have hitems : readItems (SellerAction.offer made).json = some made.items := by
      have hlength := hpriced.toBundle.length_le
      have hpos := List.length_pos_iff.mpr hpriced.ne_nil
      refine readItems_eq_some.mpr ⟨made.items.map itemJson, ?_, ?_⟩
      · have hfield : (SellerAction.offer made).json.field "items" =
            some (.array (made.items.map itemJson)) := by
          simp [SellerAction.json, Json.field, itemsJson]
        unfold offeredItems
        rw [hfield]
        dsimp only
        rw [List.length_map]
        exact if_neg (by omega)
      · exact parseItems_iff.mpr ⟨mapM_readItem hpriced.quantity, hpriced.nodup⟩
    refine ⟨?_, ?_, ?_, ?_, hitems⟩
    · simp [SellerAction.json, Json.textField, Json.field, Json.text]
    · simp [SellerAction.json, Json.onlyKeys]
    · simp [SellerAction.json, Json.textField, Json.field, Json.text]
    · simpa [SellerAction.json, Json.field] using integer_numberJson hpriced.price hprice

theorem Sayable.isText {action : SellerAction} (h : Sayable action) :
    isText 180 action.message = true := by
  have hpos : 0 < unitLength action.message := by
    obtain ⟨c, hmem, -⟩ := h.audible
    exact (List.length_pos_of_mem hmem).trans_le (unitLength_bounds _).1
  refine decide_eq_true ⟨hpos, h.text.length, List.all_eq_true.mpr fun c hc => ?_⟩
  exact decide_eq_true (h.text.clean c hc)

/-- **An answer that can be sent passes both readers.** -/
theorem Sayable.passes {action : SellerAction} (h : Sayable action) :
    validSeller action.json = true ∧ parseSellerAction action.json = .ok action.trimmed :=
  ⟨validSeller_iff.mpr ⟨action, says_json h, h.isText⟩,
    parseSellerAction_iff.mpr ⟨action, says_json h, h.text.length, h.audible.trim_ne_nil, rfl⟩⟩

/-! ## The seller's bot -/

/-- What the bot sees of a shop whose books are right. -/
structure Seen (o : SellerObservation) : Prop where
  wishes : o.requestedItems.Nodup
  counter : ∀ counter, o.counterOffer = some counter →
    Priced counter.items counter.price ∧ counter.price ≤ 288

theorem seen_sellerObservation {s s₀ : ShopState} (hsound : s.Sound s₀) (h : s.Speech) :
    Seen s.sellerObservation :=
  ⟨hsound.wishes s.customer, fun counter hcounter =>
    ⟨hsound.meeting.counter counter hcounter, h.counter counter hcounter⟩⟩

theorem ProductId.clear_name_in (id : ProductId) (locale : Guardians.Locale) : Clear 17 (id.name.in locale) := by
  cases locale <;> cases id <;> decide

section Bundles

variable {items : List Item}

theorem clear_bundleText (h : Bundle items) (locale : Guardians.Locale) : Clear 75 (bundleText items locale) := by
  refine clear_intercalate_three (n := 22) (by decide : Clear 3 " + ") ?_ ?_
  · refine List.forall_mem_map.mpr fun item hitem => ?_
    obtain ⟨hlow, hhigh⟩ := h.quantity item hitem
    exact ((item.id.clear_name_in locale).append (by decide : Clear 2 " ×")).append
      (clear_toString (by omega) (by omega))
  · rw [List.length_map]
    exact h.length_le

theorem serveText_speaks (h : Bundle items) {price : Int} (hprice : 0 ≤ price ∧ price ≤ 288)
    (locale : Guardians.Locale) : Clear 180 (serveText items price locale) ∧ Audible (serveText items price locale) := by
  have hnumber : Clear 3 (toString price) := clear_toString hprice.1 (by omega)
  cases locale with
  | ko =>
    have htext := (((clear_bundleText h .ko).append (by decide : Clear 2 ", ")).append hnumber).append
      (by decide : Clear 11 "냥에 챙겨 드릴게요.")
    exact ⟨htext.mono (by decide), Audible.append_right (by decide : Audible "냥에 챙겨 드릴게요.")⟩
  | en =>
    have htext := (((clear_bundleText h .en).append (by decide : Clear 5 " for ")).append hnumber).append
      (by decide : Clear 7 " coins.")
    exact ⟨htext.mono (by decide), Audible.append_right (by decide : Audible " coins.")⟩

theorem clear_praise (marked : Bool) (locale : Guardians.Locale) : Clear 40 ((praise marked).in locale) := by
  cases marked <;> cases locale <;> decide

theorem audible_praise (marked : Bool) (locale : Guardians.Locale) : Audible ((praise marked).in locale) := by
  cases marked <;> cases locale <;> decide

theorem offerText_speaks (h : Bundle items) {price : Int} (hprice : 0 ≤ price ∧ price ≤ 288)
    (marked : Bool) (locale : Guardians.Locale) :
    Clear 180 (offerText items price marked locale) ∧ Audible (offerText items price marked locale) := by
  have hnumber : Clear 3 (toString price) := clear_toString hprice.1 (by omega)
  have hnames : Clear 60 (String.intercalate " + " (items.map fun item => item.id.name.in locale)) := by
    refine clear_intercalate_three (n := 17) (by decide : Clear 3 " + ") ?_ ?_
    · exact List.forall_mem_map.mpr fun item _ => item.id.clear_name_in locale
    · rw [List.length_map]
      exact h.length_le
  have hpraise := clear_praise marked locale
  have haudible := audible_praise marked locale
  cases locale with
  | ko =>
    have htext := (((hnames.append (by decide : Clear 2 ", ")).append hnumber).append
      (by decide : Clear 7 "냥 어때요? ")).append hpraise
    exact ⟨htext.mono (by decide), haudible.append_right⟩
  | en =>
    have htext := (((hnames.append (by decide : Clear 5 " for ")).append hnumber).append
      (by decide : Clear 8 " coins. ")).append hpraise
    exact ⟨htext.mono (by decide), haudible.append_right⟩

end Bundles

theorem agreedText_speaks {price : Int} (hprice : 0 ≤ price ∧ price ≤ 288) (locale : Guardians.Locale) :
    Clear 180 ((agreedText price).in locale) ∧ Audible ((agreedText price).in locale) := by
  have hnumber : Clear 3 (toString price) := clear_toString hprice.1 (by omega)
  cases locale with
  | ko =>
    have htext := ((by decide : Clear 10 "좋아요. 말씀하신 ").append hnumber).append
      (by decide : Clear 8 "냥에 드릴게요!")
    exact ⟨htext.mono (by decide), Audible.append_right (by decide : Audible "냥에 드릴게요!")⟩
  | en =>
    have htext := ((by decide : Clear 8 "Agreed. ").append hnumber).append
      (by decide : Clear 23 " coins for that bundle!")
    exact ⟨htext.mono (by decide), Audible.append_right (by decide : Audible " coins for that bundle!")⟩

namespace SellerObservation

variable {o : SellerObservation}

/-- What is left of the wishes can be offered. -/
theorem remaining_bundle (h : o.requestedItems.Nodup) : Bundle o.remaining := by
  have hall : Bundle ((o.requestedItems.filter fun id =>
      0 < o.inventory id ∧ 0 < (o.requestedQuantities id).getD 1).map fun id =>
        ⟨id, min (min 3 (o.inventory id)) ((o.requestedQuantities id).getD 1)⟩) := by
    refine ⟨?_, fun item hitem => ?_⟩
    · rw [List.map_map]
      exact (List.map_id _).symm ▸ h.filter _
    · obtain ⟨id, hid, rfl⟩ := List.mem_map.mp hitem
      obtain ⟨hstock, hwish⟩ := of_decide_eq_true (List.mem_filter.mp hid).2
      dsimp only
      omega
  unfold remaining
  dsimp only
  split
  · have hsub := List.dropLast_sublist ((o.requestedItems.filter fun id =>
      0 < o.inventory id ∧ 0 < (o.requestedQuantities id).getD 1).map fun id =>
        (⟨id, min (min 3 (o.inventory id)) ((o.requestedQuantities id).getD 1)⟩ : Item))
    exact ⟨hall.nodup.sublist (hsub.map _), fun item hitem => hall.quantity item (hsub.mem hitem)⟩
  · exact hall

/-- **The bot's own price is one that can be asked.** -/
theorem remainingPrice_bounds (h : o.requestedItems.Nodup) :
    1 ≤ o.remainingPrice ∧ o.remainingPrice ≤ 99 := by
  have hbundle := remaining_bundle h
  have hlow : (0 : ℚ) ≤ retail o.remaining := by exact_mod_cast hbundle.retail_nonneg
  have hhigh : (retail o.remaining : ℚ) ≤ 72 := by exact_mod_cast hbundle.retail_le
  have hpercent : (0 : ℚ) ≤ o.pricing.percent ∧ (o.pricing.percent : ℚ) ≤ 125 := by
    cases o.pricing <;> norm_num [Pricing.percent]
  have hsticker : ((retail o.remaining * o.pricing.percent : Int) : ℚ) / 100 ≤ ((90 : Int) : ℚ) := by
    push_cast
    nlinarith
  have hsticker' : (0 : ℚ) ≤ ((retail o.remaining * o.pricing.percent : Int) : ℚ) / 100 := by
    push_cast
    have := mul_nonneg hlow hpercent.1
    positivity
  have hmarkdown : ((o.markdown o.remaining.length : Int) : ℚ) / 100 ≤ ((1 : Int) : ℚ) := by
    unfold markdown
    split
    · norm_num
    · split <;> norm_num
  have hround := Binary64.round_le (n := 90) (by norm_num) hsticker
  have hround' := Binary64.round_le (n := 1) (by norm_num) hmarkdown
  have hproduct : Binary64.round (((retail o.remaining * o.pricing.percent : Int) : ℚ) / 100) *
      Binary64.round (((o.markdown o.remaining.length : Int) : ℚ) / 100) ≤ ((90 : Int) : ℚ) := by
    have hone : Binary64.round (((o.markdown o.remaining.length : Int) : ℚ) / 100) ≤ 1 := by
      simpa using hround'
    exact (mul_le_of_le_one_right (round_nonneg hsticker') hone).trans hround
  refine ⟨le_max_left _ _, max_le (by decide) ?_⟩
  exact (mathRound_le (Binary64.round_le (n := 90) (by norm_num) hproduct)).trans (by decide)

end SellerObservation

/-- **The seller's bot only says what can be sent.** -/
theorem sayable_ruleSellerAction {o : SellerObservation} (h : Seen o) (locale : Guardians.Locale) :
    Sayable (ruleSellerAction o locale) := by
  unfold ruleSellerAction
  split
  · refine ⟨?_, ?_, nofun⟩ <;> cases locale <;> decide +kernel
  · split
    · next counter hcounter =>
      obtain ⟨hpriced, hprice⟩ := h.counter counter (Option.filter_eq_some_iff.mp hcounter).1
      have hpos := hpriced.price
      obtain ⟨hclear, haudible⟩ := agreedText_speaks ⟨by omega, hprice⟩ locale
      exact ⟨hclear, haudible, nofun⟩
    · split
      · next chosen hchosen =>
        have hmem := List.mem_of_find?_eq_some (Option.filter_eq_some_iff.mp hchosen).1
        have hmem := (List.mem_filter.mp hmem).1
        have hpriced := SellerObservation.offerChoices_priced h.wishes
          (fun counter hcounter => (h.counter counter hcounter).1) hmem
        have hprice := SellerObservation.offerChoices_price_le h.wishes
          (fun counter hcounter => (h.counter counter hcounter).2) hmem
        have hpos := hpriced.price
        obtain ⟨hclear, haudible⟩ := serveText_speaks hpriced.toBundle ⟨by omega, hprice⟩ locale
        exact ⟨hclear, haudible, nofun⟩
      · split
        · refine ⟨?_, ?_, nofun⟩ <;> cases locale <;> decide +kernel
        · next hremaining =>
          have hbundle := SellerObservation.remaining_bundle h.wishes
          obtain ⟨hlow, hhigh⟩ := SellerObservation.remainingPrice_bounds h.wishes
          have hprice : 0 ≤ o.remainingPrice ∧ o.remainingPrice ≤ 288 := by omega
          obtain ⟨hclear, haudible⟩ := offerText_speaks hbundle hprice
            (o.markdown o.remaining.length < 100) locale
          refine ⟨hclear, haudible, fun made hmade => ?_⟩
          cases hmade
          exact ⟨⟨hbundle, hremaining, hlow⟩, hhigh⟩

/-! ## The buyer's bot -/

theorem mapM_product (wants : List ProductId) :
    (wants.map fun id => Json.string id.text).mapM product = some wants := by
  induction wants with
  | nil => rfl
  | cons id wants ih =>
    exact mapM_cons_eq_some.mpr ⟨id, wants, product_text id, ih, rfl⟩

/-- **A wish that is sent says what it is.** -/
theorem wishes_json {action : BuyerAction} (h : ∀ wants, action.wants = some wants → wants.Nodup) :
    Wishes action.json action.type action.reason action.wants := by
  obtain ⟨type, wants, reason⟩ := action
  cases wants with
  | none => constructor <;> simp [BuyerAction.json, Json.onlyKeys, Json.field, parseWants]
  | some wants =>
    have hnodup := h wants rfl
    have hlength := length_le_three hnodup
    have hfield : (BuyerAction.json ⟨type, some wants, reason⟩).field "wants" = some (wantsJson wants) := by
      simp [BuyerAction.json, Json.field]
    refine ⟨?_, ?_, ?_, ?_⟩
    · simp [BuyerAction.json, Json.onlyKeys]
    · simp [BuyerAction.json, Json.field]
    · simp [BuyerAction.json, Json.field]
    · rw [hfield]
      unfold parseWants wantsJson
      dsimp only
      rw [List.length_map, if_neg (by omega), mapM_product]
      exact if_pos hnodup

/-- The bot's answers use the declared words. -/
theorem words_ruleBuyerAction (o : BuyerObservation) :
    IsWord buyerTypes (ruleBuyerAction o).type ∧ IsWord buyerReasons (ruleBuyerAction o).reason := by
  have htype : ∀ word ∈ buyerTypes, IsWord buyerTypes (.string word) := fun word hword => ⟨word, hword, rfl⟩
  have hreason : ∀ word ∈ buyerReasons, IsWord buyerReasons (.string word) :=
    fun word hword => ⟨word, hword, rfl⟩
  unfold ruleBuyerAction
  repeat' split
  all_goals exact ⟨htype _ (by decide), hreason _ (by decide)⟩

theorem wants_ruleBuyerAction {o : BuyerObservation} {wants : List ProductId}
    (h : (ruleBuyerAction o).wants = some wants) : wants.Nodup := by
  have hnodup : o.wants.Nodup := List.Nodup.filter _ (by decide)
  unfold ruleBuyerAction at h
  repeat' split at h
  all_goals cases h
  all_goals exact hnodup

/-- **The buyer's bot passes both readers.** -/
theorem ruleBuyerAction_passes (o : BuyerObservation) :
    validBuyer (ruleBuyerAction o).json = true ∧
      parseBuyerAction (ruleBuyerAction o).json = .ok (ruleBuyerAction o) := by
  have hwishes : Wishes (ruleBuyerAction o).json (ruleBuyerAction o).type (ruleBuyerAction o).reason
      (ruleBuyerAction o).wants := wishes_json fun _ => wants_ruleBuyerAction
  obtain ⟨htype, hreason⟩ := words_ruleBuyerAction o
  exact ⟨validBuyer_iff.mpr ⟨_, _, _, hwishes, htype, hreason⟩,
    parseBuyerAction_iff.mpr ⟨hwishes, htype.prints, hreason.prints⟩⟩

end Mapae.Arcade
