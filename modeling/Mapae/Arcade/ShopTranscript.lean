import Mapae.Arcade.ShopLegal

/-!
# The whole transcript of a game

A transcript is kept in both languages to the end of the game.

* `Told` is the invariant beside the books and the speech
* every move tells two lines at most, and uses up one of the 34 moves
-/

namespace Mapae.Arcade

open Mapae.Infra Mapae.Guardians

variable {s s' s₀ : ShopState}

/-! ## In Korean -/

set_option maxRecDepth 2000 in
theorem clear_response_ko {wants : List ProductId} (h : s.Speech) (hwants : wants.Nodup) (reason : Json)
    {counter : Option CounterOffer} (hcounter : ∀ bid, counter = some bid → 0 ≤ bid.price ∧ bid.price ≤ 288) :
    Clear 200 (s.response wants reason counter).ko := by
  unfold ShopState.response
  cases counter with
  | some bid =>
    obtain ⟨hlow, hhigh⟩ := hcounter bid rfl
    exact (((by decide : Clear 9 "그 구성 그대로 ").append (clear_toString hlow (by omega))).append
      (by decide : Clear 16 "냥이면 살게요. 어떠세요?")).mono (by decide)
  | none =>
    dsimp only
    split
    · exact clear_ofList (by decide +kernel)
    · exact clear_ofList (by decide +kernel)
    · exact clear_ofList (by decide +kernel)
    · have hstory : Clear 60 (SHOP_STORIES s.buyer.story).line.ko := by
        cases s.buyer.story <;> exact clear_ofList (by decide +kernel)
      have hlist : Clear 80 (ShopState.listed
          (wants.map fun id => s!"{id.name.ko} {s.buyer.missing id}개") "필요한 물건") := by
        unfold ShopState.listed
        split
        · decide
        · refine (clear_intercalate_three (by decide : Clear 2 ", ") (n := 22) ?_ ?_).mono (by decide)
          · refine List.forall_mem_map.mpr fun id _ => ?_
            obtain ⟨hlow, hhigh⟩ := Buyer.missing_bounds (h.acquired s.customer) id
            exact (((id.clear_name_in .ko).append (by decide : Clear 1 " ")).append
              (clear_toString hlow (by omega))).append (by decide : Clear 1 "개")
          · rw [List.length_map]
            exact length_le_three hwants
      exact (((hstory.append (by decide : Clear 1 " ")).append hlist).append
        (by decide : Clear 13 ", 이렇게 찾고 있어요.")).mono (by decide)

theorem clear_farewell_ko {response : Text} (h : Clear 200 response.ko) : Clear 240 (s.farewell response).ko := by
  unfold ShopState.farewell
  split
  · exact clear_ofList (by decide +kernel)
  · split
    · split
      · exact (h.append (by decide : Clear 20 " 서둘러 가 봐야겠어요!")).mono (by decide)
      · exact (h.append (by decide : Clear 20 " 이번엔 다음에 올게요.")).mono (by decide)
    · exact h.mono (by decide)

theorem clear_receiptText_ko {offer : Offer} {receipt : ShopReceipt} (h : Quoted offer)
    (hvalue : 0 ≤ receipt.value ∧ receipt.value ≤ 100)
    (hachievement : 0 ≤ receipt.goalAchievement ∧ receipt.goalAchievement ≤ 100) :
    Clear 200 (ShopState.receiptText offer receipt).ko := by
  have hlist : Clear 75 (String.intercalate " + "
      (offer.items.map fun item => s!"{item.id.name.ko} ×{item.quantity}")) :=
    clear_bundleText h.toBundle .ko
  have hprice : Clear 3 (toString offer.price) := clear_toString h.price.1 (by have := h.price.2; omega)
  have hvalue' : Clear 3 (toString receipt.value) := clear_toString hvalue.1 (by omega)
  have hachievement' : Clear 3 (toString receipt.goalAchievement) := clear_toString hachievement.1 (by omega)
  have hreceipt := (by decide : Clear 6 "영수증 · ").append hlist
  have hmoney := (hreceipt.append (by decide : Clear 3 " · ")).append hprice
  have hworth := (hmoney.append (by decide : Clear 10 "냥 · 구매 가치 ")).append hvalue'
  have herrand := (hworth.append (by decide : Clear 10 "% · 준비 완료 ")).append hachievement'
  exact (herrand.append (by decide : Clear 1 "%")).mono (by decide)

set_option maxRecDepth 2000 in
theorem clear_shopReturnLine_ko (forecast : ShopForecast) : Clear 200 (shopReturnLine forecast).ko := by
  unfold shopReturnLine
  dsimp only
  split
  · have hname : Clear 4 (SHOP_REGULARS forecast.npc).name.ko := by cases forecast.npc <;> decide
    exact (hname.append (clear_ofList (by decide +kernel) :
      Clear 64 "의 첫 방문 · 마지막 손님을 위해 주문 재고를 남겨 주세요.")).mono (by decide)
  · split <;> cases forecast.npc <;> exact clear_ofList (by decide +kernel)

/-! ## What a move tells -/

/-- Fits a line of an outcome, in both languages. -/
def Brief (text : Text) : Prop := unitLength text.ko ≤ 400 ∧ unitLength text.en ≤ 400

theorem Text.brief {text : Text} {m n : Nat} (hko : Clear m text.ko) (hen : Clear n text.en) (hm : m ≤ 400)
    (hn : n ≤ 400) : Brief text :=
  ⟨hko.length.trans hm, hen.length.trans hn⟩

/-- What a receipt comes to. -/
structure Sold (receipt : ShopReceipt) : Prop extends Bundle receipt.items where
  price : 1 ≤ receipt.price ∧ receipt.price ≤ 288
  cost : 0 ≤ receipt.cost ∧ receipt.cost ≤ 36
  saving : -288 ≤ receipt.saving ∧ receipt.saving ≤ 72
  goalAchievement : 0 ≤ receipt.goalAchievement ∧ receipt.goalAchievement ≤ 100
  revisit : receipt.revisit = true → 85 ≤ receipt.value

/-- What a move adds: two lines at most, and a receipt or a block with a line of its own. -/
structure Tells (s s' : ShopState) : Prop where
  seed : s'.seed = s.seed
  memory : s'.startingMemory = s.startingMemory
  forecast : s'.forecast = s.forecast
  transcript : ∃ lines : List ShopLine, s'.transcript = s.transcript ++ lines ∧ lines.length ≤ 2 ∧
    (∀ line ∈ lines, Brief line.text) ∧ s'.receipts.length ≤ s.receipts.length + lines.length ∧
    s'.capBlocks ≤ s.capBlocks + lines.length
  receipts : ∀ receipt ∈ s'.receipts, receipt ∈ s.receipts ∨ Sold receipt

theorem Tells.applySellerAction {raw : Json} (hs' : Arcade.applySellerAction s raw = .ok s') : Tells s s' := by
  obtain ⟨action, offer, -, haction, -, rfl⟩ := applySellerAction_eq_ok hs'
  have hmessage : unitLength action.message ≤ 400 := (length_message haction).trans (by decide)
  refine ⟨rfl, rfl, rfl, ⟨[⟨.seller, action.message, action.message⟩], rfl, Nat.le_succ 1, fun line hline => ?_,
    Nat.le_add_right _ _, Nat.le_add_right _ _⟩, fun receipt hreceipt => .inl hreceipt⟩
  rw [List.mem_singleton.mp hline]
  exact ⟨hmessage, hmessage⟩

set_option maxRecDepth 2000 in
theorem Tells.blocked (s : ShopState) (b : Buyer) : Tells s (s.setBuyer b).blocked := by
  refine ⟨rfl, rfl, rfl, ⟨[⟨.system,
    "구매가 허용 범위를 넘어서 차단됐어요. 정확한 한도는 상대에게 보이지 않아요.",
    "Purchase blocked by the owner's spending limit. The exact limit stays private."⟩], rfl, by decide,
    fun line hline => ?_, Nat.le_add_right _ _, Nat.le_refl _⟩, fun receipt hreceipt => .inl hreceipt⟩
  rw [List.mem_singleton.mp hline]
  exact Text.brief (m := 400) (n := 400) (clear_ofList (by decide +kernel)) (clear_ofList (by decide +kernel))
    (by decide) (by decide)

theorem Tells.declined {wants : List ProductId} (h : s.Speech) (hwants : wants.Nodup) (reason : Json) :
    Tells s ((s.setBuyer (s.buyer.disclose wants)).declined wants reason) := by
  have hdisclosed := h.setBuyer (b := s.buyer.disclose wants) rfl (h.acquired s.customer)
  have hcounter : ∀ bid, (s.setBuyer (s.buyer.disclose wants)).counter reason = some bid →
      0 ≤ bid.price ∧ bid.price ≤ 288 := by
    intro bid hbid
    obtain ⟨offer, hoffer, rfl⟩ := counter_eq_some hbid
    exact bid_bounds (h.offer offer hoffer).toBundle
  refine ⟨rfl, rfl, rfl, ⟨[⟨.buyer, _⟩], rfl, Nat.le_succ 1, fun line hline => ?_, Nat.le_add_right _ _,
    Nat.le_add_right _ _⟩, fun receipt hreceipt => .inl hreceipt⟩
  rw [List.mem_singleton.mp hline]
  exact Text.brief (clear_farewell_ko (clear_response_ko hdisclosed hwants reason hcounter))
    (clear_farewell (clear_response hdisclosed hwants reason hcounter)) (by decide) (by decide)

/-- What a purchase is written down as. -/
theorem Sold.receipt {offer : Offer} (h : s.Speech) (hpriced : Priced offer.items offer.price)
    (hquoted : Quoted offer) (wants : List ProductId) :
    Sold (s.receipt offer ((s.buyer.disclose wants).take offer.items offer.price)) := by
  have hacquired : ∀ id, 0 ≤ ((s.buyer.disclose wants).take offer.items offer.price).acquired id :=
    fun id => Int.add_nonneg (h.acquired s.customer id) (quantities_nonneg hpriced.toBundle id)
  have hretail := hpriced.toBundle.retail_le
  have hretail' := hpriced.toBundle.retail_nonneg
  have hcost := hpriced.toBundle.stockCost_pos hpriced.ne_nil
  have hpos := hpriced.price
  have hprice := hquoted.price.2
  refine ⟨hpriced.toBundle, ⟨hpos, hprice⟩, ⟨by show 0 ≤ stockCost offer.items; omega,
    hpriced.toBundle.stockCost_le⟩, ?_, achievement_bounds hacquired, fun hrevisit => (of_decide_eq_true hrevisit).1⟩
  show -288 ≤ retail offer.items - offer.price ∧ retail offer.items - offer.price ≤ 72
  omega

theorem Tells.bought (hsound : s.Sound s₀) (h : s.Speech) (wants : List ProductId) {offer : Offer}
    (hoffer : s.offer = some offer) : Tells s (s.bought offer (s.buyer.disclose wants)) := by
  have hpriced := hsound.meeting.offer offer hoffer
  have hquoted := h.offer offer hoffer
  have hsold := Sold.receipt h hpriced hquoted wants
  have hvalue := value_receipt (s := s) hpriced ((s.buyer.disclose wants).take offer.items offer.price)
  have hprice : Clear 3 (toString offer.price) :=
    clear_toString hquoted.price.1 (by have := hquoted.price.2; omega)
  have hdeal : Brief ⟨s!"좋아요! {offer.price}냥에 살게요.", s!"Deal! I'll take it for {offer.price} coins."⟩ :=
    Text.brief (((by decide : Clear 5 "좋아요! ").append hprice).append (by decide : Clear 8 "냥에 살게요."))
      (((by decide : Clear 23 "Deal! I'll take it for ").append hprice).append (by decide : Clear 7 " coins."))
      (by decide) (by decide)
  have hreceipt : Brief (ShopState.receiptText offer _) :=
    Text.brief (clear_receiptText_ko hquoted hvalue hsold.goalAchievement)
      (clear_receiptText hquoted hvalue hsold.goalAchievement) (by decide) (by decide)
  refine ⟨rfl, rfl, rfl, ⟨[⟨.buyer, _⟩, ⟨.system, _⟩], List.append_assoc _ _ _, Nat.le_refl 2, ?_, ?_,
    Nat.le_add_right _ _⟩, fun receipt hmem => ?_⟩
  · exact List.forall_mem_cons.mpr ⟨hdeal, List.forall_mem_singleton.mpr hreceipt⟩
  · show (s.receipts ++ [_]).length ≤ s.receipts.length + 2
    rw [List.length_append, List.length_singleton]
    omega
  · obtain hmem | hmem := List.mem_append.mp hmem
    · exact .inl hmem
    · exact .inr (List.mem_singleton.mp hmem ▸ hsold)

theorem Tells.applyBuyerAction {raw : Json} (hsound : s.Sound s₀) (h : s.Speech)
    (hs' : Arcade.applyBuyerAction s raw = .ok s') : Tells s s' := by
  obtain ⟨-, wants, hwants, rfl | ⟨offer, hoffer, -, -, -, rfl⟩ | ⟨reason, rfl⟩⟩ := applyBuyerAction_eq_ok hs'
  · exact .blocked s (s.buyer.disclose wants)
  · exact .bought hsound h wants hoffer
  · exact .declined h hwants reason

set_option maxRecDepth 2000 in
/-- The customer who was sent says so. -/
theorem brief_greeting {referral : Referral} (h : Clear 20 referral.from_) :
    Brief ⟨s!"{referral.from_}에게 소개받고 왔어요. 주문을 잘 챙겨 준다면서요? 제안도 한 번 더 들어볼게요!",
      s!"{referral.from_} recommended your shop. They said you filled their whole order! I'll hear one extra offer."⟩ :=
  Text.brief (m := 120) (n := 120)
    ((h.append (clear_ofList (by decide +kernel) :
      Clear 100 "에게 소개받고 왔어요. 주문을 잘 챙겨 준다면서요? 제안도 한 번 더 들어볼게요!")))
    ((h.append (clear_ofList (by decide +kernel) :
      Clear 100 " recommended your shop. They said you filled their whole order! I'll hear one extra offer.")))
    (by decide) (by decide)

theorem brief_shopReturnLine (forecast : ShopForecast) : Brief (shopReturnLine forecast) :=
  Text.brief (clear_shopReturnLine_ko forecast) (clear_shopReturnLine forecast) (by decide) (by decide)

/-- Up to two lines greet. -/
theorem Tells.greet (h : ∀ referral, s.referral = some referral → Clear 20 referral.from_) : Tells s s.greet := by
  have hkept : ∀ receipt ∈ s.receipts, receipt ∈ s.receipts ∨ Sold receipt := fun receipt hmem => .inl hmem
  unfold ShopState.greet
  dsimp only
  split
  · next referral hreferral =>
    have hgreeting := brief_greeting (h referral hreferral)
    split
    · next forecast _ =>
      exact ⟨rfl, rfl, rfl, ⟨[⟨.buyer, _⟩, ⟨.buyer, _⟩], List.append_assoc _ _ _, Nat.le_refl 2,
        List.forall_mem_cons.mpr ⟨brief_shopReturnLine forecast, List.forall_mem_singleton.mpr hgreeting⟩,
        Nat.le_add_right _ _, Nat.le_add_right _ _⟩, hkept⟩
    · exact ⟨rfl, rfl, rfl, ⟨[⟨.buyer, _⟩], rfl, Nat.le_succ 1, List.forall_mem_singleton.mpr hgreeting,
        Nat.le_add_right _ _, Nat.le_add_right _ _⟩, hkept⟩
  · split
    · next forecast _ =>
      exact ⟨rfl, rfl, rfl, ⟨[⟨.buyer, _⟩], rfl, Nat.le_succ 1,
        List.forall_mem_singleton.mpr (brief_shopReturnLine forecast), Nat.le_add_right _ _,
        Nat.le_add_right _ _⟩, hkept⟩
    · exact ⟨rfl, rfl, rfl,
        ⟨[], (List.append_nil _).symm, by decide, List.forall_mem_nil _, Nat.le_refl _, Nat.le_refl _⟩, hkept⟩

/-- Entering tells nothing. -/
theorem Tells.entered {customer : Fin 3} {referral : Option Referral} (h : Tells (s.enter customer referral) s') :
    Tells s s' :=
  ⟨h.seed, h.memory, h.forecast, h.transcript, h.receipts⟩

theorem Tells.nextShopCustomer (h : s.Speech) (hs' : Arcade.nextShopCustomer s = .ok s') : Tells s s' := by
  simp only [Arcade.nextShopCustomer, bind_eq_ok, throwIf_eq_ok] at hs'
  obtain ⟨-, -, hs'⟩ := hs'
  split at hs'
  · obtain rfl := pure_eq_ok.mp hs'
    exact ⟨rfl, rfl, rfl, ⟨[], (List.append_nil _).symm, by decide, List.forall_mem_nil _, Nat.le_refl _, Nat.le_refl _⟩,
      fun receipt hmem => .inl hmem⟩
  · obtain rfl := pure_eq_ok.mp hs'
    refine Tells.entered (Tells.greet fun found hfound => ?_)
    change (if _ then _ else _) = some found at hfound
    split at hfound
    · obtain ⟨receipt, hreceipt, rfl⟩ := Option.map_eq_some_iff.mp hfound
      exact h.receipts receipt (mem_recommendation hreceipt)
    · cases hfound

/-! ## A whole game -/

/-- What is told of a game that was opened as `s₀`, and what its receipts come to. -/
structure Told (s s₀ : ShopState) : Prop where
  seed : s.seed = s₀.seed
  memory : s.startingMemory = s₀.startingMemory
  forecast : s.forecast = s₀.forecast
  lines : ∀ line ∈ s.transcript, Brief line.text
  /-- There is room for two lines in every move that is left. -/
  count : (s.transcript.length : Int) + 2 * movesLeft s ≤ 68
  receipts : ∀ receipt ∈ s.receipts, Sold receipt
  deals : s.receipts.length ≤ s.transcript.length
  blocks : s.capBlocks ≤ s.transcript.length

/-- **A move** keeps to its two lines. -/
theorem Told.move (h : Told s s₀) (hstep : Tells s s') (hless : movesLeft s' + 1 ≤ movesLeft s) : Told s' s₀ := by
  obtain ⟨lines, htranscript, hlength, hbrief, hdeals, hblocks⟩ := hstep.transcript
  have hsum : s'.transcript.length = s.transcript.length + lines.length := by
    rw [htranscript, List.length_append]
  have hcount := h.count
  have hold := h.deals
  have hold' := h.blocks
  refine ⟨hstep.seed.trans h.seed, hstep.memory.trans h.memory, hstep.forecast.trans h.forecast, fun line hline => ?_,
    by omega, fun receipt hreceipt => ?_, by omega, by omega⟩
  · rw [htranscript] at hline
    obtain hline | hline := List.mem_append.mp hline
    · exact h.lines line hline
    · exact hbrief line hline
  · exact (hstep.receipts receipt hreceipt).elim (h.receipts receipt) id

theorem told_createShop {seed : Int} {config : ShopConfig} {memory : Option ShopMemory}
    {aptitudes : Option GuardianAptitudes} (h : createShop seed config memory aptitudes = .ok s₀) : Told s₀ s₀ := by
  have hleft := movesLeft_createShop h
  obtain ⟨checked, -, -, -, rfl⟩ := createShop_eq_ok h
  refine ⟨rfl, rfl, rfl, nofun, ?_, nofun, Nat.le_refl 0, Nat.le_refl 0⟩
  show (0 : Int) + 2 * movesLeft (openShop seed checked memory aptitudes) ≤ 68
  omega

end Mapae.Arcade
