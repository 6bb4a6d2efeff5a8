import Mapae.Arcade.ShopTranscript
import Mapae.Properties.ShopBooks

/-!
# What a finished game comes to

The numbers and the texts of a finished game are small, whoever played it.

* `Told` and the books hold in every run
* `Modest` bounds what a game came to, and with it every text that speaks of it
* `shopOutcome_eq_ok`: a finished game has an outcome
-/

namespace Mapae.Arcade

open Mapae.Infra Mapae.Guardians

variable {s s' s₀ : ShopState}

/-! ## Every run -/

theorem movesLeft_apply {move : ShopMove} (hsound : s.Sound s₀) (h : s.Speech) (hs' : move.apply s = .ok s') :
    movesLeft s' + 1 ≤ movesLeft s := by
  cases move with
  | seller raw => exact movesLeft_applySellerAction hsound.meeting hs'
  | buyer raw => exact movesLeft_applyBuyerAction hsound.meeting hs'
  | advance => exact movesLeft_nextShopCustomer h.able hs'

theorem Tells.apply {move : ShopMove} (hsound : s.Sound s₀) (h : s.Speech) (hs' : move.apply s = .ok s') :
    Tells s s' := by
  cases move with
  | seller raw => exact .applySellerAction hs'
  | buyer raw => exact .applyBuyerAction hsound h hs'
  | advance => exact .nextShopCustomer h hs'

/-- What holds of a game that was opened as `s₀`. -/
structure WellKept (s s₀ : ShopState) : Prop where
  sound : s.Sound s₀
  speech : s.Speech
  told : Told s s₀

theorem WellKept.apply (h : WellKept s s₀) (move : ShopMove) (hs' : move.apply s = .ok s') : WellKept s' s₀ := by
  refine ⟨?_, ?_, h.told.move (.apply h.sound h.speech hs') (movesLeft_apply h.sound h.speech hs')⟩
  · cases move with
    | seller raw => exact h.sound.applySellerAction hs'
    | buyer raw => exact h.sound.applyBuyerAction hs'
    | advance => exact h.sound.nextShopCustomer hs'
  · cases move with
    | seller raw => exact h.speech.applySellerAction h.sound hs'
    | buyer raw => exact h.speech.applyBuyerAction h.sound hs'
    | advance => exact h.speech.nextShopCustomer hs'

theorem kept_createShop {seed : Int} {config : ShopConfig} {memory : Option ShopMemory}
    {aptitudes : Option GuardianAptitudes} (h : createShop seed config memory aptitudes = .ok s₀) : WellKept s₀ s₀ :=
  ⟨(fair_openShop h).sound, (fair_openShop h).speech, told_createShop h⟩

/-- **Every run** keeps the books, and tells little. -/
theorem WellKept.run {seed : Int} {config : ShopConfig} {memory : Option ShopMemory}
    {aptitudes : Option GuardianAptitudes} (h : createShop seed config memory aptitudes = .ok s₀)
    (moves : List ShopMove) : WellKept (run ShopMove.play s₀ moves) s₀ := by
  refine run_invariant (P := fun s : ShopState => WellKept s s₀) (fun s move hs => ?_) moves _ (kept_createShop h)
  unfold ShopMove.play
  split
  · next s' hs' => exact hs.apply move hs'
  · exact hs

/-- The moves of a game against a bot are moves. -/
theorem Faced.kept (hopen : WellKept s₀ s₀) (h : Faced s₀ s) : WellKept s s₀ := by
  induction h with
  | opened => exact hopen
  | seller _ _ hs' ih => exact ih.apply (.seller _) hs'
  | buyerBot _ _ _ hs' ih => exact ih.apply (.buyer _) hs'
  | buyer _ _ hs' ih => exact ih.apply (.buyer _) hs'
  | sellerBot _ _ _ hs' ih => exact ih.apply (.seller _) hs'
  | advance _ hs' ih => exact ih.apply .advance hs'

/-! ## The numbers -/

theorem sum_bounds {f : ShopReceipt → Int} {receipts : List ShopReceipt} {a b : Int}
    (h : ∀ receipt ∈ receipts, a ≤ f receipt ∧ f receipt ≤ b) :
    a * receipts.length ≤ (receipts.map f).sum ∧ (receipts.map f).sum ≤ b * receipts.length := by
  have hall : ∀ n ∈ receipts.map f, a ≤ n ∧ n ≤ b := List.forall_mem_map.mpr h
  have hlow := List.card_nsmul_le_sum (receipts.map f) a fun n hn => (hall n hn).1
  have hhigh := List.sum_le_card_nsmul (receipts.map f) b fun n hn => (hall n hn).2
  rw [List.length_map, nsmul_eq_mul, mul_comm] at hlow hhigh
  exact ⟨hlow, hhigh⟩

/-- The mean of percentages is one. -/
theorem mean_bounds {a n : Int} (hn : 0 < n) (h : 0 ≤ a ∧ a ≤ 100 * n) :
    0 ≤ Binary64.mathRound (Binary64.round ((a : ℚ) / n)) ∧
      Binary64.mathRound (Binary64.round ((a : ℚ) / n)) ≤ 100 := by
  have hn' : (0 : ℚ) < n := by exact_mod_cast hn
  have hlow : (0 : ℚ) ≤ a / n := div_nonneg (by exact_mod_cast h.1) hn'.le
  have hhigh : (a : ℚ) / n ≤ ((100 : Int) : ℚ) := by
    rw [div_le_iff₀ hn']
    exact_mod_cast h.2
  have hround := round_nonneg hlow
  constructor
  · unfold Binary64.mathRound
    exact Int.floor_nonneg.mpr (by linarith)
  · exact mathRound_le (Binary64.round_le (n := 100) (by norm_num) hhigh)

/-- What a game came to. -/
structure Modest (s : ShopState) : Prop where
  profit : -10000 ≤ (shopMetrics s).profit ∧ (shopMetrics s).profit ≤ 20000
  value : 0 ≤ (shopMetrics s).value ∧ (shopMetrics s).value ≤ 100
  goal : 0 ≤ (shopMetrics s).goal ∧ (shopMetrics s).goal ≤ 100
  savings : -20000 ≤ (shopMetrics s).savings ∧ (shopMetrics s).savings ≤ 20000
  revisit : (shopMetrics s).revisit ≤ 68
  spent : s.config.role = .buyer → 0 ≤ (shopMetrics s).spent ∧ (shopMetrics s).spent ≤ 20000
  score : 0 ≤ (shopMetrics s).score ∧ (shopMetrics s).score ≤ 300000
  blocks : s.capBlocks ≤ 68

theorem campaign_bounds (config : ShopConfig) : 0 ≤ (shopCampaign config).cost ∧ (shopCampaign config).cost ≤ 2 := by
  show 0 ≤ SHOP_AD_COST config.advertising ∧ SHOP_AD_COST config.advertising ≤ 2
  cases config.advertising <;> decide

/-- The campaign of a shop is paid once. -/
theorem advertisingCost_bounds {seed : Int} {config : ShopConfig} {memory : Option ShopMemory}
    {aptitudes : Option GuardianAptitudes} (h : createShop seed config memory aptitudes = .ok s₀) :
    0 ≤ s₀.advertisingCost ∧ s₀.advertisingCost ≤ 2 := by
  obtain ⟨checked, -, -, -, rfl⟩ := createShop_eq_ok h
  unfold openShop
  cases checked.role with
  | seller => exact campaign_bounds checked
  | buyer => exact ⟨Int.le_refl 0, by show (0 : Int) ≤ 2; decide⟩

theorem movesLeft_nonneg (h : Meeting s) : 0 ≤ movesLeft s := by
  by_cases hphase : s.phase = .finished
  · unfold movesLeft
    rw [hphase]
  · have := movesLeft_pos h hphase
    omega

theorem goal_bounds (h : s.Speech) : 0 ≤ (shopMetrics s).goal ∧ (shopMetrics s).goal ≤ 100 := by
  unfold shopMetrics
  dsimp only
  cases s.config.role with
  | buyer => exact achievement_bounds (h.acquired s.customer)
  | seller =>
    have hfirst := achievement_bounds (h.acquired 0)
    have hsecond := achievement_bounds (h.acquired 1)
    have hthird := achievement_bounds (h.acquired 2)
    have hmean := mean_bounds (a := achievement (s.buyers 0) + achievement (s.buyers 1) + achievement (s.buyers 2))
      (n := 3) (by decide) (by omega)
    exact hmean

/-- **What a game came to is small.** -/
theorem WellKept.modest (h : WellKept s s₀) (hadvertising : 0 ≤ s₀.advertisingCost ∧ s₀.advertisingCost ≤ 2) : Modest s := by
  have hsold := h.told.receipts
  have hvalues := h.sound.money.value
  have hleft := movesLeft_nonneg h.sound.meeting
  have hcount := h.told.count
  have hdeals := h.told.deals
  have hblocks := h.told.blocks
  have hreceipts : s.receipts.length ≤ 68 := by omega
  have hprice := sum_bounds (f := ShopReceipt.price) (a := 0) (b := 288) fun receipt hmem =>
    ⟨by have := (hsold receipt hmem).price.1; omega, (hsold receipt hmem).price.2⟩
  have hcost := sum_bounds (f := ShopReceipt.cost) fun receipt hmem => (hsold receipt hmem).cost
  have hsaving := sum_bounds (f := ShopReceipt.saving) fun receipt hmem => (hsold receipt hmem).saving
  have hvalue := sum_bounds (f := ShopReceipt.value) hvalues
  have htotal : (s.receipts.map ShopReceipt.price).sum = total s.receipts := rfl
  have hprofit : (shopMetrics s).profit = total s.receipts - (s.receipts.map ShopReceipt.cost).sum -
      s₀.advertisingCost := by
    show s.revenue - s.costOfSales - s.advertisingCost = _
    rw [h.sound.money.revenue, h.sound.money.costOfSales, h.sound.advertising]
  have hsavings : (shopMetrics s).savings = (s.receipts.map ShopReceipt.saving).sum := rfl
  have hgoal := goal_bounds h.speech
  have hmean : 0 ≤ (shopMetrics s).value ∧ (shopMetrics s).value ≤ 100 := by
    unfold shopMetrics
    dsimp only
    split
    · decide
    · next hne =>
      have hpos : 0 < s.receipts.length := List.length_pos_iff.mpr hne
      exact mean_bounds (n := s.receipts.length) (by omega) (by omega)
  have hscore : (shopMetrics s).score = max 0 ((shopMetrics s).profit * 10 + (shopMetrics s).goal) ∨
      (shopMetrics s).score = max 0 ((shopMetrics s).goal * 10 + (shopMetrics s).savings * 10 + (shopMetrics s).value) := by
    unfold shopMetrics
    dsimp only
    cases s.config.role with
    | seller => exact .inl rfl
    | buyer => exact .inr rfl
  refine ⟨by omega, hmean, hgoal, by omega, ?_, fun hrole => ?_, by omega, by omega⟩
  · exact (List.length_filter_le _ _).trans hreceipts
  · have hspent : (shopMetrics s).spent = total s.receipts :=
      h.sound.allowances.carried (h.sound.config ▸ hrole)
    omega

/-! ## The texts -/

theorem length_decimal {n : Nat} (h : n < 100000) : Clear 5 (String.ofList (Nat.toDigits 10 n)) := by
  have hdigit : ∀ c ∈ Nat.toDigits 10 n, units c = 1 ∧ 32 ≤ c.toNat := by
    intro c hc
    have hdigit := Nat.isDigit_of_mem_toDigits (by decide) (by decide) hc
    obtain ⟨hlow, hhigh⟩ := Bool.and_eq_true_iff.mp hdigit
    have hlow : '0'.toNat ≤ c.toNat := of_decide_eq_true hlow
    have hhigh : c.toNat ≤ '9'.toNat := of_decide_eq_true hhigh
    have hzero : '0'.toNat = 48 := rfl
    have hnine : '9'.toNat = 57 := rfl
    exact ⟨if_pos (by omega), by omega⟩
  refine ⟨?_, fun c hc => ?_⟩
  · have hone : (Nat.toDigits 10 n).map units = (Nat.toDigits 10 n).map fun _ => 1 :=
      List.map_congr_left fun c hc => (hdigit c hc).1
    unfold unitLength
    rw [String.toList_ofList, hone, List.map_const', List.sum_replicate, nsmul_eq_mul, mul_one, Nat.cast_id]
    exact (Nat.length_toDigits_le_iff (by decide) (by decide)).mpr h
  · rw [String.toList_ofList] at hc
    exact (hdigit c hc).2

/-- An amount, which may be a loss. -/
theorem clear_amount {n : Int} (h : -100000 < n ∧ n < 100000) : Clear 6 (toString n) := by
  cases n with
  | ofNat n => exact (length_decimal (Int.ofNat_lt.mp h.2)).mono (by decide)
  | negSucc n =>
    have hsmall : n + 1 < 100000 := by have := h.1; omega
    exact (by decide : Clear 1 "-").append (length_decimal hsmall)

theorem mem_bestReceipt {receipt : ShopReceipt} (h : s.bestReceipt = some receipt) : receipt ∈ s.receipts := by
  simp only [ShopState.bestReceipt, Option.orElse_eq_orElse, Option.orElse_eq_or] at h
  obtain h | ⟨-, h⟩ := Option.or_eq_some_iff.mp h
  · exact List.mem_of_find?_eq_some h
  · obtain h | ⟨-, h⟩ := Option.or_eq_some_iff.mp h
    · exact List.mem_of_find?_eq_some h
    · exact List.mem_of_getLast? h

theorem clear_customerName_in (h : s.Speech) (index : Fin 3) (locale : Guardians.Locale) :
    Clear 20 (s.customerName index locale) := by
  unfold ShopState.customerName
  split
  · exact h.customers index
  · split
    · next forecast _ => cases forecast.npc <;> decide
    · decide
    · decide

set_option maxRecDepth 2000 in
theorem brief_referralText {name : String} (h : Clear 20 name) : Brief (ShopState.referralText name) :=
  Text.brief (h.append (clear_ofList (by decide +kernel) :
      Clear 100 "의 소개로 마지막 손님에게 제안할 기회를 한 번 더 얻었어요."))
    (h.append (clear_ofList (by decide +kernel) :
      Clear 100 "'s recommendation earned one extra offer with the final customer.")) (by decide) (by decide)

set_option maxRecDepth 2000 in
theorem brief_noDealText : Brief ShopState.noDealText :=
  Text.brief (clear_ofList (by decide +kernel) : Clear 100 ShopState.noDealText.ko)
    (clear_ofList (by decide +kernel) : Clear 100 ShopState.noDealText.en) (by decide) (by decide)

/-- What is told of a deal. -/
theorem brief_dealText (h : WellKept s s₀) (hmodest : Modest s) {receipt : ShopReceipt} (hmem : receipt ∈ s.receipts) :
    Brief (s.dealText receipt) := by
  have hsold := h.told.receipts receipt hmem
  have hprice := hsold.price
  have hcost := hsold.cost
  have hmargin : Clear 6 (toString (receipt.price - receipt.cost)) := clear_amount (by omega)
  have hachievement : Clear 6 (toString receipt.goalAchievement) :=
    clear_amount (by have := hsold.goalAchievement; omega)
  have hgoal : Clear 6 (toString (shopMetrics s).goal) := clear_amount (by have := hmodest.goal; omega)
  have hgoods : Clear 6 (toString (receipt.items.map Item.quantity).sum) := by
    have hle := sum_le_of_le (f := Item.quantity) (n := 3) fun item hitem => (hsold.quantity item hitem).2
    have hnonneg : 0 ≤ (receipt.items.map Item.quantity).sum :=
      List.sum_nonneg (List.forall_mem_map.mpr fun item hitem => by
        have := (hsold.quantity item hitem).1
        omega)
    have hlength := hsold.toBundle.length_le
    exact clear_amount (by omega)
  unfold ShopState.dealText
  dsimp only
  split
  · have hcustomer := h.speech.receipts receipt hmem
    have hname := clear_customerName_in h.speech receipt.customerIndex .en
    have hko := ((hcustomer.append (by decide : Clear 3 "에게 ")).append hgoods).append (by decide : Clear 7 "개를 팔아 ")
    have hko' := ((hko.append hmargin).append (by decide : Clear 10 "냥 이익 · 주문 ")).append hachievement
    have hen := (((by decide : Clear 5 "Sold ").append hgoods).append (by decide : Clear 10 " goods to ")).append hname
    have hen' := ((hen.append (by decide : Clear 2 ": ")).append hmargin).append (by decide : Clear 15 " coins profit, ")
    exact Text.brief (hko'.append (by decide : Clear 8 "%를 채웠어요."))
      ((hen'.append hachievement).append (by decide : Clear 25 "% of their errand filled.")) (by decide) (by decide)
  · next hsells =>
    have hrole : s.config.role = .buyer := by
      cases hrole : s.config.role with
      | buyer => rfl
      | seller => exact absurd (decide_eq_true hrole) hsells
    have hspent : Clear 6 (toString (shopMetrics s).spent) := clear_amount (by have := hmodest.spent hrole; omega)
    have hko := ((by decide : Clear 12 "마지막 구매까지 목표 ").append hgoal).append (by decide : Clear 14 "% 달성 · 한도 안에서 ")
    have hen := ((by decide : Clear 8 "Reached ").append hgoal).append (by decide : Clear 25 "% of your goal, spending ")
    exact Text.brief ((hko.append hspent).append (by decide : Clear 8 "냥을 썼어요."))
      ((hen.append hspent).append (by decide : Clear 23 " coins within your cap.")) (by decide) (by decide)

theorem mem_finalReceipt {receipt : ShopReceipt} (h : s.finalReceipt = some receipt) : receipt ∈ s.receipts :=
  List.mem_of_find?_eq_some h

set_option maxRecDepth 2000 in
/-- What is told of a second visit. -/
theorem brief_visitText (h : WellKept s s₀) (forecast : ShopForecast) : Brief (s.visitText forecast) := by
  have hname : Clear 4 (SHOP_REGULARS forecast.npc).name.ko ∧ Clear 4 (SHOP_REGULARS forecast.npc).name.en := by
    cases forecast.npc <;> decide
  have htrust : ∀ trusted : Bool,
      Clear 60 (if trusted then (⟨"지난 완수의 신뢰로 정가 제안 가능", "past service earned trust at retail"⟩ : Text)
        else ⟨"지난 서비스 뒤 다시 도전", "a second chance after last time"⟩).ko ∧
      Clear 60 (if trusted then (⟨"지난 완수의 신뢰로 정가 제안 가능", "past service earned trust at retail"⟩ : Text)
        else ⟨"지난 서비스 뒤 다시 도전", "a second chance after last time"⟩).en := by
    decide +kernel
  have hko := ((hname.1.append (by decide : Clear 12 "의 두 번째 방문 · ")).append (htrust forecast.trusted).1).append
    (by decide : Clear 6 " · 오늘 ")
  have hen := ((hname.2.append (by decide : Clear 18 "'s second visit: ")).append (htrust forecast.trusted).2).append
    (by decide : Clear 2 "; ")
  have hstop : Clear 1 "." := by decide
  unfold ShopState.visitText
  cases hfinal : s.finalReceipt with
  | none =>
    have htoday : Clear 30 "거래 없음" ∧ Clear 30 "no deal today" := by decide
    exact Text.brief ((hko.append htoday.1).append hstop) ((hen.append htoday.2).append hstop) (by decide) (by decide)
  | some receipt =>
    have hsold := h.told.receipts receipt (mem_finalReceipt hfinal)
    have hmargin : Clear 6 (toString (receipt.price - receipt.cost)) :=
      clear_amount (by have := hsold.price; have := hsold.cost; omega)
    have htoday := (hmargin.append (by decide : Clear 4 "냥 이익")).mono (by decide : 6 + 4 ≤ 30)
    have htoday' := (hmargin.append (by decide : Clear 19 " coins profit today")).mono (by decide : 6 + 19 ≤ 30)
    exact Text.brief ((hko.append htoday).append hstop) ((hen.append htoday').append hstop) (by decide) (by decide)

/-- **Up to two highlights**, and they are short. -/
theorem brief_highlights (h : WellKept s s₀) (hmodest : Modest s) :
    s.highlights.length ≤ 2 ∧ ∀ text ∈ s.highlights, Brief text := by
  have htold : ∀ told : List Text, told.length ≤ 2 → (∀ text ∈ told, Brief text) →
      (if told = [] then [ShopState.noDealText] else told).length ≤ 2 ∧
        ∀ text ∈ (if told = [] then [ShopState.noDealText] else told), Brief text := by
    intro told hlength hbrief
    split
    · exact ⟨by simp, List.forall_mem_singleton.mpr brief_noDealText⟩
    · exact ⟨hlength, hbrief⟩
  have hparts : ∀ text ∈ (s.referral.map fun referral => ShopState.referralText referral.from_).toList ++
      (s.bestReceipt.map s.dealText).toList, Brief text := by
    intro text htext
    obtain htext | htext := List.mem_append.mp htext
    · obtain ⟨referral, hreferral, rfl⟩ := Option.map_eq_some_iff.mp (Option.mem_toList.mp htext)
      exact brief_referralText (h.speech.referral referral hreferral)
    · obtain ⟨receipt, hreceipt, rfl⟩ := Option.map_eq_some_iff.mp (Option.mem_toList.mp htext)
      exact brief_dealText h hmodest (mem_bestReceipt hreceipt)
  have hlength : ((s.referral.map fun referral => ShopState.referralText referral.from_).toList ++
      (s.bestReceipt.map s.dealText).toList).length ≤ 2 := by
    rw [List.length_append]
    exact Nat.add_le_add (Option.length_toList_le) (Option.length_toList_le)
  have hboth := htold _ hlength hparts
  unfold ShopState.highlights
  dsimp only
  split
  · next forecast _ =>
    refine ⟨?_, List.forall_mem_cons.mpr ⟨brief_visitText h forecast, fun text htext =>
      hboth.2 text (List.mem_of_mem_tail htext)⟩⟩
    have := hboth.1
    rw [List.length_cons, List.length_tail]
    omega
  · exact hboth

theorem brief_summary (hmodest : Modest s) : Brief s.summary := by
  have hprofit : Clear 6 (toString (shopMetrics s).profit) := clear_amount (by have := hmodest.profit; omega)
  have hgoal : Clear 6 (toString (shopMetrics s).goal) := clear_amount (by have := hmodest.goal; omega)
  have hsavings : Clear 6 (toString (shopMetrics s).savings) := clear_amount (by have := hmodest.savings; omega)
  unfold ShopState.summary
  dsimp only
  split
  · exact Text.brief
      ((((by decide : Clear 12 "손님 3명 · 순이익 ").append hprofit).append (by decide : Clear 11 "냥 · 주문 완수 ")).append hgoal
        |>.append (by decide : Clear 1 "%"))
      ((((by decide : Clear 14 "3 customers · ").append hprofit).append (by decide : Clear 16 " coins profit · ")).append hgoal
        |>.append (by decide : Clear 19 "% of errands filled")) (by decide) (by decide)
  · exact Text.brief
      ((((by decide : Clear 15 "가게 3곳 · 구매 목표 ").append hgoal).append (by decide : Clear 4 "% · ")).append hsavings
        |>.append (by decide : Clear 4 "냥 절약"))
      ((((by decide : Clear 10 "3 shops · ").append hgoal).append (by decide : Clear 12 "% of goal · ")).append hsavings
        |>.append (by decide : Clear 12 " coins saved")) (by decide) (by decide)

/-! ## The memory -/

/-- **What the last customer remembers** is accepted the next time. -/
theorem parseShopMemory_nextMemory (h : WellKept s s₀)
    (hvisit : ∀ forecast, s.forecast = some forecast → forecast.visit = 1 ∨ forecast.visit = 2)
    {memory : ShopMemory} (hmemory : s.nextMemory = some memory) : parseShopMemory memory = some memory := by
  unfold ShopState.nextMemory at hmemory
  split at hmemory
  · obtain ⟨forecast, hforecast, rfl⟩ := Option.map_eq_some_iff.mp hmemory
    have hvisit := hvisit forecast hforecast
    refine if_neg ?_
    cases hfinal : s.finalReceipt with
    | none =>
      simp
      omega
    | some receipt =>
      have hvalue := h.sound.money.value receipt (mem_finalReceipt hfinal)
      have hrevisit := (h.told.receipts receipt (mem_finalReceipt hfinal)).revisit
      cases hcomplete : receipt.revisit with
      | true =>
        have := hrevisit hcomplete
        simp [hcomplete]
        omega
      | false =>
        simp [hcomplete]
        omega
  · cases hmemory

/-! ## The outcome -/

/-- A configuration that was checked passes again, whatever else the shop does. -/
theorem parseShopConfig_of_checked {config checked other : ShopConfig} (h : parseShopConfig config = some checked)
    (hname : other.name = checked.name) (hcap : other.buyerCap = checked.buyerCap) :
    parseShopConfig other = some other := by
  unfold parseShopConfig at h
  dsimp only at h
  split at h
  · cases h
  · next hvalid =>
    obtain rfl := Option.some.inj h
    change other.name = String.ofList (trim config.name) at hname
    change other.buyerCap = config.buyerCap at hcap
    have htrim : trim other.name = trim config.name := by rw [hname, trim_trim]
    unfold parseShopConfig
    dsimp only
    rw [htrim, hcap, if_neg hvalid, ← hname, ← hcap]

theorem createShop_of_checked {seed : Int} {config checked other : ShopConfig} {memory memory' : Option ShopMemory}
    {aptitudes : Option GuardianAptitudes} (h : createShop seed config memory aptitudes = .ok s₀)
    (hchecked : parseShopConfig config = some checked) (hname : other.name = checked.name)
    (hcap : other.buyerCap = checked.buyerCap) (hmemory : memory' = none ∨ memory' = memory) :
    createShop seed other memory' aptitudes = .ok (openShop seed other memory' aptitudes) := by
  have hother := parseShopConfig_of_checked hchecked hname hcap
  unfold createShop at h ⊢
  rw [hchecked] at h
  rw [hother]
  simp only [bind_eq_ok, throwIf_eq_ok] at h ⊢
  obtain ⟨_, hseed, _, hpast, _, haptitudes, -⟩ := h
  refine ⟨⟨⟩, hseed, ⟨⟩, ?_, ⟨⟩, haptitudes, rfl⟩
  obtain rfl | rfl := hmemory
  · exact Bool.false_ne_true
  · exact hpast

/-- What a game was opened with, as its states show it. -/
theorem startingMemory_openShop (seed : Int) (config : ShopConfig) {memory : Option ShopMemory}
    (aptitudes : Option GuardianAptitudes) (h : (memory.any fun memory => (parseShopMemory memory).isNone) ≠ true) :
    (openShop seed config memory aptitudes).startingMemory = none ∨
      (openShop seed config memory aptitudes).startingMemory = memory := by
  unfold openShop
  cases config.role with
  | buyer => exact .inl rfl
  | seller =>
    refine .inr ?_
    show memory.bind parseShopMemory = memory
    cases memory with
    | none => rfl
    | some memory =>
      show parseShopMemory memory = some memory
      unfold parseShopMemory at h ⊢
      split
      · next hbad =>
        rw [Option.any_some, if_pos hbad] at h
        exact absurd rfl h
      · rfl

/-- A game of the bots beside a game: it is played to its end, and comes to little. -/
theorem exists_simulateShop {seed : Int} {config other : ShopConfig} {memory : Option ShopMemory}
    {aptitudes : Option GuardianAptitudes} (h : createShop seed config memory aptitudes = .ok s₀)
    (hkept : WellKept s s₀) (hname : other.name = s.config.name) (hcap : other.buyerCap = s.config.buyerCap)
    (style : BuyerStyle) :
    ∃ beside, simulateShop s.seed other style s.startingMemory s.aptitudes = .ok beside ∧ Modest beside := by
  have hmemory : (memory.any fun memory => (parseShopMemory memory).isNone) ≠ true := by
    unfold createShop at h
    split at h
    · cases h
    · simp only [bind_eq_ok, throwIf_eq_ok] at h
      obtain ⟨_, _, _, hpast, -⟩ := h
      exact hpast
  obtain ⟨checked, hchecked, -, -, rfl⟩ := createShop_eq_ok h
  have hconfig : s.config = checked := hkept.sound.config
  have hseed : s.seed = seed := hkept.told.seed
  have haptitudes : s.aptitudes = aptitudes := hkept.sound.aptitudes
  rw [hconfig] at hname hcap
  rw [hseed, haptitudes, hkept.told.memory]
  have hstart := startingMemory_openShop seed checked aptitudes hmemory
  have hopen := createShop_of_checked h hchecked hname hcap hstart
  obtain ⟨beside, hbeside, -, hfaced⟩ := simulateShop_finishes hopen style
  exact ⟨beside, hbeside, (hfaced.kept (kept_createShop hopen)).modest (advertisingCost_bounds hopen)⟩

/-- **A finished game has an outcome.** -/
theorem shopOutcome_eq_ok {seed : Int} {config : ShopConfig} {memory : Option ShopMemory}
    {aptitudes : Option GuardianAptitudes} (h : createShop seed config memory aptitudes = .ok s₀)
    (hkept : WellKept s s₀) (hphase : s.phase = .finished) (name : String) (locale : Guardians.Locale) :
    ∃ baseline comparison, Modest baseline ∧ Modest comparison ∧ shopOutcome s name locale = .ok {
      game := "shop"
      victory := if s.sells then 0 < (shopMetrics s).profit else (shopMetrics s).goal = 100
      shopMemory := s.nextMemory
      replay := ⟨s.seed, Outings.ARCADE_RULESET_VERSION, s.aptitudes, s.config, s.startingMemory⟩
      score := (shopMetrics s).score
      highlights := s.highlights
      summary := s.summary
      metrics := s.metrics
      transcript := s.transcript.map fun line => (line.speaker.text, line.text.in locale)
      ranking := [(name, (shopMetrics s).score), (baselineName locale, (shopMetrics baseline).score),
        (comparisonName s.sells locale, (shopMetrics comparison).score)].mergeSort fun a b => b.2 ≤ a.2 } := by
  have hnames : (baselineConfig s.config).name = s.config.name ∧
      (baselineConfig s.config).buyerCap = s.config.buyerCap ∧ (comparisonConfig s.config).name = s.config.name ∧
      (comparisonConfig s.config).buyerCap = s.config.buyerCap := by
    unfold baselineConfig comparisonConfig
    cases s.config.role <;> exact ⟨rfl, rfl, rfl, rfl⟩
  obtain ⟨hname, hcap, hname', hcap'⟩ := hnames
  obtain ⟨baseline, hbaseline, hmodest⟩ := exists_simulateShop h hkept hname hcap .careful
  obtain ⟨comparison, hcomparison, hmodest'⟩ := exists_simulateShop h hkept hname' hcap' (comparisonStyle s.config)
  refine ⟨baseline, comparison, hmodest, hmodest', ?_⟩
  unfold shopOutcome
  exact bind_eq_ok.mpr ⟨⟨⟩, throwIf_eq_ok.mpr (not_not.mpr hphase), bind_eq_ok.mpr ⟨baseline, hbaseline,
    bind_eq_ok.mpr ⟨comparison, hcomparison, rfl⟩⟩⟩

end Mapae.Arcade
