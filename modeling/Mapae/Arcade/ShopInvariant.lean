import Mapae.Arcade.Shop
import Mapae.Infra.Transition

/-!
# The books of the shop

* `Money`, `Goods` and `Allowances` are the books, each over the fields it is about
* `Meeting` is what holds in a meeting, so that an offer can always be carried out
* each move keeps all four
-/

namespace Mapae.Arcade

open Mapae.Infra

variable {s s' s₀ : ShopState} {items : List Item} {price : Int}

/-! ## Items and prices -/

/-- Items that can be sold: some, different products, one to three of each, for a price. -/
structure Priced (items : List Item) (price : Int) : Prop extends Bundle items where
  ne_nil : items ≠ []
  price : 1 ≤ price

theorem sum_pos_of_ne_nil {f : Item → Int} (h : ∀ item ∈ items, 1 ≤ f item) (hne : items ≠ []) :
    1 ≤ (items.map f).sum := by
  induction items with
  | nil => exact absurd rfl hne
  | cons head rest ih =>
    obtain ⟨hhead, hrest⟩ := List.forall_mem_cons.mp h
    rw [List.map_cons, List.sum_cons]
    by_cases hnil : rest = []
    · rw [hnil]
      simpa using hhead
    · have := ih hrest hnil
      omega

theorem ProductId.cost_pos (id : ProductId) : 1 ≤ id.cost := by cases id <;> decide

theorem ProductId.retail_pos (id : ProductId) : 1 ≤ id.retail := by cases id <;> decide

section Bundles

variable (h : Bundle items) (hne : items ≠ [])

include h hne

theorem Bundle.count_pos : 1 ≤ (items.map Item.quantity).sum :=
  sum_pos_of_ne_nil (fun item hitem => (h.quantity item hitem).1) hne

theorem Bundle.stockCost_pos : 1 ≤ stockCost items := by
  refine sum_pos_of_ne_nil (fun item hitem => ?_) hne
  have hcost := item.id.cost_pos
  have hquantity := (h.quantity item hitem).1
  nlinarith

theorem Bundle.retail_pos : 1 ≤ retail items := by
  refine sum_pos_of_ne_nil (fun item hitem => ?_) hne
  have hretail := item.id.retail_pos
  have hquantity := (h.quantity item hitem).1
  nlinarith

end Bundles

/-- Of different products, each item is all there is of its product. -/
theorem quantities_of_mem (h : (items.map Item.id).Nodup) {item : Item} (hitem : item ∈ items) :
    quantities items item.id = item.quantity := by
  unfold quantities
  induction items with
  | nil => exact nomatch hitem
  | cons head rest ih =>
    obtain ⟨hhead, hrest⟩ := List.nodup_cons.mp h
    have hnone : ∀ id, id ∉ rest.map Item.id → rest.filter (fun item => item.id = id) = [] := by
      intro id hid
      refine List.filter_eq_nil_iff.mpr fun x hx => ?_
      simp only [decide_eq_true_eq]
      rintro rfl
      exact hid (List.mem_map_of_mem hx)
    rcases List.mem_cons.mp hitem with rfl | hitem
    · simp [hnone _ hhead]
    · have hne : head.id ≠ item.id := fun he => hhead (he ▸ List.mem_map_of_mem hitem)
      simpa [hne] using ih hrest hitem

/-- Stock that covers each item covers all that is taken. -/
theorem quantities_le {inventory : Basket} (h : (items.map Item.id).Nodup)
    (hstock : ∀ item ∈ items, item.quantity ≤ inventory item.id)
    (hpos : ∀ id, 0 ≤ inventory id) (id : ProductId) : quantities items id ≤ inventory id := by
  by_cases hid : id ∈ items.map Item.id
  · obtain ⟨item, hitem, rfl⟩ := List.mem_map.mp hid
    rw [quantities_of_mem h hitem]
    exact hstock item hitem
  · have hnone : items.filter (fun item => item.id = id) = [] := by
      refine List.filter_eq_nil_iff.mpr fun item hitem => ?_
      simp only [decide_eq_true_eq]
      rintro rfl
      exact hid (List.mem_map_of_mem hitem)
    simp [quantities, hnone, hpos id]

/-! ## The value of a purchase -/

theorem usefulOf_bounds (goal : ShopGoal) (h : ∀ item ∈ items, 1 ≤ item.quantity) :
    ∀ acquired, 0 ≤ ShopState.usefulOf goal acquired items ∧
      ShopState.usefulOf goal acquired items ≤ (items.map Item.quantity).sum := by
  induction items with
  | nil => exact fun _ => ⟨Int.le_refl 0, Int.le_refl 0⟩
  | cons head rest ih =>
    intro acquired
    obtain ⟨hhead, hrest⟩ := List.forall_mem_cons.mp h
    have hbounds := ih hrest
      fun id => if id = head.id then acquired id + head.quantity else acquired id
    rw [ShopState.usefulOf, List.map_cons, List.sum_cons]
    omega

/-- **A value is a percentage.** -/
theorem valueOf_bounds {useful count fair : Int} (huseful : 0 ≤ useful) (hle : useful ≤ count)
    (hcount : 1 ≤ count) (hfair : 0 ≤ fair) (hprice : 1 ≤ price) :
    0 ≤ ShopState.valueOf useful count fair price ∧
      ShopState.valueOf useful count fair price ≤ 100 := by
  have hcount' : (0 : ℚ) < count := by exact_mod_cast hcount
  have hprice' : (0 : ℚ) < price := by exact_mod_cast hprice
  have hle' : (useful : ℚ) ≤ count := by exact_mod_cast hle
  have hround {x : ℚ} (h : 0 ≤ x) : 0 ≤ Binary64.round x := by
    simpa using Binary64.le_round (n := 0) (by norm_num) (by simpa using h)
  have hround' {x : ℚ} (h : x ≤ 100) : Binary64.round x ≤ 100 := by
    simpa using Binary64.round_le (n := 100) (by norm_num) (by simpa using h)
  have hshare : (0 : ℚ) ≤ ((100 * useful : Int) : ℚ) / count := by
    have : (0 : ℚ) ≤ ((100 * useful : Int) : ℚ) := by exact_mod_cast (by omega : 0 ≤ 100 * useful)
    positivity
  have hshare' : ((100 * useful : Int) : ℚ) / count ≤ 100 := by
    rw [div_le_iff₀ hcount']
    push_cast
    linarith
  have hscaled : 0 ≤ scaled fair 85 := by
    refine hround (mul_nonneg (by exact_mod_cast hfair) (hround ?_))
    norm_num
  have hfairness : 0 ≤ min 1 (Binary64.round (scaled fair 85 / price)) :=
    le_min zero_le_one (hround (div_nonneg hscaled hprice'.le))
  have hproduct := mul_nonneg (hround hshare) hfairness
  have hproduct' : Binary64.round (((100 * useful : Int) : ℚ) / count) *
      min 1 (Binary64.round (scaled fair 85 / price)) ≤ 100 :=
    (mul_le_of_le_one_right (hround hshare) (min_le_left _ _)).trans (hround' hshare')
  have hlow := hround hproduct
  have hhigh := hround' hproduct'
  unfold ShopState.valueOf Binary64.mathRound
  constructor
  · exact Int.floor_nonneg.mpr (by linarith)
  · refine Int.lt_add_one_iff.mp (Int.floor_lt.mpr ?_)
    refine lt_of_le_of_lt (add_le_add_left hhigh (1 / 2)) ?_
    norm_num

/-! ## The books -/

/-- What the receipts add up to. -/
def total (receipts : List ShopReceipt) : Int := (receipts.map ShopReceipt.price).sum

/-- What was sold of a product. -/
def sold (receipts : List ShopReceipt) (id : ProductId) : Int :=
  (receipts.map fun receipt => quantities receipt.items id).sum

structure Money (config : ShopConfig) (advertisingCost cash revenue costOfSales : Int)
    (receipts : List ShopReceipt) : Prop where
  cash : cash = SHOP_INITIAL_CAPITAL - cost (stock config) - advertisingCost + total receipts
  revenue : revenue = total receipts
  costOfSales : costOfSales = (receipts.map ShopReceipt.cost).sum
  value : ∀ receipt ∈ receipts, 0 ≤ receipt.value ∧ receipt.value ≤ 100

/-- The receipts of the shop that the meeting is in. The owner who buys visits three shops. -/
def shopReceipts (config : ShopConfig) (customer : Fin 3) (receipts : List ShopReceipt) :
    List ShopReceipt :=
  receipts.filter fun receipt => config.role = .seller ∨ receipt.customerIndex = customer

structure Goods (config : ShopConfig) (customer : Fin 3) (inventory : Basket)
    (receipts : List ShopReceipt) : Prop where
  stocked : ∀ id, inventory id + sold (shopReceipts config customer receipts) id = stock config id
  nonneg : ∀ id, 0 ≤ inventory id

/-- The allowances are those of the opening, and what is spent of them is on the receipts. -/
structure Allowances (s₀ : ShopState) (buyers : Fin 3 → Buyer) (customer : Fin 3)
    (receipts : List ShopReceipt) : Prop where
  kept : ∀ i, (buyers i).cap = (s₀.buyers i).cap ∧ (buyers i).balance = (s₀.buyers i).balance
  within : ∀ i, 0 ≤ (buyers i).spent ∧ (buyers i).spent ≤ (buyers i).cap ∧
    (buyers i).spent ≤ (buyers i).balance
  /-- Each customer of a seller pays with its own money. -/
  spent : s₀.config.role = .seller → ∀ i,
    (buyers i).spent = total (receipts.filter fun receipt => receipt.customerIndex = i)
  /-- The owner who buys pays everything out of one allowance. -/
  carried : s₀.config.role = .buyer → (buyers customer).spent = total receipts
  earlier : ∀ receipt ∈ receipts, receipt.customerIndex ≤ customer

structure Meeting (s : ShopState) : Prop where
  patience : 1 ≤ s.patience
  rounds : s.rounds ≤ s.patience
  turn : s.phase = .seller → s.rounds < s.patience
  offer : ∀ offer, s.offer = some offer → Priced offer.items offer.price
  counter : ∀ counter, s.counterOffer = some counter → Priced counter.items counter.price

/-- The books of a shop that was opened as `s₀`. -/
structure ShopState.Sound (s s₀ : ShopState) : Prop where
  config : s.config = s₀.config
  aptitudes : s.aptitudes = s₀.aptitudes
  able : ∀ aptitudes, s₀.aptitudes = some aptitudes → 4 ≤ aptitudes.shop
  /-- The owner who buys is the same customer in every shop. -/
  owned : s₀.config.role = .buyer → ∀ i j, (s₀.buyers i).cap = (s₀.buyers j).cap ∧
    (s₀.buyers i).balance = (s₀.buyers j).balance
  money : Money s.config s₀.advertisingCost s.cash s.revenue s.costOfSales s.receipts
  advertising : s.advertisingCost = s₀.advertisingCost
  goods : Goods s.config s.customer s.inventory s.receipts
  allowances : Allowances s₀ s.buyers s.customer s.receipts
  wishes : ∀ i, (s.buyers i).disclosed.Nodup
  meeting : Meeting s

/-! ## Speaking -/

theorem Meeting.line (h : Meeting s) (speaker : Speaker) (text : Text) :
    Meeting (s.line speaker text) :=
  ⟨h.patience, h.rounds, h.turn, h.offer, h.counter⟩

theorem ShopState.Sound.line (h : s.Sound s₀) (speaker : Speaker) (text : Text) :
    (s.line speaker text).Sound s₀ :=
  ⟨h.config, h.aptitudes, h.able, h.owned, h.money, h.advertising, h.goods, h.allowances,
    h.wishes, h.meeting.line speaker text⟩

/-! ## What a seller offers -/

namespace SellerObservation

variable {o : SellerObservation}

theorem full_priced (h : o.requestedItems.Nodup) : Bundle o.full := by
  have hids : o.full.map Item.id = o.wanted := by
    rw [full, List.map_map]
    exact List.map_id _
  refine ⟨hids ▸ h.filter _, fun item hitem => ?_⟩
  obtain ⟨id, hid, rfl⟩ := List.mem_map.mp hitem
  have hpos := of_decide_eq_true (List.mem_filter.mp hid).2
  dsimp only
  omega

theorem small_priced (h : o.requestedItems.Nodup) : Bundle o.small := by
  have hfull := full_priced h
  have hids : o.small.map Item.id = o.full.map Item.id := by
    rw [small, List.map_map]
    refine List.map_congr_left fun item _ => ?_
    dsimp only [Function.comp]
    split <;> rfl
  refine ⟨hids ▸ hfull.nodup, fun item hitem => ?_⟩
  obtain ⟨whole, hwhole, rfl⟩ := List.mem_map.mp hitem
  split
  · exact hfull.quantity whole hwhole
  · exact ⟨Int.le_refl 1, show (1 : Int) ≤ 3 by decide⟩

/-- **The shop's own offers can be carried out.** -/
theorem offerChoices_priced {locale : Guardians.Locale} (h : o.requestedItems.Nodup)
    (hcounter : ∀ counter, o.counterOffer = some counter → Priced counter.items counter.price)
    {choice : ShopOfferChoice} (hchoice : choice ∈ o.offerChoices locale) :
    Priced choice.items choice.price := by
  unfold offerChoices at hchoice
  split at hchoice
  · exact nomatch hchoice
  · next hwanted =>
    have hfull := full_priced h
    have hsmall := small_priced h
    have hfull_ne : o.full ≠ [] := fun he => hwanted (List.map_eq_nil_iff.mp he)
    have hsmall_ne : o.small ≠ [] := fun he => hfull_ne (List.map_eq_nil_iff.mp he)
    have hcost := hfull.stockCost_pos hfull_ne
    rcases List.mem_cons.mp hchoice with rfl | hchoice
    · exact ⟨hsmall, hsmall_ne, le_max_left _ _⟩
    · rcases List.mem_cons.mp hchoice with rfl | hchoice
      · refine ⟨hfull, hfull_ne, ?_⟩
        change 1 ≤ o.generousPrice
        unfold generousPrice
        split
        · exact hfull.retail_pos hfull_ne
        · exact le_max_of_le_left hcost
      · obtain rfl := List.mem_singleton.mp hchoice
        change Priced o.settled o.settlePrice
        unfold settled settlePrice
        cases hbid : o.counterOffer with
        | some counter => exact hcounter counter hbid
        | none => exact ⟨hfull, hfull_ne, le_max_of_le_left hcost⟩

end SellerObservation

theorem offerOf_priced {action : SellerAction} {raw : Json} (h : s.Sound s₀)
    (haction : parseSellerAction raw = .ok action) {offer : Offer}
    (hoffer : offerOf s action = .ok (some offer)) : Priced offer.items offer.price := by
  cases action with
  | ask message => cases hoffer
  | close message => cases hoffer
  | offer made =>
    cases hoffer
    obtain ⟨hbundle, hne, hprice, -⟩ := parseSellerAction_offer haction
    exact ⟨hbundle, hne, hprice⟩
  | serve tactic message =>
    unfold offerOf at hoffer
    dsimp only at hoffer
    split at hoffer
    · cases hoffer
    · next choice hchoice =>
      cases hoffer
      exact SellerObservation.offerChoices_priced (h.wishes s.customer) h.meeting.counter
        (List.mem_of_find?_eq_some hchoice)

/-! ## The moves -/

/-- What a seller's move changes. -/
theorem applySellerAction_eq_ok {raw : Json} (h : applySellerAction s raw = .ok s') :
    ∃ action offer, s.phase = .seller ∧ parseSellerAction raw = .ok action ∧
      offerOf s action = .ok offer ∧
      s' = ({ s with
        rounds := s.rounds + 1
        offer := offer
        lastOffer := offer.or s.lastOffer
        counterOffer := none
        rejected := none
        phase := if action.closes then .transition else .buyer
        tactic := action.tactic
        finalOffer := action.tactic = some ShopTactic.settle } : ShopState).line .seller
          ⟨action.message, action.message⟩ := by
  simp only [applySellerAction, bind_eq_ok, throwIf_eq_ok, pure_eq_ok] at h
  obtain ⟨-, hphase, action, haction, offer, hoffer, -, -, rfl⟩ := h
  exact ⟨action, offer, not_not.mp hphase, haction, hoffer, rfl⟩

theorem ShopState.Sound.applySellerAction {raw : Json} (h : s.Sound s₀)
    (hs' : Arcade.applySellerAction s raw = .ok s') : s'.Sound s₀ := by
  obtain ⟨action, offer, hphase, haction, hoffer, rfl⟩ := applySellerAction_eq_ok hs'
  refine ShopState.Sound.line ?_ _ _
  refine ⟨h.config, h.aptitudes, h.able, h.owned, h.money, h.advertising, h.goods, h.allowances, h.wishes,
    h.meeting.patience, h.meeting.turn hphase, fun hturn => ?_, fun made hmade => ?_,
    fun _ hnone => (nomatch hnone)⟩
  · dsimp only at hturn
    split at hturn <;> cases hturn
  · obtain rfl : offer = some made := hmade
    exact offerOf_priced h haction hoffer

/-! ### The buyer -/

theorem buyer_setBuyer (b : Buyer) : (s.setBuyer b).buyer = b := if_pos rfl

/-- A customer who only differs in what it asks for. -/
theorem patience_setBuyer {b : Buyer} (h : b.temperament = s.buyer.temperament) :
    (s.setBuyer b).patience = s.patience := by
  unfold ShopState.patience
  rw [buyer_setBuyer, h]
  rfl

theorem bid_setBuyer {b : Buyer} (h : b.temperament = s.buyer.temperament) (offer : Offer) :
    (s.setBuyer b).bid offer = s.bid offer := by
  unfold ShopState.bid ShopState.tolerance
  rw [buyer_setBuyer, h]
  rfl

/-- A customer who keeps its money keeps the allowances. -/
theorem Allowances.setBuyer {b : Buyer} (h : Allowances s₀ s.buyers s.customer s.receipts)
    (hcap : b.cap = s.buyer.cap) (hbalance : b.balance = s.buyer.balance)
    (hspent : b.spent = s.buyer.spent) :
    Allowances s₀ (s.setBuyer b).buyers s.customer s.receipts := by
  have hsame : ∀ i, ((s.setBuyer b).buyers i).cap = (s.buyers i).cap ∧
      ((s.setBuyer b).buyers i).balance = (s.buyers i).balance ∧
      ((s.setBuyer b).buyers i).spent = (s.buyers i).spent := by
    intro i
    unfold ShopState.setBuyer
    dsimp only
    split
    · next hi =>
      subst hi
      exact ⟨hcap, hbalance, hspent⟩
    · exact ⟨rfl, rfl, rfl⟩
  refine ⟨fun i => ?_, fun i => ?_, fun hrole i => ?_, fun hrole => ?_, h.earlier⟩
  · rw [(hsame i).1, (hsame i).2.1]
    exact h.kept i
  · rw [(hsame i).1, (hsame i).2.1, (hsame i).2.2]
    exact h.within i
  · rw [(hsame i).2.2]
    exact h.spent hrole i
  · rw [(hsame s.customer).2.2]
    exact h.carried hrole

/-- The wishes of a customer are different products. -/
theorem nodup_wants {raw : Json} {action : BuyerAction} (h : parseBuyerAction raw = .ok action)
    (buyer : Buyer) : (action.wants.getD (needs buyer)).Nodup := by
  cases hwants : action.wants with
  | none => exact List.Nodup.filter _ (by decide)
  | some wants => exact (parseBuyerAction_wants h hwants).1

theorem wishes_setBuyer {b : Buyer} (h : s.Sound s₀) (hwants : b.disclosed.Nodup) (i : Fin 3) :
    ((s.setBuyer b).buyers i).disclosed.Nodup := by
  unfold ShopState.setBuyer
  dsimp only
  split
  · exact hwants
  · exact h.wishes i

theorem ShopState.Sound.disclose (h : s.Sound s₀) {wants : List ProductId} (hwants : wants.Nodup) :
    (s.setBuyer (s.buyer.disclose wants)).Sound s₀ := by
  have hpatience : (s.setBuyer (s.buyer.disclose wants)).patience = s.patience :=
    patience_setBuyer rfl
  exact ⟨h.config, h.aptitudes, h.able, h.owned, h.money, h.advertising, h.goods,
    h.allowances.setBuyer rfl rfl rfl, wishes_setBuyer h hwants, hpatience ▸ h.meeting.patience,
    hpatience ▸ h.meeting.rounds, hpatience ▸ h.meeting.turn, h.meeting.offer, h.meeting.counter⟩

/-- The turn passes to the seller only while there are rounds left. -/
theorem lt_patience_of_lastRound (h : ¬ s.lastRound = true) : s.rounds < s.patience := by
  unfold ShopState.lastRound at h
  simp only [decide_eq_true_eq, not_or, not_le] at h
  exact h.2

theorem ShopState.Sound.blocked (h : s.Sound s₀) : s.blocked.Sound s₀ := by
  unfold ShopState.blocked
  refine ShopState.Sound.line ?_ _ _
  refine ⟨h.config, h.aptitudes, h.able, h.owned, h.money, h.advertising, h.goods, h.allowances, h.wishes,
    h.meeting.patience, h.meeting.rounds, fun hturn => ?_, fun _ hnone => (nomatch hnone),
    fun _ hnone => (nomatch hnone)⟩
  dsimp only at hturn
  split at hturn
  · cases hturn
  · next hlast => exact lt_patience_of_lastRound hlast

/-- A counter-offer keeps the items of the offer. -/
theorem counter_eq_some {reason : Json} {counter : CounterOffer}
    (h : s.counter reason = some counter) :
    ∃ offer, s.offer = some offer ∧ counter = ⟨offer.items, s.bid offer⟩ := by
  unfold ShopState.counter at h
  split at h
  · cases h
  · next offer hoffer =>
    split at h
    · cases h
      exact ⟨offer, hoffer, rfl⟩
    · cases h

theorem ShopState.Sound.declined (h : s.Sound s₀) (wants : List ProductId) (reason : Json) :
    (s.declined wants reason).Sound s₀ := by
  unfold ShopState.declined
  refine ShopState.Sound.line ?_ _ _
  refine ⟨h.config, h.aptitudes, h.able, h.owned, h.money, h.advertising, h.goods, h.allowances, h.wishes,
    h.meeting.patience, h.meeting.rounds, fun hturn => ?_, fun _ hnone => (nomatch hnone),
    fun counter hcounter => ?_⟩
  · dsimp only at hturn
    split at hturn
    · cases hturn
    · next hlast => exact lt_patience_of_lastRound fun hl => hlast (Or.inr hl)
  · obtain ⟨offer, hoffer, rfl⟩ := counter_eq_some hcounter
    have hpriced := h.meeting.offer offer hoffer
    exact ⟨hpriced.toBundle, hpriced.ne_nil, le_max_left _ _⟩

theorem total_append (receipts : List ShopReceipt) (receipt : ShopReceipt) :
    total (receipts ++ [receipt]) = total receipts + receipt.price := by
  simp [total]

theorem sold_append (receipts : List ShopReceipt) (receipt : ShopReceipt) (id : ProductId) :
    sold (receipts ++ [receipt]) id = sold receipts id + quantities receipt.items id := by
  simp [sold]

theorem Money.sale {config : ShopConfig} {advertisingCost cash revenue costOfSales : Int}
    {receipts : List ShopReceipt} {receipt : ShopReceipt}
    (h : Money config advertisingCost cash revenue costOfSales receipts)
    (hvalue : 0 ≤ receipt.value ∧ receipt.value ≤ 100) :
    Money config advertisingCost (cash + receipt.price) (revenue + receipt.price)
      (costOfSales + receipt.cost) (receipts ++ [receipt]) := by
  obtain ⟨hcash, hrevenue, hcosts, hvalues⟩ := h
  refine ⟨?_, ?_, ?_, fun r hr => ?_⟩
  · rw [total_append, hcash]
    omega
  · rw [total_append, hrevenue]
  · simp [hcosts]
  · rcases List.mem_append.mp hr with hr | hr
    · exact hvalues r hr
    · exact List.mem_singleton.mp hr ▸ hvalue

theorem Goods.sale {config : ShopConfig} {customer : Fin 3} {inventory : Basket}
    {receipts : List ShopReceipt} (h : Goods config customer inventory receipts)
    (receipt : ShopReceipt) (hindex : receipt.customerIndex = customer)
    (hle : ∀ id, quantities receipt.items id ≤ inventory id) :
    Goods config customer (fun id => inventory id - quantities receipt.items id)
      (receipts ++ [receipt]) := by
  refine ⟨fun id => ?_, fun id => ?_⟩
  · have hshop : shopReceipts config customer (receipts ++ [receipt]) =
        shopReceipts config customer receipts ++ [receipt] := by
      simp [shopReceipts, hindex]
    rw [hshop, sold_append, ← h.stocked id]
    omega
  · exact Int.sub_nonneg.mpr (hle id)

/-- The customer pays, within its limits. -/
theorem Allowances.take {b : Buyer} {receipt : ShopReceipt}
    (h : Allowances s₀ s.buyers s.customer s.receipts)
    (hcap : b.cap = s.buyer.cap) (hbalance : b.balance = s.buyer.balance)
    (hspent : b.spent = s.buyer.spent + receipt.price) (hprice : 1 ≤ receipt.price)
    (hindex : receipt.customerIndex = s.customer) (hlecap : b.spent ≤ b.cap)
    (hlebalance : b.spent ≤ b.balance) :
    Allowances s₀ (s.setBuyer b).buyers s.customer (s.receipts ++ [receipt]) := by
  have hself : (s.setBuyer b).buyers s.customer = b := if_pos rfl
  have hother : ∀ i, i ≠ s.customer → (s.setBuyer b).buyers i = s.buyers i := fun i hi => if_neg hi
  have hnonneg := (h.within s.customer).1
  have hbuyer : s.buyer = s.buyers s.customer := rfl
  refine ⟨fun i => ?_, fun i => ?_, fun hrole i => ?_, fun hrole => ?_, fun r hr => ?_⟩
  · by_cases hi : i = s.customer
    · rw [hi, hself, hcap, hbalance]
      exact h.kept s.customer
    · rw [hother i hi]
      exact h.kept i
  · by_cases hi : i = s.customer
    · rw [hi, hself]
      exact ⟨by rw [hspent, hbuyer]; omega, hlecap, hlebalance⟩
    · rw [hother i hi]
      exact h.within i
  · rw [List.filter_append]
    by_cases hi : i = s.customer
    · subst hi
      rw [hself, hspent, List.filter_cons_of_pos (by simp [hindex]), List.filter_nil, total_append,
        ← h.spent hrole s.customer]
      rfl
    · have hne : ¬ receipt.customerIndex = i := fun he => hi (he.symm.trans hindex)
      rw [hother i hi, List.filter_cons_of_neg (by simp [hne]), List.filter_nil, List.append_nil]
      exact h.spent hrole i
  · rw [hself, hspent, total_append, ← h.carried hrole]
    rfl
  · rcases List.mem_append.mp hr with hr | hr
    · exact h.earlier r hr
    · rw [List.mem_singleton.mp hr, hindex]

/-- The value on a receipt is a percentage. -/
theorem value_receipt {offer : Offer} (h : Priced offer.items offer.price) (after : Buyer) :
    0 ≤ (s.receipt offer after).value ∧ (s.receipt offer after).value ≤ 100 := by
  obtain ⟨huseful, hle⟩ := usefulOf_bounds s.buyer.goal
    (fun item hitem => (h.quantity item hitem).1) s.buyer.acquired
  have hfair := h.toBundle.retail_pos h.ne_nil
  exact valueOf_bounds huseful hle (h.toBundle.count_pos h.ne_nil) (by omega) h.price

theorem ShopState.Sound.bought (h : s.Sound s₀) {wants : List ProductId} (hwants : wants.Nodup)
    {offer : Offer} (hoffer : s.offer = some offer)
    (hcap : offer.price ≤ s.buyer.cap - s.buyer.spent)
    (hbalance : offer.price ≤ s.buyer.balance - s.buyer.spent)
    (hstock : ∀ item ∈ offer.items, item.quantity ≤ s.inventory item.id) :
    (s.bought offer (s.buyer.disclose wants)).Sound s₀ := by
  have hpriced := h.meeting.offer offer hoffer
  have hpatience : (s.setBuyer ((s.buyer.disclose wants).take offer.items offer.price)).patience =
      s.patience := patience_setBuyer rfl
  unfold ShopState.bought
  refine ShopState.Sound.line (ShopState.Sound.line ?_ _ _) _ _
  have hvalue := value_receipt (s := s) hpriced ((s.buyer.disclose wants).take offer.items offer.price)
  have hgoods : Goods s.config s.customer (fun id => s.inventory id - quantities offer.items id)
      (s.receipts ++ [s.receipt offer ((s.buyer.disclose wants).take offer.items offer.price)]) :=
    h.goods.sale (s.receipt offer _) rfl (quantities_le hpriced.nodup hstock h.goods.nonneg)
  refine ⟨h.config, h.aptitudes, h.able, h.owned, h.money.sale hvalue, h.advertising, hgoods, ?_,
    wishes_setBuyer h hwants, hpatience ▸ h.meeting.patience, hpatience ▸ h.meeting.rounds,
    fun hturn => (nomatch hturn), fun _ hnone => (nomatch hnone), fun _ hnone => (nomatch hnone)⟩
  exact h.allowances.take rfl rfl rfl hpriced.price rfl
    (show s.buyer.spent + offer.price ≤ s.buyer.cap by omega)
    (show s.buyer.spent + offer.price ≤ s.buyer.balance by omega)

/-- What a buyer's move is: blocked, a purchase, or none. -/
theorem applyBuyerAction_eq_ok {raw : Json} (h : applyBuyerAction s raw = .ok s') :
    s.phase = .buyer ∧ ∃ wants : List ProductId, wants.Nodup ∧
      (s' = (s.setBuyer (s.buyer.disclose wants)).blocked ∨
      (∃ offer, s.offer = some offer ∧ offer.price ≤ s.buyer.cap - s.buyer.spent ∧
        offer.price ≤ s.buyer.balance - s.buyer.spent ∧
        (∀ item ∈ offer.items, item.quantity ≤ s.inventory item.id) ∧
        s' = s.bought offer (s.buyer.disclose wants)) ∨
      ∃ reason, s' = (s.setBuyer (s.buyer.disclose wants)).declined wants reason) := by
  simp only [applyBuyerAction, bind_eq_ok, throwIf_eq_ok] at h
  obtain ⟨-, hphase, action, haction, h⟩ := h
  refine ⟨not_not.mp hphase, action.wants.getD (needs s.buyer), nodup_wants haction s.buyer, ?_⟩
  split at h
  · split at h
    · cases h
    · next offer hoffer =>
      split at h
      · exact Or.inl (pure_eq_ok.mp h).symm
      · next hlimit =>
        obtain ⟨_, hstock, h⟩ := bind_eq_ok.mp h
        have hstock := throwIf_eq_ok.mp hstock
        refine Or.inr (Or.inl ⟨offer, hoffer, by omega, by omega, fun item hitem => ?_,
          (pure_eq_ok.mp h).symm⟩)
        exact not_lt.mp fun hlt => hstock (List.any_eq_true.mpr ⟨item, hitem, decide_eq_true hlt⟩)
  · exact Or.inr (Or.inr ⟨action.reason, (pure_eq_ok.mp h).symm⟩)

theorem ShopState.Sound.applyBuyerAction {raw : Json} (h : s.Sound s₀)
    (hs' : Arcade.applyBuyerAction s raw = .ok s') : s'.Sound s₀ := by
  obtain ⟨-, wants, hwants, rfl | ⟨offer, hoffer, hcap, hbalance, hstock, rfl⟩ | ⟨reason, rfl⟩⟩ :=
    applyBuyerAction_eq_ok hs'
  · exact (h.disclose hwants).blocked
  · exact h.bought hwants hoffer hcap hbalance hstock
  · exact (h.disclose hwants).declined wants reason

/-! ### The next customer -/

/-- There is always a round to play. -/
theorem patience_pos (h : ∀ aptitudes, s.aptitudes = some aptitudes → 4 ≤ aptitudes.shop) :
    1 ≤ s.patience := by
  unfold ShopState.patience
  dsimp only
  have hshop : (4 : Int) ≤ (s.aptitudes.map fun aptitudes => (aptitudes.shop : Int)).getD 5 := by
    cases haptitudes : s.aptitudes with
    | none => decide
    | some aptitudes => exact Int.ofNat_le.mpr (h aptitudes haptitudes)
  generalize (s.aptitudes.map fun aptitudes => (aptitudes.shop : Int)).getD 5 = shop at hshop ⊢
  repeat' split
  all_goals omega

theorem Allowances.advance (h : s.Sound s₀) {customer : Fin 3} (hlt : s.customer < customer) :
    Allowances s₀ (advancedBuyers s customer) customer s.receipts := by
  have hcarry : s₀.config.role = .buyer → (advancedBuyers s customer customer).spent = s.buyer.spent :=
    fun hrole => by simp [advancedBuyers, h.config, hrole]
  have hother : ∀ i, s₀.config.role = .seller ∨ i ≠ customer → advancedBuyers s customer i = s.buyers i := by
    intro i hi
    refine if_neg fun hboth => ?_
    rcases hi with hrole | hne
    · rw [h.config, hrole] at hboth
      exact nomatch hboth.1
    · exact hne hboth.2
  -- the owner who buys keeps its cap and its balance
  have hkept : s₀.config.role = .buyer →
      (advancedBuyers s customer customer).cap = (s₀.buyers customer).cap ∧
      (advancedBuyers s customer customer).balance = (s₀.buyers customer).balance := by
    intro hrole
    obtain ⟨hcap, hbalance⟩ := h.allowances.kept s.customer
    obtain ⟨hcap', hbalance'⟩ := h.owned hrole s.customer customer
    have hself : (advancedBuyers s customer customer).cap = s.buyer.cap ∧
        (advancedBuyers s customer customer).balance = s.buyer.balance := by
      simp [advancedBuyers, h.config, hrole]
    exact ⟨hself.1.trans (hcap.trans hcap'), hself.2.trans (hbalance.trans hbalance')⟩
  have hcases : ∀ i, advancedBuyers s customer i = s.buyers i ∨
      (s₀.config.role = .buyer ∧ i = customer) := by
    intro i
    by_cases hi : i = customer
    · cases hrole : s₀.config.role with
      | seller => exact Or.inl (hother i (Or.inl hrole))
      | buyer => exact Or.inr ⟨rfl, hi⟩
    · exact Or.inl (hother i (Or.inr hi))
  refine ⟨fun i => ?_, fun i => ?_, fun hrole i => ?_, fun hrole => ?_, fun r hr => ?_⟩
  · rcases hcases i with he | ⟨hrole, rfl⟩
    · rw [he]
      exact h.allowances.kept i
    · exact hkept hrole
  · rcases hcases i with he | ⟨hrole, rfl⟩
    · rw [he]
      exact h.allowances.within i
    · have hself : (advancedBuyers s i i).cap = s.buyer.cap ∧
          (advancedBuyers s i i).balance = s.buyer.balance := by
        simp [advancedBuyers, h.config, hrole]
      rw [hcarry hrole, hself.1, hself.2]
      exact h.allowances.within s.customer
  · rw [hother i (Or.inl hrole)]
    exact h.allowances.spent hrole i
  · rw [hcarry hrole]
    exact h.allowances.carried hrole
  · exact (h.allowances.earlier r hr).trans hlt.le

theorem stock_nonneg (config : ShopConfig) (id : ProductId) : 0 ≤ stock config id := by
  unfold stock
  cases config.focus <;> cases id <;> decide

/-- A shop that is entered has sold nothing yet. -/
theorem Goods.advance (h : s.Sound s₀) {customer : Fin 3} (hlt : s.customer < customer) :
    Goods s.config customer (if s.config.role = .buyer then stock s.config else s.inventory)
      s.receipts := by
  cases hrole : s.config.role with
  | seller =>
    rw [if_neg (by decide)]
    have hsame : shopReceipts s.config customer s.receipts =
        shopReceipts s.config s.customer s.receipts := by
      simp [shopReceipts, hrole]
    exact ⟨fun id => hsame ▸ h.goods.stocked id, h.goods.nonneg⟩
  | buyer =>
    rw [if_pos rfl]
    have hnone : shopReceipts s.config customer s.receipts = [] := by
      refine List.filter_eq_nil_iff.mpr fun receipt hreceipt => ?_
      have hindex := (h.allowances.earlier receipt hreceipt).trans_lt hlt
      simp [hrole, hindex.ne]
    exact ⟨fun id => by rw [hnone]; exact Int.add_zero _, stock_nonneg s.config⟩

theorem lt_next : ∀ customer : Fin 3, customer ≠ 2 → customer < customer + 1 := by decide

theorem ShopState.Sound.enter (h : s.Sound s₀) {customer : Fin 3} (hlt : s.customer < customer)
    (referral : Option Referral) : (s.enter customer referral).Sound s₀ := by
  have hpatience : 1 ≤ (s.enter customer referral).patience :=
    patience_pos fun aptitudes ha => h.able aptitudes (h.aptitudes ▸ ha)
  refine ⟨h.config, h.aptitudes, h.able, h.owned, h.money, h.advertising, Goods.advance h hlt,
    Allowances.advance h hlt, fun i => ?_, hpatience, Int.le_trans (by decide : (0 : Int) ≤ 1) hpatience,
    fun hturn => (nomatch hturn), fun _ hnone => (nomatch hnone), fun _ hnone => (nomatch hnone)⟩
  change (advancedBuyers s customer i).disclosed.Nodup
  unfold advancedBuyers
  split
  · exact List.nodup_nil
  · exact h.wishes i

theorem ShopState.Sound.greet (h : s.Sound s₀) : s.greet.Sound s₀ := by
  unfold ShopState.greet
  dsimp only
  split
  · split
    · exact (h.line _ _).line _ _
    · exact h.line _ _
  · split
    · exact h.line _ _
    · exact h

theorem ShopState.Sound.nextShopCustomer (h : s.Sound s₀)
    (hs' : Arcade.nextShopCustomer s = .ok s') : s'.Sound s₀ := by
  simp only [Arcade.nextShopCustomer, bind_eq_ok, throwIf_eq_ok] at hs'
  obtain ⟨-, -, hs'⟩ := hs'
  split at hs'
  · obtain rfl := pure_eq_ok.mp hs'
    exact ⟨h.config, h.aptitudes, h.able, h.owned, h.money, h.advertising, h.goods, h.allowances,
      h.wishes, h.meeting.patience, h.meeting.rounds, fun hturn => (nomatch hturn), h.meeting.offer,
      h.meeting.counter⟩
  · next hlast =>
    have hlt := lt_next s.customer hlast
    obtain rfl := pure_eq_ok.mp hs'
    exact (h.enter hlt _).greet

/-! ### The opening -/

theorem shop_of_valid {aptitudes : GuardianAptitudes} (h : validGuardianAptitudes aptitudes = true) :
    4 ≤ aptitudes.shop ∧ aptitudes.shop ≤ 6 := by
  have hall : ∀ a ∈ GUARDIAN_APTITUDES, 4 ≤ a.shop ∧ a.shop ≤ 6 := by decide
  exact hall aptitudes (of_decide_eq_true h)

/-- What a shop is opened with. -/
theorem createShop_eq_ok {seed : Int} {config : ShopConfig} {memory : Option ShopMemory}
    {aptitudes : Option GuardianAptitudes} (h : createShop seed config memory aptitudes = .ok s) :
    ∃ checked, parseShopConfig config = some checked ∧ 6 ≤ checked.buyerCap ∧
      (∀ a, aptitudes = some a → 4 ≤ a.shop ∧ a.shop ≤ 6) ∧
      s = openShop seed checked memory aptitudes := by
  unfold createShop at h
  split at h
  · cases h
  · next checked hchecked =>
    simp only [bind_eq_ok, throwIf_eq_ok, pure_eq_ok] at h
    obtain ⟨-, -, -, -, -, haptitudes, rfl⟩ := h
    refine ⟨checked, hchecked, ?_, fun a ha => ?_, rfl⟩
    · unfold parseShopConfig at hchecked
      dsimp only at hchecked
      split at hchecked
      · cases hchecked
      · next hvalid =>
        cases hchecked
        exact (not_not.mp (not_or.mp hvalid).1).1
    · subst ha
      exact shop_of_valid (by simpa using haptitudes)

section Opening

variable {seed : Int} {config : ShopConfig} {memory : Option ShopMemory}
  {aptitudes : Option GuardianAptitudes}

theorem allowances_openShop (hcap : 6 ≤ config.buyerCap) :
    Allowances (openShop seed config memory aptitudes) (openShop seed config memory aptitudes).buyers
      0 [] := by
  refine ⟨fun _ => ⟨rfl, rfl⟩, fun i => ?_, fun hrole i => ?_, fun hrole => ?_,
    fun _ hr => nomatch hr⟩
  · unfold openShop
    cases hrole : config.role with
    | seller =>
      change (0 : Int) ≤ 0 ∧ (0 : Int) ≤ 10 + drawBelow seed (3 * i + 2) 13 ∧
        (0 : Int) ≤ 10 + drawBelow seed (3 * i + 2) 13 + 3 + drawBelow seed (3 * i + 3) 8
      omega
    | buyer =>
      change (0 : Int) ≤ 0 ∧ 0 ≤ config.buyerCap ∧ 0 ≤ SHOP_BUYER_BALANCE
      exact ⟨Int.le_refl 0, by omega, by decide⟩
  · have hrole : config.role = .seller := hrole
    unfold openShop
    rw [hrole]
    rfl
  · have hrole : config.role = .buyer := hrole
    unfold openShop
    rw [hrole]
    rfl

/-- **The books of a shop that opens.** -/
theorem sound_openShop (hcap : 6 ≤ config.buyerCap)
    (haptitudes : ∀ a, aptitudes = some a → 4 ≤ a.shop) :
    (openShop seed config memory aptitudes).Sound (openShop seed config memory aptitudes) := by
  have hpatience : 1 ≤ (openShop seed config memory aptitudes).patience := patience_pos haptitudes
  refine ⟨rfl, rfl, haptitudes, fun hrole i j => ?_, ⟨(Int.add_zero _).symm, rfl, rfl, nofun⟩, rfl,
    ⟨fun id => Int.add_zero _, stock_nonneg config⟩, allowances_openShop hcap, fun i => ?_, hpatience,
    Int.le_trans (by decide : (0 : Int) ≤ 1) hpatience, fun hturn => (nomatch hturn),
    fun _ hnone => (nomatch hnone), fun _ hnone => (nomatch hnone)⟩
  · have hrole : config.role = .buyer := hrole
    unfold openShop
    rw [hrole]
    exact ⟨rfl, rfl⟩
  · unfold openShop
    cases config.role <;> exact List.nodup_nil

end Opening

end Mapae.Arcade
