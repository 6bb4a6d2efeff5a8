import Mapae.Arcade.ShopInvariant

/-!
# The shop conserves money and goods

Any answers of the seller and of the buyer, and advances to the next customer, in any order. A move
that is refused changes nothing.

* money, goods and allowances add up after every run
* an answer of the buyer leaves the offer, the caps and the balances alone
-/

namespace Mapae.Arcade

open Mapae.Infra

inductive ShopMove where
  | seller (raw : Json)
  | buyer (raw : Json)
  | advance

namespace ShopMove

def apply (s : ShopState) : ShopMove → Except ShopError ShopState
  | .seller raw => applySellerAction s raw
  | .buyer raw => applyBuyerAction s raw
  | .advance => nextShopCustomer s

/-- The state after a move, which is the state before where the move is refused. -/
def play (s : ShopState) (move : ShopMove) : ShopState :=
  match apply s move with
  | .ok s' => s'
  | .error _ => s

theorem play_of_error {s : ShopState} {move : ShopMove} {e : ShopError}
    (h : apply s move = .error e) : play s move = s := by
  unfold play
  rw [h]

end ShopMove

/-- What holds in a shop that was opened with `config`. -/
structure Conserved (config : ShopConfig) (s₀ s : ShopState) : Prop where
  advertising : s.advertisingCost = match config.role with
    | .seller => SHOP_AD_COST config.advertising
    | .buyer => 0
  cash : s.cash = SHOP_INITIAL_CAPITAL - cost (stock config) - s.advertisingCost +
    (s.receipts.map ShopReceipt.price).sum
  revenue : s.revenue = (s.receipts.map ShopReceipt.price).sum
  costOfSales : s.costOfSales = (s.receipts.map ShopReceipt.cost).sum
  /-- Of each product; the owner who buys finds a full stock in each shop. -/
  goods : ∀ id, s.inventory id + sold (s.receipts.filter fun receipt =>
    config.role = .seller ∨ receipt.customerIndex = s.customer) id = stock config id
  stocked : ∀ id, 0 ≤ s.inventory id
  allowances : ∀ i, (s.buyers i).cap = (s₀.buyers i).cap ∧
    (s.buyers i).balance = (s₀.buyers i).balance
  spent : ∀ i, (s.buyers i).spent ≤ min (s₀.buyers i).cap (s₀.buyers i).balance
  /-- Each customer of a seller pays with its own money. -/
  sold : config.role = .seller → ∀ i, (s.buyers i).spent =
    ((s.receipts.filter fun receipt => receipt.customerIndex = i).map ShopReceipt.price).sum
  /-- One allowance is carried through all three shops. -/
  carried : config.role = .buyer → (s.buyers s.customer).spent =
      (s.receipts.map ShopReceipt.price).sum ∧
    (s.receipts.map ShopReceipt.price).sum ≤ min config.buyerCap SHOP_BUYER_BALANCE
  rounds : s.rounds ≤ s.patience
  values : ∀ receipt ∈ s.receipts, 0 ≤ receipt.value ∧ receipt.value ≤ 100

/-- What an answer of the buyer leaves as it was. -/
structure Answered (s s' : ShopState) : Prop where
  allowances : ∀ i, (s'.buyers i).cap = (s.buyers i).cap ∧
    (s'.buyers i).balance = (s.buyers i).balance
  /-- The offer is off the table, and on record as it was made. -/
  offer : s'.offer = none ∧ s'.lastOffer = s.lastOffer
  /-- What is bought is the offer, at its price. -/
  receipts : s'.receipts = s.receipts ∨ ∃ offer receipt, s.offer = some offer ∧
    s'.receipts = s.receipts ++ [receipt] ∧ receipt.items = offer.items ∧ receipt.price = offer.price
  /-- A counter-offer is for the same items, at a bid that the answer has no say in. -/
  counter : ∀ counter, s'.counterOffer = some counter →
    ∃ offer, s.offer = some offer ∧ counter = ⟨offer.items, s.bid offer⟩

variable {s s' s₀ : ShopState}

theorem ShopState.Sound.play (h : s.Sound s₀) (move : ShopMove) : (ShopMove.play s move).Sound s₀ := by
  unfold ShopMove.play
  split
  · next s' hs' =>
    cases move with
    | seller raw => exact h.applySellerAction hs'
    | buyer raw => exact h.applyBuyerAction hs'
    | advance => exact h.nextShopCustomer hs'
  · exact h

theorem buyers_setBuyer {b : Buyer} (hcap : b.cap = s.buyer.cap) (hbalance : b.balance = s.buyer.balance)
    (i : Fin 3) : ((s.setBuyer b).buyers i).cap = (s.buyers i).cap ∧
      ((s.setBuyer b).buyers i).balance = (s.buyers i).balance := by
  unfold ShopState.setBuyer
  dsimp only
  split
  · next hi =>
    subst hi
    exact ⟨hcap, hbalance⟩
  · exact ⟨rfl, rfl⟩

/-- **An answer changes no offer, no cap and no balance.** -/
theorem answered_of_applyBuyerAction {raw : Json} (h : applyBuyerAction s raw = .ok s') :
    Answered s s' := by
  obtain ⟨-, wants, -, rfl | ⟨offer, hoffer, -, -, -, rfl⟩ | ⟨reason, rfl⟩⟩ :=
    applyBuyerAction_eq_ok h
  · exact ⟨buyers_setBuyer rfl rfl, ⟨rfl, rfl⟩, Or.inl rfl, nofun⟩
  · exact ⟨buyers_setBuyer rfl rfl, ⟨rfl, rfl⟩,
      Or.inr ⟨offer, _, hoffer, rfl, rfl, rfl⟩, nofun⟩
  · refine ⟨buyers_setBuyer rfl rfl, ⟨rfl, rfl⟩, Or.inl rfl, fun counter hcounter => ?_⟩
    obtain ⟨offer, hoffer, rfl⟩ := counter_eq_some hcounter
    exact ⟨offer, hoffer, by rw [bid_setBuyer (b := s.buyer.disclose wants) rfl]⟩

theorem ShopState.Sound.conserved {seed : Int} {config : ShopConfig} {memory : Option ShopMemory}
    {aptitudes : Option GuardianAptitudes}
    (h : s.Sound (openShop seed config memory aptitudes)) :
    Conserved config (openShop seed config memory aptitudes) s := by
  have hconfig : s.config = config := h.config
  have hspent : ∀ i, (s.buyers i).spent ≤ min ((openShop seed config memory aptitudes).buyers i).cap
      ((openShop seed config memory aptitudes).buyers i).balance := by
    intro i
    obtain ⟨-, hcap, hbalance⟩ := h.allowances.within i
    rw [(h.allowances.kept i).1] at hcap
    rw [(h.allowances.kept i).2] at hbalance
    exact le_min hcap hbalance
  have hgoods := h.goods
  rw [hconfig] at hgoods
  have hmoney := h.money
  rw [hconfig] at hmoney
  refine ⟨?_, ?_, hmoney.revenue, hmoney.costOfSales, hgoods.stocked, hgoods.nonneg,
    h.allowances.kept, hspent, h.allowances.spent, fun hrole => ⟨h.allowances.carried hrole, ?_⟩,
    h.meeting.rounds, hmoney.value⟩
  · rw [h.advertising]
    rfl
  · rw [h.advertising]
    exact hmoney.cash
  · have howned : (openShop seed config memory aptitudes).buyers = ownedBuyer config := by
      unfold openShop
      rw [hrole]
    have hcustomer := hspent s.customer
    rw [howned, h.allowances.carried hrole] at hcustomer
    exact hcustomer

/--
**The shop conserves money and goods under any player.**

The configuration is the checked one, whose name is trimmed.
-/
theorem shop_conserves {seed : Int} {config : ShopConfig} {memory : Option ShopMemory}
    {aptitudes : Option GuardianAptitudes} (h : createShop seed config memory aptitudes = .ok s₀)
    (moves : List ShopMove) :
    Conserved s₀.config s₀ (run ShopMove.play s₀ moves) ∧
      (∀ move e, ShopMove.apply (run ShopMove.play s₀ moves) move = .error e →
        ShopMove.play (run ShopMove.play s₀ moves) move = run ShopMove.play s₀ moves) ∧
      ∀ raw s', applyBuyerAction (run ShopMove.play s₀ moves) raw = .ok s' →
        Answered (run ShopMove.play s₀ moves) s' := by
  obtain ⟨checked, -, hcap, haptitudes, rfl⟩ := createShop_eq_ok h
  have hsound : (run ShopMove.play (openShop seed checked memory aptitudes) moves).Sound
      (openShop seed checked memory aptitudes) :=
    run_invariant (P := fun s : ShopState => s.Sound (openShop seed checked memory aptitudes))
      (fun s move hs => hs.play move) moves _
      (sound_openShop hcap fun a ha => (haptitudes a ha).1)
  refine ⟨hsound.conserved, fun move e he => ShopMove.play_of_error he,
    fun raw s' hs' => answered_of_applyBuyerAction hs'⟩

/-! ## A sale -/

/-- Wishes, an offer of two goods for 8 coins, and the purchase. -/
def sampleMoves : List ShopMove :=
  [.buyer (.object [("type", .string "request"), ("wants", .array [.string "water"]),
      ("reason", .string "need")]),
    .seller (.object [("type", .string "offer"),
      ("items", .array [.object [("id", .string "water"), ("quantity", .number 1 0)],
        .object [("id", .string "snack"), ("quantity", .number 1 0)]]),
      ("price", .number 8 0), ("message", .string "A bundle")]),
    .buyer (.object [("type", .string "buy"), ("reason", .string "need")])]

theorem shop_conserves_sample : ∃ s₀, createShop 32 DEFAULT_SHOP_CONFIG none none = .ok s₀ ∧
    (run ShopMove.play s₀ sampleMoves).cash = 72 ∧
    Conserved s₀.config s₀ (run ShopMove.play s₀ sampleMoves) := by
  have hcash : (createShop 32 DEFAULT_SHOP_CONFIG none none).map
      (fun s₀ => (run ShopMove.play s₀ sampleMoves).cash) = .ok 72 := by decide +kernel
  cases hs₀ : createShop 32 DEFAULT_SHOP_CONFIG none none with
  | error e =>
    rw [hs₀] at hcash
    cases hcash
  | ok s₀ =>
    rw [hs₀] at hcash
    exact ⟨s₀, rfl, Except.ok.inj hcash, (shop_conserves hs₀ sampleMoves).1⟩

end Mapae.Arcade
