import Mapae.Arcade.ShopGoods

/-!
# The shop

Three customers come to a shop one after the other, or one customer visits three shops. A meeting
alternates between the seller and the buyer, each of whom may answer with any JSON.

* `createShop` opens a shop
* `shopOfferChoices` are the offers that the shop prices itself
* `applySellerAction`, `applyBuyerAction` and `nextShopCustomer` are the moves
-/

namespace Mapae.Arcade

open Mapae.Infra Mapae.Guardians

structure Buyer where
  id : String
  name : String
  goal : ShopGoal
  story : ShopGoal
  temperament : BuyerTemperament
  balance : Int
  cap : Int
  spent : Int
  acquired : Basket
  disclosed : List ProductId
  requested : ProductId → Option Int

inductive Speaker where
  | seller
  | buyer
  | system

def Speaker.text : Speaker → String
  | .seller => "seller"
  | .buyer => "buyer"
  | .system => "system"

structure ShopLine where
  speaker : Speaker
  text : Text

structure ShopReceipt where
  customer : String
  items : List Item
  price : Int
  cost : Int
  saving : Int
  value : Int
  goalAchievement : Int
  revisit : Bool
  tactic : Option ShopTactic
  customerIndex : Fin 3

/-- What a customer would pay for the items of an offer. -/
structure CounterOffer where
  items : List Item
  price : Int

structure Referral where
  from_ : String
  value : Int

inductive ShopPhase where
  | buyer
  | seller
  | transition
  | finished
  deriving DecidableEq

structure ShopState where
  seed : Int
  config : ShopConfig
  aptitudes : Option GuardianAptitudes
  startingMemory : Option ShopMemory
  forecast : Option ShopForecast
  buyers : Fin 3 → Buyer
  customer : Fin 3
  phase : ShopPhase
  rounds : Int
  inventory : Basket
  cash : Int
  advertisingCost : Int
  revenue : Int
  costOfSales : Int
  offer : Option Offer
  lastOffer : Option Offer
  counterOffer : Option CounterOffer
  receipts : List ShopReceipt
  conversation : List ShopLine
  transcript : List ShopLine
  rejected : Option Json
  capBlocks : Nat
  tactic : Option ShopTactic
  finalOffer : Bool
  referral : Option Referral

namespace ShopState

/-- The customer of the meeting. -/
def buyer (s : ShopState) : Buyer := s.buyers s.customer

/-- `line`. -/
def line (s : ShopState) (speaker : Speaker) (text : Text) : ShopState :=
  { s with
    conversation := s.conversation ++ [⟨speaker, text⟩]
    transcript := s.transcript ++ [⟨speaker, text⟩] }

end ShopState

/-! ## Opening -/

/-- The generator after `n` draws. -/
def randomAt (seed : Int) : Nat → Nat
  | 0 => (seed % 2 ^ 32).toNat
  | n + 1 => (randomAt seed n * 1664525 + 1013904223) % 2 ^ 32

/-- `Math.floor(rng() * bound)` at the draw `n`. -/
def drawBelow (seed : Int) (n bound : Nat) : Nat := randomAt seed n * bound / 2 ^ 32

/-- The errands that are left for the customer `index`. Each customer takes three draws. -/
def errands (seed : Int) (forecast : Option ShopForecast) : Nat → List ShopGoal
  | 0 => shopGoals.filter fun goal => forecast.all fun forecast => goal ≠ forecast.goal
  | index + 1 =>
    let rest := errands seed forecast index
    rest.eraseIdx (drawBelow seed (3 * index + 1) rest.length)

/-- The errand of the customer `index`. There is always one left. -/
def sampledErrand (seed : Int) (forecast : Option ShopForecast) (index : Nat) : ShopGoal :=
  let rest := errands seed forecast index
  rest.getD (drawBelow seed (3 * index + 1) rest.length) .picnic

/-- The temperaments in turn, but the last customer changes with the thrifty one. -/
def sellerTemperament (seed : Int) (index : Fin 3) : BuyerTemperament :=
  let at_ (index : Nat) : BuyerTemperament :=
    SHOP_TEMPERAMENTS.getD ((seed.natAbs % 3 + index) % 3) .thrifty
  if index = 2 then .thrifty else if at_ index = .thrifty then at_ 2 else at_ index

/-- The customer `index` of a shop whose owner sells. -/
def systemBuyer (seed : Int) (config : ShopConfig) (forecast : ShopForecast) (index : Fin 3) : Buyer :=
  let sampled := sampledErrand seed (some forecast) index
  let campaign := shopCampaign config
  let goal := if index < campaign.matches_ then campaign.goal
    else if index = 2 then forecast.goal else sampled
  let cap : Int := 10 + drawBelow seed (3 * index + 2) 13
  { id := s!"system-{index.val}"
    name := match index with
      | 0 => "나그네"
      | 1 => "장터 손님"
      | 2 => (SHOP_REGULARS forecast.npc).name.ko
    goal := goal
    story := goal
    temperament := sellerTemperament seed index
    balance := cap + 3 + drawBelow seed (3 * index + 3) 8
    cap := cap
    spent := 0
    acquired := emptyBasket
    disclosed := []
    requested := fun _ => none }

/-- The owner as the customer of the shop `index`. -/
def ownedBuyer (config : ShopConfig) (index : Fin 3) : Buyer where
  id := s!"system-{index.val}"
  name := match index with
    | 0 => "두리"
    | 1 => "솔이"
    | 2 => "밤이"
  goal := config.buyerGoal
  story := config.buyerGoal
  temperament := .particular
  balance := SHOP_BUYER_BALANCE
  cap := config.buyerCap
  spent := 0
  acquired := emptyBasket
  disclosed := []
  requested := fun _ => none

/-- The shop of a configuration that was checked. -/
def openShop (seed : Int) (config : ShopConfig) (memory : Option ShopMemory)
    (aptitudes : Option GuardianAptitudes) : ShopState :=
  let startingMemory := match config.role with
    | .seller => memory.bind parseShopMemory
    | .buyer => none
  let forecast := shopForecast seed startingMemory
  let inventory := stock config
  let advertisingCost := match config.role with
    | .seller => (shopCampaign config).cost
    | .buyer => 0
  { seed := seed
    config := config
    aptitudes := aptitudes
    startingMemory := startingMemory
    forecast := match config.role with
      | .seller => some forecast
      | .buyer => none
    buyers := match config.role with
      | .seller => systemBuyer seed config forecast
      | .buyer => ownedBuyer config
    customer := 0
    phase := .buyer
    rounds := 0
    inventory := inventory
    cash := SHOP_INITIAL_CAPITAL - cost inventory - advertisingCost
    advertisingCost := advertisingCost
    revenue := 0
    costOfSales := 0
    offer := none
    lastOffer := none
    counterOffer := none
    receipts := []
    conversation := []
    transcript := []
    rejected := none
    capBlocks := 0
    tactic := none
    finalOffer := false
    referral := none }

def createShop (seed : Int) (config : ShopConfig) (memory : Option ShopMemory)
    (aptitudes : Option GuardianAptitudes) : Except ShopError ShopState :=
  match parseShopConfig config with
  | none => .error .invalidShopConfig
  | some config => do
    throwIf (¬ Store.isSafeInteger seed) .invalidShopConfig
    throwIf (memory.any fun memory => (parseShopMemory memory).isNone) .invalidShopMemory
    throwIf (aptitudes.any fun aptitudes => ¬ validGuardianAptitudes aptitudes) .invalidAptitudes
    return openShop seed config memory aptitudes

/-! ## What is known of a meeting -/

namespace ShopState

def customerName (s : ShopState) (index : Fin 3) (locale : Guardians.Locale) : String :=
  if s.config.role ≠ .seller ∨ locale = .ko then (s.buyers index).name
  else match index, s.forecast with
    | 2, some forecast => (SHOP_REGULARS forecast.npc).name.en
    | 0, _ => "Traveler"
    | _, _ => "Market guest"

/-- `state.customer === 2 && state.forecast?.trusted`. -/
def trustedGuest (s : ShopState) : Bool :=
  s.customer = 2 ∧ s.forecast.any fun forecast => forecast.trusted

/-- `shopPatience`. -/
def patience (s : ShopState) : Int :=
  let base : Int := if s.config.role = .seller ∧ s.buyer.temperament = .hurried then 2 else 3
  let extra : Int :=
    if s.config.role = .seller ∧ s.customer = 2 then
      (if s.referral.isSome then 1 else 0) + (if s.trustedGuest then 1 else 0)
    else 0
  base + (s.aptitudes.map fun aptitudes => (aptitudes.shop : Int)).getD 5 - 5 + extra

/-- `shopOffersRemaining`. -/
def offersRemaining (s : ShopState) : Int :=
  if s.finalOffer ∨ s.phase = .transition ∨ s.phase = .finished then 0
  else max 0 (s.patience - s.rounds)

/-- The meeting has had its rounds. -/
def lastRound (s : ShopState) : Bool := s.finalOffer ∨ s.patience ≤ s.rounds

end ShopState

/-- `needs`. -/
def needs (buyer : Buyer) : List ProductId :=
  SHOP_PRODUCTS.filter fun id => buyer.acquired id < objectives buyer.goal id

/-- How much of the errand is done, in percent. -/
def achievement (buyer : Buyer) : Int :=
  let target := objectives buyer.goal
  let done : Int := (SHOP_PRODUCTS.map fun id => min (target id) (buyer.acquired id)).sum
  let all : Int := (SHOP_PRODUCTS.map target).sum
  Binary64.mathRound (Binary64.round (Binary64.round (done / all) * 100))

/-- `amount * (hundredths / 100)`. -/
def scaled (amount hundredths : Int) : ℚ :=
  Binary64.round (amount * Binary64.round (hundredths / 100))

/-! ## The offers that the shop prices -/

structure ShopOfferChoice where
  tactic : ShopTactic
  items : List Item
  price : Int
  cost : Int
  label : String
  hint : String
  available : Bool
  completesOrder : Bool
  reserveShortfall : Basket

/-- `shopSellerObservation`: what the seller may know. -/
structure SellerObservation where
  shop : String
  focus : Focus
  pricing : Pricing
  negotiation : Negotiation
  initialCapital : Int
  cash : Int
  inventory : Basket
  customer : String
  finalGuest : Option ShopForecast
  finalGuestReserve : Option Basket
  returnTrust : Bool
  requestedItems : List ProductId
  roundsLeft : Int
  previousResponse : Option Json
  temperament : BuyerTemperament
  counterOffer : Option CounterOffer
  requestedQuantities : ProductId → Option Int
  situation : Option String
  needHint : Option String
  wholeOrder : Bool
  /-- Who recommended the shop. -/
  referral : Option String
  lastOffer : Option CounterOffer
  conversation : List (Speaker × String)

/-- What the seller may know, without the tactics. -/
def ShopState.sellerObservation (s : ShopState) : SellerObservation where
  shop := s.config.name
  focus := s.config.focus
  pricing := s.config.pricing
  negotiation := s.config.negotiation
  initialCapital := SHOP_INITIAL_CAPITAL
  cash := s.cash
  inventory := s.inventory
  customer := s.customerName s.customer .en
  finalGuest := s.forecast
  finalGuestReserve :=
    if s.customer < 2 then s.forecast.map fun forecast => objectives forecast.goal else none
  returnTrust := s.trustedGuest
  requestedItems := s.buyer.disclosed
  roundsLeft := s.offersRemaining
  previousResponse := s.rejected
  temperament := s.buyer.temperament
  counterOffer := s.counterOffer
  requestedQuantities := s.buyer.requested
  situation := if s.buyer.disclosed = [] then none else some (SHOP_STORIES s.buyer.story).title.en
  needHint := if s.buyer.disclosed = [] then none else some (SHOP_STORIES s.buyer.story).hint.en
  wholeOrder := s.buyer.disclosed ≠ [] ∧ (SHOP_STORIES s.buyer.story).wholeOrder
  referral := s.referral.map Referral.from_
  lastOffer := s.lastOffer.map fun offer => ⟨offer.items, offer.price⟩
  conversation := s.conversation.map fun line => (line.speaker, line.text.en)

namespace SellerObservation

variable (o : SellerObservation)

/-- The products that are still asked for. -/
def wanted : List ProductId :=
  o.requestedItems.filter fun id => 0 < (o.requestedQuantities id).getD 0

def allOrNothing : Bool := o.wholeOrder ∨ o.temperament = .hurried

/-- Everything that is asked for, up to three of each. -/
def full : List Item := o.wanted.map fun id => ⟨id, min 3 ((o.requestedQuantities id).getD 0)⟩

/-- One of each, unless the customer wants all or nothing. -/
def small : List Item :=
  o.full.map fun item => if o.allOrNothing then item else { item with quantity := 1 }

/-- The bid of the customer, or everything. -/
def settled : List Item := (o.counterOffer.map CounterOffer.items).getD o.full

/-- The answer to the offer before was the word. -/
def previously (word : String) : Bool := (o.previousResponse.bind Json.text) = some word

/-- A customer who came back trusts the retail price. -/
def trustedRetail : Bool :=
  o.returnTrust ∧ ¬ o.previously "price" ∧ ¬ o.previously "CAP_BLOCKED"

def quantityOf (items : List Item) (id : ProductId) : Int :=
  ((items.find? fun item => item.id = id).map Item.quantity).getD 0

/-- A recipe, with what follows from its items. -/
def choice (tactic : ShopTactic) (items : List Item) (price : Int) (label hint : Text)
    (locale : Guardians.Locale) : ShopOfferChoice where
  tactic := tactic
  items := items
  price := price
  cost := stockCost items
  label := label.in locale
  hint := hint.in locale
  available := items.all fun item => item.quantity ≤ o.inventory item.id
  completesOrder := o.full.all fun item => item.quantity ≤ quantityOf items item.id
  reserveShortfall id :=
    match o.finalGuestReserve with
    | some reserve => max 0 (reserve id - (o.inventory id - quantityOf items id))
    | none => 0

def essentialsPrice : Int := max 1 (Binary64.mathRound (scaled (retail o.small) o.pricing.percent))

def generousPrice : Int :=
  if o.trustedRetail then retail o.full
  else max (stockCost o.full) (min ⌊scaled (retail o.full) 85⌋ (retail o.small))

def settlePrice : Int :=
  match o.counterOffer with
  | some counter => counter.price
  | none => max (stockCost o.full)
      ⌊Binary64.round (scaled (retail o.full) 95 * Binary64.round (o.pricing.percent / 100))⌋

/-- `shopOfferChoices`. -/
def offerChoices (locale : Guardians.Locale) : List ShopOfferChoice :=
  if o.wanted = [] then []
  else
    [o.choice .essentials o.small o.essentialsPrice
      (if o.allOrNothing then ⟨"주문대로 챙기기", "Fill the order"⟩
        else ⟨"가볍게 추천", "A small pack"⟩)
      (if o.allOrNothing then ⟨"표시가 기준 · 재흥정 가능", "Sticker price · room to bargain"⟩
        else ⟨"종류별 하나씩 · 재고를 아껴요", "One of each kind · save your stock"⟩) locale,
    o.choice .generous o.full o.generousPrice
      (if o.trustedRetail then ⟨"다시 믿고 찾은 보따리", "Your trusted pack"⟩
        else ⟨if o.full.zip o.small |>.any fun (f, s) => s.quantity < f.quantity
            then "넉넉하게 챙기기" else "정 나누기", "A generous pack"⟩)
      (if o.trustedRetail then
          ⟨"지난 서비스의 신뢰 · 전부 정가로 준비", "Earned trust · a complete pack at retail"⟩
        else ⟨"필요한 수량 전부 · 이익을 양보해요", "Every requested unit · give up some margin"⟩) locale,
    o.choice .settle o.settled o.settlePrice
      (if o.counterOffer.isSome then ⟨"그 가격에 성사", "Take their bid"⟩
        else ⟨"마지막 제안", "One final offer"⟩)
      ⟨"수락하면 거래, 거절하면 만남 종료", "A deal if accepted; otherwise the meeting ends"⟩ locale]

end SellerObservation

/-! ## The moves -/

/-- The offer that a seller's action makes, if it makes one. -/
def offerOf (s : ShopState) : SellerAction → Except ShopError (Option Offer)
  | .ask _ => .ok none
  | .close _ => .ok none
  | .offer offer => .ok (some offer)
  | .serve tactic message =>
    match (s.sellerObservation.offerChoices .en).find? fun option =>
        option.tactic = tactic ∧ option.available with
    | none => .error .tacticUnavailable
    | some choice => .ok (some ⟨choice.items, choice.price, message⟩)

def SellerAction.tactic : SellerAction → Option ShopTactic
  | .serve tactic _ => some tactic
  | _ => none

def SellerAction.closes : SellerAction → Bool
  | .close _ => true
  | _ => false

def applySellerAction (s : ShopState) (raw : Json) : Except ShopError ShopState := do
  throwIf (s.phase ≠ .seller) .notSellerTurn
  let action ← parseSellerAction raw
  let offer ← offerOf s action
  throwIf (offer.any fun offer => offer.items.any fun item => s.inventory item.id < item.quantity)
    .insufficientInventory
  let next := { s with
    rounds := s.rounds + 1
    offer := offer
    lastOffer := offer.or s.lastOffer
    counterOffer := none
    rejected := none
    phase := if action.closes then .transition else .buyer
    tactic := action.tactic
    finalOffer := action.tactic = some ShopTactic.settle }
  return next.line .seller ⟨action.message, action.message⟩

namespace Buyer

/-- What is still to be had of a product. -/
def missing (buyer : Buyer) (id : ProductId) : Int :=
  max 0 (objectives buyer.goal id - buyer.acquired id)

/-- The customer says what it wants. -/
def disclose (buyer : Buyer) (wants : List ProductId) : Buyer :=
  { buyer with
    disclosed := wants
    requested := fun id => if id ∈ wants then some (buyer.missing id) else none }

/-- The customer takes items for a price. -/
def take (buyer : Buyer) (items : List Item) (price : Int) : Buyer :=
  { buyer with
    acquired := fun id => buyer.acquired id + quantities items id
    spent := buyer.spent + price }

end Buyer

namespace ShopState

/-- The state with another customer in the meeting. -/
def setBuyer (s : ShopState) (buyer : Buyer) : ShopState :=
  { s with buyers := fun index => if index = s.customer then buyer else s.buyers index }

/-- How many of the items the customer still needs, taking one after the other. -/
def usefulOf (goal : ShopGoal) : Basket → List Item → Int
  | _, [] => 0
  | acquired, item :: items =>
    min item.quantity (max 0 (objectives goal item.id - acquired item.id)) +
      usefulOf goal (fun id => if id = item.id then acquired id + item.quantity else acquired id) items

/-- `Math.round(100 * useful / count * Math.min(1, .85 * fair / price))`. -/
def valueOf (useful count fair price : Int) : Int :=
  let share := Binary64.round ((100 * useful : Int) / count)
  let fairness := min 1 (Binary64.round (scaled fair 85 / price))
  Binary64.mathRound (Binary64.round (share * fairness))

/-- The receipt of an offer that is bought; `after` is the customer afterwards. -/
def receipt (s : ShopState) (offer : Offer) (after : Buyer) : ShopReceipt :=
  let useful := usefulOf s.buyer.goal s.buyer.acquired offer.items
  let count := (offer.items.map Item.quantity).sum
  let fair := Arcade.retail offer.items
  let value := valueOf useful count fair offer.price
  { customer := s.buyer.name
    items := offer.items
    price := offer.price
    cost := stockCost offer.items
    saving := fair - offer.price
    value := value
    goalAchievement := achievement after
    revisit := 85 ≤ value ∧ useful = count ∧ achievement after = 100
    tactic := s.tactic
    customerIndex := s.customer }

/-- `tolerance`, in hundredths. -/
def tolerance (s : ShopState) : Int :=
  if s.trustedGuest then 100 else priceTolerance s.buyer.temperament

/-- What the customer would pay for an offer. -/
def bid (s : ShopState) (offer : Offer) : Int :=
  max 1 ⌊scaled (Arcade.retail offer.items) s.tolerance⌋

/-- The bid that answers an offer that is too expensive. -/
def counter (s : ShopState) (reason : Json) : Option CounterOffer :=
  match s.offer with
  | none => none
  | some offer =>
    if s.config.role = .seller ∧ reason.text = some "price" ∧ s.bid offer < offer.price ∧
        s.bid offer ≤ s.buyer.cap - s.buyer.spent ∧ s.bid offer ≤ s.buyer.balance - s.buyer.spent ∧
        s.finalOffer = false ∧ s.rounds < s.patience then
      some ⟨offer.items, s.bid offer⟩
    else none

/-- `list || other`. -/
def listed (parts : List String) (other : String) : String :=
  if parts = [] then other else String.intercalate ", " parts

/-- What a customer says that buys nothing. -/
def response (s : ShopState) (wants : List ProductId) (reason : Json)
    (counter : Option CounterOffer) : Text :=
  match counter with
  | some counter => ⟨s!"그 구성 그대로 {counter.price}냥이면 살게요. 어떠세요?",
      s!"I can offer {counter.price} coins for that exact bundle. Deal?"⟩
  | none =>
    match reason.text with
    | some "price" => ⟨"가격이 부담돼요. 더 작거나 저렴한 묶음은 없나요?",
        "That's too expensive. Can you offer a smaller or cheaper bundle?"⟩
    | some "fit" => ⟨"필요한 물건과 조금 달라요. 다른 조합을 보여 주세요.",
        "That doesn't fit my needs. Please show another combination."⟩
    | some "done" => ⟨"오늘 필요한 건 다 샀어요. 다음에 올게요!",
        "I have what I need. See you next time!"⟩
    | _ =>
      let story := (SHOP_STORIES s.buyer.story).line
      let ko := listed (wants.map fun id => s!"{id.name.ko} {s.buyer.missing id}개") "필요한 물건"
      let en := listed (wants.map fun id => s!"{s.buyer.missing id} {id.name.en}") "useful supplies"
      ⟨s!"{story.ko} {ko}, 이렇게 찾고 있어요.", s!"{story.en} I need {en}."⟩

/-- The answer, or the goodbye that it is part of. -/
def farewell (s : ShopState) (response : Text) : Text :=
  if s.finalOffer then ⟨"마지막 제안도 맞지 않네요. 오늘은 여기까지 할게요.",
    "That final offer still doesn't fit. I'll leave it for today."⟩
  else if s.patience ≤ s.rounds then
    if s.buyer.temperament = .hurried then
      ⟨s!"{response.ko} 서둘러 가 봐야겠어요!", s!"{response.en} I have to run!"⟩
    else ⟨s!"{response.ko} 이번엔 다음에 올게요.", s!"{response.en} I'll try again another day."⟩
  else response

/-- The purchase is over the customer's limit. -/
def blocked (s : ShopState) : ShopState :=
  { s with
    counterOffer := none
    capBlocks := s.capBlocks + 1
    rejected := some (.string "CAP_BLOCKED")
    offer := none
    phase := if s.lastRound then .transition else .seller }.line .system
    ⟨"구매가 허용 범위를 넘어서 차단됐어요. 정확한 한도는 상대에게 보이지 않아요.",
      "Purchase blocked by the owner's spending limit. The exact limit stays private."⟩

def receiptText (offer : Offer) (receipt : ShopReceipt) : Text :=
  let ko := String.intercalate " + " (offer.items.map fun item => s!"{item.id.name.ko} ×{item.quantity}")
  let en := String.intercalate " + " (offer.items.map fun item => s!"{item.id.name.en} ×{item.quantity}")
  ⟨s!"영수증 · {ko} · {offer.price}냥 · 구매 가치 {receipt.value}% · 준비 완료 {receipt.goalAchievement}%",
    s!"Receipt · {en} · {offer.price} coins · purchase value {receipt.value}% · errand {receipt.goalAchievement}%"⟩

/-- The goods and the money change hands. -/
def bought (s : ShopState) (offer : Offer) (before : Buyer) : ShopState :=
  let after := before.take offer.items offer.price
  let receipt := s.receipt offer after
  let next := { s.setBuyer after with
    counterOffer := none
    rejected := none
    inventory := fun id => s.inventory id - quantities offer.items id
    cash := s.cash + offer.price
    revenue := s.revenue + offer.price
    costOfSales := s.costOfSales + receipt.cost
    receipts := s.receipts ++ [receipt]
    offer := none
    phase := .transition }
  (next.line .buyer ⟨s!"좋아요! {offer.price}냥에 살게요.",
    s!"Deal! I'll take it for {offer.price} coins."⟩).line .system (receiptText offer receipt)

/-- The customer buys nothing. -/
def declined (s : ShopState) (wants : List ProductId) (reason : Json) : ShopState :=
  let counter := s.counter reason
  { s with
    counterOffer := counter
    offer := none
    rejected := some reason
    phase := if reason.text = some "done" ∨ s.lastRound then .transition else .seller }.line .buyer
    (s.farewell (s.response wants reason counter))

end ShopState

def applyBuyerAction (s : ShopState) (raw : Json) : Except ShopError ShopState := do
  throwIf (s.phase ≠ .buyer) .notBuyerTurn
  let action ← parseBuyerAction raw
  let wants := action.wants.getD (needs s.buyer)
  let disclosed := s.buyer.disclose wants
  if action.type.text = some "buy" then
    match s.offer with
    | none => throw .noActiveOffer
    | some offer =>
      if s.buyer.cap - s.buyer.spent < offer.price ∨ s.buyer.balance - s.buyer.spent < offer.price then
        return (s.setBuyer disclosed).blocked
      else do
        throwIf (offer.items.any fun item => s.inventory item.id < item.quantity)
          .insufficientInventory
        return s.bought offer disclosed
  else return (s.setBuyer disclosed).declined wants action.reason

/-- The receipt of a customer who recommends the shop: the most valuable, the first of several. -/
def recommendation (receipts : List ShopReceipt) : Option ShopReceipt :=
  ((receipts.filter fun receipt => receipt.customerIndex < 2 ∧ receipt.revisit).mergeSort
    fun a b => b.value ≤ a.value).head?

/-- The customers when the meeting with `customer` begins. One owner carries its allowance on. -/
def advancedBuyers (s : ShopState) (customer : Fin 3) (index : Fin 3) : Buyer :=
  if s.config.role = .buyer ∧ index = customer then
    { s.buyer with
      id := (s.buyers customer).id
      name := (s.buyers customer).name
      disclosed := []
      requested := fun _ => none }
  else s.buyers index

/-- The meeting with `customer` begins. Referrals buy attention, never purchasing power. -/
def ShopState.enter (s : ShopState) (customer : Fin 3) (referral : Option Referral) : ShopState :=
  { s with
    buyers := advancedBuyers s customer
    customer := customer
    phase := .buyer
    rounds := 0
    offer := none
    lastOffer := none
    counterOffer := none
    conversation := []
    rejected := none
    tactic := none
    finalOffer := false
    referral := referral
    inventory := if s.config.role = .buyer then stock s.config else s.inventory }

/-- What the last customer says on arriving. -/
def ShopState.greet (s : ShopState) : ShopState :=
  let announced :=
    match s.forecast.filter fun forecast => s.customer = 2 ∧ forecast.visit = 2 with
    | some forecast => s.line .buyer (shopReturnLine forecast)
    | none => s
  match s.referral with
  | some referral => announced.line .buyer
      ⟨s!"{referral.from_}에게 소개받고 왔어요. 주문을 잘 챙겨 준다면서요? 제안도 한 번 더 들어볼게요!",
        s!"{referral.from_} recommended your shop. They said you filled their whole order! I'll hear one extra offer."⟩
  | none => announced

def nextShopCustomer (s : ShopState) : Except ShopError ShopState := do
  throwIf (s.phase ≠ .transition) .customerNotFinished
  if s.customer = 2 then return { s with phase := .finished }
  else
    let customer := s.customer + 1
    let referral :=
      if customer = 2 ∧ s.config.role = .seller then
        (recommendation s.receipts).map fun receipt => ⟨receipt.customer, receipt.value⟩
      else none
    return (s.enter customer referral).greet

/-! ## What a game came to -/

structure ShopMetrics where
  profit : Int
  value : Int
  goal : Int
  savings : Int
  revisit : Nat
  spent : Int
  score : Int

def shopMetrics (s : ShopState) : ShopMetrics :=
  let profit := s.revenue - s.costOfSales - s.advertisingCost
  let value :=
    if s.receipts = [] then 0
    else Binary64.mathRound (Binary64.round ((s.receipts.map ShopReceipt.value).sum / s.receipts.length))
  let goal :=
    match s.config.role with
    | .buyer => achievement s.buyer
    | .seller => Binary64.mathRound (Binary64.round
        (((achievement (s.buyers 0) + achievement (s.buyers 1) + achievement (s.buyers 2) : Int) : ℚ) / 3))
  let savings := (s.receipts.map ShopReceipt.saving).sum
  { profit
    value
    goal
    savings
    revisit := (s.receipts.filter ShopReceipt.revisit).length
    spent := s.buyer.spent
    score := match s.config.role with
      | .seller => max 0 (profit * 10 + goal)
      | .buyer => max 0 (goal * 10 + savings * 10 + value) }

/-- The receipt of the last customer. -/
def ShopState.finalReceipt (s : ShopState) : Option ShopReceipt :=
  s.receipts.find? fun receipt => receipt.customerIndex = 2

end Mapae.Arcade
