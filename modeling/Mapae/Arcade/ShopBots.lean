import Mapae.Arcade.Shop

/-!
# What the players see, and the rule bots

* `SellerObservation.json` and `BuyerObservation.json` are the observations as they are sent
* `ruleSellerAction` and `ruleBuyerAction` are the bots, with `SellerAction.json` and
  `BuyerAction.json` for their answers
-/

namespace Mapae.Arcade

open Mapae.Infra Mapae.Guardians

/-! ## Observations -/

def numberJson (n : Int) : Json := .number n 0

def basketJson (basket : Basket) : Json :=
  .object (SHOP_PRODUCTS.map fun id => (id.text, numberJson (basket id)))

def itemJson (item : Item) : Json :=
  .object [("id", .string item.id.text), ("quantity", numberJson item.quantity)]

def itemsJson (items : List Item) : Json := .array (items.map itemJson)

/-- `value ?? null`. -/
def orNull (value : Option Json) : Json := value.getD .null

def counterJson (counter : CounterOffer) : Json :=
  .object [("price", numberJson counter.price), ("items", itemsJson counter.items)]

def linesJson (conversation : List (Speaker × String)) : Json :=
  .array (conversation.map fun line =>
    .object [("speaker", .string line.1.text), ("text", .string line.2)])

namespace SellerObservation

variable (o : SellerObservation)

/-- An entry of `legalTactics`. -/
def tacticJson (option : ShopOfferChoice) : Json := .object
  [("tactic", .string option.tactic.text), ("items", itemsJson option.items),
    ("price", numberJson option.price), ("margin", numberJson (option.price - option.cost)),
    ("completesOrder", .bool option.completesOrder),
    ("reserveShortfall", basketJson option.reserveShortfall),
    ("endsMeetingIfRejected", .bool (option.tactic = .settle)),
    ("description", .string option.hint)]

def guestJson (guest : ShopForecast) : Json := .object
  [("name", .string (SHOP_REGULARS guest.npc).name.en), ("goal", .string (SHOP_GOALS guest.goal).en),
    ("visit", numberJson guest.visit), ("trusted", .bool guest.trusted)]

/-- `shopSellerObservation`. -/
def json : Json := .object
  [("shop", .string o.shop), ("focus", .string o.focus.text),
    ("pricing", numberJson o.pricing.percent), ("negotiation", .string o.negotiation.text),
    ("initialCapital", numberJson o.initialCapital), ("cash", numberJson o.cash),
    ("inventory", basketJson o.inventory), ("customer", .string o.customer),
    ("finalGuest", orNull (o.finalGuest.map guestJson)),
    ("finalGuestReserve", orNull (o.finalGuestReserve.map basketJson)),
    ("returnTrust", .bool o.returnTrust),
    ("requestedItems", .array (o.requestedItems.map fun id => .string id.text)),
    ("roundsLeft", numberJson o.roundsLeft), ("previousResponse", orNull o.previousResponse),
    ("temperament", .string o.temperament.text),
    ("counterOffer", orNull (o.counterOffer.map counterJson)),
    ("requestedQuantities", .object (SHOP_PRODUCTS.filterMap fun id =>
      (o.requestedQuantities id).map fun quantity => (id.text, numberJson quantity))),
    ("situation", orNull (o.situation.map .string)), ("needHint", orNull (o.needHint.map .string)),
    ("wholeOrder", .bool o.wholeOrder),
    ("referral", orNull (o.referral.map fun name =>
      .object [("from", .string name), ("extraPatience", numberJson 1)])),
    ("lastOffer", orNull (o.lastOffer.map counterJson)),
    ("products", .array (SHOP_PRODUCTS.map fun id => .object
      [("id", .string id.text), ("cost", numberJson id.cost), ("retail", numberJson id.retail)])),
    ("conversation", linesJson o.conversation),
    ("legalTactics", .array (((o.offerChoices .en).filter fun option => option.available).map
      tacticJson))]

end SellerObservation

/-- `shopBuyerObservation`. Tolerances are hundredths. -/
structure BuyerObservation where
  temperament : BuyerTemperament
  priceTolerance : Int
  objective : String
  target : Basket
  acquired : Basket
  wholeOrder : Bool
  rejectsExtras : Bool
  maxGoods : Option Int
  remainingBalance : Int
  spendingRemaining : Int
  roundsLeft : Int
  offer : Option Offer
  previousResponse : Option Json
  conversation : List (Speaker × String)

def ShopState.buyerObservation (s : ShopState) : BuyerObservation where
  temperament := s.buyer.temperament
  priceTolerance := s.tolerance
  objective := (SHOP_GOALS s.buyer.goal).en
  target := objectives s.buyer.goal
  acquired := s.buyer.acquired
  wholeOrder := s.config.role = .seller ∧ (SHOP_STORIES s.buyer.story).wholeOrder
  rejectsExtras := s.config.role = .seller ∧ s.buyer.story = .study
  maxGoods := if s.config.role = .seller ∧ s.buyer.story = .journey then some 3 else none
  remainingBalance := s.buyer.balance - s.buyer.spent
  spendingRemaining := s.buyer.cap - s.buyer.spent
  roundsLeft := s.offersRemaining
  offer := s.offer
  previousResponse := s.rejected
  conversation := s.conversation.map fun line => (line.speaker, line.text.en)

namespace BuyerObservation

variable (o : BuyerObservation)

def offerJson (offer : Offer) : Json := .object
  [("items", itemsJson offer.items), ("price", numberJson offer.price),
    ("message", .string offer.message)]

def json : Json := .object
  [("temperament", .string o.temperament.text), ("priceTolerance", .number o.priceTolerance (-2)),
    ("objective", .string o.objective), ("target", basketJson o.target),
    ("acquired", basketJson o.acquired), ("wholeOrder", .bool o.wholeOrder),
    ("rejectsExtras", .bool o.rejectsExtras), ("maxGoods", orNull (o.maxGoods.map numberJson)),
    ("remainingBalance", numberJson o.remainingBalance),
    ("spendingRemaining", numberJson o.spendingRemaining), ("roundsLeft", numberJson o.roundsLeft),
    ("products", .array (SHOP_PRODUCTS.map fun id => .object
      [("id", .string id.text), ("retail", numberJson id.retail)])),
    ("offer", orNull (o.offer.map offerJson)), ("previousResponse", orNull o.previousResponse),
    ("conversation", linesJson o.conversation)]

end BuyerObservation

/-! ## Answers as they are sent -/

def SellerAction.json : SellerAction → Json
  | .ask message => .object [("type", .string "ask"), ("message", .string message)]
  | .close message => .object [("type", .string "close"), ("message", .string message)]
  | .serve tactic message => .object
      [("type", .string "serve"), ("tactic", .string tactic.text), ("message", .string message)]
  | .offer made => .object
      [("type", .string "offer"), ("items", itemsJson made.items), ("price", numberJson made.price),
        ("message", .string made.message)]

def wantsJson (wants : List ProductId) : Json := .array (wants.map fun id => .string id.text)

def BuyerAction.json (action : BuyerAction) : Json := .object
  ([("type", action.type)] ++ (action.wants.map fun wants => ("wants", wantsJson wants)).toList ++
    [("reason", action.reason)])

/-! ## The seller's bot -/

namespace SellerObservation

variable (o : SellerObservation)

/-- The answer to the offer before was about the price. -/
def tooExpensive : Bool := o.previously "price" ∨ o.previously "CAP_BLOCKED"

/-- The bid is worth taking. -/
def goodBid : Option CounterOffer :=
  o.counterOffer.filter fun counter =>
    (counter.items.all fun item => item.quantity ≤ o.inventory item.id) ∧
      stockCost counter.items ≤ counter.price

/-- The tactic that the bot prefers. -/
def preferredTactic : ShopTactic :=
  if o.negotiation = .loyalty ∨ o.tooExpensive ∨ o.previously "fit" then .generous else .essentials

/-- The offer that the shop prices and the bot takes, unless the last one was too expensive. -/
def chosen (locale : Guardians.Locale) : Option ShopOfferChoice :=
  (((o.offerChoices locale).filter fun option => option.available).find? fun option =>
    option.tactic = o.preferredTactic).filter fun _ => ¬ o.tooExpensive ∨ o.returnTrust

/-- What is left of the wishes. -/
def remaining : List Item :=
  let items := (o.requestedItems.filter fun id =>
    0 < o.inventory id ∧ 0 < (o.requestedQuantities id).getD 1).map fun id =>
      ⟨id, min (min 3 (o.inventory id)) ((o.requestedQuantities id).getD 1)⟩
  if o.tooExpensive ∧ 1 < items.length then items.dropLast else items

/-- The markdown, in tenths and hundredths. -/
def markdown (count : Nat) : Int :=
  if o.tooExpensive then 70 else if o.negotiation = .loyalty ∧ 1 < count then 85 else 100

/-- The price of what is left. `count` is taken after the last item is dropped. -/
def remainingPrice : Int :=
  let items := o.remaining
  max 1 (Binary64.mathRound (Binary64.round (Binary64.round
    ((retail items * o.pricing.percent : Int) / 100) *
      Binary64.round (o.markdown items.length / 100))))

end SellerObservation

/-- The goods with their numbers. -/
def bundleText (items : List Item) (locale : Guardians.Locale) : String :=
  String.intercalate " + " (items.map fun item => s!"{item.id.name.in locale} ×{item.quantity}")

def askText : Text :=
  ⟨"어떤 물건이 필요한가요? 필요한 것부터 골라 드릴게요.",
    "What do you need? Let's start with what is useful to you."⟩

def soldOutText : Text :=
  ⟨"필요한 상품이 모두 품절이에요. 다음에 만나요!", "Your items are sold out. See you next time!"⟩

def agreedText (price : Int) : Text :=
  ⟨s!"좋아요. 말씀하신 {price}냥에 드릴게요!", s!"Agreed. {price} coins for that bundle!"⟩

def serveText (items : List Item) (price : Int) (locale : Guardians.Locale) : String :=
  match locale with
  | .ko => s!"{bundleText items .ko}, {price}냥에 챙겨 드릴게요."
  | .en => s!"{bundleText items .en} for {price} coins."

/-- How a price that is marked down is praised, or one that is not. -/
def praise (marked : Bool) : Text :=
  if marked then ⟨"필요에 맞춰 할인했어요!", "A discount tailored to you!"⟩
  else ⟨"하나씩 알차게 골랐어요.", "A useful selection for your trip."⟩

def offerText (items : List Item) (price : Int) (marked : Bool) (locale : Guardians.Locale) : String :=
  let names := String.intercalate " + " (items.map fun item => item.id.name.in locale)
  let praise := (praise marked).in locale
  match locale with
  | .ko => s!"{names}, {price}냥 어때요? {praise}"
  | .en => s!"{names} for {price} coins. {praise}"

def ruleSellerAction (o : SellerObservation) (locale : Guardians.Locale) : SellerAction :=
  if o.requestedItems = [] then .ask (askText.in locale)
  else
    match o.goodBid with
    | some counter => .serve .settle ((agreedText counter.price).in locale)
    | none =>
      match o.chosen locale with
      | some chosen => .serve chosen.tactic (serveText chosen.items chosen.price locale)
      | none =>
        if o.remaining = [] then .close (soldOutText.in locale)
        else .offer
          { items := o.remaining
            price := o.remainingPrice
            message := offerText o.remaining o.remainingPrice
              (o.markdown o.remaining.length < 100) locale }

/-! ## The buyer's bot -/

namespace BuyerObservation

variable (o : BuyerObservation)

def wants : List ProductId := SHOP_PRODUCTS.filter fun id => o.acquired id < o.target id

def useful (items : List Item) : Int :=
  (items.map fun item => min item.quantity (max 0 (o.target item.id - o.acquired item.id))).sum

/-- The offer holds too much, too little that is useful, or not everything. -/
def unfit (offer : Offer) : Bool :=
  let count := (offer.items.map Item.quantity).sum
  (o.maxGoods.any fun most => most < count) ∨
    Binary64.round (o.useful offer.items / count) <
      (if o.temperament = .particular ∨ o.rejectsExtras then 1 else 3 / 4) ∨
    ((o.temperament = .hurried ∨ o.wholeOrder) ∧ o.wants.any fun id =>
      SellerObservation.quantityOf offer.items id < o.target id - o.acquired id)

def unaffordable (offer : Offer) : Bool :=
  o.spendingRemaining < offer.price ∨ o.remainingBalance < offer.price ∨
    ⌊scaled (retail offer.items) o.priceTolerance⌋ < offer.price

end BuyerObservation

def ruleBuyerAction (o : BuyerObservation) : BuyerAction :=
  if o.wants = [] then ⟨.string "decline", some o.wants, .string "done"⟩
  else
    match o.offer with
    | none => ⟨.string "request", some o.wants, .string "need"⟩
    | some offer =>
      if o.unfit offer then ⟨.string "decline", some o.wants, .string "fit"⟩
      else if o.unaffordable offer then ⟨.string "decline", some o.wants, .string "price"⟩
      else ⟨.string "buy", none, .string "need"⟩

end Mapae.Arcade
