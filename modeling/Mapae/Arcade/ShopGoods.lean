import Mapae.Infra.Binary64
import Mapae.Infra.Json
import Mapae.Outings.Job

/-!
# What the shop trades, and what its players may say

* the goods, the errands and their stories
* `parseShopConfig` and `parseShopMemory` check what a shop is opened with
* `parseSellerAction` and `parseBuyerAction` read the answers of the players, which may be any JSON

A basket is a function of the product.
-/

namespace Mapae.Arcade

open Mapae.Infra Mapae.Guardians

abbrev GuardianAptitudes := Outings.GuardianAptitudes

/-- `GUARDIAN_APTITUDES`. -/
def GUARDIAN_APTITUDES : List GuardianAptitudes :=
  [⟨4, 5, 6⟩, ⟨4, 6, 5⟩, ⟨5, 4, 6⟩, ⟨5, 6, 4⟩, ⟨6, 4, 5⟩, ⟨6, 5, 4⟩]

def validGuardianAptitudes (aptitudes : GuardianAptitudes) : Bool := aptitudes ∈ GUARDIAN_APTITUDES

/-- A text in both languages. -/
structure Text where
  ko : String
  en : String

def Text.in (text : Text) : Guardians.Locale → String
  | .ko => text.ko
  | .en => text.en

/-! ## Goods -/

inductive ProductId where
  | water
  | snack
  | charm
  deriving DecidableEq

def ProductId.text : ProductId → String
  | .water => "water"
  | .snack => "snack"
  | .charm => "charm"

/-- `SHOP_PRODUCTS`, in its order. -/
def SHOP_PRODUCTS : List ProductId := [.water, .snack, .charm]

namespace ProductId

def name : ProductId → Text
  | .water => ⟨"구름 물병", "Cloud water"⟩
  | .snack => ⟨"달빛 주먹밥", "Moon rice ball"⟩
  | .charm => ⟨"행운 말부적", "Lucky horse charm"⟩

def cost : ProductId → Int
  | .water => 2
  | .snack => 3
  | .charm => 4

def retail : ProductId → Int
  | .water => 4
  | .snack => 6
  | .charm => 8

end ProductId

abbrev Basket := ProductId → Int

def Basket.of (water snack charm : Int) : Basket
  | .water => water
  | .snack => snack
  | .charm => charm

def emptyBasket : Basket := .of 0 0 0

structure Item where
  id : ProductId
  quantity : Int
  deriving DecidableEq

def SHOP_INITIAL_CAPITAL : Int := 100
def SHOP_BUYER_BALANCE : Int := 30

/-! ## Errands -/

inductive ShopGoal where
  | picnic
  | study
  | journey
  | festival
  | gift
  | delivery
  deriving DecidableEq

/-- The keys of `SHOP_GOALS`, in its order. -/
def shopGoals : List ShopGoal := [.picnic, .study, .journey, .festival, .gift, .delivery]

def objectives : ShopGoal → Basket
  | .picnic => .of 1 2 0
  | .study => .of 1 0 1
  | .journey => .of 2 1 0
  | .festival => .of 0 2 1
  | .gift => .of 0 0 2
  | .delivery => .of 1 1 1

def SHOP_GOALS : ShopGoal → Text
  | .picnic => ⟨"소풍 준비 · 물병 1 + 주먹밥 2", "Picnic · 1 water + 2 rice balls"⟩
  | .study => ⟨"시험 응원 · 물병 1 + 부적 1", "Exam support · 1 water + 1 charm"⟩
  | .journey => ⟨"긴 여행 · 물병 2 + 주먹밥 1", "Long journey · 2 water + 1 rice ball"⟩
  | .festival => ⟨"달맞이 잔치 · 주먹밥 2 + 부적 1", "Moon festival · 2 rice balls + 1 charm"⟩
  | .gift => ⟨"쌍둥이 선물 · 부적 2", "Gifts for twins · 2 charms"⟩
  | .delivery => ⟨"배달부 보따리 · 물병 1 + 주먹밥 1 + 부적 1",
      "Courier pack · 1 water + 1 rice ball + 1 charm"⟩

structure ShopStory where
  title : Text
  line : Text
  hint : Text
  wholeOrder : Bool

def SHOP_STORIES : ShopGoal → ShopStory
  | .picnic =>
    { title := ⟨"소풍 모임의 총무", "The picnic organizer"⟩
      line := ⟨"친구와 주먹밥 하나씩 나눠 먹으려 해요. 물도 함께 챙겨 주세요.",
        "One rice ball each for my friend and me, and some water to share."⟩
      hint := ⟨"적게 팔면 이익은 남아도 친구 한 명은 배고파요.",
        "A small pack may leave one friend hungry."⟩
      wholeOrder := false }
  | .study =>
    { title := ⟨"과거를 앞둔 선비", "The exam scholar"⟩
      line := ⟨"시험장에 물과 응원 부적을 가져가려 해요. 다른 물건은 짐이에요.",
        "Water and a lucky charm for the exam. Anything else is extra baggage."⟩
      hint := ⟨"필요한 두 가지를 깔끔하게. 덤이어도 엉뚱한 물건은 싫어요.",
        "The two requested goods only, even if an extra is free."⟩
      wholeOrder := false }
  | .journey =>
    { title := ⟨"고개 넘는 나그네", "The mountain traveler"⟩
      line := ⟨"고개 두 개를 넘어야 해요. 물 두 병과 주먹밥 하나, 세 개까지만 들게요.",
        "Two mountain passes ahead. Two waters and a rice ball; I can carry only three things."⟩
      hint := ⟨"물 한 병을 아끼면 손님의 여행 준비가 덜 끝나요.",
        "Saving one bottle leaves part of the journey unprepared."⟩
      wholeOrder := false }
  | .festival =>
    { title := ⟨"달맞이 재주꾼", "The moon-festival performer"⟩
      line := ⟨"공연 전후로 먹을 주먹밥 두 개와 행운 부적을 찾소!",
        "Two rice balls, before and after my show, and a lucky charm!"⟩
      hint := ⟨"주먹밥 하나를 더 챙길지, 다음 손님을 위해 남길지 골라요.",
        "Include the second meal, or save that stock for the next guest."⟩
      wholeOrder := false }
  | .gift =>
    { title := ⟨"쌍둥이 선물 고르는 부모", "The twins' gift shopper"⟩
      line := ⟨"쌍둥이가 다투면 안 되니 같은 부적 두 개로 주세요. 하나만은 안 돼요.",
        "Two matching charms for my twins, please. One would start an argument."⟩
      hint := ⟨"선물은 반드시 한 쌍. 부적 재고가 두 개 필요해요.",
        "Gifts must come as a pair. Keep two charms in stock."⟩
      wholeOrder := true }
  | .delivery =>
    { title := ⟨"출발 앞둔 파발꾼", "The departing courier"⟩
      line := ⟨"출발 종이 곧 울려요. 물, 주먹밥, 부적을 한 번에 챙겨야 해요.",
        "The departure bell is about to ring. Water, a rice ball, and a charm in one stop."⟩
      hint := ⟨"빠진 물건이 있으면 떠나요. 한 번에 주문을 채워요.",
        "Missing goods mean no deal. Fill the whole order at once."⟩
      wholeOrder := true }

/-! ## Customers -/

inductive BuyerTemperament where
  | thrifty
  | hurried
  | particular
  deriving DecidableEq

def BuyerTemperament.text : BuyerTemperament → String
  | .thrifty => "thrifty"
  | .hurried => "hurried"
  | .particular => "particular"

def SHOP_TEMPERAMENTS : List BuyerTemperament := [.thrifty, .hurried, .particular]

/-- `priceTolerance`, in hundredths. -/
def priceTolerance : BuyerTemperament → Int
  | .thrifty => 85
  | .hurried => 115
  | .particular => 100

inductive Npc where
  | twins
  | courier

structure Regular where
  name : Text
  goal : ShopGoal

def SHOP_REGULARS : Npc → Regular
  | .twins => ⟨⟨"두리", "Duri"⟩, .gift⟩
  | .courier => ⟨⟨"솔이", "Sol"⟩, .delivery⟩

inductive Service where
  | complete
  | partial_
  | missed
  deriving DecidableEq

structure ShopMemory where
  npc : Npc
  visits : Nat
  service : Service
  value : Int

/-- `parseShopMemory` of a value with the fields of a memory. -/
def parseShopMemory (memory : ShopMemory) : Option ShopMemory :=
  if (memory.visits ≠ 1 ∧ memory.visits ≠ 2) ∨ ¬ (0 ≤ memory.value ∧ memory.value ≤ 100) ∨
      (memory.service = .missed ∧ memory.value ≠ 0) ∨
      (memory.service = .complete ∧ memory.value < 85) then none
  else some memory

structure ShopForecast where
  npc : Npc
  goal : ShopGoal
  visit : Nat
  trusted : Bool
  previous : Option ShopMemory

/-- Who comes last. `seed % 2` is zero or not, whatever its sign. -/
def shopForecast (seed : Int) (memory : Option ShopMemory) : ShopForecast :=
  match (memory.bind parseShopMemory).filter fun previous => previous.visits = 1 with
  | some previous =>
    { npc := previous.npc
      goal := (SHOP_REGULARS previous.npc).goal
      visit := 2
      trusted := previous.service = .complete
      previous := some previous }
  | none =>
    let npc := if seed % 2 = 0 then Npc.twins else .courier
    { npc := npc
      goal := (SHOP_REGULARS npc).goal
      visit := 1
      trusted := false
      previous := none }

/-- `shopReturnLine`. -/
def shopReturnLine (forecast : ShopForecast) : Text :=
  let name := (SHOP_REGULARS forecast.npc).name
  if forecast.visit = 1 then
    ⟨s!"{name.ko}의 첫 방문 · 마지막 손님을 위해 주문 재고를 남겨 주세요.",
      s!"{name.en}'s first visit · Save the requested stock for your final guest."⟩
  else if forecast.trusted then
    match forecast.npc with
    | .twins => ⟨"지난번 같은 선물을 받아 쌍둥이가 함께 웃었어요. 이번에도 부탁해요! 정가도 괜찮고, 제안도 한 번 더 들어볼게요.",
        "The twins loved their matching gifts! I'll pay a fair retail price and hear one extra offer today."⟩
    | .courier => ⟨"지난번 빠짐없이 챙겨 주셔서 배달을 마쳤어요. 이번엔 정가도 괜찮아요. 제안도 한 번 더 들어볼게요.",
        "Your complete pack got me through my deliveries. I'll pay fair retail and hear one extra offer today."⟩
  else
    match forecast.npc with
    | .twins => ⟨"지난번 선물 준비는 아쉬웠어요. 오늘은 부적 두 개를 좋은 가격에 부탁해요.",
        "Last time's gifts weren't quite right. Two charms at a good price today, please."⟩
    | .courier => ⟨"지난번 보따리는 아쉬웠어요. 오늘은 빠짐없이, 좋은 가격에 부탁해요.",
        "Last time's pack wasn't quite right. All three supplies at a good price today, please."⟩

/-! ## Configurations -/

inductive ShopRole where
  | seller
  | buyer
  deriving DecidableEq

inductive Focus where
  | balanced
  | everyday
  | gifts

def Focus.text : Focus → String
  | .balanced => "balanced"
  | .everyday => "everyday"
  | .gifts => "gifts"

/-- The sticker price in hundredths of retail. -/
inductive Pricing where
  | low
  | retail
  | premium

def Pricing.percent : Pricing → Int
  | .low => 80
  | .retail => 100
  | .premium => 125

inductive Advertising where
  | none
  | poster
  | parade

def SHOP_AD_COST : Advertising → Int
  | .none => 0
  | .poster => 1
  | .parade => 2

inductive Negotiation where
  | profit
  | loyalty
  deriving DecidableEq

def Negotiation.text : Negotiation → String
  | .profit => "profit"
  | .loyalty => "loyalty"

structure ShopConfig where
  role : ShopRole
  name : String
  focus : Focus
  pricing : Pricing
  advertising : Advertising
  negotiation : Negotiation
  buyerGoal : ShopGoal
  buyerCap : Int

def DEFAULT_SHOP_CONFIG : ShopConfig where
  role := .seller
  name := "말랑 잡화점"
  focus := .balanced
  pricing := .retail
  advertising := .none
  negotiation := .loyalty
  buyerGoal := .picnic
  buyerCap := 18

/-- `parseShopConfig` of a value with the fields of a configuration. -/
def parseShopConfig (config : ShopConfig) : Option ShopConfig :=
  let name := trim config.name
  if ¬ (6 ≤ config.buyerCap ∧ config.buyerCap ≤ SHOP_BUYER_BALANCE) ∨ name = [] ∨
      name.length > 18 then none
  else some { config with name := String.ofList name }

structure ShopCampaign where
  goal : ShopGoal
  matches_ : Nat
  cost : Int

def shopCampaign (config : ShopConfig) : ShopCampaign where
  goal := match config.focus with
    | .gifts => .gift
    | .everyday => .picnic
    | .balanced => .study
  matches_ := match config.advertising with
    | .parade => 2
    | .poster => 1
    | .none => 0
  cost := SHOP_AD_COST config.advertising

def stock (config : ShopConfig) : Basket :=
  match config.focus with
  | .everyday => .of 6 5 1
  | .gifts => .of 3 2 6
  | .balanced => .of 4 4 4

/-- The cost of a basket. -/
def cost (basket : Basket) : Int := (SHOP_PRODUCTS.map fun id => id.cost * basket id).sum

/-- How many of each product there are among items. -/
def quantities (items : List Item) : Basket := fun id =>
  ((items.filter fun item => item.id = id).map Item.quantity).sum

def retail (items : List Item) : Int := (items.map fun item => item.id.retail * item.quantity).sum

/-- What items cost the shop. -/
def stockCost (items : List Item) : Int := (items.map fun item => item.id.cost * item.quantity).sum

/-! ## What the players say -/

inductive ShopTactic where
  | essentials
  | generous
  | settle
  deriving DecidableEq

def ShopTactic.text : ShopTactic → String
  | .essentials => "essentials"
  | .generous => "generous"
  | .settle => "settle"

def SHOP_TACTICS : List ShopTactic := [.essentials, .generous, .settle]

structure Offer where
  items : List Item
  price : Int
  message : String
  deriving DecidableEq

inductive SellerAction where
  | ask (message : String)
  | close (message : String)
  | serve (tactic : ShopTactic) (message : String)
  | offer (offer : Offer)
  deriving DecidableEq

def SellerAction.message : SellerAction → String
  | .ask message => message
  | .close message => message
  | .serve _ message => message
  | .offer made => made.message

/-- `type` and `reason` are kept as they were answered. -/
structure BuyerAction where
  type : Json
  wants : Option (List ProductId)
  reason : Json

inductive ShopError where
  | notSellerTurn
  | invalidSellerAction
  | invalidSellerOffer
  | invalidSellerItems
  | tacticUnavailable
  | insufficientInventory
  | notBuyerTurn
  | invalidBuyerAction
  | invalidBuyerWants
  | noActiveOffer
  | customerNotFinished
  | invalidShopConfig
  | invalidShopMemory
  | invalidAptitudes
  /-- `String` of an object that cannot be printed. -/
  | typeError
  deriving DecidableEq

/-- `product`: the product that a value names. -/
def product : Json → Option ProductId
  | .string value => SHOP_PRODUCTS.find? fun id => id.text = value
  | _ => none

/-- `items.map` of `parseSellerAction`. -/
def parseItems : List ProductId → List Json → Except ShopError (List Item)
  | _, [] => .ok []
  | seen, item :: rest =>
    if item.onlyKeys ["id", "quantity"] then
      match (item.field "id").bind product, (item.field "quantity").bind (·.integer 1 3) with
      | some id, some quantity =>
        if id ∈ seen then .error .invalidSellerItems
        else (parseItems (id :: seen) rest).map (⟨id, quantity⟩ :: ·)
      | _, _ => .error .invalidSellerItems
    else .error .invalidSellerItems

/-- The items of an offer, of which there are one to three. -/
def offeredItems (value : Json) : Option (List Json) :=
  match value.field "items" with
  | some (.array items) => if items.length < 1 ∨ items.length > 3 then none else some items
  | _ => none

/-- The message of a seller, not longer than 180 units and not blank. -/
def sellerMessage (value : Json) : Option String :=
  (value.textField "message").filter fun message => unitLength message ≤ 180 ∧ trim message ≠ []

/-- The tactic that a value names. -/
def tacticOf (value : Json) : Option ShopTactic :=
  (value.textField "tactic").bind fun text => SHOP_TACTICS.find? fun tactic => tactic.text = text

/-- What is left when a seller's answer neither asks, closes nor serves. -/
def parseOffer (value : Json) (message : String) : Except ShopError SellerAction :=
  if value.textField "type" = some "offer" ∧ value.onlyKeys ["type", "message", "items", "price"] then
    match (value.field "price").bind (·.integer 1 99), offeredItems value with
    | some price, some items =>
      (parseItems [] items).map fun items => .offer ⟨items, price, message⟩
    | _, _ => .error .invalidSellerOffer
  else .error .invalidSellerOffer

def parseSellerAction (value : Json) : Except ShopError SellerAction :=
  match sellerMessage value with
  | none => .error .invalidSellerAction
  | some raw =>
    let message := String.ofList (trim raw)
    let type := value.textField "type"
    if type = some "ask" ∧ value.onlyKeys ["type", "message"] then .ok (.ask message)
    else if type = some "close" ∧ value.onlyKeys ["type", "message"] then .ok (.close message)
    else if type = some "serve" ∧ value.onlyKeys ["type", "tactic", "message"] then
      match tacticOf value with
      | some tactic => .ok (.serve tactic message)
      | none => .error .invalidSellerOffer
    else parseOffer value message

/-- The words of a buyer's answer. -/
def buyerTypes : List String := ["request", "buy", "decline"]

def buyerReasons : List String := ["need", "price", "fit", "done"]

/-- A value that is printed as one of the words; `undefined` is not. -/
def wordOf (words : List String) (value : Option Json) : Except ShopError Json :=
  match value with
  | none => .error .invalidBuyerAction
  | some value =>
    if value.unprintable then .error .typeError
    else if words.any fun word => value.prints word then .ok value
    else .error .invalidBuyerAction

/-- What a buyer wants, if it says so: at most three products, each once. -/
def parseWants (value : Option Json) : Except ShopError (Option (List ProductId)) :=
  match value with
  | none => .ok none
  | some (.array items) =>
    if items.length > 3 then .error .invalidBuyerWants
    else match items.mapM product with
      | some wants => if wants.Nodup then .ok (some wants) else .error .invalidBuyerWants
      | none => .error .invalidBuyerWants
  | some _ => .error .invalidBuyerWants

def parseBuyerAction (value : Json) : Except ShopError BuyerAction := do
  throwIf (¬ value.onlyKeys ["type", "wants", "reason"]) .invalidBuyerAction
  let type ← wordOf buyerTypes (value.field "type")
  let reason ← wordOf buyerReasons (value.field "reason")
  let wants ← parseWants (value.field "wants")
  return ⟨type, wants, reason⟩

/-! ## What the readers accept -/

variable {value : Json} {item : Item} {items : List Item} {raw : List Json}
  {seen : List ProductId} {offer : Offer} {action : BuyerAction}

theorem of_integer {n low high : Int} (h : value.integer low high = some n) : low ≤ n ∧ n ≤ high :=
  of_decide_eq_true (Option.filter_eq_some_iff.mp h).2

/-- An item that was read: a product and a quantity of one to three, not seen before. -/
theorem parseItems_cons {head : Json} (h : parseItems seen (head :: raw) = .ok items) :
    ∃ id quantity rest, items = ⟨id, quantity⟩ :: rest ∧ (1 ≤ quantity ∧ quantity ≤ 3) ∧ id ∉ seen ∧
      parseItems (id :: seen) raw = .ok rest := by
  unfold parseItems at h
  split at h
  · split at h
    · next id quantity hid hquantity =>
      split at h
      · cases h
      · next hnew =>
        cases hrest : parseItems (id :: seen) raw with
        | error e =>
          rw [hrest] at h
          cases h
        | ok rest =>
          rw [hrest] at h
          cases h
          obtain ⟨field, -, hfield⟩ := Option.bind_eq_some_iff.mp hquantity
          exact ⟨id, quantity, rest, rfl, of_integer hfield, hnew, hrest⟩
    · cases h
  · cases h

/-- The items of an offer are different products, one to three of each. -/
structure Bundle (items : List Item) : Prop where
  nodup : (items.map Item.id).Nodup
  quantity : ∀ item ∈ items, 1 ≤ item.quantity ∧ item.quantity ≤ 3

theorem parseItems_spec (h : parseItems seen raw = .ok items) :
    Bundle items ∧ (∀ item ∈ items, item.id ∉ seen) ∧ items.length = raw.length := by
  induction raw generalizing seen items with
  | nil =>
    cases h
    exact ⟨⟨List.nodup_nil, nofun⟩, nofun, rfl⟩
  | cons head raw ih =>
    obtain ⟨id, quantity, rest, rfl, hquantity, hnew, hrest⟩ := parseItems_cons h
    obtain ⟨hbundle, hseen, hlength⟩ := ih hrest
    refine ⟨⟨List.nodup_cons.mpr ⟨fun hmem => ?_, hbundle.nodup⟩, ?_⟩, ?_, ?_⟩
    · obtain ⟨item, hitem, hid⟩ := List.mem_map.mp hmem
      exact hseen item hitem (hid ▸ List.mem_cons_self)
    · exact List.forall_mem_cons.mpr ⟨hquantity, hbundle.quantity⟩
    · exact List.forall_mem_cons.mpr
        ⟨hnew, fun item hitem hmem => hseen item hitem (List.mem_cons_of_mem _ hmem)⟩
    · rw [List.length_cons, List.length_cons, hlength]

theorem length_of_offeredItems (h : offeredItems value = some raw) : 1 ≤ raw.length := by
  unfold offeredItems at h
  split at h
  · split at h
    · cases h
    · next hlength =>
      cases h
      omega
  · cases h

/-- **An offer that was read is a bundle at a price of 1 to 99.** -/
theorem parseSellerAction_offer (h : parseSellerAction value = .ok (.offer offer)) :
    Bundle offer.items ∧ offer.items ≠ [] ∧ 1 ≤ offer.price ∧ offer.price ≤ 99 := by
  unfold parseSellerAction at h
  split at h
  · cases h
  · next raw hraw =>
    dsimp only at h
    split at h
    · cases h
    · split at h
      · cases h
      · split at h
        · split at h <;> cases h
        · unfold parseOffer at h
          split at h
          · split at h
            · next price raw hprice hraw =>
              cases hitems : parseItems [] raw with
              | error e =>
                rw [hitems] at h
                cases h
              | ok items =>
                rw [hitems] at h
                cases h
                obtain ⟨hbundle, -, hlength⟩ := parseItems_spec hitems
                obtain ⟨field, -, hfield⟩ := Option.bind_eq_some_iff.mp hprice
                refine ⟨hbundle, fun hnil => ?_, of_integer hfield⟩
                have hpos := length_of_offeredItems hraw
                rw [← hlength, show items = [] from hnil] at hpos
                exact absurd hpos (by decide)
            · cases h
          · cases h

theorem length_of_mapM_product {values : List Json} :
    ∀ {wants : List ProductId}, values.mapM product = some wants → wants.length = values.length := by
  induction values with
  | nil =>
    intro wants h
    cases h
    rfl
  | cons head values ih =>
    intro wants h
    rw [List.mapM_cons] at h
    obtain ⟨id, -, h⟩ := Option.bind_eq_some_iff.mp h
    obtain ⟨rest, hrest, h⟩ := Option.bind_eq_some_iff.mp h
    cases h
    rw [List.length_cons, List.length_cons, ih hrest]

/-- A buyer wants different products. -/
theorem parseBuyerAction_wants (h : parseBuyerAction value = .ok action) {wants : List ProductId}
    (hwants : action.wants = some wants) : wants.Nodup ∧ wants.length ≤ 3 := by
  simp only [parseBuyerAction, bind_eq_ok, throwIf_eq_ok, pure_eq_ok] at h
  obtain ⟨-, -, type, -, reason, -, parsed, hparsed, rfl⟩ := h
  obtain rfl : parsed = some wants := hwants
  unfold parseWants at hparsed
  split at hparsed
  · cases hparsed
  · next items _ =>
    split at hparsed
    · cases hparsed
    · next hlength =>
      split at hparsed
      · next found hfound =>
        split at hparsed
        · next hnodup =>
          cases hparsed
          refine ⟨hnodup, ?_⟩
          have := length_of_mapM_product hfound
          omega
        · cases hparsed
      · cases hparsed
  · cases hparsed

end Mapae.Arcade
