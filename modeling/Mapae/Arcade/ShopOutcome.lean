import Mapae.Arcade.ShopBots

/-!
# A game of the bots, and what a game came to

* `simulateShop` lets the bots play a shop to its end
* `shopMetrics` and `shopOutcome` sum a finished game up, beside two games of the bots
* `runArcadeSimulation` is the shop of an outing

The outcome is sent as `ActivityOutcome.json`.
-/

namespace Mapae.Arcade

open Mapae.Infra Mapae.Guardians

/-- What a simulation may throw: an error of the shop, or one of its own. -/
inductive SimulationError where
  | shop (e : ShopError)
  | error (message : String)

def ofShop {α : Type} (result : Except ShopError α) : Except SimulationError α := result.mapError .shop

/-! ## The bots -/

inductive BuyerStyle where
  | careful
  | impulsive
  deriving DecidableEq

/-- `{type: "buy", reason: "need"}`. -/
def buyAnyway : BuyerAction := ⟨.string "buy", none, .string "need"⟩

def buyerBot (style : BuyerStyle) (s : ShopState) : BuyerAction :=
  if style = .impulsive ∧ s.offer.isSome then buyAnyway else ruleBuyerAction s.buyerObservation

/-- A turn of the bots. -/
def botTurn (style : BuyerStyle) (locale : Guardians.Locale) (s : ShopState) : Except ShopError ShopState :=
  match s.phase with
  | .transition => nextShopCustomer s
  | .seller => applySellerAction s (ruleSellerAction s.sellerObservation locale).json
  | .buyer | .finished => applyBuyerAction s (buyerBot style s).json

/-- The loop: at most so many turns, until the game is finished. -/
def playOut (style : BuyerStyle) (locale : Guardians.Locale) : Nat → ShopState → Except ShopError ShopState
  | 0, s => .ok s
  | turns + 1, s =>
    if s.phase = .finished then .ok s
    else do
      let s ← botTurn style locale s
      playOut style locale turns s

def simulateShop (seed : Int) (config : ShopConfig) (style : BuyerStyle) (memory : Option ShopMemory)
    (aptitudes : Option GuardianAptitudes) : Except SimulationError ShopState := do
  let s ← ofShop (createShop seed config memory aptitudes)
  let s ← ofShop (playOut style .en 40 s)
  throwIf (s.phase ≠ .finished) (.error "SHOP_DID_NOT_FINISH")
  return s

/-! ## What a game came to -/

structure ActivityMetric where
  label : Text
  value : Int
  unit : Option String

structure ActivityReplay where
  seed : Int
  version : Nat
  aptitudes : Option GuardianAptitudes
  shop : ShopConfig
  shopMemory : Option ShopMemory

structure ActivityOutcome where
  game : String
  victory : Bool
  shopMemory : Option ShopMemory
  replay : ActivityReplay
  score : Int
  highlights : List Text
  summary : Text
  metrics : List ActivityMetric
  transcript : List (String × String)
  ranking : List (String × Int)

namespace ShopState

def sells (s : ShopState) : Bool := s.config.role = .seller

/-- The deal that is told of: one that was generous and complete, one that was settled, or the last. -/
def bestReceipt (s : ShopState) : Option ShopReceipt :=
  (s.receipts.find? fun receipt => receipt.tactic = some .generous ∧ receipt.goalAchievement = 100) <|>
    (s.receipts.find? fun receipt => receipt.tactic = some ShopTactic.settle) <|> s.receipts.getLast?

def referralText (name : String) : Text :=
  ⟨s!"{name}의 소개로 마지막 손님에게 제안할 기회를 한 번 더 얻었어요.",
    s!"{name}'s recommendation earned one extra offer with the final customer."⟩

def dealText (s : ShopState) (receipt : ShopReceipt) : Text :=
  let goods := (receipt.items.map Item.quantity).sum
  let stats := shopMetrics s
  if s.sells then
    ⟨s!"{receipt.customer}에게 {goods}개를 팔아 {receipt.price - receipt.cost}냥 이익 · 주문 {receipt.goalAchievement}%를 채웠어요.",
      s!"Sold {goods} goods to {s.customerName receipt.customerIndex .en}: {receipt.price - receipt.cost} coins profit, {receipt.goalAchievement}% of their errand filled."⟩
  else
    ⟨s!"마지막 구매까지 목표 {stats.goal}% 달성 · 한도 안에서 {stats.spent}냥을 썼어요.",
      s!"Reached {stats.goal}% of your goal, spending {stats.spent} coins within your cap."⟩

def noDealText : Text :=
  ⟨"세 번의 만남에서 거래가 성사되지 않았어요. 같은 장날에 다른 제안을 해 보세요.",
    "No deal across three meetings. Try a different offer on the same market day."⟩

/-- The second visit of a regular. -/
def visitText (s : ShopState) (forecast : ShopForecast) : Text :=
  let name := (SHOP_REGULARS forecast.npc).name
  let trust : Text := if forecast.trusted then ⟨"지난 완수의 신뢰로 정가 제안 가능", "past service earned trust at retail"⟩
    else ⟨"지난 서비스 뒤 다시 도전", "a second chance after last time"⟩
  let today : Text := match s.finalReceipt with
    | some receipt => ⟨s!"{receipt.price - receipt.cost}냥 이익", s!"{receipt.price - receipt.cost} coins profit today"⟩
    | none => ⟨"거래 없음", "no deal today"⟩
  ⟨s!"{name.ko}의 두 번째 방문 · {trust.ko} · 오늘 {today.ko}.",
    s!"{name.en}'s second visit: {trust.en}; {today.en}."⟩

def highlights (s : ShopState) : List Text :=
  let told := (s.referral.map fun referral => referralText referral.from_).toList ++
    (s.bestReceipt.map s.dealText).toList
  let told := if told = [] then [noDealText] else told
  match s.forecast.filter fun forecast => s.sells ∧ forecast.visit = 2 with
  | some forecast => s.visitText forecast :: told.tail
  | none => told

/-- What the last customer will remember. -/
def nextMemory (s : ShopState) : Option ShopMemory :=
  if s.sells then s.forecast.map fun forecast =>
    { npc := forecast.npc
      visits := forecast.visit
      service := match s.finalReceipt with
        | some receipt => if receipt.revisit then .complete else .partial_
        | none => .missed
      value := (s.finalReceipt.map ShopReceipt.value).getD 0 }
  else none

def summary (s : ShopState) : Text :=
  let stats := shopMetrics s
  if s.sells then
    ⟨s!"손님 3명 · 순이익 {stats.profit}냥 · 주문 완수 {stats.goal}%",
      s!"3 customers · {stats.profit} coins profit · {stats.goal}% of errands filled"⟩
  else
    ⟨s!"가게 3곳 · 구매 목표 {stats.goal}% · {stats.savings}냥 절약",
      s!"3 shops · {stats.goal}% of goal · {stats.savings} coins saved"⟩

def metrics (s : ShopState) : List ActivityMetric :=
  let stats := shopMetrics s
  [⟨⟨"초기 자본", "Starting capital"⟩, if s.sells then SHOP_INITIAL_CAPITAL else SHOP_BUYER_BALANCE, some "coin"⟩,
    if s.sells then ⟨⟨"순이익", "Net profit"⟩, stats.profit, some "coin"⟩
    else ⟨⟨"구매 지출", "Purchase spend"⟩, stats.spent, some "coin"⟩,
    ⟨⟨"구매 가치", "Purchase value"⟩, stats.value, some "%"⟩,
    ⟨⟨"완수한 좋은 거래", "Useful complete service"⟩, stats.revisit, none⟩,
    ⟨⟨"구매 목표", "Goal achieved"⟩, stats.goal, some "%"⟩,
    ⟨⟨"절약액", "Savings"⟩, stats.savings, some "coin"⟩,
    ⟨⟨"한도 차단", "Limit blocks"⟩, s.capBlocks, none⟩]

end ShopState

def baselineName (locale : Guardians.Locale) : String :=
  match locale with
  | .ko => "기준 운영 · 규칙 봇"
  | .en => "Baseline · rules"

def comparisonName (seller : Bool) (locale : Guardians.Locale) : String :=
  match locale with
  | .ko => if seller then "프리미엄 운영 · 규칙 봇" else "충동 구매 · 규칙 봇"
  | .en => if seller then "Premium · rules" else "Impulse buyer · rules"

/-- The shop that the result is compared with. -/
def baselineConfig (config : ShopConfig) : ShopConfig :=
  match config.role with
  | .seller => { config with pricing := .retail, advertising := .none, negotiation := .loyalty }
  | .buyer => config

/-- Another one: a premium shop, or an impulsive customer. -/
def comparisonConfig (config : ShopConfig) : ShopConfig :=
  match config.role with
  | .seller => { config with pricing := .premium, advertising := .parade, negotiation := .profit }
  | .buyer => config

def comparisonStyle (config : ShopConfig) : BuyerStyle :=
  match config.role with
  | .seller => .careful
  | .buyer => .impulsive

def shopOutcome (s : ShopState) (name : String) (locale : Guardians.Locale) :
    Except SimulationError ActivityOutcome := do
  throwIf (s.phase ≠ .finished) (.error "SHOP_NOT_FINISHED")
  let stats := shopMetrics s
  let baseline ← simulateShop s.seed (baselineConfig s.config) .careful s.startingMemory s.aptitudes
  let comparison ← simulateShop s.seed (comparisonConfig s.config) (comparisonStyle s.config) s.startingMemory
    s.aptitudes
  return {
    game := "shop"
    victory := if s.sells then 0 < stats.profit else stats.goal = 100
    shopMemory := s.nextMemory
    replay := ⟨s.seed, Outings.ARCADE_RULESET_VERSION, s.aptitudes, s.config, s.startingMemory⟩
    score := stats.score
    highlights := s.highlights
    summary := s.summary
    metrics := s.metrics
    transcript := s.transcript.map fun line => (line.speaker.text, line.text.in locale)
    ranking := [(name, stats.score), (baselineName locale, (shopMetrics baseline).score),
      (comparisonName s.sells locale, (shopMetrics comparison).score)].mergeSort fun a b => b.2 ≤ a.2 }

/-! ## As it is sent -/

namespace Text

def json (text : Text) : Json := .object [("ko", .string text.ko), ("en", .string text.en)]

end Text

/-- A property that may be absent. -/
def optional (name : String) (value : Option Json) : List (String × Json) :=
  (value.map fun value => (name, value)).toList

def Npc.text : Npc → String
  | .twins => "twins"
  | .courier => "courier"

def Service.text : Service → String
  | .complete => "complete"
  | .partial_ => "partial"
  | .missed => "missed"

def ShopMemory.json (memory : ShopMemory) : Json := .object
  [("npc", .string memory.npc.text), ("visits", numberJson memory.visits),
    ("service", .string memory.service.text), ("value", numberJson memory.value)]

def ShopRole.text : ShopRole → String
  | .seller => "seller"
  | .buyer => "buyer"

def Advertising.text : Advertising → String
  | .none => "none"
  | .poster => "poster"
  | .parade => "parade"

def ShopGoal.text : ShopGoal → String
  | .picnic => "picnic"
  | .study => "study"
  | .journey => "journey"
  | .festival => "festival"
  | .gift => "gift"
  | .delivery => "delivery"

def ShopConfig.json (config : ShopConfig) : Json := .object
  [("role", .string config.role.text), ("name", .string config.name), ("focus", .string config.focus.text),
    ("pricing", numberJson config.pricing.percent), ("advertising", .string config.advertising.text),
    ("negotiation", .string config.negotiation.text), ("buyerGoal", .string config.buyerGoal.text),
    ("buyerCap", numberJson config.buyerCap)]

def aptitudesJson (aptitudes : GuardianAptitudes) : Json := .object
  [("stamp", numberJson aptitudes.stamp), ("race", numberJson aptitudes.race),
    ("shop", numberJson aptitudes.shop)]

def ActivityReplay.json (replay : ActivityReplay) : Json := .object
  ([("version", numberJson replay.version), ("seed", numberJson replay.seed)] ++
    optional "aptitudes" (replay.aptitudes.map aptitudesJson) ++ [("shop", replay.shop.json)] ++
    optional "shopMemory" (replay.shopMemory.map ShopMemory.json))

def ActivityMetric.json (metric : ActivityMetric) : Json := .object
  ([("label", metric.label.json), ("value", numberJson metric.value)] ++
    optional "unit" (metric.unit.map Json.string))

def ActivityOutcome.json (outcome : ActivityOutcome) : Json := .object
  ([("game", .string outcome.game), ("achievement", .object [("victory", .bool outcome.victory)])] ++
    optional "shopMemory" (outcome.shopMemory.map ShopMemory.json) ++
    [("replay", outcome.replay.json), ("score", numberJson outcome.score),
      ("highlights", .array (outcome.highlights.map Text.json)), ("summary", outcome.summary.json),
      ("metrics", .array (outcome.metrics.map ActivityMetric.json)),
      ("transcript", .array (outcome.transcript.map fun line =>
        .object [("speaker", .string line.1), ("text", .string line.2)])),
      ("ranking", .array (outcome.ranking.map fun entry =>
        .object [("name", .string entry.1), ("score", numberJson entry.2)]))])

/-! ## An outing -/

/-- What an outing reads of a profile. -/
structure AgentProfile where
  name : String
  aptitudes : Option GuardianAptitudes

/-- Fits the bound of a shop name. -/
def defaultShopName (owner : String) (locale : Guardians.Locale) : String :=
  match locale with
  | .ko => String.ofList (owner.toList.take 14) ++ " 잡화점"
  | .en =>
    let given := (owner.toList.reverse.takeWhile fun c => c ≠ ' ').reverse
    let short := if owner.toList.length ≤ 11 then owner.toList else given
    String.ofList (short.take 11) ++ "'s shop"

def introText (name : String) : Guardians.Locale → String
  | .ko => s!"{name} · 판매 에이전트 · 규칙 기반 에이전트. 상대 · 시스템 규칙."
  | .en => s!"{name} · Seller agent · Rule-based agent. Opponent · system rules."

/-- The shop of `runArcadeSimulation`. -/
def runArcadeSimulation (seed : Int) (profile : AgentProfile) (locale : Guardians.Locale)
    (shopMemory : Option ShopMemory) : Except SimulationError ActivityOutcome := do
  throwIf (¬ (Store.isSafeInteger seed ∧ 0 ≤ seed ∧ seed ≤ 0xffffffff)) (.error "Invalid arcade seed")
  throwIf (trim profile.name = [] ∨ 30 < unitLength profile.name) (.error "Invalid arcade profile")
  throwIf (profile.aptitudes.any fun aptitudes => ¬ validGuardianAptitudes aptitudes)
    (.error "Invalid guardian aptitudes")
  throwIf (shopMemory.any fun memory => (parseShopMemory memory).isNone) (.error "Invalid shop memory")
  let config := { DEFAULT_SHOP_CONFIG with name := defaultShopName profile.name locale }
  let s ← ofShop (createShop seed config shopMemory profile.aptitudes)
  let s ← ofShop (playOut .careful locale 64 s)
  throwIf (s.phase ≠ .finished) (.error "Shop did not finish")
  let outcome ← shopOutcome s profile.name locale
  return { outcome with transcript := ("MAPAE", introText profile.name locale) :: outcome.transcript }

end Mapae.Arcade
