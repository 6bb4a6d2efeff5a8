import Mapae.Arcade.ShopSummary
import Mapae.Web.Outcome

/-!
# The browser takes what a shop came to

What `shopOutcome` sends is accepted by `isOutcome`.

* each part of the outcome passes its own check
* `isOutcome_json`: the outcome passes when its seed is one of 32 bits and the name of its owner is short
-/

namespace Mapae.Web

open Mapae.Infra Mapae.Guardians Mapae.Store

variable {v : Json}

/-! ## Shapes -/

theorem hasField_of {name : String} {check : Json → Bool} {value : Json} (h : v.field name = some value)
    (hcheck : check value = true) : hasField v name check = true := by
  unfold hasField
  rw [h]
  exact hcheck

theorem text_string {n : Nat} {value : String} (h : unitLength value ≤ n) : text n (.string value) = true :=
  decide_eq_true h

theorem oneOf_word {words : List String} {word : String} (h : word ∈ words) : oneOf words (.string word) = true :=
  decide_eq_true h

theorem int_numberJson (n : Int) : (Arcade.numberJson n).int = some n := by simp [Arcade.numberJson, Json.int]

theorem finite_numberJson {n : Int} (h : |n| ≤ 10 ^ 9) : finite (Arcade.numberJson n) = true := by
  have habs : |(Decimal.ofInt n).value| ≤ 10 ^ 9 := by
    simp only [Decimal.value, Decimal.ofInt, zpow_zero, mul_one]
    exact_mod_cast h
  exact decide_eq_true habs

theorem bilingual_json {t : Arcade.Text} (h : Arcade.Brief t) : bilingual t.json = true := by
  have hko : t.json.field "ko" = some (.string t.ko) := by simp [Arcade.Text.json, Json.field]
  have hen : t.json.field "en" = some (.string t.en) := by simp [Arcade.Text.json, Json.field]
  unfold bilingual
  rw [Bool.and_eq_true, Bool.and_eq_true]
  exact ⟨⟨rfl, hasField_of hko (text_string (h.1.trans (by decide)))⟩,
    hasField_of hen (text_string (h.2.trans (by decide)))⟩

theorem listOf_map {α : Type} {n : Nat} {items : List α} {f : α → Json} {check : Json → Bool}
    (hlength : items.length ≤ n) (h : ∀ item ∈ items, check (f item) = true) :
    listOf n check (.array (items.map f)) = true := by
  unfold listOf
  rw [Bool.and_eq_true, List.length_map, List.all_map]
  exact ⟨decide_eq_true hlength, List.all_eq_true.mpr h⟩

/-! ## The parts of an outcome -/

theorem integer_numberJson {n a b : Int} (h : a ≤ n ∧ n ≤ b) : (Arcade.numberJson n).integer a b = some n := by
  unfold Json.integer
  rw [int_numberJson, Option.filter_some, if_pos (decide_eq_true h)]

/-- A memory that is accepted is accepted as it is sent. -/
theorem isShopMemory_json {memory : Arcade.ShopMemory} (h : Arcade.parseShopMemory memory = some memory) :
    isShopMemory memory.json = true := by
  have hvalid : ¬ ((memory.visits ≠ 1 ∧ memory.visits ≠ 2) ∨ ¬ (0 ≤ memory.value ∧ memory.value ≤ 100) ∨
      (memory.service = .missed ∧ memory.value ≠ 0) ∨ (memory.service = .complete ∧ memory.value < 85)) := by
    intro hbad
    rw [Arcade.parseShopMemory, if_pos hbad] at h
    cases h
  simp only [not_or] at hvalid
  obtain ⟨hvisits, hvalue, hmissed, hcomplete⟩ := hvalid
  have hinteger := integer_numberJson (not_not.mp hvalue)
  obtain ⟨hnpc, hvisited, hservice, hworth⟩ : memory.json.field "npc" = some (.string memory.npc.text) ∧
      memory.json.field "visits" = some (Arcade.numberJson memory.visits) ∧
      memory.json.field "service" = some (.string memory.service.text) ∧
      memory.json.field "value" = some (Arcade.numberJson memory.value) := by
    simp [Arcade.ShopMemory.json, Json.field]
  have hkeys : memory.json.onlyKeys ["npc", "visits", "service", "value"] = true := by
    simp [Arcade.ShopMemory.json, Json.onlyKeys]
  have hfits : serviceFits memory.json = true := by
    unfold serviceFits Json.textField
    rw [hworth, hservice, Option.any_some, hinteger, Option.any_some]
    cases hs : memory.service with
    | complete =>
      have : 85 ≤ memory.value := not_lt.mp fun hlt => hcomplete ⟨hs, hlt⟩
      simp [Arcade.Service.text, Json.text, this]
    | partial_ => simp [Arcade.Service.text, Json.text]
    | missed =>
      have : memory.value = 0 := not_not.mp fun hne => hmissed ⟨hs, hne⟩
      simp [Arcade.Service.text, Json.text, this]
  simp only [isShopMemory, Bool.and_eq_true]
  refine ⟨⟨⟨⟨⟨rfl, hkeys⟩, hasField_of hnpc (oneOf_word ?_)⟩, hasField_of hvisited (decide_eq_true ?_)⟩,
    hasField_of hservice (oneOf_word ?_)⟩, hfits⟩
  · cases memory.npc <;> decide
  · rw [int_numberJson]
    simp only [Option.some.injEq]
    omega
  · cases memory.service <;> decide

/-- A configuration that is accepted is accepted as it is sent. -/
theorem isShopConfig_json {config : Arcade.ShopConfig} (h : Arcade.parseShopConfig config = some config) :
    isShopConfig config.json = true := by
  have hvalid : ¬ (¬ (6 ≤ config.buyerCap ∧ config.buyerCap ≤ Arcade.SHOP_BUYER_BALANCE) ∨ trim config.name = [] ∨
      (trim config.name).length > 18) := by
    intro hbad
    rw [Arcade.parseShopConfig, if_pos hbad] at h
    cases h
  simp only [not_or, not_not, not_lt] at hvalid
  obtain ⟨hcap, hname⟩ := hvalid
  obtain ⟨hrole, htext, hfocus, hpricing, hadvertising, hnegotiation, hgoal, hlimit⟩ :
      config.json.field "role" = some (.string config.role.text) ∧
      config.json.field "name" = some (.string config.name) ∧
      config.json.field "focus" = some (.string config.focus.text) ∧
      config.json.field "pricing" = some (Arcade.numberJson config.pricing.percent) ∧
      config.json.field "advertising" = some (.string config.advertising.text) ∧
      config.json.field "negotiation" = some (.string config.negotiation.text) ∧
      config.json.field "buyerGoal" = some (.string config.buyerGoal.text) ∧
      config.json.field "buyerCap" = some (Arcade.numberJson config.buyerCap) := by
    simp [Arcade.ShopConfig.json, Json.field]
  have hkeys : config.json.onlyKeys shopConfigKeys = true := by
    simp [shopConfigKeys, Arcade.ShopConfig.json, Json.onlyKeys]
  have hcapped : ((Arcade.numberJson config.buyerCap).integer 6 Arcade.SHOP_BUYER_BALANCE).isSome = true := by
    rw [integer_numberJson hcap]
    rfl
  simp only [isShopConfig, Bool.and_eq_true]
  refine ⟨⟨⟨⟨⟨⟨⟨⟨⟨rfl, hkeys⟩, hasField_of hrole (oneOf_word ?_)⟩, hasField_of hfocus (oneOf_word ?_)⟩,
    hasField_of hpricing (decide_eq_true ?_)⟩, hasField_of hadvertising (oneOf_word ?_)⟩,
    hasField_of hnegotiation (oneOf_word ?_)⟩, hasField_of hgoal (oneOf_word ?_)⟩,
    hasField_of hlimit hcapped⟩, hasField_of htext (decide_eq_true hname)⟩
  · cases config.role <;> decide
  · cases config.focus <;> decide
  · rw [int_numberJson]
    cases config.pricing <;> decide
  · cases config.advertising <;> decide
  · cases config.negotiation <;> decide
  · cases config.buyerGoal <;> decide

theorem validGuardianAptitudes_json {aptitudes : Arcade.GuardianAptitudes}
    (h : Arcade.validGuardianAptitudes aptitudes = true) :
    validGuardianAptitudes (Arcade.aptitudesJson aptitudes) = true := by
  have hall : ∀ a ∈ Arcade.GUARDIAN_APTITUDES, validGuardianAptitudes (Arcade.aptitudesJson a) = true := by decide
  exact hall aptitudes (of_decide_eq_true h)

theorem optionalField_of {name : String} {check : Json → Bool} {found : Option Json} (h : v.field name = found)
    (hcheck : ∀ value, found = some value → check value = true) : optionalField v name check = true := by
  unfold optionalField
  rw [h]
  cases found with
  | none => rfl
  | some value => exact hcheck value rfl

/-- What is replayed passes, when its seed is one of 32 bits. -/
theorem isReplay_json {replay : Arcade.ActivityReplay} (hseed : 0 ≤ replay.seed ∧ replay.seed ≤ 0xffffffff)
    (hversion : replay.version = Outings.ARCADE_RULESET_VERSION)
    (hshop : Arcade.parseShopConfig replay.shop = some replay.shop)
    (haptitudes : ∀ a, replay.aptitudes = some a → Arcade.validGuardianAptitudes a = true)
    (hmemory : ∀ memory, replay.shopMemory = some memory → Arcade.parseShopMemory memory = some memory) :
    isReplay (some "shop") replay.json = true := by
  obtain ⟨hnumber, hruleset, hconfig, habilities, hpast⟩ :
      replay.json.field "seed" = some (Arcade.numberJson replay.seed) ∧
      replay.json.field "version" = some (Arcade.numberJson replay.version) ∧
      replay.json.field "shop" = some replay.shop.json ∧
      replay.json.field "aptitudes" = replay.aptitudes.map Arcade.aptitudesJson ∧
      replay.json.field "shopMemory" = replay.shopMemory.map Arcade.ShopMemory.json := by
    unfold Arcade.ActivityReplay.json
    cases replay.aptitudes <;> cases replay.shopMemory <;> simp [Arcade.optional, Json.field]
  simp only [isReplay, Bool.and_eq_true]
  refine ⟨⟨⟨⟨⟨rfl, hasField_of hnumber ?_⟩, hasField_of hruleset ?_⟩, optionalField_of hconfig ?_⟩,
    optionalField_of habilities ?_⟩, optionalField_of hpast ?_⟩
  · show ((Arcade.numberJson replay.seed).integer 0 0xffffffff).isSome = true
    rw [integer_numberJson hseed]
    rfl
  · rw [hversion]
    decide
  · rintro _ ⟨⟩
    exact Bool.and_eq_true_iff.mpr ⟨by decide, isShopConfig_json hshop⟩
  · intro value hvalue
    obtain ⟨a, ha, rfl⟩ := Option.map_eq_some_iff.mp hvalue
    exact validGuardianAptitudes_json (haptitudes a ha)
  · intro value hvalue
    obtain ⟨memory, hsome, rfl⟩ := Option.map_eq_some_iff.mp hvalue
    exact Bool.and_eq_true_iff.mpr ⟨by decide, isShopMemory_json (hmemory memory hsome)⟩

theorem isMetric_json {metric : Arcade.ActivityMetric} (hlabel : Arcade.Brief metric.label)
    (hvalue : |metric.value| ≤ 10 ^ 9) (hunit : ∀ unit, metric.unit = some unit → unitLength unit ≤ 20) :
    isMetric metric.json = true := by
  obtain ⟨hname, hnumber, hmeasure⟩ :
      metric.json.field "label" = some metric.label.json ∧
      metric.json.field "value" = some (Arcade.numberJson metric.value) ∧
      metric.json.field "unit" = metric.unit.map Json.string := by
    unfold Arcade.ActivityMetric.json
    cases metric.unit <;> simp [Arcade.optional, Json.field]
  simp only [isMetric, Bool.and_eq_true]
  refine ⟨⟨⟨rfl, hasField_of hname (bilingual_json hlabel)⟩, hasField_of hnumber (finite_numberJson hvalue)⟩,
    optionalField_of hmeasure fun value hsome => ?_⟩
  obtain ⟨unit, hunit', rfl⟩ := Option.map_eq_some_iff.mp hsome
  exact text_string (hunit unit hunit')

theorem isMetric_small {label : Arcade.Text} {n : Int} {unit : Option String}
    (hlabel : Arcade.Clear 40 label.ko ∧ Arcade.Clear 40 label.en) (hn : -20000 ≤ n ∧ n ≤ 20000)
    (hunit : unit ∈ [none, some "coin", some "%"]) : isMetric (Arcade.ActivityMetric.json ⟨label, n, unit⟩) = true := by
  refine isMetric_json (Arcade.Text.brief hlabel.1 hlabel.2 (by decide) (by decide)) (abs_le.mpr ?_) fun word hword => ?_
  · show -10 ^ 9 ≤ n ∧ n ≤ 10 ^ 9
    omega
  · change unit = some word at hword
    subst hword
    obtain rfl | rfl : word = "coin" ∨ word = "%" := by simpa using hunit
    · decide
    · decide

/-- **The metrics of a game** pass. -/
theorem isMetric_of_mem_metrics {s : Arcade.ShopState} (h : Arcade.Modest s) :
    ∀ metric ∈ s.metrics, isMetric metric.json = true := by
  have hvalue := h.value
  have hgoal := h.goal
  have hrevisit := h.revisit
  have hblocks := h.blocks
  have hmoney : isMetric (if s.sells then
      (⟨⟨"순이익", "Net profit"⟩, (Arcade.shopMetrics s).profit, some "coin"⟩ : Arcade.ActivityMetric)
      else ⟨⟨"구매 지출", "Purchase spend"⟩, (Arcade.shopMetrics s).spent, some "coin"⟩).json = true := by
    cases hrole : s.config.role with
    | seller =>
      have hsells : s.sells = true := decide_eq_true hrole
      have hprofit := h.profit
      rw [if_pos hsells]
      exact isMetric_small (by decide) (by omega) (by decide)
    | buyer =>
      have hsells : ¬ s.sells = true := fun hsells => by
        have hseller : s.config.role = .seller := of_decide_eq_true hsells
        rw [hrole] at hseller
        cases hseller
      have hspent := h.spent hrole
      rw [if_neg hsells]
      exact isMetric_small (by decide) (by omega) (by decide)
  unfold Arcade.ShopState.metrics
  simp only [List.forall_mem_cons]
  refine ⟨isMetric_small (by decide) ?_ (by decide), hmoney, isMetric_small (by decide) (by omega) (by decide),
    isMetric_small (by decide) (by omega) (by decide), isMetric_small (by decide) (by omega) (by decide),
    isMetric_small (by decide) h.savings (by decide), isMetric_small (by decide) (by omega) (by decide), List.forall_mem_nil _⟩
  split <;> decide

/-! ## The outcome -/

/-- What the texts and the numbers of an outcome come to. -/
structure Presentable (outcome : Arcade.ActivityOutcome) : Prop where
  game : outcome.game = "shop"
  memory : ∀ memory, outcome.shopMemory = some memory → Arcade.parseShopMemory memory = some memory
  score : |outcome.score| ≤ 10 ^ 9
  highlights : outcome.highlights.length ≤ 2 ∧ ∀ text ∈ outcome.highlights, Arcade.Brief text
  summary : Arcade.Brief outcome.summary
  metrics : outcome.metrics.length ≤ 24 ∧ ∀ metric ∈ outcome.metrics, isMetric metric.json = true
  transcript : outcome.transcript.length ≤ 100 ∧
    ∀ line ∈ outcome.transcript, unitLength line.1 ≤ 80 ∧ unitLength line.2 ≤ 1000
  ranking : outcome.ranking.length ≤ 24 ∧
    ∀ entry ∈ outcome.ranking, unitLength entry.1 ≤ 80 ∧ |entry.2| ≤ 10 ^ 9

/-- **An outcome that is presentable passes**, when what is replayed does. -/
theorem isOutcome_json {outcome : Arcade.ActivityOutcome} (h : Presentable outcome)
    (hreplay : isReplay (some "shop") outcome.replay.json = true) : isOutcome outcome.json = true := by
  obtain ⟨hgame, hachievement, hmemory, hreplayed, hscore, hhighlights, hsummary, hmetrics, htranscript, hranking⟩ :
      outcome.json.field "game" = some (.string outcome.game) ∧
      outcome.json.field "achievement" = some (.object [("victory", .bool outcome.victory)]) ∧
      outcome.json.field "shopMemory" = outcome.shopMemory.map Arcade.ShopMemory.json ∧
      outcome.json.field "replay" = some outcome.replay.json ∧
      outcome.json.field "score" = some (Arcade.numberJson outcome.score) ∧
      outcome.json.field "highlights" = some (.array (outcome.highlights.map Arcade.Text.json)) ∧
      outcome.json.field "summary" = some outcome.summary.json ∧
      outcome.json.field "metrics" = some (.array (outcome.metrics.map Arcade.ActivityMetric.json)) ∧
      outcome.json.field "transcript" = some (.array (outcome.transcript.map fun line =>
        .object [("speaker", .string line.1), ("text", .string line.2)])) ∧
      outcome.json.field "ranking" = some (.array (outcome.ranking.map fun entry =>
        .object [("name", .string entry.1), ("score", Arcade.numberJson entry.2)])) := by
    unfold Arcade.ActivityOutcome.json
    cases outcome.shopMemory <;> simp [Arcade.optional, Json.field]
  have hgame' : outcome.json.textField "game" = some "shop" := by
    unfold Json.textField
    rw [hgame, h.game]
    rfl
  simp only [isOutcome, hgame', Bool.and_eq_true]
  refine ⟨⟨⟨⟨⟨⟨⟨⟨⟨⟨rfl, hasField_of hgame (oneOf_word ?_)⟩, hasField_of hscore (finite_numberJson h.score)⟩,
    hasField_of hsummary (bilingual_json h.summary)⟩, optionalField_of hachievement ?_⟩,
    optionalField_of hhighlights ?_⟩, optionalField_of hreplayed ?_⟩, optionalField_of hmemory ?_⟩,
    hasField_of hmetrics (listOf_map h.metrics.1 h.metrics.2)⟩,
    hasField_of htranscript (listOf_map h.transcript.1 fun line hline => ?_)⟩,
    hasField_of hranking (listOf_map h.ranking.1 fun entry hentry => ?_)⟩
  · rw [h.game]
    decide
  · rintro _ ⟨⟩
    rfl
  · rintro _ ⟨⟩
    exact listOf_map h.highlights.1 fun text htext => bilingual_json (h.highlights.2 text htext)
  · rintro _ ⟨⟩
    exact hreplay
  · intro value hvalue
    obtain ⟨memory, hsome, rfl⟩ := Option.map_eq_some_iff.mp hvalue
    exact Bool.and_eq_true_iff.mpr ⟨by decide, isShopMemory_json (h.memory memory hsome)⟩
  · obtain ⟨hspeaker, htext⟩ := h.transcript.2 line hline
    simp only [Bool.and_eq_true]
    exact ⟨⟨rfl, hasField_of (by simp [Json.field] : _ = some (.string line.1)) (text_string hspeaker)⟩,
      hasField_of (by simp [Json.field] : _ = some (.string line.2)) (text_string htext)⟩
  · obtain ⟨hname, hpoints⟩ := h.ranking.2 entry hentry
    simp only [Bool.and_eq_true]
    exact ⟨⟨rfl, hasField_of (by simp [Json.field] : _ = some (.string entry.1)) (text_string hname)⟩,
      hasField_of (by simp [Json.field] : _ = some (Arcade.numberJson entry.2)) (finite_numberJson hpoints)⟩

/-- An outcome whose seed is none of 32 bits is refused. -/
theorem isOutcome_json_eq_false {outcome : Arcade.ActivityOutcome}
    (h : ¬ (0 ≤ outcome.replay.seed ∧ outcome.replay.seed ≤ 0xffffffff)) : isOutcome outcome.json = false := by
  have hreplayed : outcome.json.field "replay" = some outcome.replay.json := by
    unfold Arcade.ActivityOutcome.json
    cases outcome.shopMemory <;> simp [Arcade.optional, Json.field]
  have hnumber : outcome.replay.json.field "seed" = some (Arcade.numberJson outcome.replay.seed) := by
    unfold Arcade.ActivityReplay.json
    cases outcome.replay.aptitudes <;> cases outcome.replay.shopMemory <;> simp [Arcade.optional, Json.field]
  have hseed : hasField outcome.replay.json "seed" validReplaySeed = false := by
    unfold hasField
    rw [hnumber]
    show ((Arcade.numberJson outcome.replay.seed).integer 0 0xffffffff).isSome = false
    unfold Json.integer
    rw [int_numberJson, Option.filter_some, if_neg fun hin => h (of_decide_eq_true hin)]
    rfl
  have hreplay : ∀ game, isReplay game outcome.replay.json = false := fun game => by
    unfold isReplay
    rw [hseed]
    simp
  unfold isOutcome optionalField
  rw [hreplayed]
  simp [hreplay]

/-- An outcome with a long name is refused. -/
theorem isOutcome_json_eq_false_of_name {outcome : Arcade.ActivityOutcome} {entry : String × Int}
    (hentry : entry ∈ outcome.ranking) (h : 80 < unitLength entry.1) : isOutcome outcome.json = false := by
  have hranking : outcome.json.field "ranking" = some (.array (outcome.ranking.map fun entry =>
      .object [("name", .string entry.1), ("score", Arcade.numberJson entry.2)])) := by
    unfold Arcade.ActivityOutcome.json
    cases outcome.shopMemory <;> simp [Arcade.optional, Json.field]
  have hlong : text 80 (.string entry.1) = false := decide_eq_false (by omega)
  have hrefused : hasField outcome.json "ranking" (listOf 24 fun m =>
      isRecord m && hasField m "name" (text 80) && hasField m "score" finite) = false := by
    rw [Bool.eq_false_iff]
    intro hfield
    unfold hasField at hfield
    rw [hranking] at hfield
    obtain ⟨-, hall⟩ := Bool.and_eq_true_iff.mp hfield
    have hpass := List.all_eq_true.mp hall _ (List.mem_map_of_mem hentry)
    simp [Json.field, hlong] at hpass
  unfold isOutcome
  rw [hrefused, Bool.and_false]

end Mapae.Web
