import Mapae.Web.ShopOutcome

/-!
# The bots are legal and come to an end

Whoever the bot plays against, its answer is taken; a game between bots ends; and what a finished game
came to is kept and remembered.

* `BotsLegal` and `BotsFinish` are about the game
* `Welcome` is about its outcome: it is accepted exactly when its seed is one of 32 bits and the name of
  its owner is short
-/

namespace Mapae.Arcade

open Mapae.Infra Mapae.Guardians

variable {s s₀ : ShopState} {seed : Int} {config : ShopConfig} {memory : Option ShopMemory}
  {aptitudes : Option GuardianAptitudes}

/-- In a game that was opened as `s₀`, the bot on the other side of the owner is never refused. -/
structure BotsLegal (s₀ : ShopState) : Prop where
  seller : ∀ s, Faced s₀ s → s.phase = .seller → ∀ locale,
    ∃ s', applySellerAction s (ruleSellerAction s.sellerObservation locale).json = .ok s'
  buyer : ∀ s, Faced s₀ s → s.phase = .buyer →
    ∃ s', applyBuyerAction s (ruleBuyerAction s.buyerObservation).json = .ok s'
  advance : ∀ s, Faced s₀ s → s.phase = .transition → ∃ s', nextShopCustomer s = .ok s'

/-- From each state of such a game, the bots play on to its end. -/
structure BotsFinish (s₀ : ShopState) : Prop where
  turns : ∀ s, Faced s₀ s → ∀ style locale turns, 34 ≤ turns →
    ∃ last, playOut style locale turns s = .ok last ∧ last.phase = .finished

/-- The outcome is accepted for the seeds and the names that an outing may have, and so is its memory. -/
structure Welcome (seed : Int) (name : String) (outcome : ActivityOutcome) : Prop where
  accepted : Web.isOutcome outcome.json = true ↔ (0 ≤ seed ∧ seed ≤ 0xffffffff) ∧ unitLength name ≤ 80
  remembered : ∀ memory, outcome.shopMemory = some memory → parseShopMemory memory = some memory ∧
    Web.isShopMemory memory.json = true

/-! ## The game -/

theorem botsLegal (h : createShop seed config memory aptitudes = .ok s₀) : BotsLegal s₀ := by
  have hopen := fair_openShop h
  refine ⟨fun s hs hphase locale => (hs.fair hopen).seller hphase locale, fun s hs hphase => ?_,
    fun s _ hphase => exists_nextShopCustomer hphase⟩
  obtain ⟨s', hs', -⟩ := (hs.fair hopen).buyer hphase .careful
  exact ⟨s', hs'⟩

theorem botsFinish (h : createShop seed config memory aptitudes = .ok s₀) : BotsFinish s₀ := by
  refine ⟨fun s hs style locale turns hturns => ?_⟩
  have hcount := (hs.kept (kept_createShop h)).told.count
  obtain ⟨last, hlast, hphase, -⟩ := playOut_finishes (fair_openShop h) style locale turns hs (by omega)
  exact ⟨last, hlast, hphase⟩

/-! ## The outcome -/

/-- What a shop that opens was checked for. -/
structure OpenedWith (seed : Int) (s₀ : ShopState) : Prop where
  seed : s₀.seed = seed
  config : parseShopConfig s₀.config = some s₀.config
  aptitudes : ∀ a, s₀.aptitudes = some a → validGuardianAptitudes a = true
  memory : ∀ memory, s₀.startingMemory = some memory → parseShopMemory memory = some memory
  /-- The last customer comes for the first time or for the second. -/
  visit : ∀ forecast, s₀.forecast = some forecast → forecast.visit = 1 ∨ forecast.visit = 2

theorem opened_createShop (h : createShop seed config memory aptitudes = .ok s₀) : OpenedWith seed s₀ := by
  have hpassed : (memory.any fun memory => (parseShopMemory memory).isNone) ≠ true ∧
      (aptitudes.any fun aptitudes => ¬ validGuardianAptitudes aptitudes) ≠ true := by
    unfold createShop at h
    split at h
    · cases h
    · simp only [bind_eq_ok, throwIf_eq_ok] at h
      obtain ⟨_, _, _, hpast, _, haptitudes, -⟩ := h
      exact ⟨hpast, haptitudes⟩
  obtain ⟨checked, hchecked, -, -, rfl⟩ := createShop_eq_ok h
  refine ⟨rfl, parseShopConfig_of_checked hchecked rfl rfl, fun a ha => ?_, fun past hpast => ?_, fun forecast hforecast => ?_⟩
  · have ha : aptitudes = some a := ha
    rw [ha] at hpassed
    simpa using hpassed.2
  · obtain hnone | hsame := startingMemory_openShop seed checked aptitudes hpassed.1
    · rw [hnone] at hpast
      cases hpast
    · rw [hsame] at hpast
      rw [hpast] at hpassed
      unfold parseShopMemory at hpassed ⊢
      split
      · next hbad =>
        rw [Option.any_some, if_pos hbad] at hpassed
        exact absurd rfl hpassed.1
      · rfl
  · unfold openShop at hforecast
    cases hrole : checked.role with
    | buyer => simp [hrole] at hforecast
    | seller =>
      simp only [hrole, Option.some.injEq] at hforecast
      rw [← hforecast]
      unfold shopForecast
      split
      · exact .inr rfl
      · exact .inl rfl

theorem length_speaker (speaker : Speaker) : unitLength speaker.text ≤ 80 := by cases speaker <;> decide

theorem length_baselineName (locale : Guardians.Locale) : unitLength (baselineName locale) ≤ 80 := by
  cases locale <;> decide

theorem length_comparisonName (seller : Bool) (locale : Guardians.Locale) :
    unitLength (comparisonName seller locale) ≤ 80 := by
  cases locale <;> cases seller <;> decide

/-- What a finished game is sent as. -/
structure Sent (seed : Int) (name : String) (outcome : ActivityOutcome) : Prop where
  opened : outcome.replay.seed = seed
  ranked : ∃ score, (name, score) ∈ outcome.ranking
  remembered : ∀ memory, outcome.shopMemory = some memory → parseShopMemory memory = some memory
  lines : outcome.transcript.length ≤ 68
  presentable : unitLength name ≤ 80 → Web.Presentable outcome
  replay : 0 ≤ seed ∧ seed ≤ 0xffffffff → Web.isReplay (some "shop") outcome.replay.json = true

theorem sent_shopOutcome (h : createShop seed config memory aptitudes = .ok s₀) (hkept : WellKept s s₀)
    (hphase : s.phase = .finished) (name : String) (locale : Guardians.Locale) :
    ∃ outcome, shopOutcome s name locale = .ok outcome ∧ Sent seed name outcome := by
  have hmodest := hkept.modest (advertisingCost_bounds h)
  have hleft := movesLeft_nonneg hkept.sound.meeting
  have hcount := hkept.told.count
  have hscore : ∀ s : ShopState, Modest s → |(shopMetrics s).score| ≤ 10 ^ 9 := fun s hs => by
    have := hs.score
    exact abs_le.mpr ⟨by norm_num; omega, by norm_num; omega⟩
  obtain ⟨baseline, comparison, hbaseline, hcomparison, houtcome⟩ := shopOutcome_eq_ok h hkept hphase name locale
  have hopened := opened_createShop h
  have hseed : s.seed = seed := hkept.told.seed.trans hopened.seed
  have hremembered : ∀ memory, s.nextMemory = some memory → parseShopMemory memory = some memory :=
    fun memory => parseShopMemory_nextMemory hkept fun forecast hforecast =>
      hopened.visit forecast (hkept.told.forecast ▸ hforecast)
  have hlines : (s.transcript.map fun line => (line.speaker.text, line.text.in locale)).length ≤ 68 := by
    rw [List.length_map]
    omega
  refine ⟨_, houtcome, hseed, ⟨(shopMetrics s).score, List.mem_mergeSort.mpr List.mem_cons_self⟩, hremembered, hlines,
    fun hname => ?_, fun hrange => ?_⟩
  · refine ⟨rfl, hremembered, hscore s hmodest, brief_highlights hkept hmodest, brief_summary hmodest,
      ⟨(by decide : 7 ≤ 24), Web.isMetric_of_mem_metrics hmodest⟩, ⟨hlines.trans (by decide), List.forall_mem_map.mpr ?_⟩,
      ⟨?_, fun entry hentry => ?_⟩⟩
    · intro line hline
      obtain ⟨hko, hen⟩ := hkept.told.lines line hline
      refine ⟨length_speaker line.speaker, ?_⟩
      cases locale with
      | ko => exact hko.trans (by decide)
      | en => exact hen.trans (by decide)
    · rw [List.length_mergeSort]
      exact (by decide : 3 ≤ 24)
    · obtain rfl | rfl | rfl : entry = _ ∨ entry = _ ∨ entry = _ := by simpa using List.mem_mergeSort.mp hentry
      · exact ⟨hname, hscore s hmodest⟩
      · exact ⟨length_baselineName locale, hscore baseline hbaseline⟩
      · exact ⟨length_comparisonName s.sells locale, hscore comparison hcomparison⟩
  · refine Web.isReplay_json (hseed.symm ▸ hrange) rfl ?_ (fun a ha => ?_) fun past hpast => ?_
    · exact hkept.sound.config.symm ▸ hopened.config
    · exact hopened.aptitudes a (hkept.sound.aptitudes.symm.trans ha)
    · exact hopened.memory past (hkept.told.memory.symm.trans hpast)

theorem Sent.welcome {name : String} {outcome : ActivityOutcome} (h : Sent seed name outcome) :
    Welcome seed name outcome := by
  refine ⟨⟨fun haccepted => ⟨?_, ?_⟩, fun ⟨hrange, hname⟩ => ?_⟩, fun memory hmemory =>
    ⟨h.remembered memory hmemory, Web.isShopMemory_json (h.remembered memory hmemory)⟩⟩
  · by_contra hrange
    rw [Web.isOutcome_json_eq_false (h.opened.symm ▸ hrange)] at haccepted
    cases haccepted
  · by_contra hname
    obtain ⟨score, hranked⟩ := h.ranked
    rw [Web.isOutcome_json_eq_false_of_name hranked (not_le.mp hname)] at haccepted
    cases haccepted
  · exact Web.isOutcome_json (h.presentable hname) (h.replay hrange)

/-! ## An outing -/

/-- The shop of an outing has a name that it may have. -/
theorem parseShopConfig_defaultShopName (name : String) (locale : Guardians.Locale) :
    ∃ checked, parseShopConfig { DEFAULT_SHOP_CONFIG with name := defaultShopName name locale } = some checked := by
  have hlength : (defaultShopName name locale).toList.length ≤ 18 := by
    cases locale with
    | ko =>
      have hsuffix : " 잡화점".toList.length = 4 := by decide
      simp only [defaultShopName, String.toList_append, String.toList_ofList, List.length_append, List.length_take, hsuffix]
      omega
    | en =>
      have hsuffix : "'s shop".toList.length = 7 := by decide
      simp only [defaultShopName, String.toList_append, String.toList_ofList, List.length_append, List.length_take, hsuffix]
      omega
  have hvisible : trim (defaultShopName name locale) ≠ [] := by
    cases locale with
    | ko =>
      have hmem : '점' ∈ (defaultShopName name .ko).toList := by simp [defaultShopName]
      exact trim_ne_nil hmem (by decide)
    | en =>
      have hmem : 's' ∈ (defaultShopName name .en).toList := by simp [defaultShopName]
      exact trim_ne_nil hmem (by decide)
  have htrim := (trim_sublist (defaultShopName name locale)).length_le
  refine ⟨_, if_neg ?_⟩
  rintro (hcap | hnil | hlong)
  · exact hcap (by decide : 6 ≤ DEFAULT_SHOP_CONFIG.buyerCap ∧ DEFAULT_SHOP_CONFIG.buyerCap ≤ SHOP_BUYER_BALANCE)
  · exact hvisible hnil
  · change 18 < (trim (defaultShopName name locale)).length at hlong
    omega

/-- What an outing is asked for with. -/
structure Requested (seed : Int) (profile : AgentProfile) (memory : Option ShopMemory) : Prop where
  seed : 0 ≤ seed ∧ seed ≤ 0xffffffff
  name : trim profile.name ≠ [] ∧ unitLength profile.name ≤ 30
  aptitudes : ∀ a, profile.aptitudes = some a → validGuardianAptitudes a = true
  memory : ∀ m, memory = some m → parseShopMemory m = some m

/-- **The shop of an outing** comes to an end, and its outcome is accepted. -/
theorem runArcadeSimulation_eq_ok {profile : AgentProfile} (h : Requested seed profile memory)
    (locale : Guardians.Locale) : ∃ outcome, runArcadeSimulation seed profile locale memory = .ok outcome ∧
      Web.isOutcome outcome.json = true ∧
      ∀ remembered, outcome.shopMemory = some remembered → parseShopMemory remembered = some remembered := by
  have hseed : Store.isSafeInteger seed = true := by
    have := h.seed
    exact decide_eq_true (by unfold Store.maxSafeInteger; omega)
  have hpast : ¬ (memory.any fun memory => (parseShopMemory memory).isNone) = true := by
    intro hany
    obtain ⟨m, hm, hnone⟩ := (Option.any_eq_true _ _).mp hany
    rw [h.memory m hm] at hnone
    cases hnone
  have hable : ¬ (profile.aptitudes.any fun aptitudes => ¬ validGuardianAptitudes aptitudes) = true := by
    intro hany
    obtain ⟨a, ha, hbad⟩ := (Option.any_eq_true _ _).mp hany
    exact of_decide_eq_true hbad (h.aptitudes a ha)
  obtain ⟨checked, hchecked⟩ := parseShopConfig_defaultShopName profile.name locale
  have hopen : createShop seed { DEFAULT_SHOP_CONFIG with name := defaultShopName profile.name locale } memory
      profile.aptitudes = .ok (openShop seed checked memory profile.aptitudes) := by
    unfold createShop
    rw [hchecked]
    simp only [bind_eq_ok, throwIf_eq_ok]
    exact ⟨⟨⟩, not_not.mpr hseed, ⟨⟩, hpast, ⟨⟩, hable, rfl⟩
  have hleft := movesLeft_createShop hopen
  obtain ⟨last, hlast, hphase, hfaced⟩ :=
    playOut_finishes (fair_openShop hopen) .careful locale 64 .opened (by push_cast; omega)
  have hkept := hfaced.kept (kept_createShop hopen)
  obtain ⟨outcome, houtcome, hsent⟩ := sent_shopOutcome hopen hkept hphase profile.name locale
  have hlines := hsent.lines
  have hpresentable := hsent.presentable (h.name.2.trans (by decide))
  refine ⟨{ outcome with transcript := ("MAPAE", introText profile.name locale) :: outcome.transcript }, ?_,
    Web.isOutcome_json ?_ (hsent.replay h.seed), hsent.remembered⟩
  · unfold runArcadeSimulation
    refine bind_eq_ok.mpr ⟨⟨⟩, throwIf_eq_ok.mpr (not_not.mpr ⟨hseed, h.seed⟩), bind_eq_ok.mpr ⟨⟨⟩,
      throwIf_eq_ok.mpr ?_, bind_eq_ok.mpr ⟨⟨⟩, throwIf_eq_ok.mpr hable, bind_eq_ok.mpr ⟨⟨⟩, throwIf_eq_ok.mpr hpast, ?_⟩⟩⟩⟩
    · rintro (hblank | hlong)
      · exact h.name.1 hblank
      · exact absurd h.name.2 (not_le.mpr hlong)
    · exact bind_eq_ok.mpr ⟨_, congrArg ofShop hopen, bind_eq_ok.mpr ⟨last, congrArg ofShop hlast, bind_eq_ok.mpr
        ⟨⟨⟩, throwIf_eq_ok.mpr (not_not.mpr hphase), bind_eq_ok.mpr ⟨outcome, houtcome, rfl⟩⟩⟩⟩
  · have hintro : unitLength (introText profile.name locale) ≤ 1000 := by
      have hname := h.name.2
      cases locale with
      | ko =>
        have hrest : unitLength " · 판매 에이전트 · 규칙 기반 에이전트. 상대 · 시스템 규칙." ≤ 100 := by decide +kernel
        show unitLength (profile.name ++ " · 판매 에이전트 · 규칙 기반 에이전트. 상대 · 시스템 규칙.") ≤ 1000
        rw [unitLength_append]
        omega
      | en =>
        have hrest : unitLength " · Seller agent · Rule-based agent. Opponent · system rules." ≤ 100 := by decide +kernel
        show unitLength (profile.name ++ " · Seller agent · Rule-based agent. Opponent · system rules.") ≤ 1000
        rw [unitLength_append]
        omega
    refine { hpresentable with
      transcript := ⟨?_, List.forall_mem_cons.mpr ⟨⟨?_, hintro⟩, hpresentable.transcript.2⟩⟩ }
    · show outcome.transcript.length + 1 ≤ 100
      omega
    · exact (by decide : unitLength "MAPAE" ≤ 80)

/-! ## All of it -/

/--
**The bots are legal and always come to an end.**

A paid outing is not stranded by the shop, and the next one takes its memory.
-/
theorem rule_bots {seed : Int} {config : ShopConfig} {memory : Option ShopMemory}
    {aptitudes : Option GuardianAptitudes} {s₀ : ShopState}
    (h : createShop seed config memory aptitudes = .ok s₀) :
    BotsLegal s₀ ∧ BotsFinish s₀ ∧
      (∀ style, ∃ s, simulateShop seed config style memory aptitudes = .ok s ∧ s.phase = .finished) ∧
      (∀ moves, (run ShopMove.play s₀ moves).phase = .finished → ∀ name locale,
        ∃ outcome, shopOutcome (run ShopMove.play s₀ moves) name locale = .ok outcome ∧ Welcome seed name outcome) ∧
      ∀ seed profile memory locale, Requested seed profile memory →
        ∃ outcome, runArcadeSimulation seed profile locale memory = .ok outcome ∧
          Web.isOutcome outcome.json = true ∧
          ∀ remembered, outcome.shopMemory = some remembered → parseShopMemory remembered = some remembered := by
  refine ⟨botsLegal h, botsFinish h, fun style => ?_, fun moves hphase name locale => ?_,
    fun seed profile memory locale hrequested => runArcadeSimulation_eq_ok hrequested locale⟩
  · obtain ⟨s, hs, hphase, -⟩ := simulateShop_finishes h style
    exact ⟨s, hs, hphase⟩
  · obtain ⟨outcome, houtcome, hsent⟩ := sent_shopOutcome h (.run h moves) hphase name locale
    exact ⟨outcome, houtcome, hsent.welcome⟩

/-- A shop opens on a seed below zero, too. -/
theorem exists_createShop {seed : Int} (hseed : seed = 32 ∨ seed = -1) :
    ∃ s₀, createShop seed DEFAULT_SHOP_CONFIG none none = .ok s₀ := by
  have hok : (createShop seed DEFAULT_SHOP_CONFIG none none).isOk = true := by
    obtain rfl | rfl := hseed
    · decide +kernel
    · decide +kernel
  cases hs₀ : createShop seed DEFAULT_SHOP_CONFIG none none with
  | ok s₀ => exact ⟨s₀, rfl⟩
  | error e =>
    rw [hs₀] at hok
    cases hok

/-- The shop that a guardian keeps by default, on the seed 32. -/
theorem rule_bots_default : ∃ s₀, createShop 32 DEFAULT_SHOP_CONFIG none none = .ok s₀ ∧ BotsLegal s₀ ∧
    BotsFinish s₀ := by
  obtain ⟨s₀, h⟩ := exists_createShop (.inl rfl)
  have hall := rule_bots h
  exact ⟨s₀, h, hall.1, hall.2.1⟩

/-- The shop on the seed -1 is played to its end, and what it came to is refused. -/
theorem rule_bots_negative_seed : ∃ s outcome, simulateShop (-1) DEFAULT_SHOP_CONFIG .careful none none = .ok s ∧
    s.phase = .finished ∧ shopOutcome s "말랑" .ko = .ok outcome ∧ Web.isOutcome outcome.json = false := by
  obtain ⟨s₀, h⟩ := exists_createShop (.inr rfl)
  obtain ⟨s, hs, hphase, hfaced⟩ := simulateShop_finishes h .careful
  obtain ⟨outcome, houtcome, hsent⟩ := sent_shopOutcome h (hfaced.kept (kept_createShop h)) hphase "말랑" .ko
  refine ⟨s, outcome, hs, hphase, houtcome, Web.isOutcome_json_eq_false ?_⟩
  rw [hsent.opened]
  decide

end Mapae.Arcade
