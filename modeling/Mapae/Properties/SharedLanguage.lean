import Mapae.Arcade.Race
import Mapae.Properties.ShopBooks

/-!
# The model service and the games speak one language

An answer that the model service has vetted goes to a game, which reads it again.

* the two readers of a seller agree unless the message is all white space
* the two readers of a buyer agree unless a list is printed as a word
* what the bots answer passes both, and what the players see is small enough to be sent
-/

namespace Mapae.Arcade

open Mapae.Infra Mapae.Guardians

/-! ## The readers -/

/-- What the model service takes from a seller, the shop takes; what the shop takes, the answer says. -/
structure SellerAgrees (a : Json) : Prop where
  taken : validAction .shopSeller a = true →
    ∃ action, Says a action ∧ parseSellerAction a = .ok action.trimmed
  declared : ∀ read, parseSellerAction a = .ok read → ∃ action, Says a action ∧ read = action.trimmed

/-- The type and the reason that the shop takes from a buyer are words of the answer. -/
structure BuyerAgrees (a : Json) : Prop where
  taken : validAction .shopBuyer a = true →
    ∃ action, Wishes a action.type action.reason action.wants ∧ parseBuyerAction a = .ok action
  declared : ∀ read, parseBuyerAction a = .ok read → Wishes a read.type read.reason read.wants ∧
    IsWord buyerTypes read.type ∧ IsWord buyerReasons read.reason

structure RaceAgrees (a : Json) : Prop where
  taken : validAction .race a = true → ∃ action, Enters a action ∧ parseRaceAction a = some action
  declared : ∀ read, parseRaceAction a = some read → Enters a read

/-- A seller's answer that is right but for its message has something to say. -/
def SpeaksUp (a : Json) : Prop :=
  ∀ action, Says a action → isText 180 action.message = true → trim action.message ≠ []

/-- What is printed as a word in a buyer's answer is one. -/
def UsesWords (a : Json) : Prop :=
  ∀ type reason wants, Wishes a type reason wants → PrintsWord buyerTypes type →
    PrintsWord buyerReasons reason → IsWord buyerTypes type ∧ IsWord buyerReasons reason

theorem length_of_isText {n : Nat} {text : String} (h : isText n text = true) : unitLength text ≤ n :=
  (of_decide_eq_true h).2.1

theorem sellerAgrees_iff {a : Json} : SellerAgrees a ↔ SpeaksUp a := by
  constructor
  · intro h action hsaid htext
    obtain ⟨taken, -, hparse⟩ := h.taken (validSeller_iff.mpr ⟨action, hsaid, htext⟩)
    obtain ⟨read, hread, -, htrim, -⟩ := parseSellerAction_iff.mp hparse
    have hmessage : some read.message = some action.message := hread.message.symm.trans hsaid.message
    rwa [Option.some.inj hmessage] at htrim
  · intro h
    refine ⟨fun hvalid => ?_, fun read hread => ?_⟩
    · obtain ⟨action, hsaid, htext⟩ := validSeller_iff.mp hvalid
      exact ⟨action, hsaid, parseSellerAction_iff.mpr
        ⟨action, hsaid, length_of_isText htext, h action hsaid htext, rfl⟩⟩
    · obtain ⟨action, hsaid, -, -, htrimmed⟩ := parseSellerAction_iff.mp hread
      exact ⟨action, hsaid, htrimmed⟩

theorem buyerAgrees_iff {a : Json} : BuyerAgrees a ↔ UsesWords a := by
  constructor
  · intro h type reason wants hwishes htype hreason
    have hparse : parseBuyerAction a = .ok ⟨type, wants, reason⟩ :=
      parseBuyerAction_iff.mpr ⟨hwishes, htype, hreason⟩
    exact (h.declared _ hparse).2
  · intro h
    refine ⟨fun hvalid => ?_, fun read hread => ?_⟩
    · obtain ⟨type, reason, wants, hwishes, htype, hreason⟩ := validBuyer_iff.mp hvalid
      exact ⟨⟨type, wants, reason⟩, hwishes,
        parseBuyerAction_iff.mpr ⟨hwishes, htype.prints, hreason.prints⟩⟩
    · obtain ⟨hwishes, htype, hreason⟩ := parseBuyerAction_iff.mp hread
      exact ⟨hwishes, h _ _ _ hwishes htype hreason⟩

theorem raceAgrees (a : Json) : RaceAgrees a := by
  refine ⟨fun hvalid => ?_, fun read hread => parseRaceAction_iff.mp hread⟩
  obtain ⟨action, henters⟩ := validAction_race_iff.mp hvalid
  exact ⟨action, henters, parseRaceAction_iff.mpr henters⟩

/-! ## The shop -/

/-- The bots' answers in a state pass both readers. -/
structure BotsPass (s : ShopState) : Prop where
  seller : ∀ locale, validAction .shopSeller (ruleSellerAction s.sellerObservation locale).json = true ∧
    parseSellerAction (ruleSellerAction s.sellerObservation locale).json =
      .ok (ruleSellerAction s.sellerObservation locale).trimmed
  buyer : validAction .shopBuyer (ruleBuyerAction s.buyerObservation).json = true ∧
    parseBuyerAction (ruleBuyerAction s.buyerObservation).json = .ok (ruleBuyerAction s.buyerObservation)

/-- What the players see in a state can be sent. -/
structure Sendable (s : ShopState) : Prop where
  seller : jsonBounded 0 s.sellerObservation.json = true
  buyer : jsonBounded 0 s.buyerObservation.json = true

/-- The buyer's answers of a run use words. -/
def ShopMove.UsesWords : ShopMove → Prop
  | .buyer raw => Arcade.UsesWords raw
  | _ => True

section Runs

variable {s s₀ : ShopState}

theorem ShopState.Speech.play (hsound : s.Sound s₀) (h : s.Speech) (move : ShopMove) :
    (ShopMove.play s move).Speech := by
  unfold ShopMove.play
  split
  · next s' hs' =>
    cases move with
    | seller raw => exact h.applySellerAction hsound hs'
    | buyer raw => exact h.applyBuyerAction hsound hs'
    | advance => exact h.nextShopCustomer hs'
  · exact h

theorem ShopState.Replied.play (h : s.Replied) {move : ShopMove} (hmove : move.UsesWords) :
    (ShopMove.play s move).Replied := by
  unfold ShopMove.play
  split
  · next s' hs' =>
    cases move with
    | seller raw => exact ShopState.Replied.applySellerAction hs'
    | buyer raw =>
      refine ShopState.Replied.applyBuyerAction (fun action haction => ?_) hs'
      obtain ⟨hwishes, htype, hreason⟩ := parseBuyerAction_iff.mp haction
      exact (hmove _ _ _ hwishes htype hreason).2
    | advance => exact h.nextShopCustomer hs'
  · exact h

/-- The books and the texts of every run. -/
theorem sound_run {seed : Int} {config : ShopConfig} {memory : Option ShopMemory}
    {aptitudes : Option GuardianAptitudes} (h : createShop seed config memory aptitudes = .ok s₀)
    (moves : List ShopMove) :
    (run ShopMove.play s₀ moves).Sound s₀ ∧ (run ShopMove.play s₀ moves).Speech := by
  obtain ⟨checked, hchecked, hcap, haptitudes, rfl⟩ := createShop_eq_ok h
  refine run_invariant (P := fun s : ShopState =>
    s.Sound (openShop seed checked memory aptitudes) ∧ s.Speech) (fun s move hs => ?_) moves _ ?_
  · exact ⟨hs.1.play move, hs.2.play hs.1 move⟩
  · exact ⟨sound_openShop hcap fun a ha => (haptitudes a ha).1,
      speech_openShop (length_name hchecked) fun a ha => (haptitudes a ha).2⟩

theorem botsPass (hsound : s.Sound s₀) (h : s.Speech) : BotsPass s :=
  ⟨fun locale => (sayable_ruleSellerAction (seen_sellerObservation hsound h) locale).passes,
    ruleBuyerAction_passes s.buyerObservation⟩

theorem replied_run (h : s₀.Replied) {moves : List ShopMove} (hmoves : ∀ move ∈ moves, move.UsesWords) :
    (run ShopMove.play s₀ moves).Replied := by
  have hstep : ∀ (s : ShopState) (move : ShopMove), move.UsesWords → s.Replied →
      (ShopMove.play s move).Replied := fun _ _ hmove hs => hs.play hmove
  exact run_invariant_of_forall hstep moves s₀ hmoves h

end Runs

/-! ## One language -/

/-- What holds of a shop that was opened as `s₀`. -/
structure ShopSpeaks (s₀ : ShopState) : Prop where
  bots : ∀ moves, BotsPass (run ShopMove.play s₀ moves)
  sendable : ∀ moves : List ShopMove, (∀ move ∈ moves, move.UsesWords) →
    Sendable (run ShopMove.play s₀ moves)

/-- What holds of a season that was opened as `season₀`. -/
structure RaceSpeaks {Commands : Type} (motor : RaceMotor Commands) (season₀ : RaceSeason) : Prop where
  bot : ∀ goal course tokens, validAction .race (chooseRaceAction goal course tokens).json = true ∧
    parseRaceAction (chooseRaceAction goal course tokens).json =
      some (chooseRaceAction goal course tokens)
  /-- Until the season is over there is something to see, and it can be sent. -/
  sendable : ∀ moves goal, (run (RaceSeason.play motor) season₀ moves).round < RACE_ROUNDS →
    ∃ view, raceObservation (run (RaceSeason.play motor) season₀ moves) goal = .ok view ∧
      jsonBounded 0 view = true

theorem shopSpeaks {seed : Int} {config : ShopConfig} {memory : Option ShopMemory}
    {aptitudes : Option GuardianAptitudes} {s₀ : ShopState}
    (h : createShop seed config memory aptitudes = .ok s₀) : ShopSpeaks s₀ := by
  have hreplied : s₀.Replied := by
    obtain ⟨checked, -, -, -, rfl⟩ := createShop_eq_ok h
    intro reply hreply
    cases hreply
  refine ⟨fun moves => ?_, fun moves hmoves => ?_⟩
  · obtain ⟨hsound, hspeech⟩ := sound_run h moves
    exact botsPass hsound hspeech
  · obtain ⟨hsound, hspeech⟩ := sound_run h moves
    have hword := replied_run hreplied hmoves
    exact ⟨bounded_sellerObservation hsound hspeech hword, bounded_buyerObservation hsound hspeech hword⟩

theorem raceSpeaks {Commands : Type} (motor : RaceMotor Commands) {seed : Int} {name : String}
    {locale : Guardians.Locale} {aptitudes : Option GuardianAptitudes} {season₀ : RaceSeason}
    (hname : unitLength name ≤ 4000)
    (h : createRaceSeason seed name locale aptitudes = .ok season₀) : RaceSpeaks motor season₀ := by
  refine ⟨fun goal course tokens => ⟨?_, ?_⟩, fun moves goal hround => ?_⟩
  · exact validAction_race_iff.mpr ⟨_, enters_json _⟩
  · exact parseRaceAction_iff.mpr (enters_json _)
  · have hsound : (run (RaceSeason.play motor) season₀ moves).Sound 4000 :=
      run_invariant (P := RaceSeason.Sound 4000) (fun _ move hs => hs.play move) moves season₀
        (sound_createRaceSeason hname (by decide) h)
    exact bounded_raceObservation hsound (Nat.le_refl _) goal hround

/--
**The model service and the games speak one language, but for two slips.**

An answer is read alike by both unless a seller's message is white space only, or a buyer's type or
reason is a list that is printed as a word. The request that carries an observation carries the
owner's name too, whose length it checks.
-/
theorem shared_language {Commands : Type} (motor : RaceMotor Commands) :
    (∀ a, SellerAgrees a ↔ SpeaksUp a) ∧ (∀ a, BuyerAgrees a ↔ UsesWords a) ∧ (∀ a, RaceAgrees a) ∧
      (∀ seed config memory aptitudes s₀, createShop seed config memory aptitudes = .ok s₀ →
        ShopSpeaks s₀) ∧
      ∀ seed name locale aptitudes season₀, unitLength name ≤ 4000 →
        createRaceSeason seed name locale aptitudes = .ok season₀ → RaceSpeaks motor season₀ :=
  ⟨fun _ => sellerAgrees_iff, fun _ => buyerAgrees_iff, raceAgrees, fun _ _ _ _ _ => shopSpeaks,
    fun _ _ _ _ _ => raceSpeaks motor⟩

/-! ## Two answers -/

/-- A vetted answer that says nothing. -/
def blankAnswer : Json := .object [("type", .string "ask"), ("message", .string " ")]

/-- A purchase that is a list. -/
def listedAnswer : Json :=
  .object [("type", .array [.string "buy"]), ("reason", .array [.string "need"])]

/-- The shop throws at the one, and takes the other. -/
theorem shared_language_fails :
    (validAction .shopSeller blankAnswer = true ∧
      parseSellerAction blankAnswer = .error .invalidSellerAction) ∧
    parseBuyerAction listedAnswer =
      .ok ⟨.array [.string "buy"], none, .array [.string "need"]⟩ := by
  refine ⟨⟨by decide, by decide⟩, ?_⟩
  simp [parseBuyerAction, listedAnswer, throwIf, Json.onlyKeys, Json.field, wordOf, Json.unprintable,
    Json.anyUnprintable, Json.prints, buyerTypes, buyerReasons, parseWants]
  rfl

theorem shared_language_sample : ∃ s₀, createShop 32 DEFAULT_SHOP_CONFIG none none = .ok s₀ ∧
    ShopSpeaks s₀ := by
  have hopens : ∃ s₀, createShop 32 DEFAULT_SHOP_CONFIG none none = .ok s₀ := by
    have hok : (createShop 32 DEFAULT_SHOP_CONFIG none none).isOk = true := by decide +kernel
    cases hs₀ : createShop 32 DEFAULT_SHOP_CONFIG none none with
    | error e =>
      rw [hs₀] at hok
      cases hok
    | ok s₀ => exact ⟨s₀, rfl⟩
  obtain ⟨s₀, hs₀⟩ := hopens
  exact ⟨s₀, hs₀, (shared_language (fun _ _ (_ : Unit) => none)).2.2.2.1 32 DEFAULT_SHOP_CONFIG none none
    s₀ hs₀⟩

end Mapae.Arcade
