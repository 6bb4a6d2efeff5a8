import Mapae.Arcade.ShopGoods

/-!
# The outcome of a game, as the browser reads it

What a game came to is kept as it was sent, and checked as a value of which nothing is known. A
missing property reads as `none`.

* `isOutcome` is the check
* `Decimal` is a number of a record, which need not be an integer
-/

namespace Mapae.Web

open Mapae.Infra Mapae.Store

/-! ## Numbers -/

/-- A number: `mantissa · 10 ^ exponent`. -/
structure Decimal where
  mantissa : Int
  exponent : Int

namespace Decimal

def ofInt (n : Int) : Decimal := ⟨n, 0⟩

def json (d : Decimal) : Json := .number d.mantissa d.exponent

def value (d : Decimal) : ℚ := d.mantissa * 10 ^ d.exponent

/-- `Math.max(a, b)`. -/
def max (a b : Decimal) : Decimal := if a.value < b.value then b else a

/-- The number that a value is. -/
def ofJson : Json → Option Decimal
  | .number mantissa exponent => some ⟨mantissa, exponent⟩
  | _ => none

end Decimal

/-- `Number.isSafeInteger(v) && v >= 0`. -/
def integer (v : Json) : Bool := v.int.any fun n => isSafeInteger n && decide (0 ≤ n)

/-- `Number.isFinite(v) && Math.abs(v) <= 1e9`. -/
def finite (v : Json) : Bool := (Decimal.ofJson v).any fun d => decide (|d.value| ≤ 10 ^ 9)

/-! ## Shapes -/

/-- An object that is no array. -/
def isRecord (v : Json) : Bool := v.record.isSome

/-- `v[name]` is there and passes the check. -/
def hasField (v : Json) (name : String) (check : Json → Bool) : Bool := (v.field name).any check

/-- `v[name] === undefined`, or it passes the check. -/
def optionalField (v : Json) (name : String) (check : Json → Bool) : Bool := (v.field name).all check

/-- A list of at most `max` values that pass the check. -/
def listOf (max : Nat) (check : Json → Bool) : Json → Bool
  | .array items => decide (items.length ≤ max) && items.all check
  | _ => false

/-- A text of at most `max` units. -/
def text (max : Nat) (v : Json) : Bool := v.text.any fun value => decide (unitLength value ≤ max)

/-- `words.includes(v)`. -/
def oneOf (words : List String) (v : Json) : Bool := v.text.any fun value => decide (value ∈ words)

def isBoolean : Json → Bool
  | .bool _ => true
  | _ => false

def bilingual (v : Json) : Bool := isRecord v && hasField v "ko" (text 500) && hasField v "en" (text 500)

/-! ## The parts of an outcome -/

def GAME_IDS : List String := ["stamp", "race", "shop"]

/-- `Number.isInteger(value) && value >= 0 && value <= 0xffffffff`. -/
def validReplaySeed (v : Json) : Bool := (v.integer 0 0xffffffff).isSome

/-- `validGuardianAptitudes`: three properties, of a listed combination. -/
def validGuardianAptitudes (v : Json) : Bool :=
  v.record.any fun members =>
    decide ((members.map Prod.fst).dedup.length = 3) &&
      Arcade.GUARDIAN_APTITUDES.any fun a =>
        hasField v "stamp" (fun n => n.int = some (a.stamp : Int)) &&
          hasField v "race" (fun n => n.int = some (a.race : Int)) &&
          hasField v "shop" (fun n => n.int = some (a.shop : Int))

/-- The service of a visit and its value fit. -/
def serviceFits (v : Json) : Bool :=
  (v.field "value").any fun value => (value.integer 0 100).any fun n =>
    !(v.textField "service" = some "missed" && n ≠ 0) &&
      !(v.textField "service" = some "complete" && n < 85)

/-- `parseShopMemory(v) !== null`. -/
def isShopMemory (v : Json) : Bool :=
  isRecord v && v.onlyKeys ["npc", "visits", "service", "value"] &&
    hasField v "npc" (oneOf ["twins", "courier"]) &&
    hasField v "visits" (fun n => n.int = some 1 ∨ n.int = some 2) &&
    hasField v "service" (oneOf ["complete", "partial", "missed"]) && serviceFits v

def shopConfigKeys : List String :=
  ["role", "name", "focus", "pricing", "advertising", "negotiation", "buyerGoal", "buyerCap"]

/-- `parseShopConfig(v) !== null`. -/
def isShopConfig (v : Json) : Bool :=
  isRecord v && v.onlyKeys shopConfigKeys &&
    hasField v "role" (oneOf ["seller", "buyer"]) &&
    hasField v "focus" (oneOf ["balanced", "everyday", "gifts"]) &&
    hasField v "pricing" (fun n => n.int = some 80 ∨ n.int = some 100 ∨ n.int = some 125) &&
    hasField v "advertising" (oneOf ["none", "poster", "parade"]) &&
    hasField v "negotiation" (oneOf ["profit", "loyalty"]) &&
    hasField v "buyerGoal" (oneOf ["picnic", "study", "journey", "festival", "gift", "delivery"]) &&
    hasField v "buyerCap" (fun n => (n.integer 6 Arcade.SHOP_BUYER_BALANCE).isSome) &&
    hasField v "name" (fun name => name.text.any fun value =>
      decide (trim value ≠ [] ∧ (trim value).length ≤ 18))

/-- The scenario of an outcome of a game. -/
def isReplay (game : Option String) (v : Json) : Bool :=
  isRecord v && hasField v "seed" validReplaySeed &&
    hasField v "version" (fun n => integer n && n.int ≠ some 0) &&
    optionalField v "shop" (fun shop => decide (game = some "shop") && isShopConfig shop) &&
    optionalField v "aptitudes" validGuardianAptitudes &&
    optionalField v "shopMemory" (fun memory => decide (game = some "shop") && isShopMemory memory)

def isMetric (v : Json) : Bool :=
  isRecord v && hasField v "label" bilingual && hasField v "value" finite && optionalField v "unit" (text 20)

def isOutcome (v : Json) : Bool :=
  let game := v.textField "game"
  isRecord v && hasField v "game" (oneOf GAME_IDS) && hasField v "score" finite &&
    hasField v "summary" bilingual &&
    optionalField v "achievement" (fun a => isRecord a && hasField a "victory" isBoolean) &&
    optionalField v "highlights" (listOf 2 bilingual) &&
    optionalField v "replay" (isReplay game) &&
    optionalField v "shopMemory" (fun memory => decide (game = some "shop") && isShopMemory memory) &&
    hasField v "metrics" (listOf 24 isMetric) &&
    hasField v "transcript" (listOf 100 fun m =>
      isRecord m && hasField m "speaker" (text 80) && hasField m "text" (text 1000)) &&
    hasField v "ranking" (listOf 24 fun m =>
      isRecord m && hasField m "name" (text 80) && hasField m "score" finite)

/-! ## What an accepted outcome has -/

variable {v : Json}

theorem exists_score (h : isOutcome v = true) :
    ∃ d : Decimal, v.field "score" = some d.json ∧ |d.value| ≤ 10 ^ 9 := by
  simp only [isOutcome, Bool.and_eq_true] at h
  obtain ⟨score, hscore, hfinite⟩ := (Option.any_eq_true _ _).mp h.1.1.1.1.1.1.1.1.2
  obtain ⟨d, hd, hbound⟩ := (Option.any_eq_true _ _).mp hfinite
  cases score with
  | number mantissa exponent =>
    obtain rfl := Option.some.inj hd
    exact ⟨⟨mantissa, exponent⟩, hscore, of_decide_eq_true hbound⟩
  | _ => cases hd

end Mapae.Web
