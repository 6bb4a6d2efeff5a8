import Mapae.Arcade.ShopGoods

/-!
# One grammar for two readers

`jsonBounded` is what the model service accepts as an observation, and `validAction` vets what a model
answers. `Says` and `Wishes` say what an answer says, without a reader. The model service and the games
each have their own reader for the same answers.

* `validSeller_iff` and `parseSellerAction_iff`: they differ in which messages they take
* `validBuyer_iff` and `parseBuyerAction_iff`: they differ in what counts as a word
-/

namespace Mapae.Arcade

open Mapae.Infra

inductive DecisionKind where
  | outing
  | stamp
  | race
  | shopSeller
  | shopBuyer

/-- A text without control characters, neither empty nor longer than `max` units. -/
def isText (max : Nat) (value : String) : Bool :=
  0 < unitLength value ∧ unitLength value ≤ max ∧ value.toList.all fun c => 32 ≤ c.toNat

/-- `oneOf` of the text under a name. -/
def oneOf (value : Json) (name : String) (choices : List String) : Bool :=
  (value.textField name).any fun text => text ∈ choices

/-- `typeof value[name] === "boolean"`. -/
def boolField (value : Json) (name : String) : Option Bool :=
  match value.field name with
  | some (.bool b) => some b
  | _ => none

mutual

/-- `json`. A number is finite. -/
def jsonBounded (depth : Nat) : Json → Bool
  | .null => depth ≤ 10
  | .bool _ => depth ≤ 10
  | .number _ _ => depth ≤ 10
  | .string value => depth ≤ 10 ∧ unitLength value ≤ 4000
  | .array items => depth ≤ 10 ∧ items.length ≤ 100 ∧ allBounded (depth + 1) items
  | .object members => depth ≤ 10 ∧ (members.map Prod.fst).dedup.length ≤ 50 ∧
      (members.all fun member => member.1 ∉ ["__proto__", "constructor", "prototype"]) ∧
      membersBounded (depth + 1) members

def allBounded (depth : Nat) : List Json → Bool
  | [] => true
  | value :: items => jsonBounded depth value && allBounded depth items

/-- Of two members with one name the later counts. -/
def membersBounded (depth : Nat) : List (String × Json) → Bool
  | [] => true
  | (name, value) :: members =>
    (members.any (fun member => member.1 = name) || jsonBounded depth value) &&
      membersBounded depth members

end

/-- An item of an offer. -/
def readItem (value : Json) : Option Item := do
  if value.onlyKeys ["id", "quantity"] then
    let id ← (value.field "id").bind product
    let quantity ← (value.field "quantity").bind (·.integer 1 3)
    return ⟨id, quantity⟩
  else none

/-- The items of an offer, each product once. -/
def readItems (value : Json) : Option (List Item) := do
  let raw ← offeredItems value
  let items ← raw.mapM readItem
  if (items.map Item.id).Nodup then some items else none

/-- The wishes of a buyer, if there are any: at most three products, each once. -/
def validWants (value : Json) : Bool :=
  match value.field "wants" with
  | none => true
  | some (.array items) =>
    items.length ≤ 3 ∧ (items.mapM product).any fun wants => wants.Nodup
  | some _ => false

def validBuyer (a : Json) : Bool :=
  a.onlyKeys ["type", "wants", "reason"] ∧ oneOf a "type" buyerTypes ∧
    oneOf a "reason" buyerReasons ∧ validWants a

/-- The message of a seller. -/
def saysText (a : Json) : Bool := (a.textField "message").any (isText 180)

def validSeller (a : Json) : Bool :=
  if a.textField "type" = some "serve" then
    a.onlyKeys ["type", "tactic", "message"] ∧ (tacticOf a).isSome ∧ saysText a
  else if ¬ a.onlyKeys ["type", "message", "items", "price"] ∨
      ¬ oneOf a "type" ["ask", "offer", "close"] ∨ ¬ saysText a then false
  else if a.textField "type" = some "offer" then
    ((a.field "price").bind (·.integer 1 99)).isSome ∧ (readItems a).isSome
  else (a.field "items").isNone ∧ (a.field "price").isNone

def validAction (kind : DecisionKind) (a : Json) : Bool :=
  match kind with
  | .outing => a.onlyKeys ["enter", "game", "rounds"] ∧ (boolField a "enter").isSome ∧
      oneOf a "game" ["stamp", "race", "shop"] ∧ ((a.field "rounds").bind (·.integer 1 3)).isSome
  | .stamp => a.onlyKeys ["tempo"] ∧ oneOf a "tempo" ["careful", "quick"]
  | .race => a.onlyKeys ["enter", "strategy"] ∧ (boolField a "enter").isSome ∧
      oneOf a "strategy" ["burst", "conserve", "surge"]
  | .shopBuyer => validBuyer a
  | .shopSeller => validSeller a

/-! ## Bounded values -/

theorem allBounded_iff {depth : Nat} {items : List Json} :
    allBounded depth items = true ↔ ∀ value ∈ items, jsonBounded depth value = true := by
  induction items with
  | nil => simp [allBounded]
  | cons value items ih => simp [allBounded, ih]

theorem membersBounded_of {depth : Nat} {members : List (String × Json)}
    (h : ∀ member ∈ members, jsonBounded depth member.2 = true) :
    membersBounded depth members = true := by
  induction members with
  | nil => rfl
  | cons member members ih =>
    obtain ⟨hhead, hrest⟩ := List.forall_mem_cons.mp h
    rw [membersBounded, hhead, Bool.or_true, Bool.true_and]
    exact ih hrest

/-- Small objects of bounded values are bounded. -/
theorem bounded_object {depth : Nat} {members : List (String × Json)} (hdepth : depth ≤ 10)
    (hlength : members.length ≤ 50)
    (hnames : members.all (fun member => member.1 ∉ ["__proto__", "constructor", "prototype"]) = true)
    (h : ∀ member ∈ members, jsonBounded (depth + 1) member.2 = true) :
    jsonBounded depth (.object members) = true := by
  have hdedup : (members.map Prod.fst).dedup.length ≤ 50 :=
    ((List.dedup_sublist _).length_le.trans (List.length_map ..).le).trans hlength
  simp [jsonBounded, hdepth, hdedup, membersBounded_of h]
  simpa using hnames

theorem bounded_array {α : Type} {depth : Nat} {items : List α} {f : α → Json} (hdepth : depth ≤ 10)
    (hlength : items.length ≤ 100) (h : ∀ item ∈ items, jsonBounded (depth + 1) (f item) = true) :
    jsonBounded depth (.array (items.map f)) = true := by
  have hitems := allBounded_iff.mpr (List.forall_mem_map.mpr h)
  simp [jsonBounded, hdepth, hlength, hitems]

theorem bounded_string {depth : Nat} {value : String} (hdepth : depth ≤ 10)
    (hlength : unitLength value ≤ 4000) : jsonBounded depth (.string value) = true := by
  simp [jsonBounded, hdepth, hlength]

/-! ## Objects -/

section Objects

variable {value : Json} {names names' : List String} {name text : String}

/-- A name that is not allowed is not there. -/
theorem field_eq_none_of_onlyKeys (h : value.onlyKeys names = true) (hname : name ∉ names) :
    value.field name = none := by
  cases value with
  | object members =>
    have hall := List.all_eq_true.mp h
    refine Option.map_eq_none_iff.mpr (List.find?_eq_none.mpr fun member hmember => ?_)
    have hmem := of_decide_eq_true (hall member (List.mem_reverse.mp hmember))
    simp only [decide_eq_true_eq]
    rintro rfl
    exact hname hmem
  | _ => rfl

/-- Fewer names are allowed when one is not there. -/
theorem onlyKeys_of_field_eq_none (h : value.onlyKeys names = true) (hnone : value.field name = none) :
    value.onlyKeys (names.filter fun other => other ≠ name) = true := by
  cases value with
  | object members =>
    have hall := List.all_eq_true.mp h
    refine List.all_eq_true.mpr fun member hmember => decide_eq_true ?_
    refine List.mem_filter.mpr ⟨of_decide_eq_true (hall member hmember), decide_eq_true ?_⟩
    rintro rfl
    have hfind := List.find?_eq_none.mp (Option.map_eq_none_iff.mp hnone) member
      (List.mem_reverse.mpr hmember)
    simp at hfind
  | _ => exact h

theorem onlyKeys_mono (h : value.onlyKeys names = true) (hsub : ∀ name ∈ names, name ∈ names') :
    value.onlyKeys names' = true := by
  cases value with
  | object members =>
    refine List.all_eq_true.mpr fun member hmember => decide_eq_true ?_
    exact hsub _ (of_decide_eq_true (List.all_eq_true.mp h member hmember))
  | _ => exact h

theorem textField_eq_some : value.textField name = some text ↔ value.field name = some (.string text) := by
  unfold Json.textField
  constructor
  · intro h
    obtain ⟨field, hfield, htext⟩ := Option.bind_eq_some_iff.mp h
    cases field <;> cases htext
    exact hfield
  · intro h
    rw [h]
    rfl

end Objects

/-! ## Items -/

theorem mapM_cons_eq_some {α β : Type} {f : α → Option β} {x : α} {xs : List α} {ys : List β} :
    (x :: xs).mapM f = some ys ↔ ∃ y rest, f x = some y ∧ xs.mapM f = some rest ∧ ys = y :: rest := by
  rw [List.mapM_cons]
  constructor
  · intro h
    obtain ⟨y, hy, h⟩ := Option.bind_eq_some_iff.mp h
    obtain ⟨rest, hrest, h⟩ := Option.bind_eq_some_iff.mp h
    cases h
    exact ⟨y, rest, hy, hrest, rfl⟩
  · rintro ⟨y, rest, hy, hrest, rfl⟩
    exact Option.bind_eq_some_iff.mpr ⟨y, hy, Option.bind_eq_some_iff.mpr ⟨rest, hrest, rfl⟩⟩

theorem readItem_eq_some {value : Json} {item : Item} :
    readItem value = some item ↔ value.onlyKeys ["id", "quantity"] = true ∧
      (value.field "id").bind product = some item.id ∧
      (value.field "quantity").bind (·.integer 1 3) = some item.quantity := by
  unfold readItem
  constructor
  · intro h
    split at h
    · next hkeys =>
      obtain ⟨id, hid, h⟩ := Option.bind_eq_some_iff.mp h
      obtain ⟨quantity, hquantity, h⟩ := Option.bind_eq_some_iff.mp h
      cases h
      exact ⟨hkeys, hid, hquantity⟩
    · cases h
  · rintro ⟨hkeys, hid, hquantity⟩
    rw [if_pos hkeys, hid, hquantity]
    rfl

theorem parseItems_cons_iff {seen : List ProductId} {head : Json} {raw : List Json}
    {items : List Item} : parseItems seen (head :: raw) = .ok items ↔
      ∃ item rest, readItem head = some item ∧ item.id ∉ seen ∧
        parseItems (item.id :: seen) raw = .ok rest ∧ items = item :: rest := by
  constructor
  · intro h
    unfold parseItems at h
    split at h
    · next hkeys =>
      split at h
      · next id quantity hid hquantity =>
        split at h
        · cases h
        · next hnew =>
          cases hrest : parseItems (id :: seen) raw with
          | error e =>
            rw [hrest] at h
            cases h
          | ok rest =>
            rw [hrest] at h
            cases h
            exact ⟨⟨id, quantity⟩, rest, readItem_eq_some.mpr ⟨hkeys, hid, hquantity⟩, hnew, hrest, rfl⟩
      · cases h
    · cases h
  · rintro ⟨item, rest, hread, hnew, hrest, rfl⟩
    obtain ⟨hkeys, hid, hquantity⟩ := readItem_eq_some.mp hread
    unfold parseItems
    rw [if_pos hkeys, hid, hquantity]
    dsimp only
    rw [if_neg hnew, hrest]
    rfl

theorem parseItems_eq_ok {seen : List ProductId} {raw : List Json} {items : List Item} :
    parseItems seen raw = .ok items ↔
      raw.mapM readItem = some items ∧ (items.map Item.id).Nodup ∧ ∀ item ∈ items, item.id ∉ seen := by
  induction raw generalizing seen items with
  | nil =>
    rw [List.mapM_nil]
    constructor
    · intro h
      cases h
      exact ⟨rfl, List.nodup_nil, nofun⟩
    · rintro ⟨h, -, -⟩
      cases h
      rfl
  | cons head raw ih =>
    rw [parseItems_cons_iff, mapM_cons_eq_some]
    constructor
    · rintro ⟨item, rest, hread, hnew, hrest, rfl⟩
      obtain ⟨hmap, hnodup, hfresh⟩ := ih.mp hrest
      refine ⟨⟨item, rest, hread, hmap, rfl⟩, List.nodup_cons.mpr ⟨fun hmem => ?_, hnodup⟩, ?_⟩
      · obtain ⟨other, hother, hsame⟩ := List.mem_map.mp hmem
        exact hfresh other hother (hsame ▸ List.mem_cons_self)
      · exact List.forall_mem_cons.mpr ⟨hnew, fun other hother hmem =>
          hfresh other hother (List.mem_cons_of_mem _ hmem)⟩
    · rintro ⟨⟨item, rest, hread, hmap, rfl⟩, hnodup, hnew⟩
      obtain ⟨hself, hnodup⟩ := List.nodup_cons.mp hnodup
      obtain ⟨hitem, hnew⟩ := List.forall_mem_cons.mp hnew
      refine ⟨item, rest, hread, hitem, ih.mpr ⟨hmap, hnodup, fun other hother hmem => ?_⟩, rfl⟩
      rcases List.mem_cons.mp hmem with he | hmem
      · exact hself (he ▸ List.mem_map_of_mem hother)
      · exact hnew other hother hmem

/-- **The two readers of an offer's items agree.** -/
theorem parseItems_iff {raw : List Json} {items : List Item} :
    parseItems [] raw = .ok items ↔ raw.mapM readItem = some items ∧ (items.map Item.id).Nodup := by
  rw [parseItems_eq_ok]
  exact ⟨fun ⟨h, hnodup, _⟩ => ⟨h, hnodup⟩, fun ⟨h, hnodup⟩ => ⟨h, hnodup, fun _ _ => List.not_mem_nil⟩⟩

theorem readItems_eq_some {value : Json} {items : List Item} :
    readItems value = some items ↔ ∃ raw, offeredItems value = some raw ∧
      parseItems [] raw = .ok items := by
  unfold readItems
  constructor
  · intro h
    obtain ⟨raw, hraw, h⟩ := Option.bind_eq_some_iff.mp h
    obtain ⟨found, hfound, h⟩ := Option.bind_eq_some_iff.mp h
    split at h
    · next hnodup =>
      cases h
      exact ⟨raw, hraw, parseItems_iff.mpr ⟨hfound, hnodup⟩⟩
    · cases h
  · rintro ⟨raw, hraw, hitems⟩
    obtain ⟨hfound, hnodup⟩ := parseItems_iff.mp hitems
    exact Option.bind_eq_some_iff.mpr ⟨raw, hraw, Option.bind_eq_some_iff.mpr ⟨items, hfound, if_pos hnodup⟩⟩

/-! ## The seller -/

/-- What a seller's answer says, with the message as it is. -/
def Says (a : Json) : SellerAction → Prop
  | .ask message => a.textField "type" = some "ask" ∧ a.onlyKeys ["type", "message"] = true ∧
      a.textField "message" = some message
  | .close message => a.textField "type" = some "close" ∧ a.onlyKeys ["type", "message"] = true ∧
      a.textField "message" = some message
  | .serve tactic message => a.textField "type" = some "serve" ∧
      a.onlyKeys ["type", "tactic", "message"] = true ∧ a.textField "message" = some message ∧
      tacticOf a = some tactic
  | .offer offer => a.textField "type" = some "offer" ∧
      a.onlyKeys ["type", "message", "items", "price"] = true ∧
      a.textField "message" = some offer.message ∧
      (a.field "price").bind (·.integer 1 99) = some offer.price ∧ readItems a = some offer.items

/-- `message.trim()`. -/
def SellerAction.trimmed : SellerAction → SellerAction
  | .ask message => .ask (String.ofList (trim message))
  | .close message => .close (String.ofList (trim message))
  | .serve tactic message => .serve tactic (String.ofList (trim message))
  | .offer made => .offer { made with message := String.ofList (trim made.message) }

variable {a : Json} {action : SellerAction}

theorem Says.message (h : Says a action) : a.textField "message" = some action.message := by
  cases action with
  | ask message => exact h.2.2
  | close message => exact h.2.2
  | serve tactic message => exact h.2.2.1
  | offer made => exact h.2.2.1

theorem saysText_iff {message : String} (h : a.textField "message" = some message) :
    saysText a = true ↔ isText 180 message = true := by
  rw [saysText, h]
  rfl

/-- A message alone makes no offer. -/
theorem noOffer_of_onlyKeys (h : a.onlyKeys ["type", "message"] = true) :
    a.onlyKeys ["type", "message", "items", "price"] = true ∧ a.field "items" = none ∧
      a.field "price" = none :=
  ⟨onlyKeys_mono h (by decide), field_eq_none_of_onlyKeys h (by decide),
    field_eq_none_of_onlyKeys h (by decide)⟩

/-- **What the model service takes from a seller.** -/
theorem validSeller_iff : validSeller a = true ↔ ∃ action, Says a action ∧ isText 180 action.message = true := by
  unfold validSeller
  constructor
  · intro h
    split at h
    · next htype =>
      obtain ⟨hkeys, htactic, htext⟩ := of_decide_eq_true h
      obtain ⟨tactic, htactic⟩ := Option.isSome_iff_exists.mp htactic
      obtain ⟨message, hmessage, hvalid⟩ := (Option.any_eq_true _ _).mp htext
      exact ⟨.serve tactic message, ⟨htype, hkeys, hmessage, htactic⟩, hvalid⟩
    · split at h
      · cases h
      · next hshape =>
        obtain ⟨hkeys, hshape⟩ := not_or.mp hshape
        obtain ⟨htype, htext⟩ := not_or.mp hshape
        obtain ⟨type, htype, hword⟩ := (Option.any_eq_true _ _).mp (not_not.mp htype)
        obtain ⟨message, hmessage, hvalid⟩ := (Option.any_eq_true _ _).mp (not_not.mp htext)
        have hkeys := not_not.mp hkeys
        split at h
        · next hoffer =>
          obtain ⟨hprice, hitems⟩ := of_decide_eq_true h
          obtain ⟨price, hprice⟩ := Option.isSome_iff_exists.mp hprice
          obtain ⟨items, hitems⟩ := Option.isSome_iff_exists.mp hitems
          exact ⟨.offer ⟨items, price, message⟩, ⟨hoffer, hkeys, hmessage, hprice, hitems⟩, hvalid⟩
        · next hoffer =>
          obtain ⟨hitems, hprice⟩ := of_decide_eq_true h
          have hshort : a.onlyKeys ["type", "message"] = true :=
            onlyKeys_of_field_eq_none (onlyKeys_of_field_eq_none hkeys
              (Option.isNone_iff_eq_none.mp hitems)) (Option.isNone_iff_eq_none.mp hprice)
          rcases List.mem_cons.mp (of_decide_eq_true hword) with rfl | hword
          · exact ⟨.ask message, ⟨htype, hshort, hmessage⟩, hvalid⟩
          · rcases List.mem_cons.mp hword with rfl | hword
            · exact absurd htype hoffer
            · obtain rfl := List.mem_singleton.mp hword
              exact ⟨.close message, ⟨htype, hshort, hmessage⟩, hvalid⟩
  · rintro ⟨action, hsaid, hvalid⟩
    have htext := (saysText_iff hsaid.message).mpr hvalid
    cases action with
    | ask message =>
      obtain ⟨htype, hkeys, -⟩ := hsaid
      obtain ⟨hall, hitems, hprice⟩ := noOffer_of_onlyKeys hkeys
      simp [htype, hall, htext, hitems, hprice, oneOf]
    | close message =>
      obtain ⟨htype, hkeys, -⟩ := hsaid
      obtain ⟨hall, hitems, hprice⟩ := noOffer_of_onlyKeys hkeys
      simp [htype, hall, htext, hitems, hprice, oneOf]
    | serve tactic message =>
      obtain ⟨htype, hkeys, -, htactic⟩ := hsaid
      simp [htype, hkeys, htext, htactic]
    | offer made =>
      obtain ⟨htype, hkeys, -, hprice, hitems⟩ := hsaid
      simp [htype, hkeys, htext, hitems, hprice, oneOf]

/-- **What the shop takes from a seller.** -/
theorem parseSellerAction_iff {read : SellerAction} : parseSellerAction a = .ok read ↔
    ∃ action, Says a action ∧ unitLength action.message ≤ 180 ∧ trim action.message ≠ [] ∧
      read = action.trimmed := by
  constructor
  · intro h
    unfold parseSellerAction at h
    split at h
    · cases h
    · next message hmessage =>
      obtain ⟨hmessage, hvalid⟩ := Option.filter_eq_some_iff.mp hmessage
      obtain ⟨hlength, htrim⟩ := of_decide_eq_true hvalid
      dsimp only at h
      split at h
      · next hask =>
        cases h
        exact ⟨.ask message, ⟨hask.1, hask.2, hmessage⟩, hlength, htrim, rfl⟩
      · split at h
        · next hclose =>
          cases h
          exact ⟨.close message, ⟨hclose.1, hclose.2, hmessage⟩, hlength, htrim, rfl⟩
        · split at h
          · next hserve =>
            split at h
            · next tactic htactic =>
              cases h
              exact ⟨.serve tactic message, ⟨hserve.1, hserve.2, hmessage, htactic⟩, hlength, htrim, rfl⟩
            · cases h
          · unfold parseOffer at h
            split at h
            · next hoffer =>
              split at h
              · next price raw hprice hraw =>
                cases hitems : parseItems [] raw with
                | error e =>
                  rw [hitems] at h
                  cases h
                | ok items =>
                  rw [hitems] at h
                  cases h
                  exact ⟨.offer ⟨items, price, message⟩, ⟨hoffer.1, hoffer.2, hmessage, hprice,
                    readItems_eq_some.mpr ⟨raw, hraw, hitems⟩⟩, hlength, htrim, rfl⟩
              · cases h
            · cases h
  · rintro ⟨action, hsaid, hlength, htrim, rfl⟩
    have hmessage : sellerMessage a = some action.message :=
      Option.filter_eq_some_iff.mpr ⟨hsaid.message, decide_eq_true ⟨hlength, htrim⟩⟩
    unfold parseSellerAction
    rw [hmessage]
    dsimp only
    cases action with
    | ask message =>
      obtain ⟨htype, hkeys, -⟩ := hsaid
      simp [htype, hkeys, SellerAction.trimmed, SellerAction.message]
    | close message =>
      obtain ⟨htype, hkeys, -⟩ := hsaid
      simp [htype, hkeys, SellerAction.trimmed, SellerAction.message]
    | serve tactic message =>
      obtain ⟨htype, hkeys, -, htactic⟩ := hsaid
      simp [htype, hkeys, htactic, SellerAction.trimmed, SellerAction.message]
    | offer made =>
      obtain ⟨htype, hkeys, -, hprice, hitems⟩ := hsaid
      obtain ⟨raw, hraw, hitems⟩ := readItems_eq_some.mp hitems
      simp [parseOffer, htype, hkeys, hprice, hraw, hitems, Except.map, SellerAction.trimmed,
        SellerAction.message]

/-! ## The buyer -/

/-- What a buyer's answer says, with the type and the reason as they are. -/
structure Wishes (a type reason : Json) (wants : Option (List ProductId)) : Prop where
  keys : a.onlyKeys ["type", "wants", "reason"] = true
  type : a.field "type" = some type
  reason : a.field "reason" = some reason
  wants : parseWants (a.field "wants") = .ok wants

/-- A value that is one of the words. -/
def IsWord (words : List String) (value : Json) : Prop := ∃ word ∈ words, value = .string word

/-- A value that is printed as one of the words. -/
def PrintsWord (words : List String) (value : Json) : Prop :=
  value.unprintable = false ∧ ∃ word ∈ words, value.prints word = true

theorem IsWord.prints {words : List String} {value : Json} (h : IsWord words value) :
    PrintsWord words value := by
  obtain ⟨word, hword, rfl⟩ := h
  refine ⟨?_, word, hword, ?_⟩
  · unfold Json.unprintable
    rfl
  · unfold Json.prints
    exact decide_eq_true rfl

theorem wordOf_eq_ok {words : List String} {field : Option Json} {value : Json} :
    wordOf words field = .ok value ↔ field = some value ∧ PrintsWord words value := by
  unfold wordOf
  cases field with
  | none => simp
  | some found =>
    dsimp only
    constructor
    · intro h
      split at h
      · cases h
      · next hprintable =>
        split at h
        · next hword =>
          cases h
          obtain ⟨word, hword, hprints⟩ := List.any_eq_true.mp hword
          exact ⟨rfl, Bool.eq_false_iff.mpr hprintable, word, hword, hprints⟩
        · cases h
    · rintro ⟨hfound, hprintable, word, hword, hprints⟩
      cases hfound
      rw [hprintable, if_neg Bool.false_ne_true,
        if_pos (List.any_eq_true.mpr ⟨word, hword, hprints⟩)]

theorem oneOf_iff {name : String} {words : List String} :
    oneOf a name words = true ↔ ∃ value, a.field name = some value ∧ IsWord words value := by
  unfold oneOf
  rw [Option.any_eq_true]
  constructor
  · rintro ⟨word, hfield, hword⟩
    exact ⟨_, textField_eq_some.mp hfield, word, of_decide_eq_true hword, rfl⟩
  · rintro ⟨_, hfield, word, hword, rfl⟩
    exact ⟨word, textField_eq_some.mpr hfield, decide_eq_true hword⟩

theorem validWants_iff : validWants a = true ↔ ∃ wants, parseWants (a.field "wants") = .ok wants := by
  unfold validWants parseWants
  cases a.field "wants" with
  | none => simp
  | some value =>
    cases value with
    | array items =>
      dsimp only
      constructor
      · intro h
        obtain ⟨hlength, hwants⟩ := of_decide_eq_true h
        obtain ⟨wants, hwants, hnodup⟩ := (Option.any_eq_true _ _).mp hwants
        rw [if_neg (by omega), hwants]
        dsimp only
        rw [if_pos (of_decide_eq_true hnodup)]
        exact ⟨_, rfl⟩
      · rintro ⟨wants, h⟩
        split at h
        · cases h
        · next hlength =>
          split at h
          · next found hfound =>
            split at h
            · next hnodup =>
              refine decide_eq_true ⟨by omega, ?_⟩
              rw [hfound]
              exact decide_eq_true hnodup
            · cases h
          · cases h
    | _ => simp

/-- **What the model service takes from a buyer.** -/
theorem validBuyer_iff : validBuyer a = true ↔ ∃ type reason wants, Wishes a type reason wants ∧
    IsWord buyerTypes type ∧ IsWord buyerReasons reason := by
  unfold validBuyer
  rw [decide_eq_true_eq, oneOf_iff, oneOf_iff, validWants_iff]
  constructor
  · rintro ⟨hkeys, ⟨type, htype, hword⟩, ⟨reason, hreason, hword'⟩, wants, hwants⟩
    exact ⟨type, reason, wants, ⟨hkeys, htype, hreason, hwants⟩, hword, hword'⟩
  · rintro ⟨type, reason, wants, ⟨hkeys, htype, hreason, hwants⟩, hword, hword'⟩
    exact ⟨hkeys, ⟨type, htype, hword⟩, ⟨reason, hreason, hword'⟩, wants, hwants⟩

/-- **What the shop takes from a buyer.** -/
theorem parseBuyerAction_iff {read : BuyerAction} : parseBuyerAction a = .ok read ↔
    Wishes a read.type read.reason read.wants ∧ PrintsWord buyerTypes read.type ∧
      PrintsWord buyerReasons read.reason := by
  simp only [parseBuyerAction, bind_eq_ok, throwIf_eq_ok, pure_eq_ok]
  constructor
  · rintro ⟨-, hkeys, type, htype, reason, hreason, wants, hwants, rfl⟩
    obtain ⟨htype, hword⟩ := wordOf_eq_ok.mp htype
    obtain ⟨hreason, hword'⟩ := wordOf_eq_ok.mp hreason
    exact ⟨⟨not_not.mp hkeys, htype, hreason, hwants⟩, hword, hword'⟩
  · rintro ⟨⟨hkeys, htype, hreason, hwants⟩, hword, hword'⟩
    exact ⟨⟨⟩, not_not.mpr hkeys, read.type, wordOf_eq_ok.mpr ⟨htype, hword⟩, read.reason,
      wordOf_eq_ok.mpr ⟨hreason, hword'⟩, read.wants, hwants, rfl⟩

end Mapae.Arcade
