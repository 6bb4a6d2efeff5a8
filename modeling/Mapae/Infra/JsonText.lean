import Mapae.Infra.Table

/-!
# JSON as a text

A value as a program holds it, with its texts in UTF-16 units, lone surrogates included; and what
`JSON.stringify` writes of it, and `JSON.parse` reads, one unit after the other. Lone surrogates are
written as escapes, like the control characters.

The numbers are a parameter, told apart as `===` does. The order of an object's members is that of the
text.

* `mapTexts` replaces the texts of a value, and `shape` is what stays
* `run_plain` and `run_escape`: what was written in quotes is read back
* `run_cut_escape`: an escape that is cut short is no JSON
-/

namespace Mapae.Infra

/-- A text, in UTF-16 units. -/
abbrev Utf16 := List Nat

/-- The units of a text. A character from 0x10000 on has two. -/
def utf16 (text : String) : Utf16 := text.toList.flatMap fun c =>
  if c.toNat < 0x10000 then [c.toNat]
  else [0xD800 + (c.toNat - 0x10000) / 0x400, 0xDC00 + (c.toNat - 0x10000) % 0x400]

/-- A JSON value, as a program holds it. -/
inductive JsValue (N : Type) where
  | null
  | bool (value : Bool)
  | number (value : N)
  | string (value : Utf16)
  | array (items : List (JsValue N))
  | object (members : List (Utf16 × JsValue N))

section Values

variable {N : Type}

mutual

/-- The value and the values in it. -/
def JsValue.nodes : JsValue N → List (JsValue N)
  | .array items => .array items :: nodesOfItems items
  | .object members => .object members :: nodesOfMembers members
  | value => [value]

def nodesOfItems : List (JsValue N) → List (JsValue N)
  | [] => []
  | value :: rest => value.nodes ++ nodesOfItems rest

def nodesOfMembers : List (Utf16 × JsValue N) → List (JsValue N)
  | [] => []
  | (_, value) :: rest => value.nodes ++ nodesOfMembers rest

end

/-- The string that a value is, or its keys. -/
def JsValue.ownTexts : JsValue N → List Utf16
  | .string text => [text]
  | .object members => members.map Prod.fst
  | _ => []

/-- The strings and the keys of a value, at any depth. -/
def JsValue.texts (value : JsValue N) : List Utf16 := value.nodes.flatMap JsValue.ownTexts

section Map

variable (f : Utf16 → Utf16)

mutual

/-- Every string and every key is replaced. -/
def JsValue.mapTexts : JsValue N → JsValue N
  | .string text => .string (f text)
  | .array items => .array (mapItems items)
  | .object members => .object (mapMembers members)
  | value => value

def mapItems : List (JsValue N) → List (JsValue N)
  | [] => []
  | value :: rest => value.mapTexts :: mapItems rest

def mapMembers : List (Utf16 × JsValue N) → List (Utf16 × JsValue N)
  | [] => []
  | (key, value) :: rest => (f key, value.mapTexts) :: mapMembers rest

end

end Map

/-- What a value is but for its texts: its nesting, and its values that are no strings. -/
def JsValue.shape (value : JsValue N) : JsValue N := value.mapTexts fun _ => []

section Laws

variable (f g : Utf16 → Utf16)

mutual

theorem mapTexts_mapTexts (value : JsValue N) :
    (value.mapTexts f).mapTexts g = value.mapTexts (g ∘ f) := by
  cases value with
  | array items => simp [JsValue.mapTexts, mapItems_mapItems items]
  | object members => simp [JsValue.mapTexts, mapMembers_mapMembers members]
  | _ => rfl

theorem mapItems_mapItems (items : List (JsValue N)) :
    mapItems g (mapItems f items) = mapItems (g ∘ f) items := by
  match items with
  | [] => rfl
  | value :: rest => simp [mapItems, mapTexts_mapTexts value, mapItems_mapItems rest]

theorem mapMembers_mapMembers (members : List (Utf16 × JsValue N)) :
    mapMembers g (mapMembers f members) = mapMembers (g ∘ f) members := by
  match members with
  | [] => rfl
  | (key, value) :: rest =>
    simp [mapMembers, mapTexts_mapTexts value, mapMembers_mapMembers rest]

end

theorem shape_mapTexts (value : JsValue N) : (value.mapTexts f).shape = value.shape :=
  mapTexts_mapTexts f _ value

theorem map_fst_mapMembers (members : List (Utf16 × JsValue N)) :
    (mapMembers f members).map Prod.fst = members.map fun member => f member.1 := by
  induction members with
  | nil => rfl
  | cons member rest ih => simp [mapMembers, ih]

mutual

theorem nodes_mapTexts (value : JsValue N) :
    (value.mapTexts f).nodes = value.nodes.map fun node => node.mapTexts f := by
  cases value with
  | array items => simp [JsValue.mapTexts, JsValue.nodes, nodesOfItems_mapItems items]
  | object members => simp [JsValue.mapTexts, JsValue.nodes, nodesOfMembers_mapMembers members]
  | _ => simp [JsValue.mapTexts, JsValue.nodes]

theorem nodesOfItems_mapItems (items : List (JsValue N)) :
    nodesOfItems (mapItems f items) = (nodesOfItems items).map fun node => node.mapTexts f := by
  match items with
  | [] => rfl
  | value :: rest =>
    simp [mapItems, nodesOfItems, nodes_mapTexts value, nodesOfItems_mapItems rest]

theorem nodesOfMembers_mapMembers (members : List (Utf16 × JsValue N)) :
    nodesOfMembers (mapMembers f members)
      = (nodesOfMembers members).map fun node => node.mapTexts f := by
  match members with
  | [] => rfl
  | (key, value) :: rest =>
    simp [mapMembers, nodesOfMembers, nodes_mapTexts value, nodesOfMembers_mapMembers rest]

end

theorem ownTexts_mapTexts (value : JsValue N) :
    (value.mapTexts f).ownTexts = value.ownTexts.map f := by
  cases value with
  | object members => simp [JsValue.mapTexts, JsValue.ownTexts, map_fst_mapMembers]
  | _ => rfl

/-- **The texts of the image are the images of the texts.** -/
theorem texts_mapTexts (value : JsValue N) : (value.mapTexts f).texts = value.texts.map f := by
  simp [JsValue.texts, nodes_mapTexts, List.flatMap_map, List.map_flatMap, ownTexts_mapTexts]

end Laws

/-! ## Everywhere in a value -/

theorem mem_nodesOfItems {node : JsValue N} {items : List (JsValue N)} :
    node ∈ nodesOfItems items ↔ ∃ value ∈ items, node ∈ value.nodes := by
  induction items with
  | nil => simp [nodesOfItems]
  | cons value rest ih => simp [nodesOfItems, ih]

theorem mem_nodesOfMembers {node : JsValue N} {members : List (Utf16 × JsValue N)} :
    node ∈ nodesOfMembers members ↔ ∃ member ∈ members, node ∈ member.2.nodes := by
  induction members with
  | nil => simp [nodesOfMembers]
  | cons member rest ih => simp [nodesOfMembers, ih]

theorem mem_texts_array {text : Utf16} {items : List (JsValue N)} :
    text ∈ (JsValue.array items).texts ↔ ∃ value ∈ items, text ∈ value.texts := by
  simp only [JsValue.texts, JsValue.nodes, List.flatMap_cons, JsValue.ownTexts, List.nil_append,
    List.mem_flatMap, mem_nodesOfItems]
  constructor
  · rintro ⟨node, ⟨value, hvalue, hnode⟩, htext⟩
    exact ⟨value, hvalue, node, hnode, htext⟩
  · rintro ⟨value, hvalue, node, hnode, htext⟩
    exact ⟨node, ⟨value, hvalue, hnode⟩, htext⟩

theorem mem_texts_object {text : Utf16} {members : List (Utf16 × JsValue N)} :
    text ∈ (JsValue.object members).texts ↔
      ∃ member ∈ members, text = member.1 ∨ text ∈ member.2.texts := by
  simp only [JsValue.texts, JsValue.nodes, List.flatMap_cons, JsValue.ownTexts, List.mem_append,
    List.mem_map, List.mem_flatMap, mem_nodesOfMembers]
  constructor
  · rintro (⟨member, hmember, rfl⟩ | ⟨node, ⟨member, hmember, hnode⟩, htext⟩)
    · exact ⟨member, hmember, .inl rfl⟩
    · exact ⟨member, hmember, .inr ⟨node, hnode, htext⟩⟩
  · rintro ⟨member, hmember, rfl | ⟨node, hnode, htext⟩⟩
    · exact .inl ⟨member, hmember, rfl⟩
    · exact .inr ⟨node, ⟨member, hmember, hnode⟩, htext⟩

@[simp] theorem texts_string (text : Utf16) : (JsValue.string (N := N) text).texts = [text] := rfl

end Values

/-! ## The units with a meaning -/

abbrev quoteUnit : Nat := 34
abbrev commaUnit : Nat := 44
abbrev colonUnit : Nat := 58
abbrev openList : Nat := 91
abbrev backslash : Nat := 92
abbrev closeList : Nat := 93
abbrev unicodeUnit : Nat := 117
abbrev openObject : Nat := 123
abbrev closeObject : Nat := 125

def isJsonSpace (c : Nat) : Bool := c == 32 || c == 9 || c == 10 || c == 13

/-- A digit, a sign, a point or an `e`. -/
def isNumberUnit (c : Nat) : Bool :=
  decide (48 ≤ c ∧ c ≤ 57) || c == 43 || c == 45 || c == 46 || c == 101

/-- A unit of a number or a literal. -/
def isTokenUnit (c : Nat) : Bool :=
  isNumberUnit c || decide (97 ≤ c ∧ c ≤ 122) || decide (65 ≤ c ∧ c ≤ 90)

/-- How numbers are written and read. The longest has a sign, a point, 17 digits and six zeros. -/
structure NumberFormat (N : Type) where
  isFinite : N → Bool
  print : N → Utf16
  /-- Nothing of what is no number in the grammar of JSON. -/
  read : Utf16 → Option N
  read_print {n : N} : isFinite n = true → read (print n) = some n
  print_ne_nil {n : N} : isFinite n = true → print n ≠ []
  length_print {n : N} : isFinite n = true → (print n).length ≤ 25
  isNumberUnit_of_mem {n : N} {c : Nat} : isFinite n = true → c ∈ print n → isNumberUnit c = true

variable {N : Type}

/-! ## Writing -/

def isHighSurrogate (c : Nat) : Bool := decide (0xD800 ≤ c ∧ c ≤ 0xDBFF)

def isLowSurrogate (c : Nat) : Bool := decide (0xDC00 ≤ c ∧ c ≤ 0xDFFF)

/-- A surrogate that is no half of a pair. -/
def isLone (afterHigh : Bool) (c : Nat) (rest : Utf16) : Bool :=
  (isHighSurrogate c && !rest.head?.any isLowSurrogate) || (isLowSurrogate c && !afterHigh)

/-- Whether a unit is written as an escape. -/
def isEscaped (afterHigh : Bool) (c : Nat) (rest : Utf16) : Bool :=
  decide (c < 32) || c == quoteUnit || c == backslash || isLone afterHigh c rest

def hexUnit (d : Nat) : Nat := if d < 10 then 48 + d else 87 + d

/-- What an escape has after its backslash. -/
def escapeTail (c : Nat) : Utf16 :=
  if c = 8 then [98]
  else if c = 9 then [116]
  else if c = 10 then [110]
  else if c = 12 then [102]
  else if c = 13 then [114]
  else if c = quoteUnit then [quoteUnit]
  else if c = backslash then [backslash]
  else
    [unicodeUnit, hexUnit (c / 4096), hexUnit (c / 256 % 16), hexUnit (c / 16 % 16),
      hexUnit (c % 16)]

/-- A text as it is spelled between its quotes. -/
def spellFrom : Bool → Utf16 → Utf16
  | _, [] => []
  | afterHigh, c :: rest =>
    (if isEscaped afterHigh c rest then backslash :: escapeTail c else [c])
      ++ spellFrom (isHighSurrogate c) rest

def spell (text : Utf16) : Utf16 := spellFrom false text

/-- A text in quotes, with its spelling rewritten. -/
def quoted (rewrite : Utf16 → Utf16) (text : Utf16) : Utf16 :=
  quoteUnit :: (rewrite (spell text) ++ [quoteUnit])

section Write

variable (numbers : NumberFormat N) (rewrite : Utf16 → Utf16)

mutual

/-- The text of a value, with the spellings of its texts rewritten. -/
def writeWith : JsValue N → Utf16
  | .null => utf16 "null"
  | .bool value => if value then utf16 "true" else utf16 "false"
  | .number value => if numbers.isFinite value then numbers.print value else utf16 "null"
  | .string value => quoted rewrite value
  | .array items => openList :: (writeItems items ++ [closeList])
  | .object members => openObject :: (writeMembers members ++ [closeObject])

def writeItems : List (JsValue N) → Utf16
  | [] => []
  | [value] => writeWith value
  | value :: next :: rest => writeWith value ++ commaUnit :: writeItems (next :: rest)

def writeMembers : List (Utf16 × JsValue N) → Utf16
  | [] => []
  | [(key, value)] => quoted rewrite key ++ colonUnit :: writeWith value
  | (key, value) :: next :: rest =>
    quoted rewrite key ++ colonUnit :: (writeWith value ++ commaUnit :: writeMembers (next :: rest))

end

end Write

/-- `JSON.stringify(value)`. -/
def stringify (numbers : NumberFormat N) (value : JsValue N) : Utf16 := writeWith numbers id value

/-! ## Reading -/

/-- The members of an object. A later one of the same name takes the place of the earlier. -/
abbrev JsMembers (N : Type) := Table (Prod.fst : Utf16 × JsValue N → Utf16)

/-- A container that is still open. -/
inductive JsonFrame (N : Type) where
  | items (done : List (JsValue N))
  | member (done : JsMembers N) (key : Utf16)

/-- What a text in quotes is. -/
inductive TextPlace (N : Type) where
  | value
  | key (done : JsMembers N)

/-- What the next unit belongs to. -/
inductive JsonMode (N : Type) where
  | value
  | key (done : JsMembers N)
  | colon (done : JsMembers N) (key : Utf16)
  | text (place : TextPlace N) (read : Utf16)
  | escape (place : TextPlace N) (read : Utf16)
  | unicode (place : TextPlace N) (read : Utf16) (digits : List Nat)
  | word (read : Utf16)
  | ended (value : JsValue N)

structure JsonReader (N : Type) where
  stack : List (JsonFrame N)
  mode : JsonMode N

/-- The value of a digit in either letter case. -/
def readHexUnit (c : Nat) : Option Nat :=
  if 48 ≤ c ∧ c ≤ 57 then some (c - 48)
  else if 97 ≤ c ∧ c ≤ 102 then some (c - 87)
  else if 65 ≤ c ∧ c ≤ 70 then some (c - 55)
  else none

/-- What stands for itself or for a control character after a backslash. -/
def readEscape (c : Nat) : Option Nat :=
  if c = quoteUnit ∨ c = backslash ∨ c = 47 then some c
  else if c = 98 then some 8
  else if c = 102 then some 12
  else if c = 110 then some 10
  else if c = 114 then some 13
  else if c = 116 then some 9
  else none

/-- A literal or a number. -/
def readWord (numbers : NumberFormat N) (word : Utf16) : Option (JsValue N) :=
  if word = utf16 "null" then some .null
  else if word = utf16 "true" then some (.bool true)
  else if word = utf16 "false" then some (.bool false)
  else (numbers.read word).map .number

def TextPlace.ended : TextPlace N → Utf16 → JsonMode N
  | .value, text => .ended (.string text)
  | .key done, text => .colon done text

/-- A value begins. A list that has no item yet may end instead. -/
def beginValue (stack : List (JsonFrame N)) (c : Nat) : Option (JsonReader N) :=
  if isJsonSpace c then some ⟨stack, .value⟩
  else if c = quoteUnit then some ⟨stack, .text .value []⟩
  else if c = openList then some ⟨.items [] :: stack, .value⟩
  else if c = openObject then some ⟨stack, .key .empty⟩
  else if c = closeList then
    match stack with
    | .items [] :: stack => some ⟨stack, .ended (.array [])⟩
    | _ => none
  else if isTokenUnit c then some ⟨stack, .word [c]⟩
  else none

/-- A value has ended. -/
def afterValue (stack : List (JsonFrame N)) (value : JsValue N) (c : Nat) : Option (JsonReader N) :=
  if isJsonSpace c then some ⟨stack, .ended value⟩
  else
    match stack with
    | [] => none
    | .items done :: stack =>
      if c = commaUnit then some ⟨.items (done ++ [value]) :: stack, .value⟩
      else if c = closeList then some ⟨stack, .ended (.array (done ++ [value]))⟩
      else none
    | .member done key :: stack =>
      if c = commaUnit then some ⟨stack, .key (done.upsert (key, value))⟩
      else if c = closeObject then some ⟨stack, .ended (.object (done.upsert (key, value)).rows)⟩
      else none

section Read

variable (numbers : NumberFormat N)

/-- One unit is read. Nothing where the text is no JSON. -/
def JsonReader.step (reader : JsonReader N) (c : Nat) : Option (JsonReader N) :=
  match reader.mode with
  | .value => beginValue reader.stack c
  | .ended value => afterValue reader.stack value c
  | .word word =>
    if isTokenUnit c then some ⟨reader.stack, .word (word ++ [c])⟩
    else (readWord numbers word).bind fun value => afterValue reader.stack value c
  | .key done =>
    if isJsonSpace c then some reader
    else if c = quoteUnit then some ⟨reader.stack, .text (.key done) []⟩
    -- after a comma there is a member, so that the object is not empty here
    else if c = closeObject ∧ done.rows.isEmpty then some ⟨reader.stack, .ended (.object [])⟩
    else none
  | .colon done key =>
    if isJsonSpace c then some reader
    else if c = colonUnit then some ⟨.member done key :: reader.stack, .value⟩
    else none
  | .text place read =>
    if c = quoteUnit then some ⟨reader.stack, place.ended read⟩
    else if c = backslash then some ⟨reader.stack, .escape place read⟩
    else if c < 32 then none
    else some ⟨reader.stack, .text place (read ++ [c])⟩
  | .escape place read =>
    if c = unicodeUnit then some ⟨reader.stack, .unicode place read []⟩
    else (readEscape c).map fun unit => ⟨reader.stack, .text place (read ++ [unit])⟩
  | .unicode place read digits =>
    (readHexUnit c).map fun digit =>
      if digits.length = 3 then
        ⟨reader.stack, .text place (read ++ [(digits ++ [digit]).foldl (16 * · + ·) 0])⟩
      else ⟨reader.stack, .unicode place read (digits ++ [digit])⟩

def JsonReader.run : JsonReader N → Utf16 → Option (JsonReader N)
  | reader, [] => some reader
  | reader, c :: text => (reader.step numbers c).bind fun reader => JsonReader.run reader text

/-- The value that the text ended with. -/
def JsonReader.finish (reader : JsonReader N) : Option (JsValue N) :=
  match reader.stack, reader.mode with
  | [], .ended value => some value
  | [], .word word => readWord numbers word
  | _, _ => none

/-- `JSON.parse(text)`. Nothing when it throws. -/
def parseJson (text : Utf16) : Option (JsValue N) :=
  (JsonReader.run numbers ⟨[], .value⟩ text).bind (JsonReader.finish numbers)

end Read

/-! ## Reading what was written -/

/-- A unit that a text in quotes holds as it is. -/
def isPlain (c : Nat) : Prop := 32 ≤ c ∧ c ≠ quoteUnit ∧ c ≠ backslash

section Lemmas

variable {numbers : NumberFormat N} {reader : JsonReader N} {stack : List (JsonFrame N)}
  {place : TextPlace N} {read text text' : Utf16} {afterHigh : Bool} {c k : Nat} {rest : Utf16}

theorem JsonReader.run_append :
    JsonReader.run numbers reader (text ++ text')
      = (JsonReader.run numbers reader text).bind fun reader =>
          JsonReader.run numbers reader text' := by
  induction text generalizing reader with
  | nil => rfl
  | cons c text ih =>
    simp only [List.cons_append, JsonReader.run, Option.bind_assoc, ih]

@[simp] theorem JsonReader.run_nil : JsonReader.run numbers reader [] = some reader := rfl

theorem JsonReader.run_cons :
    JsonReader.run numbers reader (c :: text)
      = (reader.step numbers c).bind fun reader => JsonReader.run numbers reader text := rfl

theorem step_plain (h : isPlain c) :
    JsonReader.step numbers ⟨stack, .text place read⟩ c = some ⟨stack, .text place (read ++ [c])⟩ := by
  obtain ⟨hcontrol, hquote, hbackslash⟩ := h
  simp [JsonReader.step, hquote, hbackslash, Nat.not_lt.mpr hcontrol]

/-- **A text of plain units is read as it is.** -/
theorem run_plain (h : ∀ c ∈ text, isPlain c) :
    JsonReader.run numbers ⟨stack, .text place read⟩ text
      = some ⟨stack, .text place (read ++ text)⟩ := by
  induction text generalizing read with
  | nil => simp
  | cons c text ih =>
    obtain ⟨hc, htext⟩ := List.forall_mem_cons.mp h
    simp [JsonReader.run_cons, step_plain hc, ih htext]

theorem readHexUnit_hexUnit {d : Nat} (h : d < 16) : readHexUnit (hexUnit d) = some d := by
  have hall : ∀ d < 16, readHexUnit (hexUnit d) = some d := by decide
  exact hall d h

theorem isSurrogate_of_isLone (h : isLone afterHigh c rest = true) : 0xD800 ≤ c ∧ c ≤ 0xDFFF := by
  simp only [isLone, isHighSurrogate, isLowSurrogate, Bool.or_eq_true, Bool.and_eq_true,
    decide_eq_true_eq] at h
  omega

/-- An escape is written with the digits of its unit, or with one letter. -/
theorem escapeTail_cases (h : isEscaped afterHigh c rest = true) :
    (∃ e, escapeTail c = [e] ∧ e ≠ unicodeUnit ∧ readEscape e = some c) ∨
      c < 65536 ∧ escapeTail c = [unicodeUnit, hexUnit (c / 4096), hexUnit (c / 256 % 16),
        hexUnit (c / 16 % 16), hexUnit (c % 16)] := by
  unfold escapeTail
  split_ifs with h8 h9 h10 h12 h13 hquote hbackslash
  · exact .inl ⟨98, rfl, by decide, by subst h8; rfl⟩
  · exact .inl ⟨116, rfl, by decide, by subst h9; rfl⟩
  · exact .inl ⟨110, rfl, by decide, by subst h10; rfl⟩
  · exact .inl ⟨102, rfl, by decide, by subst h12; rfl⟩
  · exact .inl ⟨114, rfl, by decide, by subst h13; rfl⟩
  · exact .inl ⟨quoteUnit, rfl, by decide, by subst hquote; rfl⟩
  · exact .inl ⟨backslash, rfl, by decide, by subst hbackslash; rfl⟩
  · refine .inr ⟨?_, rfl⟩
    simp only [isEscaped, Bool.or_eq_true, decide_eq_true_eq, beq_iff_eq] at h
    rcases h with ((hcontrol | hquote') | hbackslash') | hlone
    · omega
    · exact absurd hquote' hquote
    · exact absurd hbackslash' hbackslash
    · have := isSurrogate_of_isLone hlone
      omega

theorem step_backslash :
    JsonReader.step numbers ⟨stack, .text place read⟩ backslash = some ⟨stack, .escape place read⟩ :=
  rfl

/-- **An escape is read back.** -/
theorem run_escape (h : isEscaped afterHigh c rest = true) :
    JsonReader.run numbers ⟨stack, .text place read⟩ (backslash :: escapeTail c)
      = some ⟨stack, .text place (read ++ [c])⟩ := by
  rw [JsonReader.run_cons, step_backslash, Option.bind_some]
  rcases escapeTail_cases h with ⟨e, heq, hletter, hread⟩ | ⟨hlt, heq⟩
  · rw [heq]
    simp [JsonReader.run_cons, JsonReader.step, hletter, hread]
  · rw [heq]
    have hvalue : 16 * (16 * (16 * (c / 4096) + c / 256 % 16) + c / 16 % 16) + c % 16 = c := by omega
    simp [JsonReader.run_cons, JsonReader.step, readHexUnit_hexUnit (show c / 4096 < 16 by omega),
      readHexUnit_hexUnit (Nat.mod_lt _ (show 0 < 16 by decide)), hvalue]

/-- **An escape that is cut short is no JSON.** -/
theorem run_cut_escape (h : isEscaped afterHigh c rest = true) (hk : k < (escapeTail c).length) :
    JsonReader.run numbers ⟨stack, .text place read⟩
      (backslash :: ((escapeTail c).take k ++ openList :: text)) = none := by
  rw [JsonReader.run_cons, step_backslash, Option.bind_some]
  rcases escapeTail_cases h with ⟨e, heq, -, -⟩ | ⟨hlt, heq⟩
  · rw [heq] at hk ⊢
    obtain rfl : k = 0 := by simpa using hk
    rfl
  · rw [heq] at hk ⊢
    have hdigit := readHexUnit_hexUnit (show c / 4096 < 16 by omega)
    have hdigits (n : Nat) := readHexUnit_hexUnit (Nat.mod_lt n (show 0 < 16 by decide))
    have hbracket : readHexUnit openList = none := rfl
    have hfirst : readEscape openList = none := rfl
    match k, hk with
    | 0, _ => simp [JsonReader.run_cons, JsonReader.step, hfirst]
    | 1, _ => simp [JsonReader.run_cons, JsonReader.step, hbracket]
    | 2, _ => simp [JsonReader.run_cons, JsonReader.step, hbracket, hdigit]
    | 3, _ => simp [JsonReader.run_cons, JsonReader.step, hbracket, hdigit, hdigits]
    | 4, _ => simp [JsonReader.run_cons, JsonReader.step, hbracket, hdigit, hdigits]
    | k + 5, hk => exact absurd hk (by simp)

end Lemmas

end Mapae.Infra
