import Mapae.Infra.Hex
import Mapae.Infra.Json
import Mapae.Store.Values

/-!
# Tickets

The code that is shown at pickup is 80 random bits in 16 characters. The loop of `mintTicket` shifts the
bytes into a signed accumulator of 32 bits that it never clears, and takes five bits at a time from it.

* `drain` and `mintByte` are the two loops, `ticketKey` is the check of a code
* `Minted` is the invariant of the loops: the low bits of the accumulator are right, and the characters
  spell the bits above those that are left
* `ticket_codes`: no bit of a draw is lost, and none is made up. The accumulator overflows after the fourth
  byte, but what is taken from it is always among its lowest bits
-/

namespace Mapae.Store

open Mapae.Infra

/-! ## The codes -/

/-- `TICKET_ALPHABET`: no I, L, O or U. -/
def TICKET_ALPHABET : List Char := "0123456789abcdefghjkmnpqrstvwxyz".toList

def TICKET_BYTES : Nat := 10

/-- `out += TICKET_ALPHABET[index]`. -/
def letter (index : Nat) : List Char :=
  match TICKET_ALPHABET[index]? with
  | some c => [c]
  | none => "undefined".toList

structure MintState where
  bits : Nat
  buffered : BitVec 32
  out : List Char

/-- `while (bits >= 5)`: `>>` fills with the sign, and takes its count modulo 32. -/
def drain (s : MintState) : MintState :=
  if 5 ≤ s.bits then
    drain { s with
      bits := s.bits - 5
      out := s.out ++ letter ((s.buffered.sshiftRight ((s.bits - 5) % 32)) &&& 31).toNat }
  else s
termination_by s.bits

/-- A byte goes through the accumulator. -/
def mintByte (s : MintState) (byte : UInt8) : MintState :=
  drain { s with bits := s.bits + 8, buffered := (s.buffered <<< 8) ||| BitVec.ofNat 32 byte.toNat }

/-- `mintTicket`, of the bytes that were drawn. -/
def mintTicket (bytes : List UInt8) : String :=
  String.ofList (bytes.foldl mintByte ⟨0, 0, []⟩).out

/-- `[0-9a-hjkmnp-tv-z]`. -/
def isTicketChar (c : Char) : Bool :=
  ('0' ≤ c ∧ c ≤ '9') ∨ ('a' ≤ c ∧ c ≤ 'h') ∨ c = 'j' ∨ c = 'k' ∨ c = 'm' ∨ c = 'n' ∨ ('p' ≤ c ∧ c ≤ 't') ∨
    ('v' ≤ c ∧ c ≤ 'z')

/-- `ticketKey`, of a value of which nothing is known. -/
def ticketKey (value : Json) : Except StoreError String :=
  match value with
  | .string code =>
    if code.toList.length = 16 ∧ code.toList.all isTicketChar then .ok code
    else .error (.typeError "ticket must be 16 lowercase Crockford base32 characters")
  | _ => .error (.typeError "ticket must be 16 lowercase Crockford base32 characters")

theorem ticketKey_eq_ok {value : Json} {code : String} : ticketKey value = .ok code ↔
    value = .string code ∧ code.toList.length = 16 ∧ ∀ c ∈ code.toList, isTicketChar c = true := by
  constructor
  · intro h
    unfold ticketKey at h
    split at h
    · split at h
      · next hcode =>
        cases h
        exact ⟨rfl, hcode.1, List.all_eq_true.mp hcode.2⟩
      · cases h
    · cases h
  · rintro ⟨rfl, hlength, hall⟩
    exact if_pos ⟨hlength, List.all_eq_true.mpr hall⟩

/-! ## The alphabet -/

/-- The character of a digit. -/
def digitLetter (d : Nat) : Char := TICKET_ALPHABET.getD d '0'

theorem letter_eq {d : Nat} (h : d < 32) : letter d = [digitLetter d] := by
  have hall : ∀ d ∈ List.range 32, letter d = [digitLetter d] := by decide
  exact hall d (List.mem_range.mpr h)

/-- The digit of a character. -/
def letterDigit (c : Char) : Nat := TICKET_ALPHABET.idxOf c

theorem letterDigit_digitLetter {d : Nat} (h : d < 32) : letterDigit (digitLetter d) = d := by
  have hall : ∀ d ∈ List.range 32, letterDigit (digitLetter d) = d := by decide
  exact hall d (List.mem_range.mpr h)

theorem isTicketChar_digitLetter {d : Nat} (h : d < 32) : isTicketChar (digitLetter d) = true := by
  have hall : ∀ d ∈ List.range 32, isTicketChar (digitLetter d) = true := by decide
  exact hall d (List.mem_range.mpr h)

/-- **Every character that is accepted** is that of its digit. -/
theorem digitLetter_letterDigit {c : Char} (h : isTicketChar c = true) :
    letterDigit c < 32 ∧ digitLetter (letterDigit c) = c := by
  have hascii : c.toNat < 128 := by
    have hle : ∀ hi : Char, c ≤ hi → c.toNat ≤ hi.toNat := fun hi hc => hc
    rcases of_decide_eq_true h with h | h | rfl | rfl | rfl | rfl | h | h
    · exact (hle '9' h.2).trans_lt (by decide)
    · exact (hle 'h' h.2).trans_lt (by decide)
    · decide
    · decide
    · decide
    · decide
    · exact (hle 't' h.2).trans_lt (by decide)
    · exact (hle 'z' h.2).trans_lt (by decide)
  have hall : ∀ n ∈ List.range 128, isTicketChar (Char.ofNat n) = true →
      letterDigit (Char.ofNat n) < 32 ∧ digitLetter (letterDigit (Char.ofNat n)) = Char.ofNat n := by
    decide +kernel
  have hchar := hall c.toNat (List.mem_range.mpr hascii)
  rw [Char.ofNat_toNat] at hchar
  exact hchar h

/-! ## The accumulator -/

/-- **Five bits of the low 32** are read right, whatever the sign has filled in above. -/
theorem toNat_sshiftRight_and {n k : Nat} (hk : k + 5 ≤ 32) :
    (((BitVec.ofNat 32 n).sshiftRight k) &&& 31).toNat = n / 2 ^ k % 32 := by
  have hmask : (31 : BitVec 32) = BitVec.ofNat 32 (2 ^ 5 - 1) := rfl
  have hwindow : ∀ i, (n / 2 ^ k % 2 ^ 5).testBit i = (decide (i < 5) && n.testBit (k + i)) := by
    intro i
    rw [Nat.testBit_mod_two_pow, Nat.testBit_div_two_pow, Nat.add_comm i k]
  apply Nat.eq_of_testBit_eq
  intro i
  rw [BitVec.testBit_toNat, hmask, BitVec.getLsbD_and, BitVec.getLsbD_sshiftRight, BitVec.getLsbD_ofNat,
    BitVec.getLsbD_ofNat, Nat.testBit_two_pow_sub_one]
  refine Eq.trans ?_ (hwindow i).symm
  by_cases hi : i < 5
  · have hin : k + i < 32 := by omega
    have hlow : i < 32 := by omega
    have hnot : ¬ 32 ≤ i := by omega
    simp [hi, hin, hlow, hnot]
  · simp [hi]

/-- A byte is shifted in. -/
theorem shiftLeft_or_ofNat (n : Nat) (byte : UInt8) :
    (BitVec.ofNat 32 n <<< 8) ||| BitVec.ofNat 32 byte.toNat = BitVec.ofNat 32 (256 * n + byte.toNat) := by
  have hbyte : byte.toNat < 2 ^ 8 := byte.toNat_lt
  refine BitVec.eq_of_getLsbD_eq fun i hi => ?_
  have hsum : (256 * n + byte.toNat).testBit i = if i < 8 then byte.toNat.testBit i else n.testBit (i - 8) :=
    Nat.testBit_two_pow_mul_add n hbyte i
  rw [BitVec.getLsbD_or, BitVec.getLsbD_shiftLeft, BitVec.getLsbD_ofNat, BitVec.getLsbD_ofNat,
    BitVec.getLsbD_ofNat, hsum]
  by_cases hlow : i < 8
  · simp [hlow]
  · have hhigh : byte.toNat.testBit i = false :=
      Nat.testBit_lt_two_pow (hbyte.trans_le (Nat.pow_le_pow_right (by omega) (by omega)))
    have hin : i - 8 < 32 := by omega
    simp [hlow, hhigh, hi, hin]

/-! ## What the loops keep -/

/-- The bits that were read are `value`, `total` of them: its low 32 are in the accumulator, and all but the
last `bits` are spelled. -/
structure Minted (value total : Nat) (s : MintState) (digits : List Nat) : Prop where
  buffered : s.buffered = BitVec.ofNat 32 value
  out : s.out = digits.map digitLetter
  digits_lt : ∀ d ∈ digits, d < 32
  spelled : ofBigEndian 32 digits = value / 2 ^ s.bits
  total : 5 * digits.length + s.bits = total

section Loops

variable {value total : Nat} {digits : List Nat}

/-- Five bits are taken. -/
theorem Minted.take {s : MintState} (h : Minted value total s digits) (hfive : 5 ≤ s.bits) (hbits : s.bits ≤ 32) :
    Minted value total
      { s with
        bits := s.bits - 5
        out := s.out ++ letter ((s.buffered.sshiftRight ((s.bits - 5) % 32)) &&& 31).toNat }
      (digits ++ [value / 2 ^ (s.bits - 5) % 32]) := by
  have hdigit : value / 2 ^ (s.bits - 5) % 32 < 32 := Nat.mod_lt _ (by decide)
  have hread : ((s.buffered.sshiftRight ((s.bits - 5) % 32)) &&& 31).toNat = value / 2 ^ (s.bits - 5) % 32 := by
    rw [h.buffered, Nat.mod_eq_of_lt (show s.bits - 5 < 32 by omega)]
    exact toNat_sshiftRight_and (by omega)
  have hshift : value / 2 ^ s.bits = value / 2 ^ (s.bits - 5) / 32 := by
    have hpow : 2 ^ (s.bits - 5) * 2 ^ 5 = 2 ^ s.bits := by
      rw [← Nat.pow_add, Nat.sub_add_cancel hfive]
    rw [← hpow, ← Nat.div_div_eq_div_mul]
    rfl
  constructor
  case buffered => exact h.buffered
  case out =>
    rw [hread, letter_eq hdigit, h.out, List.map_append, List.map_singleton]
  case digits_lt =>
    intro d hd
    rcases List.mem_append.mp hd with hd | hd
    · exact h.digits_lt d hd
    · rwa [List.mem_singleton.mp hd]
  case spelled =>
    rw [ofBigEndian_concat, h.spelled, hshift]
    exact Nat.div_add_mod _ 32
  case total =>
    have htotal := h.total
    rw [List.length_append, List.length_singleton]
    show 5 * (digits.length + 1) + (s.bits - 5) = total
    omega

/-- **The inner loop** takes all it can, and reads each bit right. -/
theorem Minted.drain {s : MintState} (h : Minted value total s digits) (hbits : s.bits ≤ 32) :
    ∃ digits, Minted value total (drain s) digits ∧ (Store.drain s).bits < 5 := by
  induction s using drain.induct generalizing digits with
  | case1 s hfive ih =>
    rw [Store.drain, if_pos hfive]
    exact ih (h.take hfive hbits) (show s.bits - 5 ≤ 32 by omega)
  | case2 s hfew =>
    rw [Store.drain, if_neg hfew]
    exact ⟨digits, h, Nat.lt_of_not_le hfew⟩

/-- A byte is spelled, but for what is left of it. -/
theorem Minted.mintByte {s : MintState} (h : Minted value total s digits) (hbits : s.bits < 5) (byte : UInt8) :
    ∃ digits, Minted (256 * value + byte.toNat) (total + 8) (mintByte s byte) digits ∧
      (Store.mintByte s byte).bits < 5 := by
  have hbyte : byte.toNat < 256 := byte.toNat_lt
  have hin : Minted (256 * value + byte.toNat) (total + 8)
      { s with bits := s.bits + 8, buffered := (s.buffered <<< 8) ||| BitVec.ofNat 32 byte.toNat } digits := by
    constructor
    case buffered =>
      rw [h.buffered]
      exact shiftLeft_or_ofNat value byte
    case out => exact h.out
    case digits_lt => exact h.digits_lt
    case spelled =>
      have hlow : (256 * value + byte.toNat) / 2 ^ 8 = value := by omega
      rw [h.spelled, Nat.add_comm s.bits 8, Nat.pow_add, ← Nat.div_div_eq_div_mul, hlow]
    case total =>
      have htotal := h.total
      show 5 * digits.length + (s.bits + 8) = total + 8
      omega
  exact hin.drain (show s.bits + 8 ≤ 32 by omega)

/-- The number of the bits that were drawn. -/
def drawn (bytes : List UInt8) : Nat := ofBigEndian 256 (bytes.map UInt8.toNat)

/-- **All bytes**: nothing but the last few bits is left to spell. -/
theorem minted_foldl (bytes : List UInt8) :
    ∃ digits, Minted (drawn bytes) (8 * bytes.length) (bytes.foldl mintByte ⟨0, 0, []⟩) digits ∧
      (bytes.foldl mintByte ⟨0, 0, []⟩).bits < 5 := by
  induction bytes using List.reverseRecOn with
  | nil => exact ⟨[], ⟨rfl, rfl, fun _ hd => (List.not_mem_nil hd).elim, rfl, rfl⟩, by decide⟩
  | append_singleton bytes byte ih =>
    obtain ⟨digits, hminted, hbits⟩ := ih
    have hdrawn : drawn (bytes ++ [byte]) = 256 * drawn bytes + byte.toNat := by
      rw [drawn, List.map_append, List.map_singleton, ofBigEndian_concat, drawn]
    have hlength : 8 * (bytes ++ [byte]).length = 8 * bytes.length + 8 := by
      rw [List.length_append, List.length_singleton]
      omega
    rw [List.foldl_append, List.foldl_cons, List.foldl_nil, hdrawn, hlength]
    exact hminted.mintByte hbits byte

/-! ## The code of ten bytes -/

/-- A number of 80 bits under the alphabet. -/
def ticketOf (value : Nat) : String := String.ofList ((bigEndian 32 16 value).map digitLetter)

variable {bytes : List UInt8}

theorem map_toNat_lt (bytes : List UInt8) : ∀ d ∈ bytes.map UInt8.toNat, d < 256 := by
  intro d hd
  obtain ⟨byte, -, rfl⟩ := List.mem_map.mp hd
  exact byte.toNat_lt

theorem drawn_lt (bytes : List UInt8) : drawn bytes < 256 ^ bytes.length := by
  rw [← List.length_map UInt8.toNat]
  exact ofBigEndian_lt (by decide) (map_toNat_lt bytes)

/-- **The code** is the 80 bits in base 32. -/
theorem mintTicket_eq (h : bytes.length = TICKET_BYTES) : mintTicket bytes = ticketOf (drawn bytes) := by
  obtain ⟨digits, hminted, hbits⟩ := minted_foldl bytes
  have htotal := hminted.total
  have hspelled := hminted.spelled
  rw [h] at htotal
  unfold TICKET_BYTES at htotal
  have hnone : (bytes.foldl mintByte ⟨0, 0, []⟩).bits = 0 := by omega
  have hlength : digits.length = 16 := by omega
  rw [hnone, Nat.pow_zero, Nat.div_one] at hspelled
  rw [mintTicket, hminted.out, ticketOf, ← hspelled, ← hlength, bigEndian_ofBigEndian (by decide) hminted.digits_lt]

/-- Codes of different numbers differ. -/
theorem ticketOf_inj {left right : Nat} (hleft : left < 32 ^ 16) (hright : right < 32 ^ 16)
    (h : ticketOf left = ticketOf right) : left = right := by
  have hread : ∀ value, ((bigEndian 32 16 value).map digitLetter).map letterDigit = bigEndian 32 16 value := by
    intro value
    rw [List.map_map]
    refine (List.map_congr_left ?_).trans (List.map_id _)
    intro d hd
    exact letterDigit_digitLetter (lt_of_mem_bigEndian (by decide) hd)
  have hdigits : bigEndian 32 16 left = bigEndian 32 16 right := by
    rw [← hread left, String.ofList_injective h, hread right]
  rw [← ofBigEndian_bigEndian (by decide) hleft, hdigits, ofBigEndian_bigEndian (by decide) hright]

/-- The bytes of a number. -/
def bytesOf (value : Nat) : List UInt8 := (bigEndian 256 TICKET_BYTES value).map UInt8.ofNat

theorem map_bytesOf (value : Nat) : (bytesOf value).map UInt8.toNat = bigEndian 256 TICKET_BYTES value := by
  rw [bytesOf, List.map_map]
  refine (List.map_congr_left ?_).trans (List.map_id _)
  intro d hd
  exact UInt8.toNat_ofNat_of_lt' (lt_of_mem_bigEndian (by decide) hd)

theorem drawn_bytesOf {value : Nat} (h : value < 256 ^ TICKET_BYTES) : drawn (bytesOf value) = value := by
  rw [drawn, map_bytesOf, ofBigEndian_bigEndian (by decide) h]

theorem length_bytesOf {value : Nat} (h : value < 256 ^ TICKET_BYTES) : (bytesOf value).length = TICKET_BYTES := by
  rw [bytesOf, List.length_map, length_bigEndian (by decide) h]

/-- **A code that is accepted** is that of a number. -/
theorem exists_ticketOf {code : String} (hlength : code.toList.length = 16)
    (hchars : ∀ c ∈ code.toList, isTicketChar c = true) : ∃ value < 32 ^ 16, ticketOf value = code := by
  have hdigits : ∀ d ∈ code.toList.map letterDigit, d < 32 := by
    intro d hd
    obtain ⟨c, hc, rfl⟩ := List.mem_map.mp hd
    exact (digitLetter_letterDigit (hchars c hc)).1
  have hspelled : (code.toList.map letterDigit).map digitLetter = code.toList := by
    rw [List.map_map]
    exact (List.map_congr_left fun c hc => (digitLetter_letterDigit (hchars c hc)).2).trans (List.map_id _)
  have hsixteen : (code.toList.map letterDigit).length = 16 := by
    rw [List.length_map, hlength]
  have hlt := ofBigEndian_lt (by decide) hdigits
  rw [hsixteen] at hlt
  refine ⟨ofBigEndian 32 (code.toList.map letterDigit), hlt, ?_⟩
  have hback := bigEndian_ofBigEndian (by decide) hdigits
  rw [hsixteen] at hback
  rw [ticketOf, hback, hspelled, String.ofList_toList]

end Loops

/-! ## Ticket codes -/

/-- What `randomBytes(TICKET_BYTES)` gives. -/
abbrev Draw := { bytes : List UInt8 // bytes.length = TICKET_BYTES }

/-- The 80 bits of a draw. -/
def Draw.value (draw : Draw) : Nat := drawn draw.1

theorem Draw.value_lt (draw : Draw) : draw.value < 32 ^ 16 := by
  have hlt := drawn_lt draw.1
  rw [draw.2] at hlt
  exact hlt.trans_eq (by decide)

/-- The draw of a number. -/
theorem exists_value {value : Nat} (h : value < 32 ^ 16) : ∃ draw : Draw, draw.value = value := by
  have hbytes : value < 256 ^ TICKET_BYTES := h.trans_eq (by decide)
  exact ⟨⟨bytesOf value, length_bytesOf hbytes⟩, drawn_bytesOf hbytes⟩

/-- Draws of one number are one draw. -/
theorem Draw.value_inj {left right : Draw} (h : left.value = right.value) : left = right := by
  have hlength : (left.1.map UInt8.toNat).length = (right.1.map UInt8.toNat).length := by
    rw [List.length_map, List.length_map, left.2, right.2]
  have hmap := ofBigEndian_inj (by decide) hlength (map_toNat_lt left.1) (map_toNat_lt right.1) h
  exact Subtype.ext ((List.map_inj_right fun _ _ => UInt8.toNat_inj.mp).mp hmap)

/-- The code of a draw has the form that is checked. -/
theorem ticketKey_mintTicket (draw : Draw) :
    ticketKey (.string (mintTicket draw.1)) = .ok (mintTicket draw.1) ∧ (mintTicket draw.1).toList.length = 16 := by
  have hlist : (mintTicket draw.1).toList = (bigEndian 32 16 draw.value).map digitLetter := by
    rw [mintTicket_eq draw.2]
    exact String.toList_ofList
  have hlength : (mintTicket draw.1).toList.length = 16 := by
    rw [hlist, List.length_map, length_bigEndian (by decide) draw.value_lt]
  refine ⟨ticketKey_eq_ok.mpr ⟨rfl, hlength, ?_⟩, hlength⟩
  intro c hc
  rw [hlist] at hc
  obtain ⟨d, hd, rfl⟩ := List.mem_map.mp hc
  exact isTicketChar_digitLetter (lt_of_mem_bigEndian (by decide) hd)

/-- **Ticket codes lose no bit.** The code of ten bytes has sixteen characters, is accepted, and is the number
of the bytes in base 32, the highest digit first. Codes of different bytes differ, and what is accepted is
the code of some bytes. -/
theorem ticket_codes :
    (∀ draw : Draw, (mintTicket draw.1).toList.length = 16 ∧
      ticketKey (.string (mintTicket draw.1)) = .ok (mintTicket draw.1) ∧
      (mintTicket draw.1).toList =
        (bigEndian 32 16 (ofBigEndian 256 (draw.1.map UInt8.toNat))).map (TICKET_ALPHABET.getD · '0')) ∧
    (Function.Injective fun draw : Draw => mintTicket draw.1) ∧
    ∀ value code, ticketKey value = .ok code ↔ value = .string code ∧ ∃ draw : Draw, mintTicket draw.1 = code := by
  refine ⟨fun draw => ?_, fun left right h => ?_, fun value code => ?_⟩
  · obtain ⟨hkey, hlength⟩ := ticketKey_mintTicket draw
    refine ⟨hlength, hkey, ?_⟩
    rw [mintTicket_eq draw.2]
    exact String.toList_ofList
  · have hcode : ticketOf left.value = ticketOf right.value := by
      have h' : mintTicket left.1 = mintTicket right.1 := h
      rwa [mintTicket_eq left.2, mintTicket_eq right.2] at h'
    exact Draw.value_inj (ticketOf_inj left.value_lt right.value_lt hcode)
  · constructor
    · intro h
      obtain ⟨hvalue, hlength, hchars⟩ := ticketKey_eq_ok.mp h
      obtain ⟨number, hnumber, hcode⟩ := exists_ticketOf hlength hchars
      obtain ⟨draw, rfl⟩ := exists_value hnumber
      exact ⟨hvalue, draw, (mintTicket_eq draw.2).trans hcode⟩
    · rintro ⟨rfl, draw, rfl⟩
      exact (ticketKey_mintTicket draw).1

end Mapae.Store
