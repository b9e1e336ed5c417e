/-
What is written for a query is read as what it was.

A text is written byte by byte, and one step of reading gives one byte back, whatever comes after
it: a percent sign comes with its two digits, and a plus sign stands for a space only. So every text
is read back from its written form (`decode_encode`). What is written has no separators either, so
it can stand for a value in a query of several pairs, and a query is read pair by pair
(`pairs_intercalate`).
-/
import Gatehouse.Text.FormEncoding
import Mathlib

set_option autoImplicit false

namespace Gatehouse

/-! ## Texts and their bytes -/

namespace Bytes

theorem toString?_ofString (s : String) : toString? (ofString s) = some s :=
  dif_pos s.isValidUTF8

/-- Text that has been encoded is read without a loss. -/
theorem lossy_ofString (s : String) : lossy (ofString s) = s := by
  rw [lossy, toString?_ofString, Option.getD_some]

/-- One byte for each character of a text. -/
def ofAscii (text : List Char) : Bytes := text.map fun c => UInt8.ofNat c.toNat

/-- A text of ASCII characters has these bytes. -/
theorem ofString_ofList {text : List Char} (h : ∀ c ∈ text, c.toNat < 0x80) :
    ofString (String.ofList text) = ofAscii text := by
  have hbytes : ofString (String.ofList text) = text.flatMap String.utf8EncodeChar := by
    rw [ofString, String.toUTF8_eq_toByteArray, String.toByteArray_ofList]
    exact List.toList_data_toByteArray
  have hone : ∀ c ∈ text, String.utf8EncodeChar c = [UInt8.ofNat c.toNat] := fun c hc =>
    if_pos (Nat.le_of_lt_succ (h c hc))
  rw [hbytes, List.flatMap_congr hone, ofAscii, List.map_eq_flatMap]

end Bytes

namespace FormEncoding

open Bytes

/-! ## One byte -/

theorem percentDecode_cons {b : UInt8} (h : b ≠ 0x25) (rest : Bytes) :
    percentDecode (b :: rest) = b :: percentDecode rest := by
  match rest with
  | [] => rfl
  | [_] => rfl
  | _ :: _ :: _ => rw [percentDecode, if_neg h]

/-- Two digits behind a percent sign are a byte. -/
theorem percentDecode_percent {high low : UInt8} {h l : Nat} (hhigh : digitOf? high = some h)
    (hlow : digitOf? low = some l) (rest : Bytes) :
    percentDecode (0x25 :: high :: low :: rest)
      = UInt8.ofNat (h * 16 + l) :: percentDecode rest := by
  rw [percentDecode, if_pos rfl, hhigh, hlow]

/-- The byte of a digit as it is written. -/
def digitByte (n : Nat) : UInt8 := UInt8.ofNat (hexDigit n).toUpper.toNat

theorem digitOf?_digitByte : ∀ n < 16, digitOf? (digitByte n) = some n := by
  decide

theorem digitByte_ne_plus : ∀ n < 16, digitByte n ≠ 0x2B := by
  decide

/-- A byte that stands for itself is none of the signs that stand for something else. -/
theorem byte_of_isPlain {b : UInt8} (h : isPlain b = true) :
    UInt8.ofNat (Char.ofNat b.toNat).toNat = b ∧ b ≠ 0x25 ∧ b ≠ 0x2B := by
  revert b
  decide +kernel

/-- **What is written for one byte** is read as that byte, whatever comes after it. -/
theorem percentDecode_encodeByte (b : UInt8) (rest : Bytes) :
    percentDecode (plusToSpace (ofAscii (encodeByte b)) ++ rest) = b :: percentDecode rest := by
  unfold encodeByte
  split
  · rename_i hplain
    obtain ⟨hbyte, hpercent, hplus⟩ := byte_of_isPlain hplain
    have hself : plusToSpace (ofAscii [Char.ofNat b.toNat]) = [b] := by
      rw [ofAscii, List.map_singleton, hbyte, plusToSpace, List.map_singleton, if_neg hplus]
    rw [hself, List.singleton_append, percentDecode_cons hpercent]
  · split
    · rename_i hspace
      rw [hspace]
      exact percentDecode_cons (by decide) rest
    · have hhigh : b.toNat / 16 < 16 := Nat.div_lt_of_lt_mul b.toNat_lt
      have hlow : b.toNat % 16 < 16 := Nat.mod_lt _ (by decide)
      have hself : plusToSpace [0x25, digitByte (b.toNat / 16), digitByte (b.toNat % 16)]
          = [0x25, digitByte (b.toNat / 16), digitByte (b.toNat % 16)] := by
        rw [plusToSpace, List.map_cons, List.map_cons, List.map_singleton, if_neg (by decide),
          if_neg (digitByte_ne_plus _ hhigh), if_neg (digitByte_ne_plus _ hlow)]
      have hvalue : UInt8.ofNat (b.toNat / 16 * 16 + b.toNat % 16) = b := by
        rw [Nat.div_add_mod', UInt8.ofNat_toNat]
      change percentDecode (plusToSpace [0x25, digitByte _, digitByte _] ++ rest) = _
      rw [hself]
      change percentDecode (0x25 :: digitByte _ :: digitByte _ :: rest) = _
      rw [percentDecode_percent (digitOf?_digitByte _ hhigh) (digitOf?_digitByte _ hlow), hvalue]

/-! ## Texts -/

theorem percentDecode_flatMap_encodeByte (bytes : Bytes) :
    percentDecode (plusToSpace (ofAscii (bytes.flatMap encodeByte))) = bytes := by
  induction bytes with
  | nil => rfl
  | cons b rest ih =>
    have hcons : plusToSpace (ofAscii ((b :: rest).flatMap encodeByte))
        = plusToSpace (ofAscii (encodeByte b))
          ++ plusToSpace (ofAscii (rest.flatMap encodeByte)) := by
      rw [List.flatMap_cons, ofAscii, List.map_append, plusToSpace, List.map_append]
      rfl
    rw [hcons, percentDecode_encodeByte, ih]

/-- What is written for a byte is ASCII, and separates nothing. -/
theorem encodeByte_chars (b : UInt8) :
    (encodeByte b).all (fun c => decide (c.toNat < 0x80 ∧ c ≠ '&' ∧ c ≠ '=' ∧ c ≠ '#')) = true := by
  revert b
  decide +kernel

theorem encode_chars (s : String) :
    ∀ c ∈ (encode s).toList, c.toNat < 0x80 ∧ c ≠ '&' ∧ c ≠ '=' ∧ c ≠ '#' := by
  intro c hc
  rw [encode, String.toList_ofList] at hc
  obtain ⟨b, -, hb⟩ := List.mem_flatMap.1 hc
  exact of_decide_eq_true (List.all_eq_true.1 (encodeByte_chars b) c hb)

/-- **Every text is read back from its written form.** -/
theorem decode_encode (s : String) : decode (encode s) = s := by
  have hascii : ∀ c ∈ (ofString s).flatMap encodeByte, c.toNat < 0x80 := by
    intro c hc
    exact (encode_chars s c (by rwa [encode, String.toList_ofList])).1
  rw [decode, encode, ofString_ofList hascii, percentDecode_flatMap_encodeByte, lossy_ofString]

/-! ## Queries -/

/-- What one piece of a query says: a name, and a value after the first equals sign. -/
def readPair (piece : List Char) : String × String :=
  (decode (String.ofList (piece.takeWhile (· ≠ '='))),
    decode (String.ofList (piece.dropWhile (· ≠ '=')).tail))

/-- **The names and values that a query says,** in their order. A piece without any
text says nothing. -/
def pairs (query : List Char) : List (String × String) :=
  ((query.splitOn '&').filter fun piece => !piece.isEmpty).map readPair

/-- **Pairs are read back** from their pieces, the empty ones left out. -/
theorem pairs_intercalate {pieces : List (List Char)} (h : ∀ piece ∈ pieces, '&' ∉ piece)
    (hne : pieces ≠ []) :
    pairs (List.intercalate ['&'] pieces)
      = (pieces.filter fun piece => !piece.isEmpty).map readPair := by
  rw [pairs, List.splitOn_intercalate '&' h hne]

/-- A pair is cut at the first equals sign. -/
theorem readPair_value {name : List Char} (hname : '=' ∉ name) (value : List Char) :
    readPair (name ++ '=' :: value)
      = (decode (String.ofList name), decode (String.ofList value)) := by
  have hall : ∀ c ∈ name, decide (c ≠ '=') = true := fun c hc =>
    decide_eq_true fun heq => hname (heq ▸ hc)
  rw [readPair, List.takeWhile_append_of_pos hall, List.dropWhile_append_of_pos hall]
  simp

end FormEncoding
end Gatehouse
