/-
Strings between quotation marks.

What is written of a text is read as the text, character by character, and where it ends is where
its closing mark stands (`string?_stringChars`): no character of the text can end it early. Nothing
that is written on one line, in strings or elsewhere, is a control character (`isPrintable_chars`),
and neither is a byte of its UTF-8 form.
-/
import Gatehouse.Json.Parser
import Gatehouse.Json.Printer
import Gatehouse.Proofs.Json.Numerals
import Gatehouse.Proofs.Text.FormReading

set_option autoImplicit false

namespace Gatehouse.Json

open Gatehouse.Number

/-! ## Reading what is written -/

/-- The code unit of a control character. -/
theorem codeUnit?_control :
    ∀ n < 32, codeUnit? '0' '0' (hexDigit (n / 16)) (hexDigit (n % 16)) = some n := by decide

/-- A short escape is read as the character that it stands for. -/
theorem stringBody?_short {e c : Char} (he : e ≠ 'u') (hescape : shortEscape? e = some c)
    (rest : List Char) :
    stringBody? ('\\' :: e :: rest) = consChar c (stringBody? rest) := by
  rw [stringBody?, hescape]
  exact fun _ _ _ _ _ heq => absurd heq he

/-- A control character is read from its code. -/
theorem stringBody?_control {c : Char} (hc : c.toNat < 32) (rest : List Char) :
    stringBody?
      ('\\' :: 'u' :: '0' :: '0' :: hexDigit (c.toNat / 16) :: hexDigit (c.toNat % 16) :: rest)
      = consChar c (stringBody? rest) := by
  have hlow : isLowSurrogate c.toNat = false := by
    rw [isLowSurrogate, Bool.and_eq_false_iff]
    exact .inl (decide_eq_false (by omega))
  have hhigh : isHighSurrogate c.toNat = false := by
    rw [isHighSurrogate, Bool.and_eq_false_iff]
    exact .inl (decide_eq_false (by omega))
  rw [stringBody?, codeUnit?_control _ hc]
  dsimp only
  rw [hlow, hhigh, if_neg Bool.false_ne_true, if_neg Bool.false_ne_true, Char.ofNat_toNat]

/-- Any other character stands for itself. -/
theorem stringBody?_plain {c : Char} (hmark : c ≠ '"') (hslash : c ≠ '\\') (hc : ¬c.toNat < 32)
    (rest : List Char) :
    stringBody? (c :: rest) = consChar c (stringBody? rest) := by
  rw [stringBody?, if_neg (not_or.2 ⟨hslash, hc⟩)]
  · exact hmark
  · exact fun _ _ _ _ _ heq => absurd heq hslash
  · exact fun _ _ heq => absurd heq hslash

/-- **How a character is written:** by a letter that stands for it, by its number, or as it is. -/
theorem escapeChar_cases (c : Char) :
    (∃ e, escapeChar c = ['\\', e] ∧ e ≠ 'u' ∧ 0x20 ≤ e.toNat ∧ shortEscape? e = some c)
      ∨ (c.toNat < 0x20
          ∧ escapeChar c = ['\\', 'u', '0', '0', hexDigit (c.toNat / 16), hexDigit (c.toNat % 16)])
      ∨ (c ≠ '"' ∧ c ≠ '\\' ∧ ¬c.toNat < 0x20 ∧ escapeChar c = [c]) := by
  unfold escapeChar
  iterate 7
    split
    · rename_i heq
      subst heq
      exact .inl ⟨_, rfl, by decide, by decide, rfl⟩
  split
  · rename_i hcontrol
    exact .inr (.inl ⟨hcontrol, rfl⟩)
  · rename_i hmark hslash _ _ _ _ _ hplain
    exact .inr (.inr ⟨hmark, hslash, hplain, rfl⟩)

/-- One character, as it is written, is read as itself. -/
theorem stringBody?_escapeChar (c : Char) (rest : List Char) :
    stringBody? (escapeChar c ++ rest) = consChar c (stringBody? rest) := by
  rcases escapeChar_cases c
    with ⟨e, hwritten, he, -, hshort⟩ | ⟨hcontrol, hwritten⟩ | ⟨hmark, hslash, hplain, hwritten⟩
  · rw [hwritten]
    exact stringBody?_short he hshort rest
  · rw [hwritten]
    exact stringBody?_control hcontrol rest
  · rw [hwritten]
    exact stringBody?_plain hmark hslash hplain rest

/-- **The escaped text is read back** up to the quotation mark behind it. -/
theorem stringBody?_flatMap (text rest : List Char) :
    stringBody? (text.flatMap escapeChar ++ '"' :: rest) = some (text, rest) := by
  induction text with
  | nil => rfl
  | cons c text ih =>
    rw [List.flatMap_cons, List.append_assoc, stringBody?_escapeChar, ih]
    rfl

/-- **A string is read as it was,** up to its closing mark and no further. -/
theorem string?_stringChars (s : String) (rest : List Char) :
    ∃ body, stringChars s ++ rest = '"' :: body ∧ string? body = some (s, rest) := by
  refine ⟨s.toList.flatMap escapeChar ++ '"' :: rest, ?_, ?_⟩
  · rw [stringChars, List.append_assoc, List.cons_append, List.singleton_append]
  · rw [string?, stringBody?_flatMap, Option.map_some, String.ofList_toList]

/-! ## No control characters -/

/-- A text without control characters. -/
def IsPrintable (text : List Char) : Prop := ∀ c ∈ text, 0x20 ≤ c.toNat

instance (text : List Char) : Decidable (IsPrintable text) := List.decidableBAll _ text

theorem IsPrintable.append {first second : List Char} (hfirst : IsPrintable first)
    (hsecond : IsPrintable second) :
    IsPrintable (first ++ second) := by
  intro c hc
  exact (List.mem_append.1 hc).elim (hfirst c) (hsecond c)

theorem IsPrintable.cons {c : Char} {text : List Char} (hc : 0x20 ≤ c.toNat)
    (htext : IsPrintable text) :
    IsPrintable (c :: text) := List.forall_mem_cons.2 ⟨hc, htext⟩

theorem isPrintable_singleton {c : Char} (hc : 0x20 ≤ c.toNat) : IsPrintable [c] :=
  List.forall_mem_singleton.2 hc

/-- Digits are no control characters. -/
theorem isPrintable_of_isDigit {text : List Char} (h : ∀ c ∈ text, c.isDigit = true) :
    IsPrintable text := by
  intro c hc
  have hle := (isDigit_iff c).1 (h c hc)
  omega

theorem isPrintable_digitChars (n : Nat) : IsPrintable (digitChars n) :=
  isPrintable_of_isDigit fun _ h => isDigit_of_mem_digitChars h

theorem hexDigit_toNat : ∀ n < 16, 0x20 ≤ (hexDigit n).toNat := by decide

/-- An escape has no control character, whatever it stands for. -/
theorem isPrintable_escapeChar (c : Char) : IsPrintable (escapeChar c) := by
  rcases escapeChar_cases c
    with ⟨e, hwritten, -, he, -⟩ | ⟨hcontrol, hwritten⟩ | ⟨-, -, hplain, hwritten⟩
  · rw [hwritten]
    exact .cons (by decide) (isPrintable_singleton he)
  · have hhigh := hexDigit_toNat (c.toNat / 16) (by omega)
    have hlow := hexDigit_toNat (c.toNat % 16) (by omega)
    rw [hwritten]
    have hmarks : IsPrintable ['\\', 'u', '0', '0'] := by decide
    exact hmarks.append (.cons hhigh (isPrintable_singleton hlow))
  · rw [hwritten]
    exact isPrintable_singleton (not_lt.1 hplain)

/-- A string that is written has no control character. -/
theorem isPrintable_stringChars (s : String) : IsPrintable (stringChars s) := by
  have hbody : IsPrintable (s.toList.flatMap escapeChar) := by
    intro c hc
    obtain ⟨written, -, hmem⟩ := List.mem_flatMap.1 hc
    exact isPrintable_escapeChar written c hmem
  exact .cons (by decide) (hbody.append (isPrintable_singleton (by decide)))

theorem isPrintable_replicate_zero (count : Nat) : IsPrintable (List.replicate count '0') := by
  intro c hc
  rw [List.eq_of_mem_replicate hc]
  decide

theorem isPrintable_pointed {digits : List Char} (h : IsPrintable digits) :
    IsPrintable (pointed digits) := by
  unfold pointed
  split
  · obtain ⟨hfirst, hmore⟩ := List.forall_mem_cons.1 h
    exact .cons hfirst (.cons (by decide) hmore)
  · exact h

/-- A decimal has no control character, whichever layout it has. -/
theorem isPrintable_decimalChars (d : Decimal) : IsPrintable (decimalChars d) := by
  have hdigits := isPrintable_digitChars d.digits
  rw [decimalChars]
  dsimp only
  generalize digitChars d.digits = digits at hdigits
  split
  · exact (hdigits.append (isPrintable_replicate_zero _)).append (by decide)
  split
  · exact IsPrintable.append (fun c hc => hdigits c (List.mem_of_mem_take hc))
      (.cons (by decide) fun c hc => hdigits c (List.mem_of_mem_drop hc))
  split
  · exact .cons (by decide) (.cons (by decide) ((isPrintable_replicate_zero _).append hdigits))
  · have hsign : ∀ power : Int, 0x20 ≤ (if power < 0 then '-' else '+').toNat := by
      intro power
      split <;> decide
    exact (isPrintable_pointed hdigits).append
      (.cons (by decide) (.cons (hsign _) (isPrintable_digitChars _)))

/-- A number has no control character. -/
theorem isPrintable_numeral (n : Numeral) : IsPrintable n.chars := by
  cases n with
  | integer value =>
    rw [Numeral.chars, integerChars]
    split
    · exact .cons (by decide) (isPrintable_digitChars _)
    · exact isPrintable_digitChars _
  | real negative mantissa exponent =>
    rw [Numeral.chars]
    refine IsPrintable.append ?_ ?_
    · split <;> decide
    · split
      · decide
      · exact isPrintable_decimalChars _

mutual

/-- **A document on one line has no control characters.** -/
theorem isPrintable_chars : (d : Json) → IsPrintable d.chars
  | .null => by decide
  | .bool true => by decide
  | .bool false => by decide
  | .number n => isPrintable_numeral n
  | .string s => isPrintable_stringChars s
  | .array [] => by decide
  | .array (item :: rest) =>
    .cons (by decide) ((isPrintable_chars item).append (isPrintable_itemsTail rest))
  | .object [] => by decide
  | .object ((name, value) :: rest) =>
    .cons (by decide)
      (((isPrintable_stringChars name).append (.cons (by decide) (isPrintable_chars value))).append
        (isPrintable_fieldsTail rest))

theorem isPrintable_itemsTail : (items : List Json) → IsPrintable (itemsTail items)
  | [] => by decide
  | item :: rest => .cons (by decide) ((isPrintable_chars item).append (isPrintable_itemsTail rest))

theorem isPrintable_fieldsTail : (fields : List (String × Json)) → IsPrintable (fieldsTail fields)
  | [] => by decide
  | (name, value) :: rest =>
    .cons (by decide)
      (((isPrintable_stringChars name).append (.cons (by decide) (isPrintable_chars value))).append
        (isPrintable_fieldsTail rest))

end

/-- The bytes of a character are control characters only if it is one. -/
theorem le_of_mem_utf8EncodeChar {c : Char} (h : 0x20 ≤ c.toNat) :
    ∀ b ∈ String.utf8EncodeChar c, 0x20 ≤ b := by
  have hbyte : ∀ n : Nat, 0x20 ≤ n → n < 0x100 → (0x20 : UInt8) ≤ UInt8.ofNat n := by
    intro n hlow hhigh
    rw [UInt8.le_iff_toNat_le, UInt8.toNat_ofNat', Nat.mod_eq_of_lt hhigh]
    exact hlow
  have hvalue : 0x20 ≤ c.val.toNat := h
  intro b hb
  unfold String.utf8EncodeChar at hb
  dsimp only at hb
  split at hb
  · rw [List.mem_singleton.1 hb]
    exact hbyte _ hvalue (by omega)
  -- in a character of several bytes each of them is one of the upper half
  split at hb
  · simp only [List.mem_cons, List.not_mem_nil, or_false] at hb
    rcases hb with rfl | rfl <;> exact hbyte _ (by omega) (by omega)
  split at hb
  · simp only [List.mem_cons, List.not_mem_nil, or_false] at hb
    rcases hb with rfl | rfl | rfl <;> exact hbyte _ (by omega) (by omega)
  · simp only [List.mem_cons, List.not_mem_nil, or_false] at hb
    rcases hb with rfl | rfl | rfl | rfl <;> exact hbyte _ (by omega) (by omega)

/-- **The bytes of a document on one line** are no control characters either. -/
theorem le_of_mem_ofString_render (d : Json) : ∀ b ∈ Bytes.ofString d.render, 0x20 ≤ b := by
  intro b hb
  have hbytes : Bytes.ofString d.render = d.chars.flatMap String.utf8EncodeChar := by
    rw [render, Bytes.ofString, String.toUTF8_eq_toByteArray, String.toByteArray_ofList]
    exact List.toList_data_toByteArray
  rw [hbytes] at hb
  obtain ⟨c, hc, hmem⟩ := List.mem_flatMap.1 hb
  exact le_of_mem_utf8EncodeChar (isPrintable_chars d c hc) b hmem

end Gatehouse.Json
