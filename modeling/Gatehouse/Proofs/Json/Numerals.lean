/-
A number that is written is read again.

An integer is read as it was (`numeral?_integer`). A double is written as a decimal that may be read
as a neighbour of it, but never as nothing, which takes some care at the largest doubles: two
roundings up reach the limit from a few steps below it (`numeral?_real`). Nothing behind a number
has a part in that, as long as no number can go on there.
-/
import Gatehouse.Json.Printer
import Gatehouse.Proofs.Json.Doubles
import Gatehouse.Proofs.Number.Shortest

set_option autoImplicit false

namespace Gatehouse.Json

open Gatehouse.Number

/-! ## Digits -/

/-- The value of a decimal digit. -/
def digitOf (c : Char) : Nat := c.toNat - 48

theorem isDigit_iff (c : Char) : c.isDigit = true ↔ 48 ≤ c.toNat ∧ c.toNat ≤ 57 := by
  rw [Char.isDigit, Bool.and_eq_true, decide_eq_true_eq, decide_eq_true_eq, ge_iff_le,
    UInt32.le_iff_toNat_le, UInt32.le_iff_toNat_le]
  rfl

theorem digitValue?_ten (c : Char) :
    digitValue? 10 c = if c.isDigit then some (digitOf c) else none := by
  rw [digitValue?]
  split
  · rename_i hdigit
    have hle := (isDigit_iff c).1 hdigit
    exact if_pos (by omega)
  · split
    · rename_i hletter
      have hle : 97 ≤ c.toNat := hletter.1
      exact if_neg (by omega)
    · split
      · rename_i hletter
        have hle : 65 ≤ c.toNat := hletter.1
        exact if_neg (by omega)
      · rfl

/-- No number goes on in a text. -/
def NoDigit (rest : List Char) : Prop := ∀ c ∈ rest.head?, c.isDigit = false

/-- The digits in front of a text in which no number goes on. -/
theorem spanDigits_append {digits rest : List Char} (h : ∀ c ∈ digits, c.isDigit = true)
    (hrest : NoDigit rest) :
    spanDigits (digits ++ rest) = (digits.map digitOf, rest) := by
  induction digits with
  | nil =>
    cases rest with
    | nil => rfl
    | cons c rest =>
      have hnone : digitValue? 10 c = none := by
        rw [digitValue?_ten, hrest c rfl, if_neg Bool.false_ne_true]
      rw [List.nil_append, spanDigits, hnone]
      rfl
  | cons c digits ih =>
    obtain ⟨hc, hdigits⟩ := List.forall_mem_cons.1 h
    have hsome : digitValue? 10 c = some (digitOf c) := by rw [digitValue?_ten, if_pos hc]
    rw [List.cons_append, spanDigits, hsome, ih hdigits]
    rfl

theorem isDigit_of_mem_digitChars {n : Nat} {c : Char} (h : c ∈ digitChars n) : c.isDigit = true :=
  Nat.isDigit_of_mem_toDigits (by decide) (by decide) h

/-- The number that some digits continue. -/
def continued (start : Nat) (ds : List Nat) : Nat := ds.foldl (fun n d => n * 10 + d) start

theorem continued_digitChars (n : Nat) : continued 0 ((digitChars n).map digitOf) = n := by
  rw [continued, List.foldl_map]
  simp only [Nat.mul_comm _ 10]
  exact Nat.ofDigitChars_ten_toDigits

theorem le_continued (start : Nat) (ds : List Nat) :
    start * 10 ^ ds.length ≤ continued start ds := by
  induction ds generalizing start with
  | nil => exact (Nat.mul_one start).le
  | cons d ds ih =>
    calc start * 10 ^ (d :: ds).length = start * 10 * 10 ^ ds.length := by
          rw [List.length_cons, Nat.pow_succ']; ring
        _ ≤ (start * 10 + d) * 10 ^ ds.length := Nat.mul_le_mul_right _ (Nat.le_add_right _ _)
        _ ≤ continued start (d :: ds) := ih (start * 10 + d)

theorem continued_lt (start : Nat) {ds : List Nat} (h : ∀ d ∈ ds, d < 10) :
    continued start ds < (start + 1) * 10 ^ ds.length := by
  induction ds generalizing start with
  | nil => exact (Nat.lt_succ_self start).trans_eq (Nat.mul_one _).symm
  | cons d ds ih =>
    obtain ⟨hd, hds⟩ := List.forall_mem_cons.1 h
    calc continued start (d :: ds) < (start * 10 + d + 1) * 10 ^ ds.length :=
          ih (start * 10 + d) hds
        _ ≤ (start + 1) * 10 * 10 ^ ds.length := Nat.mul_le_mul_right _ (by omega)
        _ = (start + 1) * 10 ^ (d :: ds).length := by rw [List.length_cons, Nat.pow_succ']; ring

theorem digitOf_lt {digits : List Char} (h : ∀ c ∈ digits, c.isDigit = true) :
    ∀ d ∈ digits.map digitOf, d < 10 := by
  rintro d hd
  obtain ⟨c, hc, rfl⟩ := List.mem_map.1 hd
  have hle := (isDigit_iff c).1 (h c hc)
  rw [digitOf]
  omega

/-! ## Significands -/

/-- What is absorbed: the digits that are left over stand for the zeros that the
significand lacks. -/
theorem absorb_bounds {start : Nat} (hstart : start ≤ maxSignificand) (ds : List Nat) :
    (absorb start ds).1 ≤ maxSignificand
      ∧ (absorb start ds).2.1 + (absorb start ds).2.2 = ds.length
      ∧ (absorb start ds).1 * 10 ^ (absorb start ds).2.2 ≤ continued start ds := by
  induction ds generalizing start with
  | nil => exact ⟨hstart, rfl, (Nat.mul_one start).le⟩
  | cons d ds ih =>
    rw [absorb]
    split
    · rename_i hnext
      obtain ⟨hsize, hlength, hvalue⟩ := ih hnext
      have hcount : (absorb (start * 10 + d) ds).2.1 + 1 + (absorb (start * 10 + d) ds).2.2
          = ds.length + 1 := by
        omega
      exact ⟨hsize, hcount, hvalue⟩
    · exact ⟨hstart, Nat.zero_add _, le_continued start (d :: ds)⟩

/-- A number of 64 bits is absorbed as a whole. -/
theorem absorb_eq {start : Nat} {ds : List Nat} (h : continued start ds ≤ maxSignificand) :
    absorb start ds = (continued start ds, ds.length, 0) := by
  induction ds generalizing start with
  | nil => rfl
  | cons d ds ih =>
    have hnext : start * 10 + d ≤ maxSignificand :=
      (Nat.le_mul_of_pos_right _ (Nat.pow_pos (by decide))).trans
        ((le_continued (start * 10 + d) ds).trans h)
    rw [absorb, if_pos hnext, ih h]
    rfl

/-- Nineteen digits are absorbed in any case. -/
theorem absorb_of_short {digits : List Char} (h : ∀ c ∈ digits, c.isDigit = true)
    (hshort : digits.length ≤ 19) :
    absorb 0 (digits.map digitOf) = (continued 0 (digits.map digitOf), digits.length, 0) := by
  have hlt := continued_lt 0 (digitOf_lt h)
  rw [List.length_map, Nat.zero_add, Nat.one_mul] at hlt
  have hpower : 10 ^ digits.length ≤ 10 ^ 19 := Nat.pow_le_pow_right (by decide) hshort
  rw [absorb_eq (hlt.le.trans (hpower.trans (by decide))), List.length_map]

/-! ## Integer parts -/

/-- **An integer part:** some digits, and no zero in front of others. -/
structure IsWhole (digits : List Char) : Prop where
  all : ∀ c ∈ digits, c.isDigit = true
  ne_nil : digits ≠ []
  lead : digits.head? = some '0' → digits.length = 1

theorem isWhole_singleton {c : Char} (hc : c.isDigit = true) : IsWhole [c] :=
  ⟨List.forall_mem_singleton.2 hc, List.cons_ne_nil _ _, fun _ => rfl⟩

theorem unsignedNumeral?_append (negative : Bool) {digits rest : List Char} (h : IsWhole digits)
    (hrest : NoDigit rest) :
    unsignedNumeral? negative (digits ++ rest)
      = afterInteger? negative (absorb 0 (digits.map digitOf)).1
        (absorb 0 (digits.map digitOf)).2.2 rest := by
  obtain ⟨first, more, rfl⟩ := List.exists_cons_of_ne_nil h.ne_nil
  rw [unsignedNumeral?, spanDigits_append h.all hrest]
  cases more with
  | nil =>
    simp only [List.map_cons, List.map_nil]
    cases digitOf first <;> rfl
  | cons second more =>
    have hfirst : digitOf first ≠ 0 := by
      intro hzero
      have hle := (isDigit_iff first).1 (h.all first List.mem_cons_self)
      have hchar : first = '0' :=
        Char.toNat_inj.1 (by rw [digitOf] at hzero; exact (by omega : first.toNat = 48))
      exact absurd (h.lead (congrArg some hchar)) (by simp)
    obtain ⟨d, hd⟩ := Nat.exists_eq_succ_of_ne_zero hfirst
    simp only [List.map_cons, hd]

theorem head?_digitChars_ne_zero {n : Nat} (h : n ≠ 0) : (digitChars n).head? ≠ some '0' := by
  induction n using Nat.strongRecOn with
  | ind n ih =>
    rw [digitChars]
    rcases Nat.lt_or_ge n 10 with hsmall | hlarge
    · rw [Nat.toDigits_of_lt_base hsmall]
      intro hzero
      have heq := Nat.toNat_digitChar_of_lt_ten hsmall
      rw [Option.some.inj hzero] at heq
      exact h (Nat.add_left_cancel (heq : 48 + 0 = 48 + n)).symm
    · rw [Nat.toDigits_of_base_le (by decide) hlarge,
        List.head?_append_of_ne_nil _ Nat.toDigits_ne_nil]
      exact ih (n / 10) (by omega) (by omega)

theorem isWhole_digitChars (n : Nat) : IsWhole (digitChars n) where
  all _ h := isDigit_of_mem_digitChars h
  ne_nil := Nat.toDigits_ne_nil
  lead h := by
    by_cases hn : n = 0
    · rw [hn]
      rfl
    · exact absurd h (head?_digitChars_ne_zero hn)

/-! ## Integers -/

/-- **A place where a number ends:** the end of the text, or a sign that ends an item or a field. -/
def Delimited (rest : List Char) : Prop := ∀ c ∈ rest.head?, c = ',' ∨ c = ']' ∨ c = '\x7d'

theorem Delimited.noDigit {rest : List Char} (h : Delimited rest) : NoDigit rest := by
  intro c hc
  rcases h c hc with rfl | rfl | rfl <;> rfl

theorem delimited_nil : Delimited [] := nofun

theorem afterInteger?_of_delimited (negative : Bool) (significand dropped : Nat) {rest : List Char}
    (h : Delimited rest) :
    afterInteger? negative significand dropped rest
      = (wholeNumeral? negative significand dropped).map (·, rest) := by
  cases rest with
  | nil => rfl
  | cons c rest => rcases h c rfl with rfl | rfl | rfl <;> rfl

/-- A text that begins with a digit is not a negative number. -/
theorem numeral?_of_isWhole {digits : List Char} (h : IsWhole digits) (rest : List Char) :
    numeral? (digits ++ rest) = unsignedNumeral? false (digits ++ rest) := by
  obtain ⟨first, more, rfl⟩ := List.exists_cons_of_ne_nil h.ne_nil
  rw [List.cons_append, numeral?]
  intro after heq
  exact absurd (h.all first List.mem_cons_self) (by rw [(List.cons.inj heq).1]; decide)

/-- **An integer of 64 bits is read as it was.** -/
theorem numeral?_integer {value : Int} (h : (Numeral.integer value).Fits) {rest : List Char}
    (hrest : Delimited rest) :
    numeral? ((Numeral.integer value).chars ++ rest) = some (.integer value, rest) := by
  obtain ⟨hlow, hhigh⟩ := h
  have hsize : value.natAbs ≤ maxSignificand := by
    rw [maxSignificand] at hhigh ⊢
    omega
  have habsorb : absorb 0 ((digitChars value.natAbs).map digitOf)
      = (value.natAbs, (digitChars value.natAbs).length, 0) := by
    rw [absorb_eq (by rwa [continued_digitChars]), continued_digitChars, List.length_map]
  have hread (negative : Bool) : unsignedNumeral? negative (digitChars value.natAbs ++ rest)
      = (wholeNumeral? negative value.natAbs 0).map (·, rest) := by
    rw [unsignedNumeral?_append negative (isWhole_digitChars _) hrest.noDigit, habsorb,
      afterInteger?_of_delimited _ _ _ hrest]
  rw [Numeral.chars, integerChars]
  split
  · rename_i hneg
    have hmag : ¬(value.natAbs = 0 ∨ 1 <<< 63 < value.natAbs) := by
      rw [Nat.one_shiftLeft]
      omega
    have hvalue : -(value.natAbs : Int) = value := by omega
    rw [List.cons_append, numeral?, hread, wholeNumeral?, if_neg (Nat.lt_irrefl 0),
      if_neg (by decide), if_neg hmag, hvalue]
    rfl
  · have hvalue : (value.natAbs : Int) = value := by omega
    rw [numeral?_of_isWhole (isWhole_digitChars _), hread, wholeNumeral?, if_neg (Nat.lt_irrefl 0),
      if_pos (by decide), hvalue]
    rfl

/-! ## Reals -/

/-- A minus sign, if there has to be one. -/
def sign (negative : Bool) : List Char := if negative then ['-'] else []

theorem numeral?_sign (negative : Bool) {whole : List Char} (h : IsWhole whole) (rest : List Char) :
    numeral? (sign negative ++ (whole ++ rest)) = unsignedNumeral? negative (whole ++ rest) := by
  cases negative with
  | false => exact numeral?_of_isWhole h rest
  | true => rfl

/-- **A text is read as a real number** wherever it may end. -/
def IsReal (negative : Bool) (text : List Char) : Prop :=
  ∃ mantissa exponent, ∀ rest, Delimited rest →
    numeral? (sign negative ++ (text ++ rest)) = some (.real negative mantissa exponent, rest)

/-- Digits with a point among them are a real number. -/
theorem isReal_point (negative : Bool) (whole fraction : List Char) (hwhole : IsWhole whole)
    (hshort : whole.length ≤ 19) (hfraction : ∀ c ∈ fraction, c.isDigit = true)
    (hne : fraction ≠ []) :
    IsReal negative (whole ++ '.' :: fraction) := by
  have habsorb := absorb_of_short hwhole.all hshort
  generalize hsignificand : continued 0 (whole.map digitOf) = significand at habsorb
  have hsize : significand ≤ maxSignificand := by
    have hbounds := (absorb_bounds (Nat.zero_le maxSignificand) (whole.map digitOf)).1
    rwa [habsorb] at hbounds
  obtain ⟨hnext, -⟩ := absorb_bounds hsize (fraction.map digitOf)
  obtain ⟨mantissa, exponent, hreal⟩ := realOf?_of_le negative
    (((0 : Nat) : Int) - (absorb significand (fraction.map digitOf)).2.1) hnext
      (.inr (.inl (by omega)))
  refine ⟨mantissa, exponent, fun rest hrest => ?_⟩
  have hspan := spanDigits_append hfraction hrest.noDigit
  obtain ⟨first, more, rfl⟩ := List.exists_cons_of_ne_nil hne
  rw [List.append_assoc, numeral?_sign negative hwhole,
    unsignedNumeral?_append negative hwhole (by rintro c ⟨⟩; rfl), habsorb, List.cons_append,
    afterInteger?, hspan]
  cases rest with
  | nil => exact congrArg (Option.map _) hreal
  | cons c rest => rcases hrest c rfl with rfl | rfl | rfl <;> exact congrArg (Option.map _) hreal

/-- Digits with a point behind the first one, if there are others. -/
def pointed : List Char → List Char
  | first :: second :: more => first :: '.' :: second :: more
  | short => short

/-- A number with an exponent is read with the digits that are absorbed, scaled by those
that are left over. -/
theorem numeral?_pointed (negative : Bool) {first : Char} {more : List Char}
    (h : ∀ c ∈ first :: more, c.isDigit = true) (rest : List Char) :
    numeral? (sign negative ++ (pointed (first :: more) ++ 'e' :: rest))
      = withExponent? negative (absorb 0 ((first :: more).map digitOf)).1
          ((absorb 0 ((first :: more).map digitOf)).2.2 - more.length) rest := by
  obtain ⟨hfirst, hmore⟩ := List.forall_mem_cons.1 h
  have hwhole : IsWhole [first] := isWhole_singleton hfirst
  have hdigit : digitOf first < 10 := digitOf_lt h _ List.mem_cons_self
  have hroom : 0 * 10 + digitOf first ≤ maxSignificand := by
    rw [maxSignificand]
    omega
  have hone : absorb 0 ([first].map digitOf) = (digitOf first, 1, 0) := by
    rw [List.map_cons, absorb, if_pos hroom, Nat.zero_mul, Nat.zero_add]
    rfl
  cases more with
  | nil =>
    rw [pointed, numeral?_sign negative hwhole,
      unsignedNumeral?_append negative hwhole (by rintro c ⟨⟩; rfl), hone]
    · rfl
    · exact nofun
  | cons second more =>
    have hspan : spanDigits ((second :: more) ++ 'e' :: rest)
        = ((second :: more).map digitOf, 'e' :: rest) :=
      spanDigits_append hmore (by rintro c ⟨⟩; rfl)
    have habsorb : absorb 0 ((first :: second :: more).map digitOf)
        = ((absorb (digitOf first) ((second :: more).map digitOf)).1,
          (absorb (digitOf first) ((second :: more).map digitOf)).2.1 + 1,
          (absorb (digitOf first) ((second :: more).map digitOf)).2.2) := by
      rw [List.map_cons, absorb, if_pos hroom, Nat.zero_mul, Nat.zero_add]
    have hsize : digitOf first ≤ maxSignificand := by rwa [Nat.zero_mul, Nat.zero_add] at hroom
    have hlength := (absorb_bounds hsize ((second :: more).map digitOf)).2.1
    rw [List.length_map] at hlength
    have hexponent : ((0 : Nat) : Int) - (absorb (digitOf first) ((second :: more).map digitOf)).2.1
        = (absorb (digitOf first) ((second :: more).map digitOf)).2.2
          - (second :: more).length := by omega
    rw [habsorb, ← hexponent]
    exact (numeral?_sign negative hwhole ('.' :: ((second :: more) ++ 'e' :: rest))).trans <| by
      rw [unsignedNumeral?_append negative hwhole (by rintro c ⟨⟩; rfl), hone, afterInteger?, hspan]
      rfl

/-- An exponent that can be kept is read as it is. -/
theorem exponentSize_eq {start : Nat} {ds : List Nat} (h : continued start ds ≤ maxExponent) :
    ds.foldl (fun n d => if maxExponent < n then n else n * 10 + d) start = continued start ds := by
  induction ds generalizing start with
  | nil => rfl
  | cons d ds ih =>
    have hstart : start ≤ maxExponent :=
      (Nat.le_mul_of_pos_right _ (Nat.pow_pos (by decide))).trans
        ((le_continued start (d :: ds)).trans h)
    rw [List.foldl_cons, if_neg (not_lt.2 hstart)]
    exact ih h

theorem withExponent?_up (negative : Bool) (significand : Nat) (start : Int) {size : Nat}
    (hsize : size ≤ maxExponent) {rest : List Char} (hrest : Delimited rest) :
    withExponent? negative significand start ('+' :: (digitChars size ++ rest))
      = (realOf? negative significand (start + size)).map (·, rest) := by
  have hspan := spanDigits_append (fun _ h => isDigit_of_mem_digitChars (n := size) h) hrest.noDigit
  have hfold := exponentSize_eq ((continued_digitChars size).le.trans hsize)
  rw [continued_digitChars] at hfold
  obtain ⟨first, more, hdigits⟩ :=
    List.exists_cons_of_ne_nil (Nat.toDigits_ne_nil (n := size) (b := 10))
  rw [digitChars, hdigits] at hspan hfold ⊢
  rw [List.map_cons] at hspan hfold
  rw [withExponent?, hspan]
  simp only [hfold, not_lt.2 hsize, Bool.false_eq_true, if_false]

/-- A negative exponent is read in any case, be it that nothing but zero is left. -/
theorem withExponent?_down (negative : Bool) {significand : Nat}
    (hsignificand : significand ≤ maxSignificand) (start : Int) (hstart : start ≤ 0) (size : Nat) :
    ∃ mantissa exponent, ∀ rest, Delimited rest →
      withExponent? negative significand start ('-' :: (digitChars size ++ rest))
        = some (.real negative mantissa exponent, rest) := by
  obtain ⟨first, more, hdigits⟩ :=
    List.exists_cons_of_ne_nil (Nat.toDigits_ne_nil (n := size) (b := 10))
  let bound :=
    ((first :: more).map digitOf).foldl (fun n d => if maxExponent < n then n else n * 10 + d) 0
  have hread (rest : List Char) (hrest : Delimited rest) :
      withExponent? negative significand start ('-' :: (digitChars size ++ rest))
        = if maxExponent < bound then some (zeroOf negative, rest)
          else (realOf? negative significand (start - bound)).map (·, rest) := by
    have hspan :=
      spanDigits_append (fun _ h => isDigit_of_mem_digitChars (n := size) h) hrest.noDigit
    rw [digitChars, hdigits] at hspan ⊢
    rw [List.map_cons] at hspan
    rw [withExponent?, hspan]
    simp only [Bool.not_true, Bool.false_eq_true, and_false, if_false, if_true]
    rfl
  by_cases hfar : maxExponent < bound
  · exact ⟨0, _, fun rest hrest => by rw [hread rest hrest, if_pos hfar]; rfl⟩
  · obtain ⟨mantissa, exponent, hreal⟩ := realOf?_of_le negative (start - bound) hsignificand
      (.inr (.inl (by omega)))
    exact ⟨mantissa, exponent, fun rest hrest => by rw [hread rest hrest, if_neg hfar, hreal]; rfl⟩

/-- Digits with an exponent are a real number. An exponent that is not negative has to be one that
can be kept, and scaling with it must not lead too far. -/
theorem isReal_exponent (negative : Bool) {first : Char} {more : List Char}
    (h : ∀ c ∈ first :: more, c.isDigit = true) {power : Int}
    (hup : 0 ≤ power → power ≤ maxExponent ∧ ∃ mantissa exponent,
      realOf? negative (absorb 0 ((first :: more).map digitOf)).1
          ((absorb 0 ((first :: more).map digitOf)).2.2 - more.length + power)
        = some (.real negative mantissa exponent)) :
    IsReal negative
      (pointed (first :: more) ++ 'e' :: (if power < 0 then '-' else '+')
        :: digitChars power.natAbs) := by
  have habsorbed := numeral?_pointed negative h
  obtain ⟨hsize, hcount, -⟩ :=
    absorb_bounds (Nat.zero_le maxSignificand) ((first :: more).map digitOf)
  have htaken : 0 < (absorb 0 ((first :: more).map digitOf)).2.1 := by
    have hdigit : digitOf first < 10 := digitOf_lt h _ List.mem_cons_self
    rw [List.map_cons, absorb, if_pos (by rw [maxSignificand]; omega)]
    exact Nat.succ_pos _
  rw [List.length_map, List.length_cons] at hcount
  generalize absorb 0 ((first :: more).map digitOf) = absorbed at hup habsorbed hsize hcount htaken
  split
  case isTrue hneg =>
    obtain ⟨mantissa, exponent, hread⟩ := withExponent?_down negative hsize
      (absorbed.2.2 - more.length) (by omega) power.natAbs
    refine ⟨mantissa, exponent, fun rest hrest => ?_⟩
    rw [List.append_assoc, List.cons_append, List.cons_append, habsorbed, hread rest hrest]
  case isFalse hnonneg =>
    obtain ⟨hkept, mantissa, exponent, hreal⟩ := hup (not_lt.1 hnonneg)
    have hpower : (power.natAbs : Int) = power := Int.natAbs_of_nonneg (not_lt.1 hnonneg)
    refine ⟨mantissa, exponent, fun rest hrest => ?_⟩
    rw [List.append_assoc, List.cons_append, List.cons_append, habsorbed,
      withExponent?_up negative _ _ (by omega) hrest, hpower, hreal]
    rfl

/-! ## Decimals -/

/-- A decimal has as many digits as its size says. -/
theorem leadingPower_lt {d : Decimal} (hd : d.digits ≠ 0) {n : Nat} (h : d.value < 10 ^ n) :
    d.exponent + (digitChars d.digits).length - 1 < n := by
  have hlength : 0 < (digitChars d.digits).length := Nat.length_toDigits_pos
  have hleast : 10 ^ ((digitChars d.digits).length - 1) ≤ d.digits := by
    by_contra hless
    rcases Nat.eq_zero_or_pos ((digitChars d.digits).length - 1) with hzero | hpos
    · rw [hzero] at hless
      omega
    · have hle := (Nat.length_toDigits_le_iff (by decide) hpos).2 (not_le.1 hless)
      rw [digitChars] at hle hlength
      omega
  have hpower : (10 : ℚ) ^ (d.exponent + (digitChars d.digits).length - 1) < 10 ^ (n : Int) := by
    calc (10 : ℚ) ^ (d.exponent + (digitChars d.digits).length - 1)
        = (10 ^ ((digitChars d.digits).length - 1) : Nat) * 10 ^ d.exponent := by
          rw [Nat.cast_pow, Nat.cast_ofNat, ← zpow_natCast, ← zpow_add₀ (by norm_num)]
          congr 1
          omega
      _ ≤ d.digits * 10 ^ d.exponent := by gcongr
      _ < 10 ^ (n : Int) := by rwa [zpow_natCast]
  exact (zpow_lt_zpow_iff_right₀ (by norm_num)).1 hpower

/-- Digits and zeros are an integer part, unless they are zeros alone. -/
theorem IsWhole.append_zeros {digits : List Char} (h : IsWhole digits) {count : Nat}
    (hzeros : digits.head? = some '0' → count = 0) :
    IsWhole (digits ++ List.replicate count '0') where
  all c hc := by
    rcases List.mem_append.1 hc with hmem | hmem
    · exact h.all c hmem
    · rw [List.eq_of_mem_replicate hmem]
      rfl
  ne_nil := List.append_ne_nil_of_left_ne_nil h.ne_nil _
  lead hlead := by
    rw [List.head?_append_of_ne_nil _ h.ne_nil] at hlead
    rw [hzeros hlead, List.replicate_zero, List.append_nil, h.lead hlead]

theorem IsWhole.take {digits : List Char} (h : IsWhole digits) (hlead : digits.head? ≠ some '0')
    (n : Nat) :
    IsWhole (digits.take (n + 1)) := by
  obtain ⟨first, more, rfl⟩ := List.exists_cons_of_ne_nil h.ne_nil
  refine ⟨fun c hc => h.all c (List.mem_of_mem_take hc), ?_, fun hzero => absurd hzero hlead⟩
  rw [List.take_succ_cons]
  exact List.cons_ne_nil _ _

/-- A decimal whose size is given by an exponent is read as a real number. The exponent can be kept:
one that is not negative is no larger than the size of the decimal. -/
theorem isReal_scientific (negative : Bool) {d : Decimal} (hzero : d.digits = 0 → d.exponent = 0)
    (hvalue : d.value < 10 ^ 309)
    (hscaled : ∃ mantissa exponent,
      realOf? negative (absorb 0 ((digitChars d.digits).map digitOf)).1
      ((absorb 0 ((digitChars d.digits).map digitOf)).2.2 + d.exponent)
        = some (.real negative mantissa exponent))
    {first : Char} {more : List Char} (hdigits : digitChars d.digits = first :: more) {power : Int}
    (hpower : d.exponent + ((digitChars d.digits).length : Int) - 1 = power)
    (hnonzero : power ≠ 0) :
    IsReal negative
      (pointed (first :: more) ++ 'e' :: (if power < 0 then '-' else '+')
        :: digitChars power.natAbs) := by
  have hall : ∀ c ∈ first :: more, c.isDigit = true := hdigits ▸ (isWhole_digitChars d.digits).all
  rw [hdigits] at hscaled hpower
  refine isReal_exponent negative hall fun hnonneg => ?_
  have hdigitsNe : d.digits ≠ 0 := by
    intro hd
    rw [hzero hd] at hpower
    rw [hd] at hdigits
    cases hdigits
    simp at hpower
    exact hnonzero hpower.symm
  have hpowerLt : power < 309 := by
    have hlt := leadingPower_lt hdigitsNe (n := 309) hvalue
    rwa [hdigits, hpower] at hlt
  have hexponent (leftOver : Nat) : (leftOver : Int) - more.length + power
      = leftOver + d.exponent := by
    rw [List.length_cons] at hpower
    omega
  refine ⟨by rw [maxExponent]; omega, ?_⟩
  rw [hexponent]
  exact hscaled

/-- **A decimal is read as a real number,** if scaling its significand does not lead too far. -/
theorem isReal_decimalChars (negative : Bool) {d : Decimal} (hzero : d.digits = 0 → d.exponent = 0)
    (hvalue : d.value < 10 ^ 309)
    (hscaled : ∃ mantissa exponent,
      realOf? negative (absorb 0 ((digitChars d.digits).map digitOf)).1
      ((absorb 0 ((digitChars d.digits).map digitOf)).2.2 + d.exponent)
        = some (.real negative mantissa exponent)) :
    IsReal negative (decimalChars d) := by
  have hwhole := isWhole_digitChars d.digits
  have hlength : 0 < (digitChars d.digits).length := Nat.length_toDigits_pos
  have hlead (hexponent : d.exponent ≠ 0) : (digitChars d.digits).head? ≠ some '0' :=
    head?_digitChars_ne_zero (mt hzero hexponent)
  rw [decimalChars]
  dsimp only
  generalize hpower : d.exponent + ((digitChars d.digits).length : Int) - 1 = power
  split
  case isTrue hform =>
    -- zeros up to the point
    obtain ⟨hexponent, hsmall : power ≤ 15⟩ := hform
    refine isReal_point negative _ ['0'] (hwhole.append_zeros fun hhead => ?_) ?_ (by simp)
      (List.cons_ne_nil _ _)
    · by_contra hcount
      exact hlead (by omega) hhead
    · rw [List.length_append, List.length_replicate]
      omega
  case isFalse hform =>
  split
  case isTrue hpoint =>
    -- the point among the digits
    obtain ⟨hnonneg, hsmall : power ≤ 15⟩ := hpoint
    have hneg : d.exponent < 0 := by
      by_contra hexponent
      exact hform ⟨not_lt.1 hexponent, hsmall⟩
    refine isReal_point negative _ _ (hwhole.take (hlead hneg.ne) _) ?_
      (fun c hc => hwhole.all c (List.mem_of_mem_drop hc)) ?_
    · rw [List.length_take]
      omega
    · rw [Ne, List.drop_eq_nil_iff]
      omega
  case isFalse hpoint =>
  split
  case isTrue hsmall =>
    -- zeros behind the point
    refine isReal_point negative ['0'] _ (isWhole_singleton rfl) (by simp) ?_ ?_
    · intro c hc
      rcases List.mem_append.1 hc with hmem | hmem
      · rw [List.eq_of_mem_replicate hmem]
        rfl
      · exact hwhole.all c hmem
    · exact List.append_ne_nil_of_right_ne_nil _ hwhole.ne_nil
  case isFalse hsmall =>
    -- with an exponent
    obtain ⟨first, more, hdigits⟩ := List.exists_cons_of_ne_nil hwhole.ne_nil
    have hnonzero : power ≠ 0 := by
      rintro rfl
      exact hpoint (by decide)
    have hread := isReal_scientific negative hzero hvalue hscaled hdigits hpower hnonzero
    rw [hdigits]
    cases more <;> exact hread

/-! ## Doubles -/

theorem realOf?_sign {negative : Bool} {significand : Nat} {exponent : Int} {n : Numeral}
    (h : realOf? negative significand exponent = some n) :
    ∃ mantissa e, n = .real negative mantissa e := by
  rw [realOf?, Option.bind_eq_some_iff] at h
  obtain ⟨b, -, hn⟩ := h
  cases b with
  | nan => cases hn
  | infinite => cases hn
  | finite s m e => exact ⟨m, e, (Option.some.inj hn).symm⟩

/-- The three largest doubles are read although they are close to the limit. -/
theorem realOf?_largest : ∀ below < 3, ∀ negative,
    (BinaryFormat.double.shortest (2 ^ 53 - 1 - below) 971).digits ≤ maxSignificand
      ∧ (realOf? negative (BinaryFormat.double.shortest (2 ^ 53 - 1 - below) 971).digits
          (BinaryFormat.double.shortest (2 ^ 53 - 1 - below) 971).exponent).isSome = true := by
  decide +kernel

/-- The largest doubles in half steps. -/
theorem value_shortest_top_le (mantissa : Nat) :
    (BinaryFormat.double.shortest mantissa 971).value
      ≤ ((2 * mantissa + 1) * topHalfStep : Nat) := by
  refine (value_shortest_le _ _ _).trans_eq ?_
  rw [Nat.cast_mul, cast_topHalfStep, show (971 : Int) = 970 + 1 from rfl,
    zpow_add_one₀ two_ne_zero]
  generalize (2 : ℚ) ^ (970 : Int) = unit
  push_cast
  ring

/-- All others are smaller by far. -/
theorem value_shortest_below_top_le {mantissa : Nat} (hmantissa : mantissa < 2 ^ 53)
    {exponent : Int} (hexponent : exponent ≤ 970) :
    (BinaryFormat.double.shortest mantissa exponent).value ≤ (2 ^ 53 * topHalfStep : Nat) := by
  have hle : (mantissa : ℚ) + 1 / 2 ≤ 2 ^ 53 := by
    have hcast : ((mantissa + 1 : Nat) : ℚ) ≤ (2 ^ 53 : Nat) := Nat.cast_le.2 hmantissa
    push_cast at hcast
    linarith
  have hpower : (2 : ℚ) ^ exponent ≤ topHalfStep := by
    rw [cast_topHalfStep]
    exact zpow_le_zpow_right₀ one_le_two hexponent
  calc (BinaryFormat.double.shortest mantissa exponent).value ≤ (mantissa + 1 / 2) * 2 ^ exponent :=
        value_shortest_le _ _ _
    _ ≤ 2 ^ 53 * topHalfStep := by gcongr
    _ = (2 ^ 53 * topHalfStep : Nat) := by rw [Nat.cast_mul, Nat.cast_pow, Nat.cast_ofNat]

theorem mul_topHalfStep_le_safeBound {count : Nat} (h : count ≤ 2 ^ 54 - 7) :
    ((count * topHalfStep : Nat) : ℚ) ≤ safeBound := by
  have hle : count * topHalfStep ≤ (2 ^ 54 - 7) * topHalfStep := Nat.mul_le_mul_right _ h
  rw [safeBound]
  exact Nat.cast_le.2 hle

/-- A decimal that is not close to the largest double can be scaled. -/
theorem realOf?_of_value_le (negative : Bool) {d : Decimal} (h : d.value ≤ safeBound) :
    ∃ mantissa exponent, realOf? negative (absorb 0 ((digitChars d.digits).map digitOf)).1
      ((absorb 0 ((digitChars d.digits).map digitOf)).2.2 + d.exponent)
        = some (.real negative mantissa exponent) := by
  obtain ⟨hsize, -, habsorbed⟩ :=
    absorb_bounds (Nat.zero_le maxSignificand) ((digitChars d.digits).map digitOf)
  rw [continued_digitChars] at habsorbed
  generalize absorb 0 ((digitChars d.digits).map digitOf) = absorbed at hsize habsorbed
  refine realOf?_of_le negative _ hsize (.inr (.inr ?_))
  have hcast : (absorbed.1 * 10 ^ absorbed.2.2 : ℚ) ≤ d.digits := by exact_mod_cast habsorbed
  calc (absorbed.1 : ℚ) * 10 ^ ((absorbed.2.2 : Int) + d.exponent)
      = absorbed.1 * 10 ^ absorbed.2.2 * 10 ^ d.exponent := by
        rw [zpow_add₀ (by norm_num), zpow_natCast, mul_assoc]
    _ ≤ d.digits * 10 ^ d.exponent := mul_le_mul_of_nonneg_right hcast (by positivity)
    _ ≤ safeBound := h

theorem mul_topHalfStep_lt {count : Nat} (h : count ≤ 2 ^ 54 - 1) :
    ((count * topHalfStep : Nat) : ℚ) < 10 ^ 309 := by
  have hle : count * topHalfStep ≤ (2 ^ 54 - 1) * topHalfStep := Nat.mul_le_mul_right _ h
  have hlt : (2 ^ 54 - 1) * topHalfStep < 10 ^ 309 := by decide +kernel
  calc ((count * topHalfStep : Nat) : ℚ) < (10 ^ 309 : Nat) := Nat.cast_lt.2 (hle.trans_lt hlt)
    _ = 10 ^ 309 := by rw [Nat.cast_pow, Nat.cast_ofNat]

theorem isReal_of_value_le (negative : Bool) {d : Decimal} (hzero : d.digits = 0 → d.exponent = 0)
    (h : d.value ≤ safeBound) : IsReal negative (decimalChars d) :=
  isReal_decimalChars negative hzero (h.trans_lt (mul_topHalfStep_lt (by decide)))
    (realOf?_of_value_le negative h)

/-- **A double of the format is read as a double.** -/
theorem isReal_shortest (negative : Bool) {mantissa : Nat} {exponent : Int}
    (h : BinaryFormat.double.Fits mantissa exponent) (hmantissa : mantissa ≠ 0) :
    IsReal negative (decimalChars (BinaryFormat.double.shortest mantissa exponent)) := by
  obtain ⟨hbits : mantissa < 2 ^ 53, hexponent : exponent ≤ 971⟩ := h
  have hzero := shortest_exponent_of_eq_zero BinaryFormat.double hmantissa exponent
  rcases hexponent.lt_or_eq with hbelow | rfl
  · exact isReal_of_value_le negative hzero
      ((value_shortest_below_top_le hbits (by omega)).trans
        (mul_topHalfStep_le_safeBound (by decide)))
  rcases le_or_gt mantissa (2 ^ 53 - 4) with hsafe | hlarge
  · exact isReal_of_value_le negative hzero
      ((value_shortest_top_le mantissa).trans (mul_topHalfStep_le_safeBound (by omega)))
  · obtain ⟨below, hcount, rfl⟩ : ∃ below < 3, mantissa = 2 ^ 53 - 1 - below :=
      ⟨2 ^ 53 - 1 - mantissa, by omega, by omega⟩
    obtain ⟨hsize, hsome⟩ := realOf?_largest below hcount negative
    obtain ⟨n, hn⟩ := Option.isSome_iff_exists.1 hsome
    obtain ⟨m, e, rfl⟩ := realOf?_sign hn
    have habsorb := absorb_eq (hsize.trans' (continued_digitChars _).le)
    refine isReal_decimalChars negative hzero
      ((value_shortest_top_le _).trans_lt (mul_topHalfStep_lt (by omega))) ⟨m, e, ?_⟩
    rw [habsorb, continued_digitChars, Nat.cast_zero, Int.zero_add]
    exact hn

/-- **Any number of the format is read as some number of it.** -/
theorem exists_numeral? {n : Numeral} (h : n.Fits) :
    ∃ read, ∀ rest, Delimited rest → numeral? (n.chars ++ rest) = some (read, rest) := by
  cases n with
  | integer value => exact ⟨_, fun rest hrest => numeral?_integer h hrest⟩
  | real negative mantissa exponent =>
    have hreal : IsReal negative (if mantissa = 0 then ['0', '.', '0']
        else decimalChars (BinaryFormat.double.shortest mantissa exponent)) := by
      split
      · exact isReal_point negative ['0'] ['0'] (isWhole_singleton rfl) (by simp) (by simp)
          (List.cons_ne_nil _ _)
      · rename_i hmantissa
        exact isReal_shortest negative h hmantissa
    obtain ⟨m, e, hread⟩ := hreal
    refine ⟨.real negative m e, fun rest hrest => ?_⟩
    rw [Numeral.chars, List.append_assoc]
    exact hread rest hrest

/-! ## What the reader gives -/

section

variable {negative : Bool} {significand dropped : Nat} {text rest : List Char} {n : Numeral}

theorem fits_of_map_realOf? {exponent : Int} {after : List Char}
    (h : (realOf? negative significand exponent).map (·, after) = some (n, rest)) : n.Fits := by
  obtain ⟨read, hread, heq⟩ := Option.map_eq_some_iff.1 h
  cases heq
  exact realOf?_fits hread

theorem wholeNumeral?_fits (hsize : significand ≤ maxSignificand)
    (h : wholeNumeral? negative significand dropped = some n) : n.Fits := by
  rw [wholeNumeral?] at h
  split at h
  · exact realOf?_fits h
  · split at h
    · cases h
      exact ⟨by omega, by exact_mod_cast hsize⟩
    · split at h
      · exact realOf?_fits h
      · rename_i hmagnitude
        rw [Nat.one_shiftLeft] at hmagnitude
        cases h
        have hnonneg : (0 : Int) ≤ maxSignificand := Int.natCast_nonneg _
        exact ⟨by omega, by omega⟩

theorem withExponent?_fits {start : Int}
    (h : withExponent? negative significand start text = some (n, rest)) :
    n.Fits := by
  unfold withExponent? at h
  dsimp only at h
  split at h
  · cases h
  · split at h
    · obtain ⟨-, hzero⟩ := Option.ite_none_left_eq_some.1 h
      cases hzero
      exact ⟨Nat.two_pow_pos _, by decide⟩
    · exact fits_of_map_realOf? h

theorem afterInteger?_fits (hsize : significand ≤ maxSignificand)
    (h : afterInteger? negative significand dropped text = some (n, rest)) : n.Fits := by
  unfold afterInteger? at h
  split at h
  · split at h
    · cases h
    · dsimp only at h
      split at h
      · exact withExponent?_fits h
      · exact withExponent?_fits h
      · exact fits_of_map_realOf? h
  · exact withExponent?_fits h
  · exact withExponent?_fits h
  · obtain ⟨read, hread, heq⟩ := Option.map_eq_some_iff.1 h
    cases heq
    exact wholeNumeral?_fits hsize hread

/-- **Whatever number is read, it is one of the format.** -/
theorem numeral?_fits (h : numeral? text = some (n, rest)) : n.Fits := by
  have hunsigned {negative : Bool} {text : List Char}
      (h : unsignedNumeral? negative text = some (n, rest)) :
      n.Fits := by
    unfold unsignedNumeral? at h
    split at h
    · cases h
    · cases h
    · exact afterInteger?_fits (absorb_bounds (Nat.zero_le _) _).1 h
  unfold numeral? at h
  split at h
  · exact hunsigned h
  · exact hunsigned h

end

end Gatehouse.Json
