/-
Byte strings: the currency of paths, header values and bodies.

A body or a header value need not be text, so it is a list of bytes; a text is a `String`, whose
UTF-8 form is exactly one byte string. `ofString` and `toString?` move between the two and lose
nothing; `lossy` reads any byte string as text and puts U+FFFD in place of what is not UTF-8. The
ASCII operations at the end touch the bytes below 0x80 only, which is why they may be applied to the
UTF-8 form of any text.
-/

set_option autoImplicit false

namespace Gatehouse

/-- **Byte string.** A list, because bodies are built by concatenation and cut by `take`. -/
abbrev Bytes := List UInt8

namespace Bytes

/-! ## Text and bytes -/

/-- The UTF-8 form of a text. -/
def ofString (s : String) : Bytes := s.toUTF8.data.toList

/-- The same bytes as one contiguous block. -/
def toByteArray (b : Bytes) : ByteArray := ⟨b.toArray⟩

/-- The text whose UTF-8 form the bytes are, if there is one. -/
def toString? (b : Bytes) : Option String := String.fromUTF8? b.toByteArray

/-- Stands in for every ill-formed piece of a byte string. -/
def replacement : Char := '\uFFFD'

/-- A byte that continues a multi-byte character. -/
def isContinuation (b : UInt8) : Bool := 0x80 ≤ b && b ≤ 0xBF

/-- The second bytes that a lead byte admits: shorter forms, surrogates and values above U+10FFFF
are cut off here, not later. `none` for a byte that leads nothing. -/
def secondRange (lead : UInt8) : Option (UInt8 × UInt8) :=
  if 0xC2 ≤ lead && lead ≤ 0xDF then some (0x80, 0xBF)
  else if lead == 0xE0 then some (0xA0, 0xBF)
  else if lead == 0xED then some (0x80, 0x9F)
  else if 0xE1 ≤ lead && lead ≤ 0xEF then some (0x80, 0xBF)
  else if lead == 0xF0 then some (0x90, 0xBF)
  else if lead == 0xF4 then some (0x80, 0x8F)
  else if 0xF1 ≤ lead && lead ≤ 0xF3 then some (0x80, 0xBF)
  else none

/-- How many bytes follow a lead byte in a whole character. -/
def tailLength (lead : UInt8) : Nat :=
  if lead < 0xE0 then 1 else if lead < 0xF0 then 2 else 3

/-- The character of a lead byte's payload and its continuation bytes. -/
def assemble (lead : UInt8) (tail : Bytes) : Char :=
  let payload := if lead < 0xE0 then lead &&& 0x1F else if lead < 0xF0 then lead &&& 0x0F
    else lead &&& 0x07
  Char.ofNat (tail.foldl (fun acc b => acc * 64 + (b &&& 0x3F).toNat) payload.toNat)

/-- How many of the bytes after a lead byte belong to it: the longest beginning of a character, so
that one replacement stands for one maximal ill-formed piece. -/
def tailTaken (lead : UInt8) (rest : Bytes) : Nat :=
  match secondRange lead, rest with
  | some (lo, hi), second :: more =>
    if lo ≤ second && second ≤ hi then
      1 + ((more.take (tailLength lead - 1)).takeWhile isContinuation).length
    else 0
  | _, _ => 0

/-- The characters of a byte string, with `replacement` for each maximal ill-formed piece. -/
def decodeLossy : Bytes → List Char
  | [] => []
  | lead :: rest =>
    if lead < 0x80 then Char.ofNat lead.toNat :: decodeLossy rest
    else
      let taken := tailTaken lead rest
      let whole := (secondRange lead).isSome && taken == tailLength lead
      (if whole then assemble lead (rest.take taken) else replacement)
        :: decodeLossy (rest.drop taken)
termination_by b => b.length
decreasing_by
  · exact Nat.lt_succ_self _
  · simp only [List.length_drop, List.length_cons]
    omega

/-- **Reading bytes as text** whatever they are: the text itself where they are UTF-8, otherwise
with a replacement character for each ill-formed piece. -/
def lossy (b : Bytes) : String :=
  (toString? b).getD (String.ofList (decodeLossy b))

/-! ## ASCII -/

/-- Upper-case ASCII letters become lower-case; every other byte stays. -/
def lowerByte (b : UInt8) : UInt8 := if 0x41 ≤ b && b ≤ 0x5A then b + 0x20 else b

def toLower (b : Bytes) : Bytes := b.map lowerByte

/-- The bytes of printable ASCII, space to tilde, and the tab: what may be shown as plain text. -/
def isVisibleAscii (b : UInt8) : Bool := (0x20 ≤ b && b < 0x7F) || b == 0x09

end Bytes
end Gatehouse
