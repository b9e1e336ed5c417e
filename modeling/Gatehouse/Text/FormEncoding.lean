/-
The encoding of names and values in query strings.

Letters, digits and four marks stand for themselves, a space is written as a plus sign, and every
other byte as a percent sign with two hexadecimal digits. Reading is more liberal than writing: a
percent sign without two digits stands for itself, and bytes that are not UTF-8 become
replacement characters.
-/
import Gatehouse.Text.Bytes
import Gatehouse.Text.Scanning

set_option autoImplicit false

namespace Gatehouse.FormEncoding

/-! ## Reading -/

/-- The value of a byte that stands for a hexadecimal digit. -/
def digitOf? (b : UInt8) : Option Nat := digitValue? 16 (Char.ofNat b.toNat)

/-- Percent signs with two digits become bytes. -/
def percentDecode : Bytes → Bytes
  | [] => []
  | b :: high :: low :: rest =>
    if b = 0x25 then
      match digitOf? high, digitOf? low with
      | some h, some l => UInt8.ofNat (h * 16 + l) :: percentDecode rest
      | _, _ => b :: percentDecode (high :: low :: rest)
    else b :: percentDecode (high :: low :: rest)
  | b :: rest => b :: percentDecode rest

/-- Plus signs become spaces. -/
def plusToSpace (b : Bytes) : Bytes := b.map fun x => if x = 0x2B then 0x20 else x

/-- **What an encoded name or value says.** -/
def decode (encoded : String) : String :=
  Bytes.lossy (percentDecode (plusToSpace (Bytes.ofString encoded)))

/-! ## Writing -/

/-- Whether a byte stands for itself. -/
def isPlain (b : UInt8) : Bool :=
  (0x30 ≤ b && b ≤ 0x39) || (0x41 ≤ b && b ≤ 0x5A) || (0x61 ≤ b && b ≤ 0x7A)
    || b == 0x2A || b == 0x2D || b == 0x2E || b == 0x5F

/-- One byte, written; its digits are in upper case. -/
def encodeByte (b : UInt8) : List Char :=
  if isPlain b then [Char.ofNat b.toNat]
  else if b = 0x20 then ['+']
  else ['%', (hexDigit (b.toNat / 16)).toUpper, (hexDigit (b.toNat % 16)).toUpper]

/-- **The written form** of a name or value. -/
def encode (s : String) : String := String.ofList ((Bytes.ofString s).flatMap encodeByte)

end Gatehouse.FormEncoding
