/-
Socket addresses as texts: an address of the older or the newer Internet protocol with a port.

Only whether a text is an address matters here. Every reader takes the text from where it stands and
returns the rest, or nothing if the text does not begin with such a thing.
-/
import Gatehouse.Text.Scanning

set_option autoImplicit false

namespace Gatehouse.Config.SocketAddress

/-- The number that the digits at the front of a text make, how many digits there
are, and the rest. -/
def number (base : Nat) : Nat → Nat → List Char → Nat × Nat × List Char
  | acc, count, [] => (acc, count, [])
  | acc, count, c :: rest =>
    match digitValue? base c with
    | some d => number base (acc * base + d) (count + 1) rest
    | none => (acc, count, c :: rest)

/-- A part of an older address: up to three digits, at most 255, no leading zero. -/
def octet? (text : List Char) : Option (List Char) :=
  let (n, count, rest) := number 10 0 0 text
  if count = 0 ∨ 3 < count ∨ 255 < n ∨ (1 < count ∧ text.head? = some '0') then none else some rest

/-- An older address: four parts with points between them. -/
def olderAddress? (text : List Char) : Option (List Char) := do
  let rest ← octet? text
  let rest ← octet? (← expect? '.' rest)
  let rest ← octet? (← expect? '.' rest)
  octet? (← expect? '.' rest)

/-- A part of a newer address: up to four hexadecimal digits. -/
def group? (text : List Char) : Option (List Char) :=
  let (_, count, rest) := number 16 0 0 text
  if count = 0 ∨ 4 < count then none else some rest

/-- The text after a colon that has to stand before every group but the first. -/
def separator? (first : Bool) (text : List Char) : Option (List Char) :=
  if first then some text else expect? ':' text

/-- Groups of a newer address, as many as there are up to a limit; the last two may be given as an
older address. The answer says how many groups there are, whether an older address is among them,
and what follows. -/
def groups : Nat → Bool → List Char → Nat × Bool × List Char
  | 0, _, text => (0, false, text)
  | room + 1, first, text =>
    let older : Option (List Char) :=
      if room = 0 then none else (separator? first text).bind olderAddress?
    match older with
    | some rest => (2, true, rest)
    | none =>
      match (separator? first text).bind group? with
      | none => (0, false, text)
      | some rest =>
        let (count, embedded, rest) := groups room false rest
        (count + 1, embedded, rest)

/-- A newer address: eight groups, or fewer with a double colon for the ones left out. -/
def newerAddress? (text : List Char) : Option (List Char) :=
  let (head, embedded, rest) := groups 8 true text
  if head = 8 then some rest
  else if embedded then none
  else
    match rest with
    | ':' :: ':' :: rest => some (groups (7 - head) true rest).2.2
    | _ => none

/-- A port, with its colon in front. -/
def port? (text : List Char) : Option (List Char) := do
  let rest ← expect? ':' text
  let (n, count, rest) := number 10 0 0 rest
  if count = 0 ∨ 65535 < n then none else some rest

/-- A zone in a newer address, if there is one. -/
def skipZone (text : List Char) : List Char :=
  match text with
  | '%' :: rest =>
    let (n, count, after) := number 10 0 0 rest
    if count = 0 ∨ 4294967295 < n then text else after
  | _ => text

/-- A newer address in brackets, with a port. -/
def bracketed? (text : List Char) : Option (List Char) := do
  let rest ← expect? '[' text
  let rest ← newerAddress? rest
  let rest ← expect? ']' (skipZone rest)
  port? rest

/-- **Whether a text is a socket address.** -/
def isSocketAddress (s : String) : Bool :=
  match ((olderAddress? s.toList).bind port?).or (bracketed? s.toList) with
  | some rest => rest.isEmpty
  | none => false

end Gatehouse.Config.SocketAddress
