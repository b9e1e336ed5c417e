/-
Request targets.

A target is a path with an optional query, or the single `*`, or an absolute address
`scheme://authority/path?query`, or a bare authority. Each part admits its own characters; what is
beyond ASCII is admitted in paths and queries only. A fragment is cut off, the two usual schemes are
written in lower case, and an absolute address without a path has the path `/`.
-/

set_option autoImplicit false

namespace Gatehouse.Http

/-- **Request target.** -/
structure Uri where
  scheme : Option String
  /-- Host, with user information and port if there are any; empty if there is none. -/
  authority : String
  path : String
  query : Option String
  deriving DecidableEq, Repr

namespace Uri

def maxLength : Nat := 65534

def maxSchemeLength : Nat := 64

/-- How many colons may stand together in an authority, brackets included. -/
def maxColons : Nat := 8

/-! ## Characters -/

def isSchemeChar (c : Char) : Bool := c.isAlphanum || c == '+' || c == '-' || c == '.' || c == '~'

/-- Whether a character ends the authority. -/
def endsAuthority (c : Char) : Bool := c == '/' || c == '?' || c == '#'

/-- Whether a character may stand in an authority without further conditions. -/
def isAuthorityChar (c : Char) : Bool := c.isAlphanum || "!$&'()*+,-.;=_~".toList.contains c

def isPathChar (c : Char) : Bool :=
  let n := c.toNat
  n == 0x21 || n == 0x22 || (0x24 ≤ n && n ≤ 0x3B) || n == 0x3D || (0x40 ≤ n && n ≤ 0x5F)
    || 0x61 ≤ n

def isQueryChar (c : Char) : Bool :=
  let n := c.toNat
  n == 0x21 || (0x24 ≤ n && n ≤ 0x3B) || n == 0x3D || 0x3F ≤ n

/-! ## Reading -/

/-- The scheme in front of a text and what follows its `://`; the text itself if there is none. A
scheme that is too long is refused. -/
def splitScheme? (text : List Char) : Option (Option String × List Char) :=
  let name := text.takeWhile isSchemeChar
  match text.drop name.length with
  | ':' :: '/' :: '/' :: rest =>
    let lower := String.ofList (name.map Char.toLower)
    if lower = "http" ∨ lower = "https" then some (some lower, rest)
    else if maxSchemeLength < name.length then none
    else some (some (String.ofList name), rest)
  | _ => some (none, text)

/-- What has been seen of an authority. -/
structure AuthorityScan where
  /-- Colons since the last `@` or closing bracket. -/
  colons : Nat
  opened : Bool
  closed : Bool
  /-- A percent sign since the last `@` or closing bracket. -/
  percent : Bool
  /-- The last character is `@`. -/
  atSign : Bool
  deriving DecidableEq, Repr

/-- One character more. Percent signs are only for user information and what stands in brackets. -/
def AuthorityScan.step (s : AuthorityScan) (c : Char) : Option AuthorityScan :=
  let s := { s with atSign := false }
  if c = ':' then if s.colons < maxColons then some { s with colons := s.colons + 1 } else none
  else if c = '[' then if s.percent || s.opened then none else some { s with opened := true }
  else if c = ']' then
    if !s.opened || s.closed then none
    else some { s with closed := true, colons := 0, percent := false }
  else if c = '@' then some { s with atSign := true, colons := 0, percent := false }
  else if c = '%' then some { s with percent := true }
  else if isAuthorityChar c then some s
  else none

def isAuthority (text : List Char) : Bool :=
  match text.foldlM AuthorityScan.step
      { colons := 0, opened := false, closed := false, percent := false, atSign := false } with
  | none => false
  | some s => s.opened == s.closed && s.colons ≤ 1 && !s.atSign && !s.percent

/-- A path and an optional query; a fragment is cut off. -/
def pathAndQuery? (text : List Char) : Option (String × Option String) :=
  let path := text.takeWhile fun c => c ≠ '?' ∧ c ≠ '#'
  if !path.all isPathChar then none
  else
    match text.drop path.length with
    | '?' :: rest =>
      let query := rest.takeWhile (· ≠ '#')
      if query.all isQueryChar then some (String.ofList path, some (String.ofList query)) else none
    | _ => some (String.ofList path, none)

/-- An address with a scheme, of which the text after `://` is given. -/
def absolute? (scheme : String) (text : List Char) : Option Uri :=
  let authority := text.takeWhile fun c => !endsAuthority c
  if authority.isEmpty || !isAuthority authority then none
  else (pathAndQuery? (text.drop authority.length)).map fun (path, query) =>
    { scheme := some scheme, authority := String.ofList authority,
      path := if path.isEmpty then "/" else path, query }

/-- **A text as a request target.** -/
def ofString? (s : String) : Option Uri :=
  if maxLength < s.utf8ByteSize then none
  else
    match s.toList with
    | [] => none
    | ['*'] => some { scheme := none, authority := "", path := "*", query := none }
    | '/' :: rest => (pathAndQuery? ('/' :: rest)).map fun (path, query) =>
      { scheme := none, authority := "", path, query }
    | text =>
      match splitScheme? text with
      | none => none
      | some (some scheme, rest) => absolute? scheme rest
      | some (none, _) =>
        if isAuthority text then some { scheme := none, authority := s, path := "", query := none }
        else none

/-! ## Parts and writing -/

/-- What follows the last `@`. -/
def afterUserInfo (authority : List Char) : List Char :=
  (authority.reverse.takeWhile (· ≠ '@')).reverse

/-- The host of an authority. Brackets belong to it, the port does not. -/
def hostOf (authority : List Char) : List Char :=
  match afterUserInfo authority with
  | '[' :: rest => '[' :: rest.takeWhile (· ≠ ']') ++ [']']
  | text => text.takeWhile (· ≠ ':')

def host? (u : Uri) : Option String :=
  if u.authority.isEmpty then none else some (String.ofList (hostOf u.authority.toList))

/-- **The target as text.** -/
def display (u : Uri) : String :=
  (match u.scheme with
    | some scheme => scheme ++ "://"
    | none => "")
  ++ u.authority ++ u.path
  ++ (match u.query with
    | some query => "?" ++ query
    | none => "")

end Uri
end Gatehouse.Http
