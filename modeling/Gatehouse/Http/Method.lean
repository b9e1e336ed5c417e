/-
Request methods.

A method is a non-empty token: the characters that the HTTP grammar allows in names. Methods are
compared exactly, so `post` is a method of its own, different from `POST`. Configuration that names
methods in any case goes through `Method.ofConfigured?`, which raises the ASCII letters first.
-/
import Gatehouse.Text.Bytes

set_option autoImplicit false

namespace Gatehouse.Http

/-- A character of a token: letters, digits and fifteen marks. -/
def isTokenChar (c : Char) : Bool :=
  c.isAlphanum || "!#$%&'*+-.^_\x60|~".toList.contains c

/-- **Request method,** as it is written on the request line. -/
structure Method where
  token : String
  deriving DecidableEq, Repr

namespace Method

/-- A text as a method, if it is a non-empty token. -/
def ofString? (s : String) : Option Method :=
  if s.toList.isEmpty || !s.toList.all isTokenChar then none else some ⟨s⟩

/-- A method named in a configuration: ASCII letters are raised first. -/
def ofConfigured? (s : String) : Option Method :=
  ofString? (String.ofList (s.toList.map Char.toUpper))

/-- The method of a request that names none. -/
def get : Method := ⟨"GET"⟩

/-- Like `get`, but asks for the head of the answer only. -/
def head : Method := ⟨"HEAD"⟩

def connect : Method := ⟨"CONNECT"⟩

end Method
end Gatehouse.Http
