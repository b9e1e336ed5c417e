/-
Calls that this service makes itself.

They are recorded like the exchanges it serves, with their own origin. A call needs an absolute
target, or an authority when it asks for a tunnel; anything else fails before a connection is tried.
-/
import Gatehouse.Traffic.Recording

set_option autoImplicit false

namespace Gatehouse.Traffic

open Gatehouse.Http

/-- Why a call failed. -/
inductive CallError where
  /-- The target names no server. -/
  | absoluteUriRequired
  /-- No connection to the server. -/
  | connect
  deriving DecidableEq, Repr

def CallError.message : CallError → String
  | .absoluteUriRequired => "client error (UserAbsoluteUriRequired)"
  | .connect => "client error (Connect)"

/-- Whether a target names a server for a method. -/
def namesServer (method : Method) (uri : Uri) : Bool :=
  !uri.authority.isEmpty && (uri.scheme.isSome || method == Method.connect)

/-- **What is emitted when a call fails** with nothing read of its body, because the target names no
server or because the server is out of reach. -/
def Recorder.failedCall (r : Recorder) (request : Request) (now : Nat) : CallError × Emission :=
  let error : CallError :=
    if namesServer request.method request.uri then .connect else .absoluteUriRequired
  if r.shouldRecord request.method request.uri.path then
    let exchange : RecordedExchange Body Body :=
      RecordedExchange.start r .outbound request request.body now
    let emission := exchange.failed r error.message
    (error,
      { emission with diagnostics := .outboundFailed error.message :: emission.diagnostics })
  else (error, .none)

end Gatehouse.Traffic
