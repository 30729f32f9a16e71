import RemoteTree.Failure.Graph
import RemoteTree.Http.Headers
import RemoteTree.Http.Method

/-!
# Requests and responses

* `Request`: a request as it goes over the wire.
* `Response`: a response as it arrives. Its body comes in a stream that may break off.
* `Response.read`: the whole body, or the failure that the stream broke off with, as the client
  shows it. A response without a status has no body.
-/

namespace RemoteTree

/-- What a request carries. -/
inductive Body where
  | none
  | text (t : Text)
  | bytes (bs : Bytes)
deriving DecidableEq

/-- What is carried for a payload: an empty one is none. -/
def Body.trimmed : Body → Body
  | .text [] | .bytes [] => .none
  | b => b

/-- A request as it goes over the wire. -/
structure Request where
  method : Method
  url : Text
  headers : Headers
  body : Body

/-- A response as it arrives: the bytes of its body, and the failure that comes after them if the
stream breaks off. -/
structure Response where
  status : Int
  headers : Headers
  body : Bytes
  broken : Option Failure

/-- A failure of the connection as the client shows it when it reads a body. -/
def Failure.whileReading (f : Failure) : Failure :=
  match f.kind.whileReading with
  | some k => f.wrap k
  | none => f

/-- The status of a response that has none. Its body is not read. -/
def noStatus : Int := 0

/-- The whole body, or what the stream broke off with. The stream of a response without a status
is left alone. -/
def Response.read (r : Response) : Except Failure Bytes :=
  if r.status = noStatus then .ok []
  else
    match r.broken with
    | none => .ok r.body
    | some f => .error f.whileReading

/-- A response that has been read to its end. -/
structure Answer where
  status : Int
  headers : Headers
  body : Bytes

/-- Whether an answer reports success. -/
def Answer.isSuccess (a : Answer) : Bool := a.status.fdiv 100 == 2

end RemoteTree
