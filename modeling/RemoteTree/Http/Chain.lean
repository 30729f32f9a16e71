import RemoteTree.Http.NoResponse
import RemoteTree.Http.Policy
import RemoteTree.Http.Redirect

/-!
# Chains of redirects

An operation on the database sends a request, and where that is answered with a redirect another
one, until an answer comes that is none. A chain is what such an operation knows while it waits
for a reply; it is fed with one reply at a time and never looks at anything else.

* `Chain`: the requests that were answered with a redirect, and the one that is sent next.
* `Chain.feed`: what a reply makes of a chain.
* `Chain.isSendable`: whether the client has a way of sending the next request.
-/

namespace RemoteTree

/-- The requests that were answered with a redirect, the first one first, and the next one. -/
structure Chain where
  via : List Request
  current : Request

/-- Whether the client has a way of sending requests to a url. -/
def Url.isHttp (url : Text) : Bool :=
  let url := Text.lowerAscii url
  (Text.ofString "http://").isPrefixOf url || (Text.ofString "https://").isPrefixOf url

/-- What a chain becomes. -/
inductive Progress where
  /-- It has come to an end, without an answer. -/
  | stopped (why : Stop)
  /-- It has come to an answer. -/
  | answered (a : Answer)
  /-- It goes on, to follow a response with the status. -/
  | followed (status : Int) (next : Chain)

/-- What a reply does: whether its response has been released (`none` for no response), the number
of requests that the policy was shown, if it was asked, and what the chain becomes. -/
structure Turn where
  released : Option Bool
  shown : Option Nat
  progress : Progress

namespace Chain

/-- Chains begin with a single request. -/
def start (r : Request) : Chain := ⟨[], r⟩

/-- Whether the client has a way of sending the next request. -/
def isSendable (c : Chain) : Bool := Url.isHttp c.current.url

/-- The end of a chain whose next request cannot be sent. -/
def unsendable (c : Chain) : Stop :=
  .ofFailure (.simple ⟨.client, "InvalidSchema"⟩
    [.text ("No connection adapters were found for " ++ c.current.url.quoted)])

/-- The body of a redirect is read before it is followed. Some failures are passed over. -/
def skipBody (r : Response) : Except Stop Unit :=
  match r.read with
  | .ok _ => .ok ()
  | .error f => if f.kind.isPassedOver then .ok () else .error (.ofFailure f)

/-- What is known of a redirect before its response is released: the place, and the parts of the
current url. -/
def lookAhead (c : Chain) (r : Response) (place : Text) : Except Stop (Text × Url.Parts) := do
  let place ← (Response.readPlace place).mapError Stop.error
  let now ← (Url.split c.current.url).mapError fun f => Stop.error (.brokenUrl f)
  skipBody r
  return (place, now)

/-- Follows a redirect. -/
def follow (p : Policy) (c : Chain) (r : Response) (place : Text) : Turn :=
  match lookAhead c r place with
  | .error why => ⟨some false, none, .stopped why⟩
  | .ok (place, now) =>
    match c.current.redirected now r.status place with
    | .error e => ⟨some true, none, .stopped (.error e)⟩
    | .ok next =>
      let via := c.via ++ [c.current]
      match p.apply next via with
      | .error e => ⟨some true, some via.length, .stopped (.error e)⟩
      | .ok next => ⟨some true, some via.length, .followed r.status ⟨via, next⟩⟩

/-- Takes a response that is no redirect. -/
def finish (r : Response) : Turn :=
  match r.read with
  | .error f => ⟨some true, none, .stopped (.ofFailure f)⟩
  | .ok body => ⟨some true, none, .answered ⟨r.status, r.headers, body⟩⟩

/-- What a reply makes of a chain: a stop in the place of a response ends it, a redirect is
followed, and any other response is the answer. -/
def feed (p : Policy) (c : Chain) : Except Stop Response → Turn
  | .error why => ⟨none, none, .stopped why⟩
  | .ok r =>
    match r.place? with
    | some place => c.follow p r place
    | none => finish r

end Chain

end RemoteTree
