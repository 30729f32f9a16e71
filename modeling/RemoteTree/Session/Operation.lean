import RemoteTree.Http.Prepare
import RemoteTree.Session.Basic

/-!
# Operations on the database

An operation takes what it needs from its reference when it is issued and sends requests until it
comes to an answer. What happens to the reference in the meantime does not touch it.

* `Session.exchange`: one request and its reply, with the steps in between.
* `Session.attempt`: the next request of a chain, and what the reply makes of the chain.
* `Session.pursue`: a chain from its next request to its end.
* `Session.operate`: an operation of a reference.
-/

namespace RemoteTree

/-- The url without its query, which may carry a token. -/
def Url.withoutQuery (t : Text) : Text := (Text.cut '?' t).1

/-- What the steps between a request and its reply make of a session, and the error that ends them
early, if one does. -/
abbrev Meanwhile := List Step → Session → Session × Except Error Unit

/-- What keeps a response from coming: a failure on the way of the request, or the error of a step
in between. -/
inductive Raised where
  | failure (f : Failure)
  | error (e : Error)

/-- The stop that is made of it. -/
def Raised.stop : Raised → Stop
  | .failure f => .ofFailure f
  | .error e => .ofError e

namespace Session

/-- Sends a request and takes the next reply of the script, after the steps that come before it.
If one of these fails, the reply is lost. -/
def exchange (meanwhile : Meanwhile) (s : Session) (r : Request) (seconds : Option Value) :
    Session × Except Raised Response :=
  let s := s.record r seconds
  let reply := s.script.next
  match meanwhile reply.meanwhile { s with script := s.script.advance } with
  | (s, .error e) => (s, .error (.error e))
  | (s, .ok ()) => (s, reply.outcome.mapError Raised.failure)

/-- The line of the log for a redirect that is followed. -/
def noteHop (s : Session) (status : Int) (c : Chain) : Session :=
  s.note Log.debugLevel .wire ("redirect " ++ Text.ofNat c.via.length ++ " " ++ Text.ofInt status ++
    " " ++ Text.ofString c.current.method.name ++ " " ++ Url.withoutQuery c.current.url)

/-- Sends the next request of a chain and feeds the chain with what comes of it. -/
def attempt (meanwhile : Meanwhile) (seconds : Option Value) (s : Session) (c : Chain) :
    Session × Progress :=
  let place := s.sent.length
  let (s, reply) := s.exchange meanwhile c.current seconds
  let turn := c.feed s.policy (reply.mapError Raised.stop)
  let s := (s.release place turn.released).ask turn.shown
  match turn.progress with
  | .followed status c => (s.noteHop status c, .followed status c)
  | p => (s, p)

/-- Sends the requests of a chain until it comes to its end; at most `fuel` of them. -/
def pursue (meanwhile : Meanwhile) (seconds : Option Value) :
    (fuel : Nat) → Session → Chain → Session × Except Stop Answer
  | 0, s, _ => (s, .error (.error .endlessChain))
  | fuel + 1, s, c =>
    if !c.isSendable then (s, .error c.unsendable)
    else
      match s.attempt meanwhile seconds c with
      | (s, .stopped why) => (s, .error why)
      | (s, .answered a) => (s, .ok a)
      | (s, .followed _ c) => pursue meanwhile seconds fuel s c

/-- The number of requests after which a chain that goes on goes on for ever: the policy has had
its say, and the script repeats itself. -/
def patience (s : Session) : Nat := s.script.length + Policy.hopLimit + 2

/-- The error of an operation that got no answer. -/
def failed (m : Method) (r : Reference) : Stop → Error
  | .error e => e
  | .noResponse n =>
    match n.trouble with
    | .network => .unreached m r.url n.said n.cause
    | .timeout =>
      match r.timeout.plain with
      | .ok seconds => .timedOut m r.url seconds n.said n.cause
      | .error f => .digits f

/-- The error that an answer other than success is. -/
def refusal (a : Answer) : Error :=
  if a.status = noStatus then .bodiless
  else .refused a.status (Utf8.decodeLossy a.body) a.headers

/-- Judges an answer by its status. -/
def judge (s : Session) (m : Method) (r : Reference) (a : Answer) : Session × Except Error Answer :=
  if a.isSuccess then (s, .ok a)
  else
    (s.note Log.errorLevel .client
      (Text.ofString m.name ++ " " ++ r.url ++ " " ++ Text.ofInt a.status), .error (refusal a))

/-- The line of the log for the first request of an operation. -/
def noteFirst (s : Session) (m : Method) (target : Text) : Session :=
  s.note Log.debugLevel .wire (Text.ofString m.name ++ " " ++ Url.withoutQuery target)

/-- Sends the first request of an operation and follows where it leads. `r` is the reference as
it is when the operation is issued. -/
def submit (meanwhile : Meanwhile) (s : Session) (m : Method) (r : Reference) (target : Text)
    (first : Request) : Session × Except Error Answer :=
  let s := s.noteFirst m target
  match Timeout.attempt r.timeout with
  | .error why => (s, .error (failed m r why))
  | .ok seconds =>
    match s.pursue meanwhile seconds s.patience (Chain.start first) with
    | (s, .error why) => (s, .error (failed m r why))
    | (s, .ok a) => s.judge m r a

/-- The first request of an operation, with the url that it is made for. -/
def firstRequest (s : Session) (r : Reference) (m : Method) (payload : Body)
    (headers : List (Text × Value)) : Except Error (Text × Request) := do
  let target ← s.resolve r
  return (target, ← Request.prepare m target headers payload)

/-- An operation of a reference as it is now. -/
def operate (meanwhile : Meanwhile) (s : Session) (r : Reference) (m : Method) (payload : Body)
    (headers : List (Text × Value)) : Session × Except Error Answer :=
  match s.firstRequest r m payload headers with
  | .error e => (s, .error e)
  | .ok (target, first) => s.submit meanwhile m r target first

end Session

end RemoteTree
