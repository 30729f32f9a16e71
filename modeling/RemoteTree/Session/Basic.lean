import RemoteTree.Http.Chain
import RemoteTree.Json.Conversion
import RemoteTree.Log.Level
import RemoteTree.Reference.Derivation
import RemoteTree.Session.Registry
import RemoteTree.Timeout.Attempt
import RemoteTree.Timeout.Default

/-!
# Sessions

A session is a client at work: references and stores with their names, the database on the other
side, and what has been seen of the two so far. The database replies from a script, one reply for
each request, and while it makes up its mind other steps of the client may run.

* `Step`, `Action`: what a client does.
* `Reply`, `Script`: what the database does.
* `Session`: the state between two steps.
* `Session.resolve`: the url that a reference stands for, with the token of its store.
-/

namespace RemoteTree

/-- What is done with a reference. -/
inductive Action where
  | derive (d : Derivation) (as : Text)
  /-- Creates a child with a generated name. -/
  | push (value : Value) (as : Text)
  | setUrl (url : Value)
  | setTimeout (seconds : Value)
  | auth (token : Value)
  | unauth
  | shallow (on : Bool)
  | includePriority (on : Bool)
  /-- Takes the token from a store from now on, or from none. -/
  | bind (store : Option Text)
  | url
  | timeout
  | resolve
  | literal
  /-- The names of the store that the token is taken from. -/
  | storeNames
  /-- Whether another reference sends its requests through the same channel. -/
  | sharesChannel (other : Text)
  | request (m : Method) (payload : Body) (headers : List (Text × Value))
  | set (value : Value)
  | update (value : Value)
  | remove
  | value (into : Option Conversion)

/-- What a client does. -/
inductive Step where
  /-- Makes a reference, with a timeout of its own and through a channel of its own if wanted. -/
  | reference (as : Text) (url : Value) (timeout : Option Value) (own : Bool)
  /-- Makes a store for a token. -/
  | store (as : Text) (token : Value)
  | setToken (store : Text) (token : Value)
  | token (store : Text)
  | storeLiteral (store : Text)
  /-- Closes the channel that references share, which can still be used afterwards. -/
  | close
  /-- Does something with a reference. -/
  | act (on : Text) (a : Action)

/-- A reply of the database: what happens before it, and the response or the failure. -/
structure Reply where
  meanwhile : List Step
  outcome : Except Failure Response

/-- The replies in order. The last one is given again and again. -/
structure Script where
  next : Reply
  later : List Reply

/-- The script after one reply. -/
def Script.advance (s : Script) : Script :=
  match s.later with
  | [] => s
  | r :: rest => ⟨r, rest⟩

/-- The number of replies until the last one repeats itself. -/
def Script.length (s : Script) : Nat := s.later.length + 1

/-- Whom a channel trusts: the usual authorities, or those of a file. -/
inductive Trust where
  | usual
  | bundle (path : Text)

/-- The trust that two settings of the environment say, the first one first; an empty one says
nothing. -/
def Trust.ofSettings (first second : Option Text) : Trust :=
  match first, second with
  | some (c :: t), _ => .bundle (c :: t)
  | _, some (c :: t) => .bundle (c :: t)
  | _, _ => .usual

/-- A request that was sent: the seconds that it got, whom the channel trusted, and whether its
response has been released (`none` for no response). -/
structure Sent where
  request : Request
  seconds : Option Value
  trust : Trust
  released : Option Bool

/-- The loggers of the library. -/
inductive Source where
  /-- What has been done. -/
  | client
  /-- What goes over the wire. -/
  | wire
deriving DecidableEq

/-- A line of the log. -/
structure LogLine where
  level : Int
  source : Source
  message : Text
deriving DecidableEq

/-- A client at work. -/
structure Session where
  references : Registry Reference
  stores : Registry Value
  /-- The number of channels made so far; the first one is shared. -/
  channels : Nat
  /-- How often the way of sending of the shared channel has been closed. -/
  closings : Nat
  script : Script
  policy : Policy
  /-- The level of the loggers. -/
  level : Int
  timeouts : Timeout.Settings
  trust : Trust
  /-- All requests so far. -/
  sent : List Sent
  /-- All lines of the log so far. -/
  log : List LogLine
  /-- The number of requests that the policy was shown, each time it was asked. -/
  shown : List Nat

namespace Session

/-- The session before the first step. -/
def start (script : Script) (policy : Policy) (level : Int) (timeouts : Timeout.Settings)
    (trust : Trust) : Session :=
  ⟨.empty, .empty, 1, 0, script, policy, level, timeouts, trust, [], [], []⟩

/-- The token that the store of a reference holds. -/
def token? (s : Session) (r : Reference) : Option Value := r.store.bind s.stores.get?

/-- The url that requests of a reference are sent to. -/
def resolve (s : Session) (r : Reference) : Except Error Text := r.resolve (s.token? r)

/-- The session with a line in the log, if the loggers take lines of the level. -/
def note (s : Session) (level : Int) (source : Source) (message : Text) : Session :=
  if Log.admits s.level level then { s with log := s.log ++ [⟨level, source, message⟩] } else s

/-- The session with a request sent. -/
def record (s : Session) (r : Request) (seconds : Option Value) : Session :=
  { s with sent := s.sent ++ [⟨r, seconds, s.trust, none⟩] }

/-- The session with the release of the response to the request at a place. -/
def release (s : Session) (place : Nat) (released : Option Bool) : Session :=
  { s with sent := s.sent.modify place fun x => { x with released } }

/-- The session with the policy asked. -/
def ask (s : Session) (shown : Option Nat) : Session := { s with shown := s.shown ++ shown.toList }

end Session

end RemoteTree
