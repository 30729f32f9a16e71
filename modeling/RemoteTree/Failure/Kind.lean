/-!
# Kinds of failures

A failure is of a class, which has a name and comes from one of the layers that a request goes
through. What the library decides about a failure it decides by its class alone.

* `Kind.isTimeout`, `Kind.isNewConnection`: the two facts that classification rests on.
* `Kind.isClientError`: the failures that count as failures of the request.
* `Kind.whileReading`: what a failure of the connection becomes while a body is read.
-/

namespace RemoteTree.Failure

/-- The layer that a class of failures comes from. -/
inductive Origin where
  /-- The run-time system and the operating system. -/
  | system
  | socket
  /-- The pool of connections. -/
  | pool
  /-- The client that sends requests over the pool. -/
  | client
  /-- The reader and writer of JSON. -/
  | json
  /-- This library. -/
  | library
deriving DecidableEq

/-- A class of failures. -/
structure Kind where
  origin : Origin
  name : String
deriving DecidableEq

namespace Kind

/-- Classes of the client that are timeouts. -/
def clientTimeouts : List String := ["Timeout", "ConnectTimeout", "ReadTimeout"]

/-- Classes of the pool that are failures to get a new connection. -/
def newConnections : List String := ["NewConnectionError", "NameResolutionError"]

/-- Classes of the pool that are timeouts, failures to get a new connection among them. -/
def poolTimeouts : List String :=
  ["TimeoutError", "ReadTimeoutError", "ConnectTimeoutError"] ++ newConnections

/-- Whether the class is one of timeouts. -/
def isTimeout (k : Kind) : Bool :=
  match k.origin with
  | .client => clientTimeouts.contains k.name
  | .pool => poolTimeouts.contains k.name
  | .system => k.name == "TimeoutError"
  | .socket => k.name == "timeout"
  | .json | .library => false

/-- Whether the class is one of failures to get a new connection. -/
def isNewConnection (k : Kind) : Bool := k.origin == .pool && newConnections.contains k.name

/-- Whether a failure of the class makes a request time out: a timeout other than the failure to
get a new connection, which was refused or has no address. -/
def counts (k : Kind) : Bool := k.isTimeout && !k.isNewConnection

/-- Classes of the client that warn and are no failures of a request. -/
def clientWarnings : List String :=
  ["RequestsWarning", "FileModeWarning", "RequestsDependencyWarning"]

/-- Whether the class is one of failed requests. -/
def isClientError (k : Kind) : Bool := k.origin == .client && !clientWarnings.contains k.name

/-- Classes of the pool that are violations of the protocol. -/
def protocolErrors : List String := ["ProtocolError", "ResponseNotChunked"]

/-- The class of the client that a failure of the pool is turned into while a body is read. Every
other failure comes out as it is. -/
def whileReading (k : Kind) : Option Kind :=
  if k.origin ≠ .pool then none
  else if protocolErrors.contains k.name then some ⟨.client, "ChunkedEncodingError"⟩
  else if k.name = "DecodeError" then some ⟨.client, "ContentDecodingError"⟩
  else if k.name = "ReadTimeoutError" then some ⟨.client, "ConnectionError"⟩
  else if k.name = "SSLError" then some ⟨.client, "SSLError"⟩
  else none

/-- Whether a failure of the class while the body of a redirect is read is passed over. -/
def isPassedOver (k : Kind) : Bool :=
  match k.origin with
  | .client => ["ChunkedEncodingError", "ContentDecodingError"].contains k.name
  | .system => ["RuntimeError", "RecursionError", "NotImplementedError"].contains k.name
  | _ => false

/-- Classes of the client that are errors about a value or a type as well. -/
def clientShapeErrors : List String :=
  ["InvalidURL", "InvalidProxyURL", "InvalidHeader", "InvalidSchema", "MissingSchema",
    "JSONDecodeError", "StreamConsumedError"]

/-- Classes of the pool that are errors about a value as well. -/
def poolShapeErrors : List String :=
  ["LocationValueError", "LocationParseError", "URLSchemeUnknown", "ProxySchemeUnknown",
    "ProxySchemeUnsupported", "ResponseNotChunked"]

/-- Whether a failure of the class means that a value had the wrong shape: a wrong type, a wrong
value or a missing key. -/
def isWrongShape (k : Kind) : Bool :=
  match k.origin with
  | .system => ["TypeError", "ValueError", "KeyError", "UnicodeError", "UnicodeDecodeError",
      "UnicodeEncodeError", "UnicodeTranslateError"].contains k.name
  | .json => true
  | .client => clientShapeErrors.contains k.name
  | .pool => poolShapeErrors.contains k.name
  | .socket | .library => false

end Kind

end RemoteTree.Failure
