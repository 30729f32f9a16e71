import RemoteTree.Failure.Kind

/-!
# The library's own failures

* `Family`: the families that they come in, and `Family.ancestors`: those that a family belongs to.
* `Family.miscounts?`: the arguments that a failure of a family takes.
-/

namespace RemoteTree.Failure

/-- A family of the library's own failures. -/
inductive Family where
  /-- Every failure of the library. -/
  | error
  /-- Something went wrong on this side, where it can be mended. -/
  | localError
  | configuration
  | malformedUrl
  | serialization
  /-- The database could not be reached. -/
  | couldNotReach
  | timeout
  | transport
  | tooManyRedirects
  /-- The database answered with a status other than success. -/
  | remote
deriving DecidableEq

namespace Family

/-- All families. -/
def all : List Family :=
  [.error, .localError, .configuration, .malformedUrl, .serialization, .couldNotReach, .timeout,
    .transport, .tooManyRedirects, .remote]

/-- The name of a family, as messages show it. -/
def name : Family → String
  | .error => "FirelibError"
  | .localError => "LocalError"
  | .configuration => "ConfigurationError"
  | .malformedUrl => "MalformedURLError"
  | .serialization => "SerializationError"
  | .couldNotReach => "CouldNotReachError"
  | .timeout => "TimeoutError"
  | .transport => "TransportError"
  | .tooManyRedirects => "TooManyRedirectsError"
  | .remote => "RemoteError"

/-- The kind of the failures of a family. -/
def kind (f : Family) : Kind := ⟨.library, f.name⟩

/-- The family with a name. -/
def ofName? (s : String) : Option Family := all.find? fun f => f.name == s

/-- The families that a family belongs to, the narrowest first. -/
def ancestors : Family → List Family
  | .error => []
  | .localError | .couldNotReach | .remote => [.error]
  | .configuration | .malformedUrl | .serialization => [.localError, .error]
  | .timeout | .transport | .tooManyRedirects => [.couldNotReach, .error]

/-- What is said of a wrong number of arguments. The failure that the database answered with takes a
message, and after it a status and headers if there are any; the others take what they are given. -/
def miscounts? (f : Family) (count : Nat) : Option String :=
  if f ≠ .remote then none
  else if count = 0 then
    some (f.name ++ ".__init__() missing 1 required positional argument: 'message'")
  else if count > 3 then
    some (f.name ++ ".__init__() takes from 2 to 4 positional arguments but " ++
      Nat.repr (count + 1) ++ " were given")
  else none

end Family

end RemoteTree.Failure
