import RemoteTree.Error

/-!
# Requests without a response

* `NoResponse`: that a request got no response, for want of time or for another reason, with the
  failure behind it.
* `Failure.trouble`: which of the two a failure is.
* `Stop`: why a request is not answered; failures of the client mean that there is no response.
-/

namespace RemoteTree

/-- The two reasons for getting no response. -/
inductive Trouble where
  | timeout | network
deriving DecidableEq

/-- The name of a reason. -/
def Trouble.name : Trouble → String
  | .timeout => "timeout"
  | .network => "network"

/-- The reason that a failure is. -/
def Failure.trouble (f : Failure) : Trouble := if f.isTimeout then .timeout else .network

/-- A request got no response: the reason, the failure behind it, and its text. -/
structure NoResponse where
  trouble : Trouble
  cause : Failure
  said : Text

namespace NoResponse

/-- No response for a reason. The text of the failure is taken at once. -/
def make (trouble : Trouble) (cause : Failure) : Except Error NoResponse :=
  match cause.message with
  | .ok said => .ok ⟨trouble, cause, said⟩
  | .error f => .error (.ofPrintFault f)

/-- The text: the reason and the failure. -/
def message (n : NoResponse) : Text := Text.ofString n.trouble.name ++ ": " ++ n.said

end NoResponse

/-- Why a request is not answered: it got no response, or an error came out as it is. -/
inductive Stop where
  | noResponse (n : NoResponse)
  | error (e : Error)

namespace Stop

/-- The stop that a failure of the client is; other failures come out as they are. -/
def ofFailure (f : Failure) : Stop :=
  if f.kind.isClientError then
    match NoResponse.make f.trouble f with
    | .ok n => .noResponse n
    | .error e => .error e
  else .error (.failure f)

/-- The stop that an error is which arises before the reply: one of the client counts as a failure
of the request that waits, and others come out as they are. -/
def ofError (e : Error) : Stop :=
  if e.kind.isClientError then ofFailure (.simple e.kind [.text e.message]) else .error e

end Stop

end RemoteTree
