import RemoteTree.Error
import RemoteTree.Http.Message

/-!
# What a redirect does to the headers

The client changes the headers of a request on its way through redirects: it drops the
authorization when the host changes. A policy sees every request before it is sent again.

* `Policy`: the two policies.
* `Policy.restore`: puts the headers of the first request of a chain back on a later one. Headers
  that frame the body of the first request are left out, for the later one has a body of its own
  or none.
* `Policy.hopLimit`: how many redirects are followed.
* `Policy.apply`: a policy at work.
-/

namespace RemoteTree

/-- What is done with a request before it follows a redirect. -/
inductive Policy where
  /-- The headers of the first request are put back, and the redirects are counted. -/
  | restoring
  /-- The request is left as it is, however many there have been. -/
  | passing
deriving DecidableEq

namespace Policy

/-- The number of redirects that are followed. -/
def hopLimit : Nat := 30

/-- The headers that frame the body of the request they stand on. -/
def framing : List Text := ["content-length", "transfer-encoding"]

/-- Whether a header frames the body of its request. -/
def isFraming (name : Text) : Bool := framing.contains name.lower

/-- The headers of the next request when the requests with headers `via` have been sent, the
first one first; `none` if those are too many. -/
def restore (next : Headers) (via : List Headers) : Option Headers :=
  match via with
  | [] => some next
  | first :: _ =>
    if hopLimit < via.length then none
    else some (next.setAll (first.filter fun e => !isFraming e.1))

/-- The request that follows the redirects that answered the requests `via`. -/
def apply (p : Policy) (next : Request) (via : List Request) : Except Error Request :=
  match p with
  | .passing => .ok next
  | .restoring =>
    match restore next.headers (via.map Request.headers) with
    | some headers => .ok { next with headers }
    | none => .error (.tooManyRedirects via.length)

end Policy

end RemoteTree
