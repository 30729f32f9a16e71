import RemoteTree.Error
import RemoteTree.Http.Message
import RemoteTree.Text.Base64

/-!
# The first request

What the client makes of a method, a url, headers and a payload. The url gets the form in which it
is sent, the headers are checked, the length of the body is written down, and the user named in
the url signs the request.

* `Request.prepare`: the request, or what keeps the client from making it.
* `Headers.given`, `Headers.withLength`: its headers.
-/

namespace RemoteTree

namespace Headers

/-- The headers that a caller gives; those without a value are left out. -/
def given (settings : List (Text × Value)) : Headers :=
  (ofList settings).filter fun e => match e.2 with
    | .none => false
    | _ => true

/-- The headers with the length of the body: a request without a body other than a `GET` says
that its length is zero, unless it says something already. -/
def withLength (h : Headers) (m : Method) : Body → Except EncodeFault Headers
  | .none =>
    .ok (if m = .get || h.has "Content-Length" then h else h.set "Content-Length" (.text "0"))
  | .text t => do
    let bs ← Utf8.encode t
    return h.set "Content-Length" (.text (Text.ofNat bs.length))
  | .bytes bs => .ok (h.set "Content-Length" (.text (Text.ofNat bs.length)))

end Headers

/-- The signature of a user. -/
def Url.signature (user password : Text) : Except EncodeFault Text := do
  let user ← Latin1.encode user
  let password ← Latin1.encode password
  return "Basic " ++ Base64.encode (user ++ [0x3A] ++ password)

/-- The signature of the user that a url names with a password, unless both are empty. -/
def Url.Parts.signature? (p : Url.Parts) : Except EncodeFault (Option Text) :=
  match p.user with
  | some (user, some password) =>
    if user.isEmpty && password.isEmpty then .ok none
    else (Url.signature (Url.Escape.decode user) (Url.Escape.decode password)).map some
  | _ => .ok none

namespace Request

/-- The request that the client makes of what a caller gives. -/
def prepare (m : Method) (url : Text) (settings : List (Text × Value)) (payload : Body) :
    Except Error Request := do
  let target ← (Url.target url).mapError (Error.badTarget url)
  let headers := Headers.given settings
  headers.check.mapError Error.badHeader
  let parts ← (Url.split target).mapError Error.brokenUrl
  let body := payload.trimmed
  let headers ← (headers.withLength m body).mapError Error.encoding
  match ← parts.signature?.mapError Error.encoding with
  | some s => return ⟨m, target, headers.set "Authorization" (.text s), body⟩
  | none => return ⟨m, target, headers, body⟩

end Request

end RemoteTree
