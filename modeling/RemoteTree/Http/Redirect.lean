import RemoteTree.Error
import RemoteTree.Http.Message
import RemoteTree.Url.Escape
import RemoteTree.Url.Join

/-!
# Following a redirect

What the client makes of a request that was answered with another place to go to.

* `Response.place?`: where a response sends the request, if anywhere.
* `Request.redirected`: the request that goes there.
* `Request.keepsSignature`: whether the next request may carry the signature of the one before.
-/

namespace RemoteTree

/-- The statuses of a redirect. -/
def redirectStatuses : List Int := [301, 302, 303, 307, 308]

/-- The statuses of a redirect that asks for the same request once more. -/
def repeatStatuses : List Int := [307, 308]

/-- Where a response sends the request, as the header says it; an empty place is none. -/
def Response.place? (r : Response) : Option Text :=
  if redirectStatuses.contains r.status then
    match r.headers.get? "Location" with
    | some (.text (c :: t)) => some (c :: t)
    | _ => none
  else none

/-- The characters of a place: headers hold bytes, and those of a place are UTF-8. -/
def Response.readPlace (place : Text) : Except Error Text := do
  let bs ← (Latin1.encode place).mapError Error.encoding
  (Utf8.decode false bs).mapError Error.decoding

/-- The method of the request that follows a redirect. -/
def Method.redirected (m : Method) (status : Int) : Method :=
  if status = 302 ∨ status = 303 then .get
  else if status = 301 ∧ m = .post then .get
  else m

namespace Url

/-- The url of a place that a request for `current` is sent to. A place without a host is taken at
the current url, and one without a fragment keeps the current one. -/
def redirected (current : Text) (now : Parts) (place : Text) : Except Error Text := do
  let place := if (Text.ofString "//").isPrefixOf place then now.scheme ++ ":" ++ place else place
  let parts ← (split place).mapError Error.brokenUrl
  let fragment := if parts.fragment.isEmpty then now.fragment else parts.fragment
  let quoted ←
    (Escape.requote { parts.normalized with fragment }.text).mapError Error.encoding
  if parts.authority.isEmpty then (join current quoted).mapError Error.brokenUrl
  else return quoted

/-- The port of a scheme. -/
def defaultPort (scheme : Text) : Option Nat :=
  if scheme = Text.ofString "http" then some 80
  else if scheme = Text.ofString "https" then some 443
  else none

/-- Whether the port is the one of the scheme, given or not. -/
def isDefaultPort (scheme : Text) (port : Option Nat) : Bool :=
  port.isNone || port == defaultPort scheme

/-- Whether a signature for one url may be shown at another: at the same host, and at the same
port by the same scheme or on the way from `http` to `https` with the ports of both. -/
def mayShow (old new : Parts) : Except Fault Bool := do
  if old.host ≠ new.host then return false
  let oldPort ← old.port
  let newPort ← new.port
  let bothDefault := isDefaultPort old.scheme oldPort && isDefaultPort new.scheme newPort
  if old.scheme = Text.ofString "http" ∧ new.scheme = Text.ofString "https" ∧ bothDefault then
    return true
  if old.scheme ≠ new.scheme then return false
  return bothDefault || oldPort == newPort

end Url

/-- The headers that describe the body of a request. -/
def Headers.describing : List Text := ["Content-Length", "Content-Type", "Transfer-Encoding"]

namespace Request

/-- The headers without the signature, unless it may be shown at the next url. -/
def passSignature (h : Headers) (old new : Url.Parts) : Except Error Headers := do
  if !h.has "Authorization" then return h
  if ← (Url.mayShow old new).mapError Error.brokenUrl then return h
  return h.erase "Authorization"

/-- The request that goes where a response with the status sends it. Only a redirect that asks for
the same request keeps the body. `now` are the parts of the url of the request. -/
def redirected (r : Request) (now : Url.Parts) (status : Int) (place : Text) :
    Except Error Request := do
  let url ← Url.redirected r.url now place
  let next ← (Url.split url).mapError Error.brokenUrl
  let again := repeatStatuses.contains status
  let headers := if again then r.headers else r.headers.eraseAll Headers.describing
  let headers := headers.eraseAll ["Cookie", "Proxy-Authorization"]
  let headers ← passSignature headers now next
  return ⟨r.method.redirected status, url, headers, if again then r.body else .none⟩

end Request

end RemoteTree
