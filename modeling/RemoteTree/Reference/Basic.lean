import RemoteTree.Reference.Parameter
import RemoteTree.Url.Base
import RemoteTree.Url.Parts

/-!
# References

A reference names one location of a database and carries what is needed to talk to it. A reference
that is derived from another begins as a copy and goes its own way; what the two share is only the
channel that requests go through and the store of tokens that they are bound to.

* `Reference.resolve`: the url that requests are sent to.
* `Reference.copy`: the copy that every derivation begins with.
* `Reference.child`, `Reference.atPath`: another location of the same database.
* `Reference.origin`: the root of the database.
-/

namespace RemoteTree

/-- A location and what is needed to talk to it. -/
structure Reference where
  url : Text
  /-- The channel that requests go through, by number. -/
  channel : Nat
  /-- The seconds that an attempt gets, or none. -/
  timeout : Value
  /-- The store that the token is taken from, by number. -/
  store : Option Nat
  parameters : Parameters

namespace Reference

/-- A reference to a url. -/
def make (url : Text) (channel : Nat) (timeout : Value) : Reference :=
  ⟨Url.base url, channel, timeout, none, .empty⟩

/-- The parameters that go with a request while the bound store holds `token`, which takes the
place of a token of the reference's own. -/
def effective (r : Reference) (token : Option Value) : Parameters :=
  match token with
  | some t => r.parameters.set .auth t
  | none => r.parameters

/-- The url that requests are sent to while the bound store holds `token`. -/
def resolve (r : Reference) (token : Option Value) : Except Error Text := do
  let query ← (r.effective token).query
  return r.url ++ "/.json" ++ query

/-- The text of a reference inside a message. -/
def literal (r : Reference) : Text := "Reference(" ++ r.url.quoted ++ ")"

/-- The copy that derivations begin with. Its url is put into the form of a base once more. -/
def copy (r : Reference) : Reference := { r with url := Url.base r.url }

/-- The pieces between the slashes of a path, without the empty ones. -/
def segments (path : Text) : List Text := (Text.pieces '/' path).filter fun s => !s.isEmpty

/-- The location below a url along some segments. -/
def below (url : Text) (path : List Text) : Text :=
  if path.isEmpty then url else url ++ "/" ++ Text.join "/" path

/-- The child at a path. Slashes around the path and repeated ones do not count. -/
def child (r : Reference) (path : Text) : Reference :=
  let c := r.copy
  { c with url := below c.url (segments path) }

/-- The child of a single name, taken as it is. -/
def named (r : Reference) (name : Text) : Reference :=
  let c := r.copy
  { c with url := c.url ++ "/" ++ name }

/-- The root of the database: scheme and host of the url. -/
def origin (r : Reference) : Except Error Text :=
  match Url.split r.url with
  | .error why => .error (.unparsable r.url why)
  | .ok parts =>
    if parts.scheme.isEmpty || parts.authority.isEmpty then .error (.rootless r.url)
    else .ok (parts.scheme ++ "://" ++ parts.authority)

/-- The location at a path from the root `origin` of the database. -/
def atPath (r : Reference) (origin path : Text) : Reference :=
  { r.copy with url := Url.base (origin ++ "/" ++ Text.trim (· == '/') path) }

/-- The reference with a value for a parameter. -/
def withParameter (r : Reference) (p : Parameter) (v : Value) : Reference :=
  { r with parameters := r.parameters.set p v }

/-- The reference without a parameter. -/
def withoutParameter (r : Reference) (p : Parameter) : Reference :=
  { r with parameters := r.parameters.clear p }

/-- The reference with a parameter that is on or off. -/
def withFlag (r : Reference) (p : Parameter) (word : Text) (on : Bool) : Reference :=
  if on then r.withParameter p (.text word) else r.withoutParameter p

/-- Whether values are cut off below the first level. -/
def withShallow (r : Reference) (on : Bool) : Reference := r.withFlag .shallow "true" on

/-- Whether priorities come along with the data. -/
def withPriority (r : Reference) (on : Bool) : Reference := r.withFlag .format "export" on

end Reference

end RemoteTree
