import RemoteTree.Url.Escape
import RemoteTree.Url.Join

/-!
# The target of a request

The url that is sent for a url: scheme and host in lower case, no empty port or user, no dot
segments, a path, and escapes where they are needed and nowhere else.

A host is a name of ASCII, a row of numbers, or an address in brackets. Escapes in a name are brought
into one form, those of controls are refused, and a row of numbers keeps its spelling; versions of the
client that came before this rule leave other escapes as they are written and let those of controls pass.
Left out are names beyond ASCII, which the client would have to write in another form first, and names
in which a blank, a control, a caret or a bar stands without an escape, which some of its versions
escape and send. Here no request can be sent to any of them (`TargetFault.unparsable`).

* `Url.target`: that url, or why no request can be sent to it.
* `Url.hostName`, `Url.bracketed`: the hosts that a request can be sent to, in their normal form.
* `Url.TargetFault`: what is wrong with a url.
-/

namespace RemoteTree.Url

/-- Why no request can be sent to a url. -/
inductive TargetFault where
  /-- The host or the port cannot be read. -/
  | unparsable
  /-- There is no host. -/
  | hostless
  /-- The host begins with a mark that stands for others, or with a dot. -/
  | badLabel
deriving DecidableEq

/-- The wording of a fault of a url. -/
def TargetFault.message (url : Text) : TargetFault → Text
  | .unparsable => "Failed to parse: " ++ url
  | .hostless => "Invalid URL " ++ url.quoted ++ ": No host supplied"
  | .badLabel => "URL has an invalid label."

/-- An authority taken apart: user part, host, port. -/
structure Authority where
  user : Text
  host : Text
  port : Option Nat

/-- The number of an escape with the two digits. -/
def escaped? (d e : CodePoint) : Option Nat := do
  if !(Address.isHexDigit d && Address.isHexDigit e) then none
  return (← Escape.digitValue? d) * 16 + (← Escape.digitValue? e)

/-- What an escape in a host name turns into: a letter of lower case or another unreserved
character, or the escape in upper case. Controls are not escaped in a host. -/
def hostEscape (d e : CodePoint) : Option Text := do
  let n ← escaped? d e
  let c := CodePoint.ofNat n
  if n < 0x20 || n = 0x7F then none
  else if Escape.isUnreserved c then some [c.toLower]
  else some ['%', d.toUpper, e.toUpper]

/-- Whether a character may stand in a host name as it is: those of ASCII that are seen and mark
neither a part of the url nor an escape, but for the caret and the bar. -/
def standsInHost (c : CodePoint) : Bool :=
  c.within 0x21 0x7E && !(Text.ofString "#%/:?@[]^|").contains c && c != .backslash

/-- The normal form of a host name, which has capital letters in its escapes alone and no escapes
of unreserved characters; `none` if some character may not stand in one. -/
def hostName : Text → Option Text
  | [] => some []
  | c :: rest =>
    if c = '%' then
      match rest with
      | d :: e :: rest => do return (← hostEscape d e) ++ (← hostName rest)
      | _ => none
    else if standsInHost c then (hostName rest).map (c.toLower :: ·)
    else none

/-- A number in decimal or, after `0x`, to base 16. -/
def isNumber (t : Text) : Bool :=
  match t with
  | a :: b :: digits =>
    if a = '0' && (b = 'x' || b = 'X') then !digits.isEmpty && digits.all Address.isHexDigit
    else t.all CodePoint.isDigit
  | t => !t.isEmpty && t.all CodePoint.isDigit

/-- Whether a host is written as one to four numbers. Such a host keeps its spelling. -/
def isNumeric (t : Text) : Bool :=
  let parts := t.pieces '.'
  parts.length ≤ 4 && parts.all isNumber

/-- Whether every character of a zone is unreserved or part of an escape that a host may have, and
there is one. -/
def isZone (t : Text) : Bool :=
  !t.isEmpty && (hostName t).isSome && t.all fun c => c == '%' || Escape.isUnreserved c

/-- The zone of an address after its percent sign, which may be written as an escape. -/
def bareZone (t : Text) : Text :=
  if (Text.ofString "25").isPrefixOf t && t.length > 2 then t.drop 2 else t

/-- A bracketed address in its written form: lower case, a zone after a percent sign. -/
def bracketed (t : Text) : Option Text :=
  match t.cut '%' with
  | (address, none) =>
    if Address.isV6With (Address.isQuad Address.isShortNumber) address then
      some ("[" ++ Text.lowerAscii address ++ "]")
    else none
  | (address, some zone) =>
    if Address.isV6With (Address.isQuad Address.isShortNumber) address &&
        isZone (bareZone zone) then
      some ("[" ++ Text.lowerAscii address ++ "%" ++
        Escape.component Escape.isUnreserved (bareZone zone) ++ "]")
    else none

/-- The port after its colon: up to five digits after leading zeros, `none` for no digits. -/
def readPort (t : Text) : Option (Option Nat) :=
  let digits := t.dropWhile fun c => c.val = 0x30
  if t.isEmpty then some none
  else if !t.all CodePoint.isDigit || digits.length > 5 then none
  else
    let n := digits.foldl (fun n c => n * 10 + (c.val - 0x30)) 0
    if n ≤ 65535 then some (some n) else none

/-- The host and the port of an authority without its user part. The host is an address in
brackets or a name; it may be missing. -/
def readHost (t : Text) : Option (Text × Option Nat) :=
  match t with
  | [] => some ([], none)
  | c :: inside =>
    if c = '[' then do
      let (address, after) := Text.cut ']' inside
      let host ← bracketed address
      match ← after with
      | [] => return (host, none)
      | d :: port => if d = ':' then return (host, ← readPort port) else none
    else do
      let (host, port) := Text.cut ':' t
      let port ← (port.map readPort).getD (some none)
      return (← if isNumeric host then some host else hostName host, port)

/-- Whether a host begins with `*` or `.`. -/
def isBadLabel (host : Text) : Bool := host.head? == some '*' || host.head? == some '.'

/-- The parts of an authority that a request can be sent to. -/
def readAuthority (t : Text) : Except TargetFault Authority :=
  let (user, rest) := t.cutLast '@'
  match readHost rest with
  | none => .error .unparsable
  | some (host, port) =>
    if host.isEmpty then .error .hostless
    else if isBadLabel host then .error .badLabel
    else .ok ⟨Escape.component Escape.allowedInUser (user.getD []), host, port⟩

/-- The text of an authority. An empty user part and a port of zero leave no mark. -/
def Authority.text (a : Authority) : Text :=
  Text.when (!a.user.isEmpty) (a.user ++ "@") ++ a.host ++
    (match a.port with
    | some n => Text.when (n != 0) (":" ++ Text.ofNat n)
    | none => [])

/-- Whether the character ends the authority of a target. -/
def endsTarget (c : CodePoint) : Bool := c == '/' || c == '?' || c == '#' || c == .backslash

/-- The parts of the url that is sent for `scheme ++ ":" ++ rest`. -/
def targetParts (scheme rest : Text) : Except TargetFault Parts := do
  if !(Text.ofString "//").isPrefixOf rest then throw .hostless
  let t := rest.drop 2
  let authority ← readAuthority (t.takeWhile fun c => !endsTarget c)
  let t : Text := t.dropWhile fun c => !endsTarget c
  let (t, fragment) := t.cut '#'
  let (path, query) := t.cut '?'
  let path := Escape.component Escape.allowedInPath (removeDots path)
  let path := if path.head? = some '/' then path else "/" ++ path
  let query := Escape.component Escape.allowedInQuery (query.getD [])
  let fragment := Escape.component Escape.allowedInQuery (fragment.getD [])
  return ⟨scheme, authority.text, path, query, fragment⟩

/-- The url that is sent for a url with a scheme, or why no request can be sent to it. -/
def target (t : Text) : Except TargetFault Text := do
  let some (scheme, rest) := takeScheme t | throw .hostless
  let parts ← targetParts scheme rest
  -- all that is left to quote is ASCII, so quoting cannot fail
  (Escape.requote parts.text).mapError fun _ => .unparsable

end RemoteTree.Url
