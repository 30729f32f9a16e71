import RemoteTree.Number.Integer
import RemoteTree.Text.Lowercase
import RemoteTree.Text.Quoted
import RemoteTree.Url.Address

/-!
# The parts of a url

* `Url.split`: a url as scheme, authority, path, query and fragment.
* `Parts.text`: the url of its parts.
* `Parts.host`, `Parts.port`, `Parts.user`: what an authority says.
* `Url.Fault`: what keeps a url from being taken apart.
-/

namespace RemoteTree.Url

/-- Why a url has no parts. -/
inductive Fault where
  /-- A bracket lacks its partner, or an address in brackets has neighbours. -/
  | brackets
  | futureAddress
  | bracketedV4
  | notAnAddress (host : Text)
  /-- A character of the authority is equivalent to text with a mark of the url syntax. -/
  | lookalike (authority : Text)
  | portNotNumber (port : Text)
  | portDigits (fault : DigitFault)
  | portOutOfRange
deriving DecidableEq

/-- The wording of a fault. -/
def Fault.message : Fault → Text
  | .brackets => "Invalid IPv6 URL"
  | .futureAddress => "IPvFuture address is invalid"
  | .bracketedV4 => "An IPv4 address cannot be in brackets"
  | .notAnAddress host => host.quoted ++ " does not appear to be an IPv4 or IPv6 address"
  | .lookalike authority =>
    "netloc '" ++ authority ++ "' contains invalid characters under NFKC normalization"
  | .portNotNumber port => "Port could not be cast to integer value as " ++ port.quoted
  | .portDigits f => f.message
  | .portOutOfRange => "Port out of range 0-65535"

/-- A url taken apart. A part that is missing is empty. -/
structure Parts where
  scheme : Text
  authority : Text
  path : Text
  query : Text
  fragment : Text
deriving DecidableEq

/-- The code points, other than the marks themselves, whose compatibility form holds one of the
marks `/`, `?`, `#`, `@` and `:`. -/
def lookalikes : List Nat :=
  [0x2047, 0x2048, 0x2049, 0x2100, 0x2101, 0x2105, 0x2106, 0x2A74, 0xFE13, 0xFE16, 0xFE55, 0xFE56,
    0xFE5F, 0xFE6B, 0xFF03, 0xFF0F, 0xFF1A, 0xFF1F, 0xFF20]

/-- A character of a scheme after its first. -/
def isSchemeChar (c : CodePoint) : Bool :=
  c.isLetterOrDigit || c == '+' || c == '-' || c == '.'

/-- Tab, line feed and carriage return, which a url is read without. -/
def isIgnored (c : CodePoint) : Bool := c.val = 0x09 || c.val = 0x0A || c.val = 0x0D

/-- The scheme of a url in lower case and what follows its colon, if there is one. -/
def takeScheme (t : Text) : Option (Text × Text) :=
  match t.cut ':' with
  | (c :: s, some rest) =>
    if c.isLetter && s.all isSchemeChar then some (Text.lowerAscii (c :: s), rest) else none
  | _ => none

/-- Whether a bracketed host is an address that may stand in brackets. -/
def checkBracketed (host : Text) : Except Fault Unit :=
  match host with
  | c :: t =>
    if c = 'v' then
      let digits := t.takeWhile Address.isHexDigit
      match t.dropWhile Address.isHexDigit with
      | d :: _ :: _ => if !digits.isEmpty && d == '.' then .ok () else .error .futureAddress
      | _ => .error .futureAddress
    else if Address.isV4 host then .error .bracketedV4
    else if Address.isV6 host then .ok ()
    else .error (.notAnAddress host)
  | [] => .error (.notAnAddress host)

/-- Host and port without the user of an authority. -/
def hostAndPort (authority : Text) : Text := (authority.cutLast '@').2

/-- Whether what follows an address in brackets is a port, or nothing. -/
def isPortOrEmpty : Text → Bool
  | [] => true
  | c :: _ => c == ':'

/-- Whether brackets stand in an authority as they should: if there are any, the host is an address,
and if they are around the host, nothing stands before them and only a port behind. -/
def checkBrackets (authority : Text) : Except Fault Unit :=
  match authority.has '[', authority.has ']' with
  | false, false => .ok ()
  | true, true =>
    match (hostAndPort authority).cut '[' with
    | (before, some bracketed) =>
      let (host, behind) := bracketed.cut ']'
      if before.isEmpty && isPortOrEmpty (behind.getD []) then checkBracketed host
      else .error .brackets
    | (info, none) => checkBracketed (info.cut ':').1
  | _, _ => .error .brackets

/-- Whether no character of an authority could be taken for a mark. -/
def checkLookalikes (authority : Text) : Except Fault Unit :=
  if authority.any fun c => lookalikes.contains c.val then .error (.lookalike authority)
  else .ok ()

/-- Whether the character ends an authority. -/
def endsAuthority (c : CodePoint) : Bool := c == '/' || c == '?' || c == '#'

/-- The parts of a url. Blanks and controls in front are dropped, and tabs and line ends anywhere.
Where it names no scheme it has the given one. -/
def splitWith (scheme : Text) (t : Text) : Except Fault Parts := do
  let t : Text := (t.dropWhile fun c => c.val ≤ 0x20).filter fun c => !isIgnored c
  let (scheme, t) := (takeScheme t).getD (scheme, t)
  let (authority, t) : Text × Text :=
    if (Text.ofString "//").isPrefixOf t then
      ((t.drop 2).takeWhile fun c => !endsAuthority c, (t.drop 2).dropWhile fun c => !endsAuthority c)
    else ([], t)
  checkBrackets authority
  let (t, fragment) := t.cut '#'
  let (path, query) := t.cut '?'
  checkLookalikes authority
  return ⟨scheme, authority, path, query.getD [], fragment.getD []⟩

/-- The parts of a url. -/
def split (t : Text) : Except Fault Parts := splitWith [] t

/-- The schemes whose urls have an authority even if it is empty. -/
def withAuthority : List Text :=
  ["ftp", "http", "gopher", "nntp", "telnet", "imap", "wais", "file", "mms", "https", "shttp",
    "snews", "prospero", "rtsp", "rtspu", "rsync", "svn", "svn+ssh", "sftp", "nfs",
    "git", "git+ssh", "ws", "wss"]

namespace Parts

/-- The url of its parts. Empty parts leave no mark, and an empty authority leaves none before a
path with two slashes. -/
def text (p : Parts) : Text :=
  let hasAuthority := !p.authority.isEmpty ||
    (withAuthority.contains p.scheme && !(Text.ofString "//").isPrefixOf p.path)
  let path :=
    if hasAuthority then
      "//" ++ p.authority ++ Text.when (!p.path.isEmpty && p.path.head? != some '/') "/" ++ p.path
    else p.path
  Text.when (!p.scheme.isEmpty) (p.scheme ++ ":") ++ path ++
    Text.when (!p.query.isEmpty) ("?" ++ p.query) ++
    Text.when (!p.fragment.isEmpty) ("#" ++ p.fragment)

/-- Host and port as they stand in the authority. -/
def hostInfo (p : Parts) : Text × Text :=
  let info := hostAndPort p.authority
  match info.cut '[' with
  | (_, some bracketed) =>
    let (host, rest) := bracketed.cut ']'
    (host, (((rest.getD []).cut ':').2).getD [])
  | (_, none) => ((info.cut ':').1, ((info.cut ':').2).getD [])

/-- The host in lower case, the zone of an address apart; `none` if it is empty. -/
def host (p : Parts) : Option Text :=
  let (name, zone) := p.hostInfo.1.cut '%'
  if p.hostInfo.1.isEmpty then none
  else some (name.lower ++ (zone.map fun z : Text => "%" ++ z).getD [])

/-- The port, if there is one. -/
def port (p : Parts) : Except Fault (Option Nat) :=
  let digits := p.hostInfo.2
  if digits.isEmpty then .ok none
  else if !digits.all CodePoint.isDigit then .error (.portNotNumber digits)
  else
    match Integer.ofDigits? false digits with
    | .error f => .error (.portDigits f)
    | .ok n => if n ≤ 65535 then .ok (some n.toNat) else .error .portOutOfRange

/-- User and password, if the authority names a user; the password only if a colon stands
before it. -/
def user (p : Parts) : Option (Text × Option Text) :=
  (p.authority.cutLast '@').1.map fun info => info.cut ':'

end Parts

end RemoteTree.Url
