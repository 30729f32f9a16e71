import RemoteTree.Url.Parts

/-!
# Relative references

The url that a reference means at a url. The last segment of a path may have parameters after a
semicolon; an empty parameter leaves no mark.

* `Url.normalized`: a url after it has been taken apart and put together.
* `Url.join`: the url of a reference at a base.
* `Url.removeDots`: a path without the segments `.` and `..`.
-/

namespace RemoteTree.Url

/-- The schemes whose paths may have parameters. -/
def withParameters : List Text :=
  ["", "ftp", "hdl", "prospero", "http", "imap", "https", "shttp", "rtsp", "rtspu", "sip",
    "sips", "mms", "sftp", "tel"]

/-- The schemes that have relative references. -/
def withRelatives : List Text :=
  ["", "ftp", "http", "gopher", "nntp", "imap", "wais", "file", "https", "shttp", "mms", "prospero",
    "rtsp", "rtspu", "sftp", "svn", "svn+ssh", "ws", "wss"]

/-- Path and parameters: the latter follow the first semicolon of the last segment. -/
def cutParameters (scheme path : Text) : Text × Text :=
  if !withParameters.contains scheme then (path, [])
  else
    let (directory, last) := path.cutLast '/'
    let (name, parameters) := last.cut ';'
    ((directory.map fun d => d ++ Text.ofString "/").getD [] ++ name, parameters.getD [])

/-- Puts parameters after a path. -/
def withParameter (path parameters : Text) : Text :=
  if parameters.isEmpty then path else path ++ ";" ++ parameters

/-- Parts whose path has lost an empty parameter. -/
def Parts.normalized (p : Parts) : Parts :=
  let (path, parameters) := cutParameters p.scheme p.path
  { p with path := withParameter path parameters }

/-- The segments that remain when `..` takes away the one before it and `.` nothing. The segments
done so far come in reverse order. -/
def resolveDots : (done : List Text) → List Text → List Text
  | done, [] => done.reverse
  | done, s :: rest =>
    if s = Text.ofString ".." then resolveDots done.tail rest
    else if s = Text.ofString "." then resolveDots done rest
    else resolveDots (s :: done) rest

/-- Whether a segment is `.` or `..`. -/
def isDots (s : Text) : Bool := s == Text.ofString "." || s == Text.ofString ".."

/-- The segments without the empty ones between the first and the last. -/
def dropInnerEmpty : List Text → List Text
  | [] => []
  | [s] => [s]
  | s :: rest => s :: (rest.dropLast.filter fun x => !x.isEmpty) ++ rest.getLast?.toList

/-- The path of a relative reference at a base path. -/
def joinPath (base path : Text) : Text :=
  let segments :=
    if path.head? = some '/' then path.pieces '/'
    else
      let directory := base.pieces '/'
      let directory := if directory.getLast? = some [] then directory else directory.dropLast
      dropInnerEmpty (directory ++ path.pieces '/')
  let resolved := resolveDots [] segments
  let resolved := if (segments.getLast?.map isDots).getD false then resolved ++ [[]] else resolved
  let joined := Text.join "/" resolved
  if joined.isEmpty then "/" else joined

/-- The url that the reference `t` means at the url `base`. -/
def join (base t : Text) : Except Fault Text := do
  if base.isEmpty then return t
  if t.isEmpty then return base
  let b ← split base
  let r ← splitWith b.scheme t
  if r.scheme ≠ b.scheme ∨ !withRelatives.contains r.scheme then return t
  let hasAuthority := r.scheme.isEmpty || withAuthority.contains r.scheme
  if hasAuthority && !r.authority.isEmpty then return r.normalized.text
  let authority := if hasAuthority then b.authority else r.authority
  let (path, parameters) := cutParameters r.scheme r.path
  if path.isEmpty && parameters.isEmpty then
    let query := if r.query.isEmpty then b.query else r.query
    return { b.normalized with authority, query, fragment := r.fragment }.text
  let (basePath, _) := cutParameters b.scheme b.path
  let path := withParameter (joinPath basePath path) parameters
  return { r with authority, path }.text

/-- The segments of a path without dots: `..` takes the segment before it away, whatever it is. -/
def keepSegments : (done : List Text) → List Text → List Text
  | done, [] => done.reverse
  | done, s :: rest =>
    if s = Text.ofString "." then keepSegments done rest
    else if s = Text.ofString ".." then keepSegments done.tail rest
    else keepSegments (s :: done) rest

/-- A path without the segments `.` and `..`. It still begins with a slash if it did, and ends in
one if such a segment was its last. -/
def removeDots (path : Text) : Text :=
  let segments := path.pieces '/'
  let kept := keepSegments [] segments
  let kept :=
    if path.head? = some '/' && (kept.head?.map fun s => !s.isEmpty).getD true then [] :: kept
    else kept
  let kept :=
    if segments.length ≥ 2 && (segments.getLast?.map isDots).getD false then kept ++ [[]] else kept
  Text.join "/" kept

end RemoteTree.Url
