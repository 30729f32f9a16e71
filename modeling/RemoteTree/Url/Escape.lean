import RemoteTree.Text.Alphanumeric
import RemoteTree.Text.Digit
import RemoteTree.Text.Utf8
import RemoteTree.Url.Address

/-!
# Percent escapes

* `Escape.encode`: the bytes outside a set as escapes.
* `Escape.component`: a part of a url with its escapes in upper case and every other character
  outside a set as an escape.
* `Escape.requote`: a whole url in which escapes stand for what needs them and for nothing else.
* `Escape.decode`: the text that a part with escapes stands for.
-/

namespace RemoteTree.Url.Escape

/-- Letters, digits and `-._~`, which never need an escape. -/
def isUnreserved (c : CodePoint) : Bool :=
  c.isLetterOrDigit || c == '-' || c == '.' || c == '_' || c == '~'

/-- The digit of a number below 16, in upper case. -/
def upperDigit (n : Nat) : CodePoint := CodePoint.ofNat (if n < 10 then 0x30 + n else 0x37 + n)

/-- The escape of a byte. -/
def ofByte (b : UInt8) : Text := ['%', upperDigit (b.toNat / 16), upperDigit (b.toNat % 16)]

/-- The bytes as characters, those outside `kept` as escapes. -/
def encode (kept : CodePoint → Bool) (bs : Bytes) : Text :=
  bs.flatMap fun b =>
    let c := CodePoint.ofNat b.toNat
    if c.isAscii && kept c then [c] else ofByte b

/-- The text with the letters of its escapes in upper case, the number of its escapes, and the
number of percent signs. -/
def upperEscapes : Text → Text × Nat × Nat
  | [] => ([], 0, 0)
  | [c] => ([c], 0, if c = '%' then 1 else 0)
  | [c, d] => ([c, d], 0, (if c = '%' then 1 else 0) + (if d = '%' then 1 else 0))
  | c :: d :: e :: rest =>
    if c = '%' ∧ Address.isHexDigit d ∧ Address.isHexDigit e then
      let (t, escapes, signs) := upperEscapes rest
      (c :: d.toUpper :: e.toUpper :: t, escapes + 1, signs + 1)
    else
      let (t, escapes, signs) := upperEscapes (d :: e :: rest)
      (c :: t, escapes, if c = '%' then signs + 1 else signs)

/-- A part of a url: escapes have upper case letters, and every other byte outside `allowed` is an
escape. If some percent sign begins no escape, none does. -/
def component (allowed : CodePoint → Bool) (t : Text) : Text :=
  let (t, escapes, signs) := upperEscapes t
  encode (fun c => allowed c || (escapes == signs && c == '%')) (Utf8.unitsOf t)

/-- Marks between parts and within them. -/
def isSubDelimiter (c : CodePoint) : Bool :=
  (Text.ofString "!$&'()*+,;=").contains c

/-- What may stand in the user part. -/
def allowedInUser (c : CodePoint) : Bool := isUnreserved c || isSubDelimiter c || c == ':'

/-- What may stand in a path. -/
def allowedInPath (c : CodePoint) : Bool := allowedInUser c || c == '@' || c == '/'

/-- What may stand in a query or a fragment. -/
def allowedInQuery (c : CodePoint) : Bool := allowedInPath c || c == '?'

/-- The value of a digit to base 16, the decimal digits of every script included. -/
def digitValue? (c : CodePoint) : Option Nat :=
  if c.within 0x41 0x46 then some (c.val - 0x37)
  else if c.within 0x61 0x66 then some (c.val - 0x57)
  else c.digit?

/-- One piece of a url after a percent sign, with the sign unless the piece begins with the escape
of an unreserved character; `none` if the two characters after the sign are letters or digits
of some script but not to base 16. -/
def unescapePiece (piece : Text) : Option Text :=
  match piece with
  | a :: b :: rest =>
    if a.isAlphanumeric && b.isAlphanumeric then
      match digitValue? a, digitValue? b with
      | some m, some n =>
        let c := CodePoint.ofNat (m * 16 + n)
        some (if isUnreserved c then c :: rest else '%' :: piece)
      | _, _ => none
    else some ('%' :: piece)
  | _ => some ('%' :: piece)

/-- The url with the escapes of unreserved characters undone. -/
def unescapeUnreserved (t : Text) : Option Text :=
  match t.pieces '%' with
  | [] => some []
  | first :: rest => (rest.mapM unescapePiece).map fun ps => first ++ ps.flatten

/-- Unreserved characters and marks, which stand in a url as they are. -/
def isUrlChar (c : CodePoint) : Bool :=
  isUnreserved c || (Text.ofString "!#$&'()*+,/:;=?@[]").contains c

/-- A url in which unreserved characters have no escapes and all that may not stand in a url has
one. If some percent sign comes before two letters or digits that are not to base 16, percent
signs are escaped like anything else. -/
def requote (t : Text) : Except EncodeFault Text :=
  match unescapeUnreserved t with
  | some t => (Utf8.encode t).map (encode fun c => isUrlChar c || c == '%')
  | none => (Utf8.encode t).map (encode isUrlChar)

/-- The bytes of a text of ASCII in which escapes stand for bytes. -/
def bytes : Text → Bytes
  | c :: d :: e :: rest =>
    match c == '%', digitValue? d, digitValue? e with
    | true, some m, some n => UInt8.ofNat (m * 16 + n) :: bytes rest
    | _, _, _ => UInt8.ofNat c.val :: bytes (d :: e :: rest)
  | c :: rest => UInt8.ofNat c.val :: bytes rest
  | [] => []

/-- The text that a text of ASCII with escapes stands for. -/
def decode (t : Text) : Text := Utf8.decodeLossy (bytes t)

end RemoteTree.Url.Escape
