import RemoteTree.Url.Escape

/-!
# Form encoding

How names and values stand in a query: `name=value` pairs between `&`. A space is a plus sign,
every other byte that is not unreserved is an escape.

* `Form.encodeBytes`, `Form.encodeText`: one name or value.
* `Form.encode`: a row of pairs.
-/

namespace RemoteTree.Form

/-- A byte of a name or a value. -/
def encodeByte (b : UInt8) : Text :=
  if b = 0x20 then "+"
  else if b.toNat < 0x80 && Url.Escape.isUnreserved (CodePoint.ofNat b.toNat) then
    [CodePoint.ofNat b.toNat]
  else Url.Escape.ofByte b

/-- The bytes of a name or a value. -/
def encodeBytes (bs : Bytes) : Text := bs.flatMap encodeByte

/-- The text of a name or a value; surrogates are refused. -/
def encodeText (t : Text) : Except EncodeFault Text := (Utf8.encode t).map encodeBytes

/-- Pairs whose names and values are encoded already. -/
def joinPairs (pairs : List (Text × Text)) : Text :=
  Text.join "&" (pairs.map fun (name, value) => name ++ "=" ++ value)

end RemoteTree.Form
