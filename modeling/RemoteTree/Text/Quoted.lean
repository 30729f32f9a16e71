import RemoteTree.Text.Printable
import RemoteTree.Text.Utf8

/-!
# Quoted text

How texts and byte strings stand in messages: between quotes, with escapes for what cannot be
shown. The quote is `'`, or `"` for a text that holds a `'` and no `"`.

* `Text.quoted`: the quoted form of a text.
* `Bytes.quoted`: the quoted form of a byte string, marked by a `b` in front.
-/

namespace RemoteTree

/-- The single quote. -/
def CodePoint.apostrophe : CodePoint := CodePoint.ofNat 0x27

/-- The double quote. -/
def CodePoint.doubleQuote : CodePoint := CodePoint.ofNat 0x22

/-- The backslash. -/
def CodePoint.backslash : CodePoint := CodePoint.ofNat 0x5C

/-- The quote of a text: `'` unless it holds a `'` and no `"`. -/
def Text.quoteMark (t : Text) : CodePoint :=
  if t.has .apostrophe && !t.has .doubleQuote then .doubleQuote else .apostrophe

/-- A code point between the quotes `q`. -/
def CodePoint.quoted (q c : CodePoint) : Text :=
  if c = q ∨ c = .backslash then [.backslash, c]
  else if c.val = 0x09 then "\\t"
  else if c.val = 0x0A then "\\n"
  else if c.val = 0x0D then "\\r"
  else if c.isPrintable then [c]
  else c.escaped

/-- The quoted form of a text. -/
def Text.quoted (t : Text) : Text :=
  let q := t.quoteMark
  q :: t.flatMap (CodePoint.quoted q) ++ [q]

/-- A byte between the quotes `q`: as the character of that number if it is a printable one. -/
def Bytes.quotedByte (q : CodePoint) (b : UInt8) : Text :=
  if b.toNat < 0x80 then CodePoint.quoted q (CodePoint.ofNat b.toNat)
  else "\\x" ++ Text.hex 2 b.toNat

/-- The quoted form of a byte string. -/
def Bytes.quoted (bs : Bytes) : Text :=
  let q := Text.quoteMark (bs.map fun b => CodePoint.ofNat b.toNat)
  Text.ofString "b" ++ q :: bs.flatMap (Bytes.quotedByte q) ++ [q]

end RemoteTree
