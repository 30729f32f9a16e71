import RemoteTree.Text.Utf8

/-!
# UTF-16 and UTF-32

Reading text of two or four bytes to the unit. Surrogates that stand alone are kept, so the
faults are the units that end too soon and the numbers that are no code points.

* `Utf16.decode`, `Utf32.decode`: the readers, in either byte order.
* `Utf16.pair`: a high surrogate and a low one right after it are one code point.
-/

namespace RemoteTree

namespace Utf16

/-- The code point of a surrogate pair. -/
def joined (high low : CodePoint) : CodePoint :=
  CodePoint.ofNat (0x10000 + (high.val - 0xD800) * 1024 + (low.val - 0xDC00))

/-- The text of a row of units: pairs of surrogates are joined, from the left. -/
def pair : Text → Text
  | [] => []
  | [c] => [c]
  | c :: d :: rest =>
    if c.isHigh && d.isLow then joined c d :: pair rest else c :: pair (d :: rest)

/-- The units of a byte string whose first byte stands at `pos`. -/
def units (big : Bool) : (pos : Nat) → Bytes → Except DecodeFault Text
  | _, [] => .ok []
  | pos, [b] =>
    .error ⟨if big then .utf16be else .utf16le, pos, pos + 1, b, "truncated data"⟩
  | pos, a :: b :: rest =>
    let n := if big then a.toNat * 256 + b.toNat else b.toNat * 256 + a.toNat
    (units big (pos + 2) rest).map (CodePoint.ofNat n :: ·)

/-- The text of a byte string whose first byte stands at `pos`. -/
def decode (big : Bool) (pos : Nat) (bs : Bytes) : Except DecodeFault Text :=
  (units big pos bs).map pair

end Utf16

namespace Utf32

/-- The text of a byte string whose first byte stands at `pos`. -/
def decode (big : Bool) : (pos : Nat) → Bytes → Except DecodeFault Text
  | _, [] => .ok []
  | pos, a :: b :: c :: d :: rest =>
    let n :=
      if big then ((a.toNat * 256 + b.toNat) * 256 + c.toNat) * 256 + d.toNat
      else ((d.toNat * 256 + c.toNat) * 256 + b.toNat) * 256 + a.toNat
    if n < 0x110000 then (decode big (pos + 4) rest).map (CodePoint.ofNat n :: ·)
    else .error ⟨if big then .utf32be else .utf32le, pos, pos + 4, a,
      "code point not in range(0x110000)"⟩
  | pos, a :: rest =>
    .error ⟨if big then .utf32be else .utf32le, pos, pos + 1 + rest.length, a, "truncated data"⟩

end Utf32

end RemoteTree
