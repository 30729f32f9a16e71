import RemoteTree.Number.Double

/-!
# The shortest decimal of a double

A double is written with the fewest digits that read back as it, and of the decimals with that
many digits the nearest one is taken.

* `Double.shortest`: digits and exponent of that decimal.
* `Double.text`: its layout. Decimals from `0.0001` up to below `10 ^ 16` are written out in full
  with a digit on both sides of the point; the others have an exponent of two digits or more.
-/

namespace RemoteTree

namespace Double

/-- Compares `d * 10 ^ k` with `x * 2 ^ e`. -/
def compareScaled (d : Nat) (k : Int) (x : Nat) (e : Int) : Ordering :=
  compare (d * decimal k * binary (-e)) (x * binary e * decimal (-k))

/-- The whole part of `m * 2 ^ e / 10 ^ k`. -/
def gridFloor (m : Nat) (e k : Int) : Nat :=
  (m * binary e * decimal (-k)) / (decimal k * binary (-e))

/-- The number `p` with `10 ^ (p - 1) ≤ m * 2 ^ e < 10 ^ p`, for positive `m`. -/
def magnitude (m : Nat) (e : Int) : Int :=
  let whole := gridFloor m e 0
  if whole ≠ 0 then digitCount whole
  else
    -- ten to the 330 brings every double above one
    digitCount (gridFloor m e (-330)) - 330

/-- Whether `d * 10 ^ k` reads back as `m * 2 ^ e`. Halfway decimals go to the even neighbour, and
below a power of two the neighbour is only half as far. -/
def readsBack (m : Nat) (e : Int) (d : Nat) (k : Int) : Bool :=
  let gapBelow := if m = binary 52 ∧ minExponent < e then 1 else 2
  let low := compareScaled d k (4 * m - gapBelow) (e - 2)
  let high := compareScaled d k (4 * m + 2) (e - 2)
  if m % 2 = 0 then low != .lt && high != .gt else low == .gt && high == .lt

/-- The decimal `(d, k)` with `n` digits that reads back as `m * 2 ^ e`, if there is one: the
nearest, and of two equally near ones the even one. The value has magnitude `p`. -/
def withDigits (m : Nat) (e p : Int) (n : Nat) : Option (Nat × Int) :=
  let k := p - n
  let d := gridFloor m e k
  match readsBack m e d k, readsBack m e (d + 1) k with
  | false, false => none
  | true, false => some (d, k)
  | false, true => some (d + 1, k)
  | true, true =>
    match compareScaled (2 * d + 1) k m (e + 1) with
    | .gt => some (d, k)
    | .lt => some (d + 1, k)
    | .eq => some (if d % 2 = 0 then d else d + 1, k)

/-- Digits and exponent of the shortest decimal that reads back as `m * 2 ^ e`. Seventeen digits
always do. -/
def shortest (m : Nat) (e : Int) : Nat × Int :=
  let p := magnitude m e
  ((List.range 17).findSome? fun n => withDigits m e p (n + 1)).getD (gridFloor m e (p - 17), p - 17)

/-- The exponents of ten at which decimals are written out in full: from `least` to below
`most`. -/
structure Layout where
  least : Int
  most : Int

/-- From `0.0001` up to below `10 ^ 16`. -/
def layout : Layout := ⟨-4, 16⟩

/-- A row of zeros. -/
def zeros (n : Int) : Text := List.replicate n.toNat (CodePoint.ofNat 0x30)

/-- The decimal `ds * 10 ^ k`, where `ds` are digits without a trailing zero. -/
def layOut (ds : Text) (k : Int) : Text :=
  let n : Int := ds.length
  let point := n + k
  let exponent := point - 1
  if layout.least ≤ exponent ∧ exponent < layout.most then
    if point ≤ 0 then "0." ++ zeros (-point) ++ ds
    else if n ≤ point then ds ++ zeros (point - n) ++ ".0"
    else ds.take point.toNat ++ "." ++ ds.drop point.toNat
  else
    let size := Text.ofNat exponent.natAbs
    ds.take 1 ++ (if ds.length = 1 then [] else Text.ofString "." ++ ds.drop 1) ++ "e" ++
      (if exponent < 0 then Text.ofString "-" else Text.ofString "+") ++
      zeros (2 - size.length) ++ size

/-- The text of `m * 2 ^ e`. -/
def magnitudeText (m : Nat) (e : Int) : Text :=
  if m = 0 then "0.0"
  else
    let (d, k) := shortest m e
    let written := Text.ofNat d
    let ds := written.dropTrailing (·.val = 0x30)
    layOut ds (k + (written.length - ds.length : Nat))

/-- The text of a double, given the words for not-a-number and for infinity. -/
def textWith (nanWord infinityWord : String) : Double → Text
  | .nan => nanWord
  | .infinite s => (if s then Text.ofString "-" else []) ++ infinityWord
  | .finite s m e => (if s then Text.ofString "-" else []) ++ magnitudeText m e

/-- The text of a double. -/
def text : Double → Text := textWith "nan" "inf"

end Double

end RemoteTree
