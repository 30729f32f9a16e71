import RemoteTree.Text.Utf8

/-!
# Binary floating point numbers of 64 bits

A double is one of its three kinds, so that statements about it are statements about whole
numbers: a finite one is `m * 2 ^ e` with a sign.

* `Double.ofRatio`: the double nearest to a quotient; halfway the even one is taken.
* `Double.ofDecimal`: the double nearest to a decimal, infinite beyond the largest one.
* `Double.ofInt?`: the double nearest to an integer that is not beyond the largest one.
-/

namespace RemoteTree

/-- A double: not a number, an infinity, or a sign and `m * 2 ^ e`. -/
inductive Double where
  | nan
  | infinite (negative : Bool)
  | finite (negative : Bool) (m : Nat) (e : Int)
deriving DecidableEq

namespace Double

/-- The exponent of the least positive double. -/
def minExponent : Int := -1074

/-- The exponent of the largest double. -/
def maxExponent : Int := 971

/-- The double zero. -/
def zero : Double := .finite false 0 minExponent

/-- The power `2 ^ e`, and one for a negative exponent. -/
def binary (e : Int) : Nat := Nat.pow 2 e.toNat

/-- The power `10 ^ e`, and one for a negative exponent. -/
def decimal (e : Int) : Nat := Nat.pow 10 e.toNat

/-- The quotient rounded to the nearest whole number; halfway the even one is taken. -/
def roundDiv (num den : Nat) : Nat :=
  let q := num / den
  let r := num % den
  if 2 * r < den then q
  else if den < 2 * r then q + 1
  else if q % 2 = 0 then q else q + 1

/-- The double of sign `negative` nearest to `num / den`. -/
def ofRatio (negative : Bool) (num den : Nat) : Double :=
  if num = 0 ∨ den = 0 then .finite negative 0 minExponent
  else
    let scaled (e : Int) : Nat × Nat :=
      if 0 ≤ e then (num, den * binary e) else (num * binary (-e), den)
    -- the quotient by `2 ^ least` lies between `2 ^ 52` and `2 ^ 54`, unless it is subnormal
    let least := max ((Nat.log2 num : Int) - Nat.log2 den - 53) minExponent
    let e := if (scaled least).1 / (scaled least).2 < binary 53 then least else least + 1
    let m := roundDiv (scaled e).1 (scaled e).2
    let (m, e) := if m = binary 53 then (binary 52, e + 1) else (m, e)
    if maxExponent < e then .infinite negative else .finite negative m e

/-- The number of decimal digits. -/
def digitCount (n : Nat) : Nat := (Nat.repr n).length

/-- The double nearest to `n * 10 ^ exponent`, an infinity beyond the largest double. -/
def ofDecimal (negative : Bool) (n : Nat) (exponent : Int) : Double :=
  let magnitude := digitCount n + exponent
  if n = 0 then .finite negative 0 minExponent
  -- decimals this large or small need no arithmetic
  else if 400 < magnitude then .infinite negative
  else if magnitude < -400 then .finite negative 0 minExponent
  else if 0 ≤ exponent then ofRatio negative (n * decimal exponent) 1
  else ofRatio negative n (decimal (-exponent))

/-- The double nearest to an integer, if that is finite. -/
def ofInt? (n : Int) : Option Double :=
  match ofRatio (n < 0) n.natAbs 1 with
  | .finite s m e => some (.finite s m e)
  | _ => none

/-- Less than zero. Minus zero and not-a-number are not. -/
def isNegative : Double → Bool
  | .nan => false
  | .infinite s => s
  | .finite s m _ => s && m != 0

/-- At most zero. Either zero is, not-a-number is not. -/
def atMostZero : Double → Bool
  | .nan => false
  | .infinite s => s
  | .finite s m _ => s || m == 0

/-- Either zero. -/
def isZero : Double → Bool
  | .finite _ m _ => m == 0
  | _ => false

/-- The integer that a double equals, if there is one. -/
def toInt? : Double → Option Int
  | .finite s m e =>
    let signed (n : Nat) : Int := if s then -n else n
    if 0 ≤ e then some (signed (m * binary e))
    else if m % binary (-e) = 0 then some (signed (m / binary (-e)))
    else none
  | _ => none

/-- Equality of numbers: the zeros are equal, and not-a-number equals nothing. -/
def same : Double → Double → Bool
  | .nan, _ => false
  | _, .nan => false
  | a, b => a == b || (a.isZero && b.isZero)

end Double

end RemoteTree
