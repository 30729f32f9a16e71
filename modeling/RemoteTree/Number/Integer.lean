import RemoteTree.Text.Utf8

/-!
# The text of an integer

Integers are exact, but only those with at most 4300 decimal digits are written or read.

* `Integer.text?`, `Integer.ofDigits?`: writing and reading within the limit.
-/

namespace RemoteTree

/-- The largest number of decimal digits that is written or read. -/
def digitLimit : Nat := 4300

/-- Too many digits, met while writing a number or while reading the given count of them. -/
inductive DigitFault where
  | writing
  | reading (digits : Nat)
deriving DecidableEq

/-- The wording of the fault. -/
def DigitFault.message : DigitFault → Text
  | .writing => "Exceeds the limit (" ++ Text.ofNat digitLimit ++
      " digits) for integer string conversion; use sys.set_int_max_str_digits() to increase the limit"
  | .reading n => "Exceeds the limit (" ++ Text.ofNat digitLimit ++
      " digits) for integer string conversion: value has " ++ Text.ofNat n ++
      " digits; use sys.set_int_max_str_digits() to increase the limit"

/-- An integer in decimal. -/
def Text.ofInt (n : Int) : Text :=
  (if n < 0 then Text.ofString "-" else []) ++ Text.ofNat n.natAbs

namespace Integer

/-- Whether an integer has no more decimal digits than the limit: it is below the power of ten with
that exponent, which is found without writing the digits. -/
def isWritten (n : Int) : Bool := n.natAbs < Nat.pow 10 digitLimit

/-- The text of an integer within the limit. -/
def text? (n : Int) : Except DigitFault Text :=
  if isWritten n then .ok (Text.ofInt n) else .error .writing

/-- The integer of a sign and a row of ASCII digits within the limit. -/
def ofDigits? (negative : Bool) (ds : Text) : Except DigitFault Int :=
  if ds.length ≤ digitLimit then
    let n : Int := ds.foldl (fun n c => n * 10 + (c.val - 0x30)) 0
    .ok (if negative then -n else n)
  else .error (.reading ds.length)

end Integer

end RemoteTree
