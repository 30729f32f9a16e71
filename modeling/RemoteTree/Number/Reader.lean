import RemoteTree.Number.Double
import RemoteTree.Text.Blank
import RemoteTree.Text.Digit

/-!
# Reading a double

The decimals that a caller may write: blanks around, a sign, digits with a point anywhere among
or beside them, an exponent, single underscores between digits, and the words for infinity and
not-a-number in either case.

* `Double.ofAscii?`: the reader for ASCII.
* `Double.ofText?`: the reader for any text, digits and blanks of every script included.
-/

namespace RemoteTree

/-- The number that a row of ASCII digits writes. -/
def Text.digitsValue (ds : Text) : Nat := ds.foldl (fun n c => n * 10 + (c.val - 0x30)) 0

namespace Double

/-- A sign at the head of a text, and the rest. -/
def takeSign : Text → Bool × Text
  | c :: t => if c = '-' then (true, t) else if c = '+' then (false, t) else (false, c :: t)
  | [] => (false, [])

/-- The text without its underscores, each of which must stand between two digits. -/
def dropUnderscores (previous : Option CodePoint) : Text → Option Text
  | [] => some []
  | c :: t =>
    if c = '_' then
      match previous, t with
      | some p, d :: _ => if p.isDigit && d.isDigit then dropUnderscores (some c) t else none
      | _, _ => none
    else (dropUnderscores (some c) t).map (c :: ·)

/-- The exponent that stands at the end of a decimal: none at all, or a mark, a sign and digits. -/
def readExponent : Text → Option Int
  | [] => some 0
  | c :: t =>
    if c = 'e' ∨ c = 'E' then
      let (negative, ds) := takeSign t
      if ds.isEmpty || !ds.all CodePoint.isDigit then none
      else some (if negative then -(Text.digitsValue ds : Int) else Text.digitsValue ds)
    else none

/-- A decimal without sign: digits, a point and further digits, an exponent. -/
def readDecimal (negative : Bool) (t : Text) : Option Double :=
  let whole := t.takeWhile CodePoint.isDigit
  let rest := t.dropWhile CodePoint.isDigit
  let (fraction, rest) := match rest with
    | c :: r =>
      if c = '.' then (r.takeWhile CodePoint.isDigit, r.dropWhile CodePoint.isDigit)
      else ([], c :: r)
    | [] => ([], [])
  if whole.isEmpty && fraction.isEmpty then none
  else (readExponent rest).map fun exponent =>
    ofDecimal negative (Text.digitsValue (whole ++ fraction)) (exponent - fraction.length)

/-- The double that an ASCII text writes. -/
def ofAscii? (t : Text) : Option Double :=
  (dropUnderscores none (t.trim CodePoint.isAsciiBlank)).bind fun t =>
    let (negative, t) := takeSign t
    let word := t.lowerAscii
    if word = Text.ofString "inf" ∨ word = Text.ofString "infinity" then some (.infinite negative)
    else if word = Text.ofString "nan" then some .nan
    else readDecimal negative t

/-- The double that a text writes. Digits and blanks beyond ASCII stand for those of ASCII. -/
def ofText? (t : Text) : Option Double :=
  ofAscii? <| t.map fun c =>
    if c.isAscii then c
    else if c.isBlank then ' '
    else match c.digit? with
      | some d => CodePoint.ofNat (0x30 + d)
      | none => '?'

end Double

end RemoteTree
