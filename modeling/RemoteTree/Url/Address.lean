import RemoteTree.Text.Basic

/-!
# Numeric host addresses

* `Address.isV4`: four decimal numbers below 256 without leading zeros.
* `Address.isV6`: eight groups of up to four digits to base 16, a row of zero groups left out at
  most once, the last two groups possibly written like a version 4 address.
-/

namespace RemoteTree.Url.Address

/-- A digit to base 16. -/
def isHexDigit (c : CodePoint) : Bool := c.isDigit || c.within 0x41 0x46 || c.within 0x61 0x66

/-- A decimal number of one to three digits. -/
def isShortNumber (t : Text) : Bool := t.all CodePoint.isDigit && 1 ≤ t.length && t.length ≤ 3

/-- A number below 256 without leading zeros. -/
def isOctet (t : Text) : Bool :=
  isShortNumber t && (t.length == 1 || t.head? != some '0') &&
    t.foldl (fun n c => n * 10 + (c.val - 0x30)) 0 ≤ 255

/-- Four parts, each of which satisfies `octet`. -/
def isQuad (octet : Text → Bool) (t : Text) : Bool :=
  let parts := t.pieces '.'
  parts.length == 4 && parts.all octet

/-- An address of version 4. -/
def isV4 (t : Text) : Bool := isQuad isOctet t

/-- A group of one to four digits to base 16. -/
def isGroup (t : Text) : Bool := t.all isHexDigit && 1 ≤ t.length && t.length ≤ 4

/-- The number of groups that the parts between colons stand for. Only the last part may be
written as `quad`, for two groups. -/
def groupCount (quad : Text → Bool) : List Text → Option Nat
  | [] => some 0
  | [p] => if isGroup p then some 1 else if quad p then some 2 else none
  | p :: q :: ps => if isGroup p then (groupCount quad (q :: ps)).map (· + 1) else none

/-- What stands before and after the first double colon. -/
def cutZeros : Text → Option (Text × Text)
  | a :: b :: t =>
    if a = ':' ∧ b = ':' then some ([], t)
    else (cutZeros (b :: t)).map fun (x, y) => (a :: x, y)
  | _ => none

/-- The number of groups on one side of a double colon, which may be empty. -/
def sideCount (quad : Text → Bool) (t : Text) : Option Nat :=
  if t.isEmpty then some 0 else groupCount quad (t.pieces ':')

/-- An address of version 6, in which `quad` says how the last two groups may be written. -/
def isV6With (quad : Text → Bool) (t : Text) : Bool :=
  match cutZeros t with
  | none => groupCount quad (t.pieces ':') == some 8
  | some (left, right) =>
    match sideCount (fun _ => false) left, sideCount quad right with
    | some a, some b => a + b ≤ 7
    | _, _ => false

/-- An address of version 6, possibly with a zone after a percent sign. -/
def isV6 (t : Text) : Bool :=
  match t.cut '%' with
  | (address, none) => isV6With isV4 address
  | (address, some zone) => !zone.isEmpty && !zone.has '%' && isV6With isV4 address

end RemoteTree.Url.Address
