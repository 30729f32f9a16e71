import RemoteTree.Http.Headers
import RemoteTree.Text.Blank
import RemoteTree.Value.Print

/-!
# Headers that can be sent

The client takes a header whose name and value are texts or bytes in one line. The names of the
headers of this library are texts.

* `Headers.check`: the first header that the client does not take, and why.
* `Headers.Fault`: what is wrong with a header.
-/

namespace RemoteTree.Headers

/-- Why the client does not take a header. -/
inductive Fault where
  /-- Names are one line without colons that does not begin with a blank. -/
  | badName (shown : Text)
  /-- Values are one line that does not begin with a blank. -/
  | badValue (shown : Text)
  /-- Values are texts or bytes. -/
  | notText (shown header : Text) (typeName : String)
  /-- A value that is neither has no text to show. -/
  | digits (fault : DigitFault)
deriving DecidableEq

/-- The wording for a name or a value with characters that may not stand there. -/
def refusedCharacters (part : String) (shown : Text) : Text :=
  "Invalid leading whitespace, reserved character(s), or return character(s) in header " ++
    Text.ofString part ++ ": " ++ shown

/-- The wording of a fault. -/
def Fault.message : Fault → Text
  | .badName shown => refusedCharacters "name" shown
  | .badValue shown => refusedCharacters "value" shown
  | .notText shown header type =>
    "Header part (" ++ shown ++ ") from " ++ header ++
      " must be of type str or bytes, not <class '" ++ Text.ofString type ++ "'>"
  | .digits f => f.message

/-- A line feed or a carriage return. -/
def breaksLine (c : CodePoint) : Bool := c.val = 0x0A || c.val = 0x0D

/-- A single line. -/
def isLine (t : Text) : Bool := !t.any breaksLine

/-- A name is one line without colons that does not begin with a blank. -/
def isName (blank : CodePoint → Bool) : Text → Bool
  | [] => false
  | c :: t => !blank c && c != ':' && !Text.has ':' t && isLine t

/-- A value is one line that does not begin with a blank, or empty. -/
def isValue (blank : CodePoint → Bool) : Text → Bool
  | [] => true
  | c :: t => !blank c && isLine t

/-- Bytes as characters of the same number. -/
def charsOf (bs : Bytes) : Text := bs.map fun b => CodePoint.ofNat b.toNat

/-- Checks the value of a header with a name. -/
def checkValue (name : Text) (value : Value) : Except Fault Unit :=
  match value with
  | .text t => if isValue CodePoint.isBlank t then .ok () else .error (.badValue t.quoted)
  | .bytes bs =>
    if isValue CodePoint.isAsciiBlank (charsOf bs) then .ok ()
    else .error (.badValue (Bytes.quoted bs))
  | v =>
    match v.literal with
    | .error f => .error (.digits f)
    | .ok shown =>
      .error (.notText shown ("(" ++ name.quoted ++ ", " ++ shown ++ ")") v.typeName)

/-- Checks that the client takes a header, the name first. -/
def checkHeader (name : Text) (value : Value) : Except Fault Unit :=
  if isName CodePoint.isBlank name then checkValue name value else .error (.badName name.quoted)

/-- Checks headers one after the other. -/
def check : Headers → Except Fault Unit
  | [] => .ok ()
  | (name, value) :: rest =>
    match checkHeader name value with
    | .ok () => check rest
    | .error f => .error f

end RemoteTree.Headers
