import RemoteTree.Value.Print

/-!
# Writing JSON

The text of a value for the wire. It is ASCII: every other code point is escaped, one beyond the
first plane as its surrogate pair. Items are separated by `, ` and keys from values by `: `.

* `Json.write`: the text of a value, or the first fault met in reading order.
* `Json.WriteFault`: what cannot be written. Texts, numbers, truth values and none can be keys;
  each is written as a text.
-/

namespace RemoteTree

/-- A number below `16 ^ 4` as an escape. -/
def Text.escapedUnit (n : Nat) : Text := "\\u" ++ Text.hex 4 n

namespace Json

/-- What keeps a value from being written. -/
inductive WriteFault where
  /-- A value of a type that has no JSON form. -/
  | unsupported (typeName : String)
  /-- A key of a type that has no JSON form as a key. -/
  | badKey (typeName : String)
  /-- A container inside itself. -/
  | circular
  /-- An integer with too many digits. -/
  | digits (fault : DigitFault)
deriving DecidableEq

/-- The wording of a fault. -/
def WriteFault.message : WriteFault → Text
  | .unsupported type => "Object of type " ++ Text.ofString type ++ " is not JSON serializable"
  | .badKey type =>
    "keys must be str, int, float, bool or None, not " ++ Text.ofString type
  | .circular => "Circular reference detected"
  | .digits f => f.message

/-- A code point of a text, between the quotes. -/
def escaped (c : CodePoint) : Text :=
  if c = .doubleQuote ∨ c = .backslash then [.backslash, c]
  else if c.within 0x20 0x7E then [c]
  else if c.val = 0x08 then "\\b"
  else if c.val = 0x09 then "\\t"
  else if c.val = 0x0A then "\\n"
  else if c.val = 0x0C then "\\f"
  else if c.val = 0x0D then "\\r"
  else if c.val < 0x10000 then Text.escapedUnit c.val
  else
    Text.escapedUnit (0xD800 + (c.val - 0x10000) / 1024) ++
      Text.escapedUnit (0xDC00 + (c.val - 0x10000) % 1024)

/-- A text between quotes. -/
def writeText (t : Text) : Text := .doubleQuote :: t.flatMap escaped ++ [.doubleQuote]

/-- A double. The words for not-a-number and the infinities are not JSON. -/
def writeDouble (x : Double) : Text := x.textWith "NaN" "Infinity"

/-- An integer within the digit limit. -/
def writeInt (n : Int) : Except WriteFault Text :=
  (Integer.text? n).mapError .digits

/-- The text of a truth value. -/
def writeBool (b : Bool) : Text := if b then Text.ofString "true" else Text.ofString "false"

/-- A key before its quotes and escapes. -/
def keyText : Value → Except WriteFault Text
  | .text t => .ok t
  | .float x => .ok (writeDouble x)
  | .bool b => .ok (writeBool b)
  | .none => .ok "null"
  | .int n => writeInt n
  | v => .error (.badKey v.typeName)

mutual

/-- The text of a value, or the first fault in reading order. -/
def write : Value → Except WriteFault Text
  | .none => .ok "null"
  | .bool b => .ok (writeBool b)
  | .int n => writeInt n
  | .float x => .ok (writeDouble x)
  | .text t => .ok (writeText t)
  | .list items | .tuple items => do
    return "[" ++ Text.join ", " (← writeItems items) ++ "]"
  | .dict entries => do
    return "\x7b" ++ Text.join ", " (← writeEntries entries) ++ "\x7d"
  | .again _ => .error .circular
  | v => .error (.unsupported v.typeName)

/-- The texts of the items of a list. -/
def writeItems : List Value → Except WriteFault (List Text)
  | [] => .ok []
  | v :: rest => do
    let item ← write v
    return item :: (← writeItems rest)

/-- The texts of the entries of a dictionary. -/
def writeEntries : List (Value × Value) → Except WriteFault (List Text)
  | [] => .ok []
  | (k, v) :: rest => do
    let key ← keyText k
    let value ← write v
    return (writeText key ++ ": " ++ value) :: (← writeEntries rest)

end

end Json

end RemoteTree
