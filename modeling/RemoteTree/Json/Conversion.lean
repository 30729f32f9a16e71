import RemoteTree.Error
import RemoteTree.Failure.Raised

/-!
# Values for the wire and from it

* `Json.encode`: the bytes of a value.
* `Json.decode`: the value of an answer, handed to a conversion if one is given.
* `Conversion`: what a caller may do with a value, and some conversions.
-/

namespace RemoteTree

/-- A conversion of an answer: how it is called in messages, and what it does. -/
structure Conversion where
  name : Text
  run : Value → Except Failure Value

namespace Conversion

/-- The value itself. -/
def identity (name : Text) : Conversion := ⟨name, .ok⟩

/-- Nothing, whatever the value is. -/
def nothing (name : Text) : Conversion := ⟨name, fun _ => .ok .none⟩

/-- The value under a key of a dictionary. -/
def field (name : Text) (key : Value) : Conversion where
  name
  run
    | .dict entries =>
      match key.changeable?, Value.lookup key entries with
      | some type, _ =>
        .error (.raised "TypeError" [.text ("unhashable type: '" ++ Text.ofString type ++ "'")])
      | none, some v => .ok v
      | none, none => .error (.raised "KeyError" [key])
    | _ => .error (.raised "TypeError" [.text "not an object"])

/-- The number of items or entries. -/
def count (name : Text) : Conversion where
  name
  run
    | .list items => .ok (.int items.length)
    | .dict entries => .ok (.int entries.length)
    | _ => .error (.raised "TypeError" [.text "not countable"])

/-- Fails, whatever the value is. -/
def failing (name : Text) (kind : String) (args : List Value) : Conversion :=
  ⟨name, fun _ => .error (.raised kind args)⟩

end Conversion

namespace Json

/-- The bytes of a value. -/
def encode (v : Value) : Except Error Bytes :=
  match write v with
  | .ok t => .ok (Bytes.ofAscii t)
  | .error why => .error (.unwritable v.typeName why)

/-- What a conversion makes of a value. A failure for want of the right shape becomes an error of
the library, any other comes out as it is. -/
def convert (c : Conversion) (v : Value) : Except Error Value :=
  match c.run v with
  | .ok w => .ok w
  | .error f =>
    if f.kind.isWrongShape then
      match f.message with
      | .ok said => .error (.unconvertible c.name said f)
      | .error fault => .error (.ofPrintFault fault)
    else .error (.failure f)

/-- The value of an answer, handed to a conversion if one is given. -/
def decode (blob : Value) (into : Option Conversion) : Except Error Value :=
  match read blob with
  | .error why => .error (.unreadable why)
  | .ok v =>
    match into with
    | none => .ok v
    | some c => convert c v

end Json

end RemoteTree
