import RemoteTree.Number.Integer
import RemoteTree.Number.Shortest
import RemoteTree.Text.Quoted
import RemoteTree.Value.Basic

/-!
# The text of a value

How values stand in messages and in query parameters.

* `Value.literal`: the text of a value inside a message: texts are quoted, containers shown with
  their parts, and an occurrence of an enclosing container as its brackets around three points.
* `Value.plain`: the text of a value on its own; a text is itself.

Both fail only on an integer with more digits than are written.
-/

namespace RemoteTree

namespace Value

/-- The kinds of container. -/
inductive Shape where
  | list | tuple | set | dict

/-- The opening and closing marks of a container. -/
def Shape.marks : Shape → Text × Text
  | .list => ("[", "]")
  | .tuple => ("(", ")")
  | .set => ("\x7b", "\x7d")
  | .dict => ("\x7b", "\x7d")

/-- An occurrence of an enclosing container of the shape. -/
def Shape.ellipsis : Shape → Text
  | .set => "set(...)"
  | s => s.marks.1 ++ "..." ++ s.marks.2

/-- The parts of a container between its marks. A tuple of one part has a comma after it, and the
empty set has no marks. -/
def Shape.around (s : Shape) (parts : List Text) : Text :=
  match s, parts with
  | .set, [] => "set()"
  | .tuple, [p] => "(" ++ p ++ ",)"
  | s, parts => s.marks.1 ++ Text.join ", " parts ++ s.marks.2

mutual

/-- The text of a value inside a message. `outer` are the shapes of the containers around it, the
nearest first. -/
def literalIn (outer : List Shape) : Value → Except DigitFault Text
  | .none => .ok "None"
  | .bool true => .ok "True"
  | .bool false => .ok "False"
  | .int n => Integer.text? n
  | .float x => .ok x.text
  | .text t => .ok t.quoted
  | .bytes bs => .ok bs.quoted
  | .list items => (literalsIn (.list :: outer) items).map Shape.list.around
  | .tuple items => (literalsIn (.tuple :: outer) items).map Shape.tuple.around
  | .set items => (literalsIn (.set :: outer) items).map Shape.set.around
  | .dict entries => (entryLiteralsIn (.dict :: outer) entries).map Shape.dict.around
  | .object => .ok "<object object>"
  | .again level => .ok (outer.getD level .list).ellipsis

/-- The texts of values inside a message. -/
def literalsIn (outer : List Shape) : List Value → Except DigitFault (List Text)
  | [] => .ok []
  | v :: rest => do return (← literalIn outer v) :: (← literalsIn outer rest)

/-- The texts of entries inside a message. -/
def entryLiteralsIn (outer : List Shape) : List (Value × Value) → Except DigitFault (List Text)
  | [] => .ok []
  | (k, v) :: rest => do
    let key ← literalIn outer k
    let value ← literalIn outer v
    return (key ++ ": " ++ value) :: (← entryLiteralsIn outer rest)

end

/-- The text of a value inside a message. -/
def literal (v : Value) : Except DigitFault Text := literalIn [] v

/-- The text of a value on its own. -/
def plain : Value → Except DigitFault Text
  | .text t => .ok t
  | v => v.literal

end Value

end RemoteTree
