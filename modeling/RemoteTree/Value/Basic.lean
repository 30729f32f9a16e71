import RemoteTree.Number.Double

/-!
# Values

What a caller may hand in and what the database may answer: the dynamic values of the library's
interface. A container that holds itself is written finitely, by saying how many containers out
the occurrence points.

* `Value`: the values.
* `Value.truthy`: which of them count as true where a flag is asked for.
* `Value.sameKey`, `Value.insertEntry`: when two keys of a dictionary are one, and what a later
  entry for a key does to the earlier one.
-/

namespace RemoteTree

/-- A dynamic value. `again level` stands for the container `level` steps outwards, counted from
the one that directly holds it. -/
inductive Value where
  | none
  | bool (b : Bool)
  | int (n : Int)
  | float (x : Double)
  | text (t : Text)
  | bytes (bs : Bytes)
  | list (items : List Value)
  | tuple (items : List Value)
  | set (items : List Value)
  | dict (entries : List (Value × Value))
  | object
  | again (level : Nat)

namespace Value

instance : Inhabited Value := ⟨.none⟩

/-- The name of a value's type. -/
def typeName : Value → String
  | .none => "NoneType"
  | .bool _ => "bool"
  | .int _ => "int"
  | .float _ => "float"
  | .text _ => "str"
  | .bytes _ => "bytes"
  | .list _ => "list"
  | .tuple _ => "tuple"
  | .set _ => "set"
  | .dict _ => "dict"
  | .object => "object"
  | .again _ => "list"

/-- Whether a value counts as true: not the empty ones, the zeros, false and none. -/
def truthy : Value → Bool
  | .none => false
  | .bool b => b
  | .int n => n != 0
  | .float x => !x.isZero
  | .text t => !t.isEmpty
  | .bytes bs => !bs.isEmpty
  | .list items | .tuple items | .set items => !items.isEmpty
  | .dict entries => !entries.isEmpty
  | .object | .again _ => true

/-- The integer that a number equals, true being one and false zero. -/
def toInt? : Value → Option Int
  | .bool b => some (if b then 1 else 0)
  | .int n => some n
  | .float x => x.toInt?
  | _ => Option.none

mutual

/-- Whether two keys are one: equal as numbers, as texts, as byte strings, or part by part. -/
def sameKey : Value → Value → Bool
  | .none, .none => true
  | .text s, .text t => s == t
  | .bytes a, .bytes b => a == b
  | .tuple as, .tuple bs => sameKeys as bs
  | .float x, .float y => x.same y
  | a, b =>
    match a.toInt?, b.toInt? with
    | some m, some n => m == n
    | _, _ => false

/-- Whether the keys in two rows are one, part by part. -/
def sameKeys : List Value → List Value → Bool
  | [], [] => true
  | a :: as, b :: bs => sameKey a b && sameKeys as bs
  | _, _ => false

end

mutual

/-- The type of the part of a value that keeps it from being a key, if there is one: what can be
changed is no key. -/
def changeable? : Value → Option String
  | .list _ => some "list"
  | .set _ => some "set"
  | .dict _ => some "dict"
  | .again _ => some "list"
  | .tuple items => changeableAmong? items
  | _ => Option.none

/-- The type of the first part in a row that keeps a value from being a key. -/
def changeableAmong? : List Value → Option String
  | [] => Option.none
  | a :: as => (changeable? a).or (changeableAmong? as)

end

/-- A dictionary with a further entry: one for a key that is there replaces the value and keeps the
key and its place. -/
def insertEntry (k v : Value) : List (Value × Value) → List (Value × Value)
  | [] => [(k, v)]
  | (k', v') :: rest =>
    if sameKey k' k then (k', v) :: rest else (k', v') :: insertEntry k v rest

/-- The entries that remain of a row of them. -/
def entriesOf (entries : List (Value × Value)) : List (Value × Value) :=
  entries.foldl (fun done e => insertEntry e.1 e.2 done) []

/-- The members that remain of a row of them. -/
def membersOf (items : List Value) : List Value :=
  items.foldl (fun done v => if done.any (sameKey · v) then done else done ++ [v]) []

/-- The value under a key. -/
def lookup (k : Value) (entries : List (Value × Value)) : Option Value :=
  (entries.find? fun e => sameKey e.1 k).map Prod.snd

/-- A list whose only item is itself. -/
def selfList : Value := .list [.again 0]

/-- A dictionary whose one entry is a list of the dictionary. -/
def selfDict : Value := .dict [(.text (Text.ofString "a"), .list [.again 1])]

end Value

end RemoteTree
