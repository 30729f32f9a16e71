import RemoteTree.Json.Writer
import RemoteTree.Reference.Basic
import RemoteTree.Value.Print

/-!
# Derived references

The ways of getting a reference from another without asking the database: other locations, and
the same location with another order, a limit or bounds. Values are written into the query as
JSON, limits as numbers.

* `Derivation`: the ways.
* `Reference.derive`: the reference that one of them leads to, or what is wrong with its argument.
-/

namespace RemoteTree

/-- A way of getting a reference from another. -/
inductive Derivation where
  | child (path : Value)
  /-- A path from the root of the database. -/
  | root (path : Value)
  | orderBy (key : Value)
  | limitToFirst (limit : Value)
  | limitToLast (limit : Value)
  | startAt (bound : Value)
  | endAt (bound : Value)
  | equalTo (bound : Value)

namespace Derivation

/-- An error that shows the wrong argument. -/
def wrong (make : Text → Error) (v : Value) : Error :=
  match v.literal with
  | .ok shown => make shown
  | .error f => .digits f

/-- The key to order by, which is a text with at least one character. -/
def orderKey : Value → Except Error Text
  | .text (c :: t) => .ok (Json.writeText (c :: t))
  | v => .error (wrong .orderKey v)

/-- A limit, which is an integer and not negative. -/
def limitText : Value → Except Error Text
  | .int n =>
    if n < 0 then .error (wrong .limit (.int n)) else (Integer.text? n).mapError Error.digits
  | v => .error (wrong .limit v)

/-- A bound, which is any value but none. -/
def boundText (name : String) : Value → Except Error Text
  | .none => .error (.bound name)
  | v => (Json.write v).mapError Error.write

end Derivation

namespace Reference

/-- The copy of a reference with a parameter of its own. -/
def refine (r : Reference) (p : Parameter) (word : Except Error Text) : Except Error Reference :=
  word.map fun w => r.copy.withParameter p (.text w)

/-- The reference that a derivation leads to. -/
def derive (r : Reference) : Derivation → Except Error Reference
  | .child path => do return r.child (← path.asText .split)
  | .root path => do
    let origin ← r.origin
    return r.atPath origin (← path.asText .strip)
  | .orderBy v => r.refine .orderBy (Derivation.orderKey v)
  | .limitToFirst v => r.refine .limitToFirst (Derivation.limitText v)
  | .limitToLast v => r.refine .limitToLast (Derivation.limitText v)
  | .startAt v => r.refine .startAt (Derivation.boundText "start_at" v)
  | .endAt v => r.refine .endAt (Derivation.boundText "end_at" v)
  | .equalTo v => r.refine .equalTo (Derivation.boundText "equal_to" v)

end Reference

end RemoteTree
