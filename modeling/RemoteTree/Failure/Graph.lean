import RemoteTree.Failure.Kind
import RemoteTree.Value.Print

/-!
# Failures

A failure refers to others: they stand among its arguments, in its reason, or as what caused it
and what was being handled when it arose. The references may form circles, so a failure is a
place in a finite graph.

* `Failure.isTimeout`: whether some failure that can be reached is a timeout that counts.
* `Failure.message`: the text of a failure, from its arguments unless its class words it.
* `Failure.wrap`: the failure that another layer makes of one.
-/

namespace RemoteTree

namespace Failure

/-- An argument of a failure: a value, or the failure at a place. -/
inductive Arg where
  | value (v : Value)
  | failure (place : Nat)

/-- A failure with references to the others in its graph, and its text if its class has words of
its own for it. -/
structure Node where
  kind : Kind
  args : List Arg
  reason : Option Arg
  cause : Option Nat
  context : Option Nat
  wording : Option Text

/-- The place that an argument refers to. -/
def Arg.place? : Arg → Option Nat
  | .failure i => some i
  | .value _ => none

/-- The places that a failure refers to. -/
def Node.neighbours (n : Node) : List Nat :=
  n.args.filterMap Arg.place? ++ (n.reason.bind Arg.place?).toList ++ n.cause.toList ++
    n.context.toList

end Failure

/-- A place in a graph of failures. -/
structure Failure where
  nodes : List Failure.Node
  root : Nat

namespace Failure

/-- A failure of a class with arguments that refer to no other failure. -/
def simple (k : Kind) (args : List Value) : Failure :=
  ⟨[⟨k, args.map .value, none, none, none, none⟩], 0⟩

/-- The failure at the root. -/
def top? (f : Failure) : Option Node := f.nodes[f.root]?

/-- The class of a failure. A place outside the graph counts as one without a class of its own. -/
def kind (f : Failure) : Kind := (f.top?.map Node.kind).getD ⟨.system, "Exception"⟩

/-- What caused a failure, if it names that. -/
def cause? (f : Failure) : Option Failure :=
  (f.top?.bind Node.cause).map fun i => ⟨f.nodes, i⟩

/-- The failure of class `k` that has `f` as its argument and arose while `f` was handled. -/
def wrap (k : Kind) (f : Failure) : Failure :=
  ⟨f.nodes ++ [⟨k, [.failure f.root], none, none, some f.root, none⟩], f.nodes.length⟩

/-- The places of a graph of `n` failures that are not among `seen`. -/
def unseen (n : Nat) (seen : List Nat) : Nat :=
  (List.range n).countP fun i => !seen.contains i

theorem unseen_cons_lt {n i : Nat} {seen : List Nat} (hi : i < n) (hs : i ∉ seen) :
    unseen n (i :: seen) < unseen n seen := by
  have h : ∀ l : List Nat, l.countP (fun j => !(i :: seen).contains j) ≤
      l.countP fun j => !seen.contains j := by
    intro l
    refine List.countP_mono_left fun j _ => ?_
    simp
  unfold unseen
  induction n with
  | zero => omega
  | succ n ih =>
    rw [List.range_succ, List.countP_append, List.countP_append]
    have := h (List.range n)
    by_cases hn : i = n
    · subst hn
      simp [hs] at this ⊢
      omega
    · have hl := ih (by omega)
      have := h [n]
      omega

/-- The places that can be reached from the `pending` ones without those already `seen`, together
with the latter. -/
def visit (nodes : List Node) : (pending seen : List Nat) → List Nat
  | [], seen => seen
  | i :: pending, seen =>
    if hs : i ∈ seen then visit nodes pending seen
    else if hi : i < nodes.length then
      have := unseen_cons_lt hi hs
      visit nodes (nodes[i].neighbours ++ pending) (i :: seen)
    else visit nodes pending seen
termination_by pending seen => (unseen nodes.length seen, pending.length)

/-- Whether a failure is a timeout: itself or through some failure that it leads to. -/
def isTimeout (f : Failure) : Bool :=
  (visit f.nodes [f.root] []).any fun i => (f.nodes[i]?.map fun n => n.kind.counts).getD false

/-- The two ways of showing a failure. -/
inductive Shown where
  /-- By its text. -/
  | text
  /-- As it stands inside the text of another. -/
  | literal
deriving DecidableEq

/-- What keeps a failure from having a text. -/
inductive PrintFault where
  | digits (fault : DigitFault)
  /-- A failure would have to be shown again and again. -/
  | endless (shown : Shown)
  /-- A failure of a class that words it was made without the part of the name. -/
  | partless (kind : Kind) (part : String)

/-- The part that a failure of a class of the pool needs to be shown at all. Failures in a graph
are made without such parts. -/
def Kind.neededPart? (k : Kind) : Option String :=
  if k = ⟨.pool, "IncompleteRead"⟩ then some "partial"
  else if k = ⟨.pool, "InvalidChunkLength"⟩ then some "length"
  else none

mutual

/-- The text of the failure at a place inside the text of another: its class and its arguments.
`around` are the failures with several arguments whose arguments it stands among; such a one is
shown as its class around three points. -/
def literalAt (nodes : List Node) : (fuel : Nat) → (around : List Nat) → Nat →
    Except PrintFault Text
  | 0, _, _ => .error (.endless .literal)
  | fuel + 1, around, i =>
    match nodes[i]? with
    | none => .ok []
    | some n =>
      match n.kind.neededPart?, n.args with
      | some part, _ => .error (.partless n.kind part)
      | none, [a] => do
        return Text.ofString n.kind.name ++ "(" ++ (← argLiteral nodes fuel around a) ++ ")"
      | none, args =>
        if around.contains i then .ok (Text.ofString n.kind.name ++ "(...)")
        else do
          let parts ← argLiterals nodes fuel (i :: around) args
          return Text.ofString n.kind.name ++ "(" ++ Text.join ", " parts ++ ")"
termination_by fuel _ _ => (fuel, 0)

/-- The text of an argument inside the text of a failure. -/
def argLiteral (nodes : List Node) (fuel : Nat) (around : List Nat) : Arg → Except PrintFault Text
  | .value v => v.literal.mapError .digits
  | .failure i => literalAt nodes fuel around i
termination_by (fuel, 1)

/-- The texts of several arguments inside the text of a failure. -/
def argLiterals (nodes : List Node) (fuel : Nat) (around : List Nat) :
    List Arg → Except PrintFault (List Text)
  | [] => .ok []
  | a :: rest => do
    let part ← argLiteral nodes fuel around a
    return part :: (← argLiterals nodes fuel around rest)
termination_by args => (fuel, 2 + args.length)

end

/-- The text of the failure at a place: the words of its class, or else nothing without arguments,
the text of a single argument, and several arguments as a tuple. A missing key is shown as it would
be inside a message. -/
def messageAt (nodes : List Node) : (fuel : Nat) → Nat → Except PrintFault Text
  | 0, _ => .error (.endless .text)
  | fuel + 1, i =>
    match nodes[i]? with
    | none => .ok []
    | some n =>
      match n.kind.neededPart?, n.wording, n.args with
      | some part, _, _ => .error (.partless n.kind part)
      | none, some t, _ => .ok t
      | none, none, [] => .ok []
      | none, none, [a] =>
        if n.kind = ⟨.system, "KeyError"⟩ then argLiteral nodes fuel [] a
        else match a with
          | .value v => v.plain.mapError .digits
          | .failure j => messageAt nodes fuel j
      | none, none, args => do
        let parts ← argLiterals nodes fuel [i] args
        return "(" ++ Text.join ", " parts ++ ")"

/-- The text of a failure. A chain of failures longer than twice the graph repeats itself without
an end. -/
def message (f : Failure) : Except PrintFault Text :=
  messageAt f.nodes (2 * f.nodes.length + 2) f.root

end Failure

end RemoteTree
