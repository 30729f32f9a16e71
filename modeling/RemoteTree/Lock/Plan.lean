/-!
# What a caller of the lock does

A call is a plan: a row of acts, each with what follows it and what follows its failure. The lock
has three doors. Everyone enters by the turnstile, one at a time, so that nobody overtakes; the
gate guards the count of readers; the room is held by one writer or by the readers together.

* `Call.plan`: the acts of each call.
-/

namespace RemoteTree.Lock

/-- The doors of the lock. -/
inductive Door where
  | turnstile | gate | room
deriving DecidableEq

/-- What is done in one go. -/
inductive Act where
  /-- Passes a door, or waits in front of it. -/
  | take (door : Door)
  /-- Opens a door for the first who waits there. -/
  | give (door : Door)
  /-- Counts a reader in; the first takes the room. -/
  | enter
  /-- Counts a reader out; the last gives the room back. -/
  | leave
  /-- Fails. -/
  | fail
deriving DecidableEq

/-- A row of acts, each with what follows it and what follows its failure. -/
inductive Plan where
  | done
  | act (a : Act) (next onFailure : Plan)
deriving DecidableEq

/-- The number of acts in a plan. -/
def Plan.size : Plan → Nat
  | .done => 0
  | .act _ next onFailure => next.size + onFailure.size + 1

/-- How a call fails. -/
inductive Fault where
  /-- A door was opened that nobody had passed. -/
  | released
  /-- What was done under the lock failed. -/
  | inside
deriving DecidableEq

namespace Plan

/-- An act that cannot fail, and what follows. -/
def step (a : Act) (next : Plan) : Plan := .act a next .done

/-- Waits for its turn, is counted in, and lets the next one pass. -/
def acquireRead (next : Plan) : Plan :=
  step (.take .turnstile) <| step (.take .gate) <| step .enter <| step (.give .gate) <|
    step (.give .turnstile) next

/-- Is counted out. -/
def releaseRead : Plan :=
  step (.take .gate) <| .act .leave (step (.give .gate) .done) (step (.give .gate) .done)

/-- Waits for its turn and for the room, and keeps both. -/
def acquireWrite (next : Plan) : Plan := step (.take .turnstile) <| step (.take .room) next

/-- Gives the room back and lets the next one pass. -/
def releaseWrite : Plan := .act (.give .room) (step (.give .turnstile) .done) .done

end Plan

/-- The calls of the lock: the four halves, and the two whole uses, which may fail inside. -/
inductive Call where
  | acquireRead | releaseRead | acquireWrite | releaseWrite
  | read | write | readFailing | writeFailing
deriving DecidableEq

/-- The acts of a call. A use gives back what it holds, whether it fails inside or not. -/
def Call.plan : Call → Plan
  | .acquireRead => Plan.acquireRead .done
  | .releaseRead => Plan.releaseRead
  | .acquireWrite => Plan.acquireWrite .done
  | .releaseWrite => Plan.releaseWrite
  | .read => Plan.acquireRead Plan.releaseRead
  | .write => Plan.acquireWrite Plan.releaseWrite
  | .readFailing => Plan.acquireRead (.act .fail .done Plan.releaseRead)
  | .writeFailing => Plan.acquireWrite (.act .fail .done Plan.releaseWrite)

end RemoteTree.Lock
