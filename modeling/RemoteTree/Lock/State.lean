import RemoteTree.Lock.Plan

/-!
# The lock at work

Many readers or one writer, in the order in which they came. Actors start calls one after the
other; after each start everything runs that can. A door that is opened while somebody waits in
front of it goes straight to the first who waits.

* `Lock.start`: one call of one actor, and all that follows from it.
* `Lock.advance`, `Lock.settle`: one act, and acts until nobody can move.
* `Lock.Step`: what is seen of a call.
-/

namespace RemoteTree.Lock

/-- An actor in a call: what is still to be done, and the failure that will come out. -/
structure Task (α : Type) where
  actor : α
  plan : Plan
  fault : Option Fault

/-- How many may still pass a door, and who waits in front of it, the first one first. -/
structure Queue (α : Type) where
  free : Nat
  waiting : List (Task α)

/-- The lock: its doors and the count of readers. -/
structure State (α : Type) where
  turnstile : Queue α
  gate : Queue α
  room : Queue α
  readers : Int

/-- The lock that nobody uses. -/
def State.initial (α : Type) : State α := ⟨⟨1, []⟩, ⟨1, []⟩, ⟨1, []⟩, 0⟩

/-- The lock while calls run: the actors that can move, the one that moves next in front, and the
calls that have come to their end. -/
structure Run (α : Type) where
  state : State α
  ready : List (Task α)
  finished : List (α × Option Fault)

variable {α : Type}

/-- The queue at a door. -/
def State.queue (s : State α) : Door → Queue α
  | .turnstile => s.turnstile
  | .gate => s.gate
  | .room => s.room

/-- The lock with another queue at a door. -/
def State.withQueue (s : State α) (q : Queue α) : Door → State α
  | .turnstile => { s with turnstile := q }
  | .gate => { s with gate := q }
  | .room => { s with room := q }

/-- Whether somebody waits in front of some door as the actor. -/
def State.isWaiting [DecidableEq α] (s : State α) (a : α) : Bool :=
  (s.turnstile.waiting ++ s.gate.waiting ++ s.room.waiting).any fun t => t.actor = a

/-- The actors that wait in front of a door. -/
def State.waiting (s : State α) : List α :=
  (s.turnstile.waiting ++ s.gate.waiting ++ s.room.waiting).map Task.actor

/-- The actor goes on with a plan. -/
def Run.continue (r : Run α) (t : Task α) (p : Plan) : Run α :=
  { r with ready := { t with plan := p } :: r.ready }

/-- The actor passes the door or waits in front of it. -/
def Run.take (r : Run α) (t : Task α) (next : Plan) (d : Door) : Run α :=
  let q := r.state.queue d
  if 0 < q.free then
    { r with state := r.state.withQueue { q with free := q.free - 1 } d }.continue t next
  else
    let q := { q with waiting := q.waiting ++ [{ t with plan := next }] }
    { r with state := r.state.withQueue q d }

/-- The actor opens the door. All but the turnstile refuse that if nobody has passed them. -/
def Run.give (r : Run α) (t : Task α) (next onFailure : Plan) (d : Door) : Run α :=
  let q := r.state.queue d
  match q.waiting with
  | w :: ws =>
    { r with
      state := r.state.withQueue { q with waiting := ws } d
      ready := { t with plan := next } :: r.ready ++ [w] }
  | [] =>
    if d = .turnstile ∨ q.free = 0 then
      { r with state := r.state.withQueue { q with free := q.free + 1 } d }.continue t next
    else r.continue { t with fault := some .released } onFailure

/-- The actor does its next act. -/
def advance (r : Run α) (t : Task α) : Run α :=
  match t.plan with
  | .done => { r with finished := r.finished ++ [(t.actor, t.fault)] }
  | .act (.take d) next _ => r.take t next d
  | .act (.give d) next onFailure => r.give t next onFailure d
  | .act .enter next _ =>
    let n := r.state.readers + 1
    let r := { r with state := { r.state with readers := n } }
    if n = 1 then r.take t next .room else r.continue t next
  | .act .leave next onFailure =>
    let n := r.state.readers - 1
    let r := { r with state := { r.state with readers := n } }
    if n = 0 then r.give t next onFailure .room else r.continue t next
  | .act .fail _ onFailure => r.continue { t with fault := some .inside } onFailure

theorem finished_take (r : Run α) (t : Task α) (next : Plan) (d : Door) :
    (r.take t next d).finished = r.finished := by
  simp only [Run.take]
  split <;> rfl

theorem finished_give (r : Run α) (t : Task α) (next onFailure : Plan) (d : Door) :
    (r.give t next onFailure d).finished = r.finished := by
  simp only [Run.give]
  split
  · rfl
  · split <;> rfl

/-- A call ends when its actor has nothing left to do. -/
theorem finished_advance (r : Run α) (t : Task α) :
    (advance r t).finished =
      if t.plan = .done then r.finished ++ [(t.actor, t.fault)] else r.finished := by
  unfold advance
  split <;> rename_i h <;> simp only [h, reduceCtorEq, if_true, if_false]
  · exact finished_take ..
  · exact finished_give ..
  · split
    · exact finished_take ..
    · rfl
  · split
    · exact finished_give ..
    · rfl
  · rfl

/-- The number of acts and ends that tasks have in front of them. -/
def workOf : List (Task α) → Nat
  | [] => 0
  | t :: ts => t.plan.size + 1 + workOf ts

@[simp] theorem workOf_nil : workOf ([] : List (Task α)) = 0 := rfl

@[simp] theorem workOf_cons (t : Task α) (ts : List (Task α)) :
    workOf (t :: ts) = t.plan.size + 1 + workOf ts := rfl

@[simp] theorem workOf_append (ts us : List (Task α)) :
    workOf (ts ++ us) = workOf ts + workOf us := by
  induction ts with
  | nil => simp
  | cons t ts ih =>
    rw [List.cons_append, workOf_cons, workOf_cons, ih]
    omega

/-- The number of acts and ends that all tasks have in front of them. -/
def Run.work (r : Run α) : Nat :=
  workOf r.ready + workOf r.state.turnstile.waiting + workOf r.state.gate.waiting +
    workOf r.state.room.waiting

theorem work_continue (r : Run α) (t : Task α) (p : Plan) :
    (r.continue t p).work = r.work + p.size + 1 := by
  simp only [Run.continue, Run.work, workOf_cons]
  omega

theorem work_take (r : Run α) (t : Task α) (next : Plan) (d : Door) :
    (r.take t next d).work = r.work + next.size + 1 := by
  simp only [Run.take]
  split
  · rw [work_continue]
    cases d <;> rfl
  · cases d <;> simp [Run.work, State.withQueue, State.queue] <;> omega

theorem work_give (r : Run α) (t : Task α) (next onFailure : Plan) (d : Door) :
    (r.give t next onFailure d).work ≤ r.work + next.size + onFailure.size + 1 := by
  simp only [Run.give]
  split
  · rename_i h
    cases d <;> simp_all [Run.work, State.withQueue, State.queue] <;> omega
  · rename_i h
    split
    · rw [work_continue]
      cases d <;> simp_all [Run.work, State.withQueue, State.queue]
    · rw [work_continue]
      omega

/-- An act leaves less to do. -/
theorem work_advance (r : Run α) (t : Task α) : (advance r t).work < r.work + t.plan.size + 1 := by
  unfold advance
  split <;> rename_i h <;> simp only [h, Plan.size]
  · simp [Run.work]
  · rw [work_take]
    omega
  · refine Nat.lt_of_le_of_lt (work_give _ _ _ _ _) ?_
    omega
  · split
    · rw [work_take]
      simp only [Run.work]
      omega
    · rw [work_continue]
      simp only [Run.work]
      omega
  · split
    · refine Nat.lt_of_le_of_lt (work_give _ _ _ _ _) ?_
      simp only [Run.work]
      omega
    · rw [work_continue]
      simp only [Run.work]
      omega
  · rw [work_continue]
    omega

/-- What the actor in front does leaves less to do. -/
theorem work_move {r : Run α} {t : Task α} {ts : List (Task α)} (h : r.ready = t :: ts) :
    (advance { r with ready := ts } t).work < r.work := by
  have := work_advance { r with ready := ts } t
  simp only [Run.work, h, workOf_cons] at this ⊢
  omega

/-- Acts are done until nobody can move. The actor in front moves until it waits or is done. -/
def settle (r : Run α) : Run α :=
  match h : r.ready with
  | [] => r
  | t :: ts =>
    have := work_move h
    settle (advance { r with ready := ts } t)
termination_by r.work

theorem settle_of_nil {r : Run α} (h : r.ready = []) : settle r = r := by
  rw [settle]
  split
  · rfl
  · simp_all

theorem settle_of_cons {r : Run α} {t : Task α} {ts : List (Task α)} (h : r.ready = t :: ts) :
    settle r = settle (advance { r with ready := ts } t) := by
  rw [settle]
  split
  · simp_all
  · rename_i h'
    rw [h] at h'
    cases h'
    rfl

/-- What is seen of a call: that the actor is still in an earlier one, or all the calls that came
to their end. -/
inductive Step (α : Type) where
  | busy (actor : α)
  | ran (finished : List (α × Option Fault))

/-- An actor starts a call, and everything runs that can. An actor that still waits in an earlier
call starts none. -/
def start [DecidableEq α] (s : State α) (a : α) (c : Call) : State α × Step α :=
  if s.isWaiting a then (s, .busy a)
  else
    let r := settle ⟨s, [⟨a, c.plan, none⟩], []⟩
    (r.state, .ran r.finished)

end RemoteTree.Lock
