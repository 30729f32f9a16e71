import RemoteTree.Proofs.Lock.Record

/-!
# One turn of the lock

While nobody is at the gate, the lock is its count of readers and the two queues in front of the
turnstile and the room. These lemmas follow the task in front from one such state to the next.

* `advance_takeGate` to `advance_fail`: each act in such a state.
* `opened`: the turnstile has just been given to the first who waits there.
* `watch_reader`, `watch_writer`, `watch_blocked`: what becomes of the one that has passed the
  turnstile. A reader is served at once; a writer passes the room, or waits until the readers leave.
* `watch_inRoom_use`, `watch_inRoom_keep`: what becomes of the one that has passed the room.
-/

namespace RemoteTree.Lock

variable {α : Type}

/-- What is left of a plan after its first act. -/
def Plan.tail : Plan → Plan
  | .done => .done
  | .act _ next _ => next

/-- A call whose actor has passed the turnstile, or passes it when it is next. -/
def entering (e : α × Call) : Task α := ⟨e.1, e.2.plan.tail, none⟩

/-- A call whose actor has passed the turnstile and the room, or passes the room when it is next. -/
def inRoom (e : α × Call) : Task α := ⟨e.1, e.2.plan.tail.tail, none⟩

/-- The room while there are so many readers and no writer. -/
def roomFor (n : Nat) : Queue α := ⟨if n = 0 then 1 else 0, []⟩

@[simp] theorem roomFor_zero : roomFor (α := α) 0 = ⟨1, []⟩ := rfl

@[simp] theorem roomFor_succ (n : Nat) : roomFor (α := α) (n + 1) = ⟨0, []⟩ := rfl

/-- The turnstile when it has been given to the first in the row. -/
def passOn : List (Task α) → Queue α
  | [] => ⟨1, []⟩
  | _ :: rest => ⟨0, rest⟩

/-- The turnstile has been given to the first in the row while there are `n` readers. -/
def opened (n : Nat) (fin : List (α × Option Fault)) (row : List (α × Call)) : Run α :=
  ⟨⟨passOn (row.map entering), ⟨1, []⟩, roomFor n, n⟩, (row.map entering).head?.toList, fin⟩

section Acts

variable (s : State α) (t g r : Queue α) (n : Nat) (m : Int) (ts : List (Task α))
  (fin : List (α × Option Fault)) (a : α) (p p' : Plan) (f : Option Fault)

theorem advance_takeGate :
    advance ⟨⟨t, ⟨1, []⟩, r, m⟩, ts, fin⟩ ⟨a, .act (.take .gate) p p', f⟩ =
      ⟨⟨t, ⟨0, []⟩, r, m⟩, ⟨a, p, f⟩ :: ts, fin⟩ := rfl

theorem advance_giveGate :
    advance ⟨⟨t, ⟨0, []⟩, r, m⟩, ts, fin⟩ ⟨a, .act (.give .gate) p p', f⟩ =
      ⟨⟨t, ⟨1, []⟩, r, m⟩, ⟨a, p, f⟩ :: ts, fin⟩ := rfl

theorem advance_takeTurnstile :
    advance ⟨⟨⟨1, []⟩, g, r, m⟩, ts, fin⟩ ⟨a, .act (.take .turnstile) p p', f⟩ =
      ⟨⟨⟨0, []⟩, g, r, m⟩, ⟨a, p, f⟩ :: ts, fin⟩ := rfl

theorem advance_waitTurnstile (q : List (Task α)) :
    advance ⟨⟨⟨0, q⟩, g, r, m⟩, ts, fin⟩ ⟨a, .act (.take .turnstile) p p', f⟩ =
      ⟨⟨⟨0, q ++ [⟨a, p, f⟩]⟩, g, r, m⟩, ts, fin⟩ := rfl

theorem advance_giveTurnstile (q : List (Task α)) :
    advance ⟨⟨⟨0, q⟩, g, r, m⟩, ts, fin⟩ ⟨a, .act (.give .turnstile) p p', f⟩ =
      ⟨⟨passOn q, g, r, m⟩, ⟨a, p, f⟩ :: ts ++ q.head?.toList, fin⟩ := by
  cases q with
  | nil => simp [advance, Run.give, Run.continue, State.queue, State.withQueue, passOn]
  | cons w ws => simp [advance, Run.give, State.queue, State.withQueue, passOn]

theorem advance_takeRoom :
    advance ⟨⟨t, g, ⟨1, []⟩, m⟩, ts, fin⟩ ⟨a, .act (.take .room) p p', f⟩ =
      ⟨⟨t, g, ⟨0, []⟩, m⟩, ⟨a, p, f⟩ :: ts, fin⟩ := rfl

theorem advance_waitRoom :
    advance ⟨⟨t, g, ⟨0, []⟩, m⟩, ts, fin⟩ ⟨a, .act (.take .room) p p', f⟩ =
      ⟨⟨t, g, ⟨0, [⟨a, p, f⟩]⟩, m⟩, ts, fin⟩ := rfl

theorem advance_giveRoom :
    advance ⟨⟨t, g, ⟨0, []⟩, m⟩, ts, fin⟩ ⟨a, .act (.give .room) p p', f⟩ =
      ⟨⟨t, g, ⟨1, []⟩, m⟩, ⟨a, p, f⟩ :: ts, fin⟩ := by
  simp [advance, Run.give, Run.continue, State.queue, State.withQueue]

/-- A reader that enters while the readers have the room, or nobody, never waits for it. -/
theorem advance_enter :
    advance ⟨⟨t, g, roomFor n, n⟩, ts, fin⟩ ⟨a, .act .enter p p', f⟩ =
      ⟨⟨t, g, ⟨0, []⟩, n + 1⟩, ⟨a, p, f⟩ :: ts, fin⟩ := by
  cases n with
  | zero => rfl
  | succ n =>
    have hn : ¬ ((n + 1 : Nat) : Int) + 1 = 1 := by omega
    simp only [advance, hn, if_false]
    rfl

/-- A reader that leaves while nobody waits for the room. -/
theorem advance_leave :
    advance ⟨⟨t, g, ⟨0, []⟩, n + 1⟩, ts, fin⟩ ⟨a, .act .leave p p', f⟩ =
      ⟨⟨t, g, roomFor n, n⟩, ⟨a, p, f⟩ :: ts, fin⟩ := by
  have hn : ((n : Int) + 1 - 1) = n := by omega
  cases n with
  | zero => simp [advance, Run.give, Run.continue, State.queue, State.withQueue, roomFor]
  | succ n =>
    have h0 : ¬ ((n + 1 : Nat) : Int) = 0 := by omega
    simp only [advance, hn, h0, if_false]
    rfl

/-- The last reader that leaves gives the room to the one who waits for it. -/
theorem advance_leaveLast (w : Task α) :
    advance ⟨⟨t, g, ⟨0, [w]⟩, 1⟩, ts, fin⟩ ⟨a, .act .leave p p', f⟩ =
      ⟨⟨t, g, ⟨0, []⟩, 0⟩, ⟨a, p, f⟩ :: ts ++ [w], fin⟩ := rfl

/-- A reader that leaves others behind gives nothing back. -/
theorem advance_leaveOthers (q : List (Task α)) :
    advance ⟨⟨t, g, ⟨0, q⟩, n + 1 + 1⟩, ts, fin⟩ ⟨a, .act .leave p p', f⟩ =
      ⟨⟨t, g, ⟨0, q⟩, n + 1⟩, ⟨a, p, f⟩ :: ts, fin⟩ := by
  have hn : ((n : Int) + 1 + 1 - 1) = n + 1 := by omega
  have h0 : ¬ ((n : Int) + 1) = 0 := by omega
  simp only [advance, hn, h0, if_false]
  rfl

theorem advance_fail :
    advance ⟨s, ts, fin⟩ ⟨a, .act .fail p p', f⟩ = ⟨s, ⟨a, p', some .inside⟩ :: ts, fin⟩ := rfl

variable [DecidableEq α] (k : Record α)

theorem watch_act (x : Act) :
    k.watch ⟨s, ⟨a, .act x p p', f⟩ :: ts, fin⟩ =
      (k.move ⟨a, .act x p p', f⟩).watch (advance ⟨s, ts, fin⟩ ⟨a, .act x p p', f⟩) :=
  k.watch_cons ..

theorem watch_done :
    k.watch ⟨s, ⟨a, .done, f⟩ :: ts, fin⟩ = (k.move ⟨a, .done, f⟩).watch ⟨s, ts, fin ++ [(a, f)]⟩ :=
  k.watch_cons ..

end Acts

variable [DecidableEq α]

/-- The record when a call is served that needs not wait any more. -/
def Record.served (k : Record α) (e : α × Call) : Record α :=
  match e.2.use? with
  | none => k
  | some (_, rest) => (k.reach e.1 e.2 rest).finish e.1 e.2 e.2.outcome

section Turns

variable {k : Record α} {e : α × Call} {q : List (α × Call)} (n : Nat)
  (fin : List (α × Option Fault))

/-- **A reader is served at once**, whether it keeps its access or not, and lets the next one pass. -/
theorem watch_reader (h : k.pending = e :: q) (he : e.2.asks? = some .reading) :
    k.watch (opened n fin k.pending) =
      (k.served e).watch
        (opened (if e.2.givesBack? = none then n + 1 else n) (fin ++ [(e.1, e.2.outcome)]) q) := by
  obtain ⟨a, c⟩ := e
  rw [h]
  cases c <;> simp [Call.asks?, Call.use?] at he
  all_goals
    simp [h, opened, entering, passOn, Call.plan, Plan.acquireRead, Plan.releaseRead, Plan.step,
      Plan.tail, watch_act, watch_done, Record.move, Record.callOf?, Record.reach, Record.gain,
      Record.served, Call.use?, Call.givesBack?, Call.outcome, advance_takeGate, advance_enter,
      advance_giveGate, advance_giveTurnstile, advance_leave, advance_fail]

/-- A writer that finds the readers gone passes the room as well. -/
theorem watch_writer (h : k.pending = e :: q) (he : e.2.asks? = some .writing) :
    k.watch (opened 0 fin k.pending) =
      k.watch ⟨⟨⟨0, q.map entering⟩, ⟨1, []⟩, ⟨0, []⟩, 0⟩, [inRoom e], fin⟩ := by
  obtain ⟨a, c⟩ := e
  rw [h]
  cases c <;> simp [Call.asks?, Call.use?] at he
  all_goals
    simp [h, opened, entering, inRoom, passOn, Call.plan, Plan.acquireWrite, Plan.releaseWrite,
      Plan.step, Plan.tail, watch_act, Record.move, Record.callOf?, Record.reach, Call.use?,
      advance_takeRoom]

/-- **A writer waits while there are readers.** It keeps the turnstile, so that nobody passes it. -/
theorem watch_blocked (h : k.pending = e :: q) (he : e.2.asks? = some .writing) :
    k.watch (opened (n + 1) fin k.pending) =
      { k with state := ⟨⟨0, q.map entering⟩, ⟨1, []⟩, ⟨0, [inRoom e]⟩, n + 1⟩ } := by
  obtain ⟨a, c⟩ := e
  rw [h]
  cases c <;> simp [Call.asks?, Call.use?] at he
  all_goals
    simp [h, opened, entering, inRoom, passOn, Call.plan, Plan.acquireWrite, Plan.releaseWrite,
      Plan.step, Plan.tail, watch_act, Record.watch_nil, Record.move, Record.callOf?, Record.reach,
      Call.use?, advance_waitRoom]

/-- A writer in the room that gives it back lets the next one pass the turnstile. -/
theorem watch_inRoom_use (h : k.pending = e :: q) (he : e.2.asks? = some .writing)
    (hb : e.2.givesBack? ≠ none) :
    k.watch ⟨⟨⟨0, q.map entering⟩, ⟨1, []⟩, ⟨0, []⟩, 0⟩, [inRoom e], fin⟩ =
      (k.served e).watch (opened 0 (fin ++ [(e.1, e.2.outcome)]) q) := by
  obtain ⟨a, c⟩ := e
  cases c <;> simp [Call.asks?, Call.use?, Call.givesBack?] at he hb
  all_goals
    simp [h, opened, inRoom, passOn, Call.plan, Plan.acquireWrite, Plan.releaseWrite, Plan.step,
      Plan.tail, watch_act, watch_done, Record.move, Record.callOf?, Record.reach, Record.gain,
      Record.served, Call.use?, Call.outcome, advance_giveRoom, advance_giveTurnstile, advance_fail]

/-- A writer in the room that keeps it keeps the turnstile too. -/
theorem watch_inRoom_keep (h : k.pending = e :: q) (he : e.2.asks? = some .writing)
    (hb : e.2.givesBack? = none) :
    k.watch ⟨⟨⟨0, q.map entering⟩, ⟨1, []⟩, ⟨0, []⟩, 0⟩, [inRoom e], fin⟩ =
      { k.served e with state := ⟨⟨0, q.map entering⟩, ⟨1, []⟩, ⟨0, []⟩, 0⟩ } := by
  obtain ⟨a, c⟩ := e
  cases c <;> simp [Call.asks?, Call.use?, Call.givesBack?] at he hb
  all_goals
    simp [h, inRoom, Call.plan, Plan.acquireWrite, Plan.step, Plan.tail, watch_done,
      Record.watch_nil, Record.move, Record.callOf?, Record.reach, Record.gain, Record.served,
      Call.use?, Call.outcome]

end Turns

end RemoteTree.Lock
