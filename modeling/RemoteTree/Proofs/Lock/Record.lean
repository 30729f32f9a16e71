import RemoteTree.Lock.State

/-!
# A record of the lock

What somebody writes down who watches the lock: the calls that were started, when each of them got
the access that it asks for, when it ended, and who has access right now. The record looks at one
task at a time, as it moves; the lock does not know of it.

* `Call.use?`: the access that a call asks for, and what it does once it has it.
* `Record.move`: what the move of a task adds to the record.
* `Record.watch`: the record of a run until nobody can move; `watch_state` and `ended_watch` say that
  it ends in the state and with the ends of `settle`.
* `Record.step`: a call of an actor and all that follows from it. `step_state` says that the lock goes
  through it as `start` says.
* `Record.Reached`: the records of all rows of steps in which nobody gives back what it has not got.
-/

namespace RemoteTree.Lock

/-- The two kinds of access. -/
inductive Access where
  | reading | writing
deriving DecidableEq

namespace Call

/-- The access that a call asks for, and what is left to do of the call once it has it. -/
def use? : Call → Option (Access × Plan)
  | .acquireRead => some (.reading, .done)
  | .read => some (.reading, Plan.releaseRead)
  | .readFailing => some (.reading, .act .fail .done Plan.releaseRead)
  | .acquireWrite => some (.writing, .done)
  | .write => some (.writing, Plan.releaseWrite)
  | .writeFailing => some (.writing, .act .fail .done Plan.releaseWrite)
  | .releaseRead | .releaseWrite => none

/-- The access that a call asks for. A release asks for none. -/
def asks? (c : Call) : Option Access := c.use?.map Prod.fst

/-- The access that the actor has given back when the call ends. -/
def givesBack? : Call → Option Access
  | .releaseRead | .read | .readFailing => some .reading
  | .releaseWrite | .write | .writeFailing => some .writing
  | .acquireRead | .acquireWrite => none

/-- How a call ends: with a failure if what is done under the lock fails. -/
def outcome : Call → Option Fault
  | .readFailing | .writeFailing => some .inside
  | _ => none

end Call

/-- That a call gets the access it asks for: who has access at that moment. -/
structure Grant (α : Type) where
  actor : α
  call : Call
  readers : List α
  writers : List α

/-- That an actor ends the call that it is in, and how. -/
structure Ending (α : Type) where
  actor : α
  call? : Option Call
  fault : Option Fault

/-- What has been seen of the lock. -/
structure Record (α : Type) where
  state : State α
  /-- The calls that have not ended, in the order in which they were started. -/
  pending : List (α × Call)
  /-- The actors that have access for reading, one entry for each access. -/
  readers : List α
  /-- The actors that have access for writing. -/
  writers : List α
  /-- The calls that ask for access, in the order in which they were started. -/
  started : List (α × Call)
  /-- The accesses in the order in which they were granted. -/
  granted : List (Grant α)
  /-- The ends of calls in their order. -/
  ended : List (Ending α)

namespace Record

variable {α : Type}

/-- The record before the first call. -/
def initial (α : Type) : Record α := ⟨.initial α, [], [], [], [], [], []⟩

/-- The record with one more access. -/
def gain (k : Record α) (a : α) : Access → Record α
  | .reading => { k with readers := k.readers ++ [a] }
  | .writing => { k with writers := k.writers ++ [a] }

variable [DecidableEq α]

/-- The record with one access less. -/
def lose (k : Record α) (a : α) : Access → Record α
  | .reading => { k with readers := k.readers.erase a }
  | .writing => { k with writers := k.writers.erase a }

/-- The call that an actor is in. -/
def callOf? (k : Record α) (a : α) : Option Call :=
  (k.pending.find? fun e => e.1 = a).map Prod.snd

/-- The record when an actor in a call comes to a plan: it is granted its access if the plan is what
is left to do with it. -/
def reach (k : Record α) (a : α) (c : Call) (p : Plan) : Record α :=
  match c.use? with
  | none => k
  | some (x, rest) =>
    if p = rest then
      let g : Grant α := ⟨a, c, k.readers, k.writers⟩
      { k with granted := k.granted ++ [g] }.gain a x
    else k

/-- The record when an actor ends the call that it is in. -/
def finish (k : Record α) (a : α) (c : Option Call) (fault : Option Fault) : Record α :=
  let e : Ending α := ⟨a, c, fault⟩
  let k := { k with pending := k.pending.eraseP fun e => e.1 = a, ended := k.ended ++ [e] }
  match c.bind Call.givesBack? with
  | none => k
  | some x => k.lose a x

/-- The record when a task moves. -/
def move (k : Record α) (t : Task α) : Record α :=
  let c := k.callOf? t.actor
  let k := match c with
    | none => k
    | some c => k.reach t.actor c t.plan
  if t.plan = .done then k.finish t.actor c t.fault else k

/-- The record of a run until nobody can move. -/
def watch (k : Record α) (r : Run α) : Record α :=
  match h : r.ready with
  | [] => { k with state := r.state }
  | t :: ts =>
    have := work_move h
    watch (k.move t) (advance { r with ready := ts } t)
termination_by r.work

theorem watch_nil (k : Record α) (s : State α) (fin : List (α × Option Fault)) :
    k.watch ⟨s, [], fin⟩ = { k with state := s } := by
  rw [watch]

theorem watch_cons (k : Record α) (s : State α) (t : Task α) (ts : List (Task α))
    (fin : List (α × Option Fault)) :
    k.watch ⟨s, t :: ts, fin⟩ = (k.move t).watch (advance ⟨s, ts, fin⟩ t) := by
  rw [watch]

/-- A run that is watched ends in the state that it ends in unwatched. -/
theorem watch_state (k : Record α) (r : Run α) : (k.watch r).state = (settle r).state := by
  fun_induction watch k r with
  | case1 k r h => rw [settle_of_nil h]
  | case2 k r t ts h _ ih => rw [ih, settle_of_cons h]

/-- What is seen of the end of a call. -/
def Ending.seen (e : Ending α) : α × Option Fault := (e.actor, e.fault)

omit [DecidableEq α] in
theorem ended_gain (k : Record α) (a : α) (x : Access) : (k.gain a x).ended = k.ended := by
  cases x <;> rfl

omit [DecidableEq α] in
theorem ended_reach (k : Record α) (a : α) (c : Call) (p : Plan) :
    (k.reach a c p).ended = k.ended := by
  unfold reach
  split
  · rfl
  · split
    · rw [ended_gain]
    · rfl

theorem ended_finish (k : Record α) (a : α) (c : Option Call) (f : Option Fault) :
    (k.finish a c f).ended = k.ended ++ [⟨a, c, f⟩] := by
  unfold finish
  split
  · rfl
  · rename_i x _
    cases x <;> rfl

theorem ended_move (k : Record α) (t : Task α) :
    (k.move t).ended =
      if t.plan = .done then k.ended ++ [⟨t.actor, k.callOf? t.actor, t.fault⟩] else k.ended := by
  unfold move
  split
  · rw [ended_finish]
    cases k.callOf? t.actor with
    | none => rfl
    | some c => rw [ended_reach]
  · cases k.callOf? t.actor with
    | none => rfl
    | some c => rw [ended_reach]

/-- The ends in the record of a run are those that the run is seen to have. -/
theorem seen_watch (k : Record α) (r : Run α) :
    ∃ new, (k.watch r).ended.map Ending.seen = k.ended.map Ending.seen ++ new ∧
      (settle r).finished = r.finished ++ new := by
  fun_induction watch k r with
  | case1 k r h => exact ⟨[], by simp, by rw [settle_of_nil h, List.append_nil]⟩
  | case2 k r t ts h _ ih =>
    obtain ⟨new, hk, hr⟩ := ih
    rw [settle_of_cons h, hk, hr, ended_move, finished_advance]
    -- the record and the run note an end in the same turn, which is that of a plan that is done
    by_cases hp : t.plan = .done
    · exact ⟨(t.actor, t.fault) :: new, by simp [hp, Ending.seen], by simp [hp]⟩
    · exact ⟨new, by simp [hp], by simp [hp]⟩

/-- The record with one more call in it. -/
def calling (k : Record α) (a : α) (c : Call) : Record α :=
  { k with
    pending := k.pending ++ [(a, c)]
    started := if c.asks?.isSome then k.started ++ [(a, c)] else k.started }

/-- The record when an actor starts a call and everything runs that can. An actor that still waits
in an earlier call starts none. -/
def step (k : Record α) (a : α) (c : Call) : Record α :=
  if k.state.isWaiting a then k else (k.calling a c).watch ⟨k.state, [⟨a, c.plan, none⟩], []⟩

/-- The lock goes through a step as `start` says, and the record of the step adds the ends of calls
that `start` shows. -/
theorem step_eq_start (k : Record α) (a : α) (c : Call) :
    (k.step a c).state = (start k.state a c).1 ∧
      ∀ fin, (start k.state a c).2 = .ran fin →
        (k.step a c).ended.map Ending.seen = k.ended.map Ending.seen ++ fin := by
  unfold step start
  split
  · exact ⟨rfl, fun fin h => by cases h⟩
  · refine ⟨watch_state _ _, fun fin h => ?_⟩
    cases h
    obtain ⟨new, hk, hr⟩ := seen_watch (k.calling a c) ⟨k.state, [⟨a, c.plan, none⟩], []⟩
    rw [hk, hr, List.nil_append]
    rfl

/-! ## The history only grows -/

omit [DecidableEq α] in
theorem history_reach (k : Record α) (a : α) (c : Call) (p : Plan) :
    k.granted <+: (k.reach a c p).granted ∧ (k.reach a c p).started = k.started := by
  unfold reach
  split
  · exact ⟨List.prefix_rfl, rfl⟩
  · split
    · rename_i x _ _ _
      cases x <;> exact ⟨List.prefix_append _ _, rfl⟩
    · exact ⟨List.prefix_rfl, rfl⟩

theorem history_finish (k : Record α) (a : α) (c : Option Call) (f : Option Fault) :
    (k.finish a c f).granted = k.granted ∧ (k.finish a c f).started = k.started := by
  unfold finish
  split
  · exact ⟨rfl, rfl⟩
  · rename_i x _
    cases x <;> exact ⟨rfl, rfl⟩

theorem history_move (k : Record α) (t : Task α) :
    k.granted <+: (k.move t).granted ∧ (k.move t).started = k.started := by
  unfold move
  split
  · rw [(history_finish _ _ _ _).1, (history_finish _ _ _ _).2]
    cases k.callOf? t.actor with
    | none => exact ⟨List.prefix_rfl, rfl⟩
    | some c => exact history_reach k t.actor c t.plan
  · cases k.callOf? t.actor with
    | none => exact ⟨List.prefix_rfl, rfl⟩
    | some c => exact history_reach k t.actor c t.plan

theorem history_watch (k : Record α) (r : Run α) :
    k.granted <+: (k.watch r).granted ∧ (k.watch r).started = k.started := by
  fun_induction watch k r with
  | case1 k r h => exact ⟨List.prefix_rfl, rfl⟩
  | case2 k r t ts h _ ih =>
    have hm := history_move k t
    exact ⟨hm.1.trans ih.1, ih.2.trans hm.2⟩

/-- A step adds to the history of grants and starts at its end. -/
theorem history_step (k : Record α) (a : α) (c : Call) :
    k.granted <+: (k.step a c).granted ∧ k.started <+: (k.step a c).started := by
  unfold step
  split
  · exact ⟨List.prefix_rfl, List.prefix_rfl⟩
  · have h := history_watch (k.calling a c) ⟨k.state, [⟨a, c.plan, none⟩], []⟩
    refine ⟨h.1, ?_⟩
    rw [h.2]
    unfold calling
    dsimp only
    split
    · exact List.prefix_append _ _
    · exact List.prefix_rfl

/-! ## Rows of steps -/

/-- Whether an actor may start a call: access is only given back by an actor that has it. -/
def Permits (k : Record α) (a : α) : Call → Prop
  | .releaseRead => a ∈ k.readers
  | .releaseWrite => a ∈ k.writers
  | _ => True

/-- The records of all rows of steps in which access is only given back by an actor that has it. -/
inductive Reached : Record α → Prop where
  | initial : Reached (.initial α)
  | step {k : Record α} {a : α} {c : Call} : Reached k → k.Permits a c → Reached (k.step a c)

end Record

end RemoteTree.Lock
