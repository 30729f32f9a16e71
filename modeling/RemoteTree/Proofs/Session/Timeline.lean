import RemoteTree.Session.Run

/-!
# What is done while a step is done

A step that sends requests waits for their replies, and the steps in between are done before it is. The
timeline of a session has all of them, each with the session before and after it, in the order in which
they come to their end.

* `Moment`: a step that has been done.
* `Action.operation?`: the operation that an action comes to; `Action.sends`, `Step.sends`: whether there may be
  one.
* `Session.inBetween`: the moments of the steps in between, while a step is done.
* `Session.timeline`: the moments of a row of steps and of all steps in between; `timeline_last` says that
  it leads to the session after the row.
-/

namespace RemoteTree

/-- A step that has been done, with what it yields and the session before and after it. -/
structure Moment where
  before : Session
  step : Step
  result : Except Error Result
  after : Session

/-- The operation that an action comes to: its method, its payload and its headers. -/
def Action.operation? : Action → Option (Method × Body × List (Text × Value))
  | .request m payload headers => some (m, payload, headers)
  | .push v _ => (Json.encode v).toOption.map fun bs => (.post, .bytes bs, [])
  | .set v => (Json.encode v).toOption.map fun bs => (.put, .bytes bs, [])
  | .update v => (Json.encode v).toOption.map fun bs => (.patch, .bytes bs, [])
  | .remove => some (.delete, .none, [])
  | .value _ => some (.get, .none, [])
  | _ => none

/-- Whether an action may send a request. -/
def Action.sends : Action → Bool
  | .push .. | .request .. | .set _ | .update _ | .remove | .value _ => true
  | _ => false

/-- Whether a step may send a request. -/
def Step.sends : Step → Bool
  | .act _ a => a.sends
  | _ => false

namespace Session

/-- What tells of the steps in between: their moments. -/
abbrev Teller := List Step → Session → List Moment

/-- The session in which the steps between a request and its reply begin. -/
def sending (s : Session) (q : Request) (seconds : Option Value) : Session :=
  { s.record q seconds with script := s.script.advance }

section

variable (meanwhile : Meanwhile) (tell : Teller)

/-- What comes of a request: the reply of the script, if no step in between fails. -/
theorem exchange_eq (s : Session) (q : Request) (seconds : Option Value) :
    s.exchange meanwhile q seconds =
      ((meanwhile s.script.next.meanwhile (s.sending q seconds)).1,
        ((meanwhile s.script.next.meanwhile (s.sending q seconds)).2.mapError Raised.error).bind
          fun _ => s.script.next.outcome.mapError Raised.failure) := by
  unfold exchange
  rcases h : meanwhile s.script.next.meanwhile (s.sending q seconds) with ⟨t, e | _⟩
  all_goals
    change meanwhile (s.record q seconds).script.next.meanwhile
      { s.record q seconds with script := (s.record q seconds).script.advance } = _ at h
    simp only [h]
    rfl

/-- The moments between a request and its reply. -/
def untilReply (s : Session) (q : Request) (seconds : Option Value) : List Moment :=
  tell s.script.next.meanwhile (s.sending q seconds)

/-- The moments until a chain comes to its end. -/
def untilEnd (seconds : Option Value) : (fuel : Nat) → Session → Chain → List Moment
  | 0, _, _ => []
  | fuel + 1, s, c =>
    if !c.isSendable then []
    else s.untilReply tell c.current seconds ++
      match s.attempt meanwhile seconds c with
      | (s, .followed _ c) => untilEnd seconds fuel s c
      | _ => []

/-- The moments while an operation is done. -/
def whileOperating (s : Session) (r : Reference) (m : Method) (payload : Body)
    (headers : List (Text × Value)) : List Moment :=
  match s.firstRequest r m payload headers, Timeout.attempt r.timeout with
  | .ok (target, first), .ok seconds =>
    let s := s.noteFirst m target
    s.untilEnd meanwhile tell seconds s.patience (.start first)
  | _, _ => []

/-- The moments of the steps in between, while an action of a reference is done. -/
def whileActing (s : Session) (r : Reference) (a : Action) : List Moment :=
  match a.operation? with
  | some (m, payload, headers) => s.whileOperating meanwhile tell r m payload headers
  | none => []

/-- The moments of the steps in between, while a step is done. -/
def whileStepping (s : Session) : Step → List Moment
  | .act name a =>
    match s.references.find? name with
    | some (_, r) => s.whileActing meanwhile tell r a
    | none => []
  | _ => []

end

/-- The moments of steps in a row until one fails, given those of the steps in between. -/
def rowMoments (act : Session → Step → Performed) (within : Session → Step → List Moment) (s : Session) :
    List Step → List Moment
  | [] => []
  | t :: rest =>
    match act s t with
    | (s', .error e) => within s t ++ [⟨s, t, .error e, s'⟩]
    | (s', .ok v) => within s t ++ ⟨s, t, .ok v, s'⟩ :: rowMoments act within s' rest

/-- The moments of steps in between that go so deep. -/
def tellBetween : (depth : Nat) → Teller
  | 0, steps, s => rowMoments (fun s _ => s.fails .endlessChain) (fun _ _ => []) s steps
  | depth + 1, steps, s =>
    rowMoments (step (between depth)) (whileStepping (between depth) (tellBetween depth)) s steps

/-- The moments of the steps in between, while a step of the client is done. -/
def inBetween (s : Session) (t : Step) : List Moment :=
  s.whileStepping (between (s.script.length + nesting)) (tellBetween (s.script.length + nesting)) t

/-- The moments of a row of steps of the client, and of all steps in between. -/
def timeline (s : Session) : List Step → List Moment
  | [] => []
  | t :: rest =>
    s.inBetween t ++ ⟨s, t, (s.perform t).2, (s.perform t).1⟩ :: timeline (s.perform t).1 rest

theorem run_cons (s : Session) (t : Step) (rest : List Step) :
    s.run (t :: rest) = (s.perform t).1.run rest := rfl

/-- A timeline ends with the session after the row. -/
theorem timeline_last (s : Session) {steps : List Step} (h : steps ≠ []) :
    ∃ past m, s.timeline steps = past ++ [m] ∧ m.after = s.run steps := by
  induction steps generalizing s with
  | nil => exact absurd rfl h
  | cons t rest ih =>
    rw [timeline, run_cons]
    generalize s.perform t = x
    cases rest with
    | nil => exact ⟨_, _, rfl, rfl⟩
    | cons u rest =>
      obtain ⟨past, m, hm, hafter⟩ := ih x.1 (List.cons_ne_nil u rest)
      rw [hm]
      exact ⟨s.inBetween t ++ ⟨s, t, x.2, x.1⟩ :: past, m, by rw [List.append_assoc]; rfl, hafter⟩

/-- The session after a row is the one after some moment of it. -/
theorem exists_moment_after (s : Session) {steps : List Step} (h : steps ≠ []) :
    ∃ m ∈ s.timeline steps, s.run steps = m.after := by
  obtain ⟨past, m, hm, hafter⟩ := timeline_last s h
  refine ⟨m, ?_, hafter.symm⟩
  rw [hm]
  exact List.mem_append_right _ (List.mem_singleton_self m)

end Session

end RemoteTree
