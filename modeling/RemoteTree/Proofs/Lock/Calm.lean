import RemoteTree.Proofs.Lock.Turn

/-!
# The lock between two steps

Once nobody can move, the lock is in one of three states: readers share it and nobody waits, a writer
has it, or a writer waits until the readers have left. In the last two all others wait in front of the
turnstile in the order in which they came.

* `Record.Calm`: the three states, as the record tells of them.
* `Record.Sound`: what the record says of the past. Access was granted in the order of the calls, to
  writers alone and to readers without writers, and calls end as they should.
* `settled_opened`: what follows when the turnstile is given to a row of calls, by induction on the row.
* `settled_of_reached`: **every reached record is calm and sound.**
-/

namespace RemoteTree.Lock

variable {α : Type}

/-- A grant as the call that it was made to. -/
def Grant.request (g : Grant α) : α × Call := (g.actor, g.call)

namespace Record

/-- The three states of a lock in which nobody can move. -/
inductive Calm (k : Record α) : Prop where
  /-- Nobody waits. -/
  | shared (hq : k.pending = []) (hw : k.writers = [])
      (hs : k.state =
        ⟨⟨1, []⟩, ⟨1, []⟩, roomFor k.readers.length, (k.readers.length : Nat)⟩)
  /-- A writer has the room and the turnstile. -/
  | owned (w : α) (hw : k.writers = [w]) (hr : k.readers = [])
      (hs : k.state = ⟨⟨0, k.pending.map entering⟩, ⟨1, []⟩, ⟨0, []⟩, 0⟩)
  /-- A writer has the turnstile and waits for the room, which the readers have. -/
  | leaving (e : α × Call) (q : List (α × Call)) (n : Nat) (hq : k.pending = e :: q)
      (he : e.2.asks? = some .writing) (hw : k.writers = []) (hr : k.readers.length = n + 1)
      (hs : k.state = ⟨⟨0, q.map entering⟩, ⟨1, []⟩, ⟨0, [inRoom e]⟩, n + 1⟩)

/-- What a record says of the past while no task is on its way. -/
structure Sound (k : Record α) : Prop where
  /-- Those who wait ask for access. -/
  asks : ∀ e ∈ k.pending, e.2.asks?.isSome
  /-- Access was granted in the order in which the calls were started. -/
  order : k.started = k.granted.map Grant.request ++ k.pending
  /-- Access was granted to readers without writers, and to writers alone. -/
  grants : ∀ g ∈ k.granted, g.writers = [] ∧ (g.call.asks? = some .writing → g.readers = [])
  /-- Only what is done under the lock makes a call fail. -/
  ends : ∀ e ∈ k.ended, ∃ c, e.call? = some c ∧ e.fault = c.outcome

/-- The record of a lock in which nobody can move. -/
structure Settled (k : Record α) : Prop where
  calm : k.Calm
  sound : k.Sound

theorem Sound.withState {k : Record α} (h : k.Sound) (s : State α) :
    Sound { k with state := s } :=
  ⟨h.asks, h.order, h.grants, h.ends⟩

variable [DecidableEq α] {k : Record α} {e : α × Call} {q : List (α × Call)}

/-! ## A call that is served -/

theorem pending_served (h : k.pending = e :: q) (he : e.2.asks?.isSome) :
    (k.served e).pending = q := by
  obtain ⟨a, c⟩ := e
  cases c <;> simp [Call.asks?, Call.use?] at he
  all_goals simp [served, reach, finish, gain, lose, Call.use?, Call.givesBack?, h]

theorem length_readers_served (he : e.2.asks? = some .reading) :
    (k.served e).readers.length =
      if e.2.givesBack? = none then k.readers.length + 1 else k.readers.length := by
  obtain ⟨a, c⟩ := e
  cases c <;> simp [Call.asks?, Call.use?] at he
  all_goals
    simp [served, reach, finish, gain, lose, Call.use?, Call.givesBack?, List.length_erase_of_mem]

theorem readers_served (he : e.2.asks? = some .writing) : (k.served e).readers = k.readers := by
  obtain ⟨a, c⟩ := e
  cases c <;> simp [Call.asks?, Call.use?] at he
  all_goals simp [served, reach, finish, gain, lose, Call.use?, Call.givesBack?]

/-- Only a writer that keeps its access has access for writing afterwards. -/
theorem writers_served (hw : k.writers = []) :
    (k.served e).writers =
      if e.2.asks? = some .writing ∧ e.2.givesBack? = none then [e.1] else [] := by
  obtain ⟨a, c⟩ := e
  cases c <;>
    simp [served, reach, finish, gain, lose, Call.use?, Call.asks?, Call.givesBack?, hw]

theorem Sound.served (h : k.Sound) (hq : k.pending = e :: q) (hw : k.writers = [])
    (hr : e.2.asks? = some .writing → k.readers = []) : (k.served e).Sound := by
  have he : e.2.asks?.isSome := h.asks e (by simp [hq])
  have hg : (k.served e).granted = k.granted ++ [⟨e.1, e.2, k.readers, k.writers⟩] := by
    obtain ⟨a, c⟩ := e
    cases c <;> simp [Call.asks?, Call.use?] at he
    all_goals simp [Record.served, reach, finish, gain, lose, Call.use?, Call.givesBack?]
  have hs : (k.served e).started = k.started := by
    obtain ⟨a, c⟩ := e
    cases c <;> simp [Record.served, reach, finish, gain, lose, Call.use?, Call.givesBack?]
  have hf : (k.served e).ended = k.ended ++ [⟨e.1, e.2, e.2.outcome⟩] := by
    obtain ⟨a, c⟩ := e
    cases c <;> simp [Call.asks?, Call.use?] at he
    all_goals simp [Record.served, reach, finish, gain, lose, Call.use?, Call.givesBack?]
  refine ⟨?_, ?_, ?_, ?_⟩
  · intro x hx
    rw [pending_served hq he] at hx
    exact h.asks x (by simp [hq, hx])
  · rw [hs, hg, pending_served hq he, h.order, hq]
    simp [Grant.request]
  · intro g hm
    rw [hg, List.mem_append, List.mem_singleton] at hm
    rcases hm with hm | rfl
    · exact h.grants g hm
    · exact ⟨hw, hr⟩
  · intro x hx
    rw [hf, List.mem_append, List.mem_singleton] at hx
    rcases hx with hx | rfl
    · exact h.ends x hx
    · exact ⟨e.2, rfl, rfl⟩

/-! ## A row of calls -/

/-- A writer that has passed the turnstile and the room, and what follows from it. `ih` says what
follows when the turnstile is given to those behind it. -/
theorem settled_inRoom (fin : List (α × Option Fault)) (h : k.Sound) (hq : k.pending = e :: q)
    (he : e.2.asks? = some .writing) (hw : k.writers = []) (hr : k.readers = [])
    (ih : ∀ (k : Record α) fin, k.Sound → k.pending = q → k.writers = [] →
      Settled (k.watch (opened k.readers.length fin k.pending))) :
    Settled (k.watch ⟨⟨⟨0, q.map entering⟩, ⟨1, []⟩, ⟨0, []⟩, 0⟩, [inRoom e], fin⟩) := by
  have hs := h.served hq hw fun _ => hr
  have hp := pending_served hq (h.asks e (by simp [hq]))
  have hrd := readers_served (k := k) he
  -- a writer that keeps its access keeps the turnstile, and another one gives it to those behind it
  by_cases hb : e.2.givesBack? = none
  · rw [watch_inRoom_keep fin hq he hb]
    refine ⟨.owned e.1 ?_ ?_ ?_, hs.withState _⟩
    · simp only [writers_served hw, he, hb, and_self, if_true]
    · simp only [hrd, hr]
    · simp only [hp]
  · rw [watch_inRoom_use fin hq he hb]
    have := ih (k.served e) (fin ++ [(e.1, e.2.outcome)]) hs hp
      (by simp only [writers_served hw, hb, and_false, if_false])
    rw [hrd, hr, hp] at this
    exact this

/-- **The turnstile goes down the row.** Those who wait are served one after the other, until a writer
keeps the turnstile or nobody is left. -/
theorem settled_opened :
    ∀ (q : List (α × Call)) (k : Record α) (fin : List (α × Option Fault)), k.Sound →
      k.pending = q → k.writers = [] →
      Settled (k.watch (opened k.readers.length fin k.pending)) := by
  intro q
  -- whoever is served changes the record, so the record is not fixed in the induction on the row
  induction q with
  | nil =>
    intro k fin h hq hw
    have : opened k.readers.length fin k.pending =
        ⟨⟨⟨1, []⟩, ⟨1, []⟩, roomFor k.readers.length, k.readers.length⟩, [], fin⟩ := by rw [hq]; rfl
    rw [this, watch_nil]
    exact ⟨.shared hq hw rfl, h.withState _⟩
  | cons e q ih =>
    intro k fin h hq hw
    have he : e.2.asks?.isSome := h.asks e (by simp [hq])
    obtain ⟨x, hx⟩ := Option.isSome_iff_exists.1 he
    cases x with
    | reading =>
      have hp := pending_served hq he
      have := ih (k.served e) (fin ++ [(e.1, e.2.outcome)])
        (h.served hq hw (by simp [hx])) hp (by simp [writers_served hw, hx])
      rw [length_readers_served hx, hp] at this
      rw [watch_reader _ fin hq hx]
      exact this
    | writing =>
      cases hn : k.readers.length with
      | zero =>
        rw [watch_writer fin hq hx]
        exact settled_inRoom fin h hq hx hw (List.length_eq_zero_iff.1 hn) fun k fin => ih k fin
      | succ n =>
        rw [watch_blocked n fin hq hx]
        exact ⟨.leaving e q n hq hx hw hn rfl, h.withState _⟩

/-! ## One step -/

/-- In a calm lock exactly those wait who are in a call. -/
theorem Calm.isWaiting (h : k.Calm) (a : α) :
    k.state.isWaiting a = k.pending.any fun e => e.1 = a := by
  cases h with
  | shared hq hw hs => simp [State.isWaiting, hs, hq, roomFor]
  | owned w hw hr hs =>
    simp [State.isWaiting, hs, List.any_map, Function.comp_def, entering]
    rfl
  | leaving e q n hq he hw hr hs =>
    rw [hs, hq]
    simp [State.isWaiting, List.any_map, Function.comp_def, entering, inRoom, Bool.or_comm]
    rfl

variable {a : α} {c : Call}

theorem callOf?_calling (ha : ∀ e ∈ k.pending, e.1 ≠ a) : (k.calling a c).callOf? a = some c := by
  have : k.pending.find? (fun e => e.1 = a) = none := by simpa using ha
  simp [callOf?, calling, List.find?_append, this]

/-- Nothing is noted while a release is on its way. -/
theorem move_release (ha : ∀ e ∈ k.pending, e.1 ≠ a) (hc : c.asks? = none) (x : Act) (p p' : Plan)
    (f : Option Fault) : (k.calling a c).move ⟨a, .act x p p', f⟩ = k.calling a c := by
  have hu : c.use? = none := by simpa [Call.asks?] using hc
  simp [move, callOf?_calling ha, reach, hu]

/-- A call that asks for access begins at the turnstile, and nothing is noted of that. -/
theorem move_asking (ha : ∀ e ∈ k.pending, e.1 ≠ a) (hc : c.asks?.isSome) :
    c.plan = .act (.take .turnstile) c.plan.tail .done ∧
      (k.calling a c).move ⟨a, c.plan, none⟩ = k.calling a c := by
  cases c <;> simp [Call.asks?, Call.use?] at hc
  all_goals
    refine ⟨rfl, ?_⟩
    simp [move, callOf?_calling ha, reach, Call.use?, Call.plan, Plan.acquireRead,
      Plan.acquireWrite, Plan.step, Plan.releaseRead, Plan.releaseWrite]

omit [DecidableEq α] in
theorem Sound.calling (h : k.Sound) (a : α) (hc : c.asks?.isSome) : (k.calling a c).Sound := by
  refine ⟨?_, ?_, h.grants, h.ends⟩
  · intro e he
    rcases List.mem_append.1 he with he | he
    · exact h.asks e he
    · rw [List.mem_singleton.1 he]
      exact hc
  · show (if c.asks?.isSome then k.started ++ [(a, c)] else k.started) = _
    rw [if_pos hc, h.order, List.append_assoc]
    rfl

/-- A call that asks for access is served at once if nobody waits and nobody writes, as far as the
readers allow; else its actor waits behind all others. -/
theorem settled_asking (h : k.Settled) (ha : ∀ e ∈ k.pending, e.1 ≠ a) (hc : c.asks?.isSome) :
    Settled ((k.calling a c).watch ⟨k.state, [⟨a, c.plan, none⟩], []⟩) := by
  obtain ⟨hp, hm⟩ := move_asking ha hc
  have hs := h.sound.calling a hc
  rw [watch_cons, hm, hp]
  cases h.calm with
  | shared hq hw hst =>
    -- nobody waits, so that the call is a row of its own
    have hq' : (k.calling a c).pending = [(a, c)] := by simp [Record.calling, hq]
    have := settled_opened _ (k.calling a c) [] hs hq' hw
    rw [hq'] at this
    rw [hst, advance_takeTurnstile]
    exact this
  | owned w hw hr hst =>
    rw [hst, advance_waitTurnstile, watch_nil]
    refine ⟨.owned w hw hr ?_, hs.withState _⟩
    simp [Record.calling, entering]
  | leaving e q n hq he hw hr hst =>
    rw [hst, advance_waitTurnstile, watch_nil]
    refine ⟨.leaving e (q ++ [(a, c)]) n ?_ he hw hr ?_, hs.withState _⟩
    · simp [Record.calling, hq]
    · simp [entering]

/-- The record when a release has ended. -/
def released (k : Record α) (a : α) (c : Call) : Record α :=
  let e : Ending α := ⟨a, c, none⟩
  { k with
    readers := if c = .releaseRead then k.readers.erase a else k.readers
    writers := if c = .releaseWrite then k.writers.erase a else k.writers
    ended := k.ended ++ [e] }

theorem move_released (ha : ∀ e ∈ k.pending, e.1 ≠ a) (hc : c.asks? = none) :
    (k.calling a c).move ⟨a, .done, none⟩ = k.released a c := by
  have hx : ∀ x, (a, x) ∉ k.pending := fun x hm => ha _ hm rfl
  rw [move, callOf?_calling ha]
  cases c <;> simp [Call.asks?, Call.use?] at hc
  all_goals
    simp [reach, finish, released, Record.calling, Call.givesBack?, lose, Call.asks?, Call.use?,
      List.eraseP_append, hx]

theorem Sound.released (h : k.Sound) (a : α) (hc : c.asks? = none) : (k.released a c).Sound := by
  refine ⟨h.asks, h.order, h.grants, ?_⟩
  intro e he
  rcases List.mem_append.1 he with he | he
  · exact h.ends e he
  · rw [List.mem_singleton.1 he]
    refine ⟨c, rfl, ?_⟩
    cases c <;> first | rfl | cases hc

/-- A reader that gives its access back ends its call before anything else happens. The last one lets
the writer in that waits for the room. -/
theorem settled_releaseRead (h : k.Settled) (ha : ∀ e ∈ k.pending, e.1 ≠ a) (hr : a ∈ k.readers) :
    ∃ r, (k.calling a .releaseRead).watch ⟨k.state, [⟨a, Call.releaseRead.plan, none⟩], []⟩ =
      (k.released a .releaseRead).watch r ∧ ((k.released a .releaseRead).watch r).Settled := by
  have hc : Call.releaseRead.asks? = none := rfl
  have hm := move_release (f := none) ha hc
  have hd := move_released ha hc
  have hs := h.sound.released a hc
  have hl : (k.released a .releaseRead).readers.length = k.readers.length - 1 :=
    List.length_erase_of_mem hr
  have hw' : (k.released a .releaseRead).writers = k.writers := rfl
  simp only [Call.plan, Plan.releaseRead, Plan.step]
  cases h.calm with
  | shared hq hw hst =>
    obtain ⟨n, hn⟩ : ∃ n, k.readers.length = n + 1 :=
      Nat.exists_eq_add_one.2 (List.length_pos_of_mem hr)
    rw [hst, hn, roomFor_succ, Int.natCast_succ, watch_act, hm, advance_takeGate, watch_act, hm,
      advance_leave, watch_act, hm, advance_giveGate, watch_done, hd]
    refine ⟨_, rfl, ?_⟩
    rw [watch_nil]
    refine ⟨.shared hq hw ?_, hs.withState _⟩
    simp only [hl, hn, Nat.add_sub_cancel]
  | owned w hw hrd hst => simp [hrd] at hr
  | leaving e q n hq he hw hn hst =>
    -- the last reader lets the writer into the room, and the others leave it where it is
    cases n with
    | zero =>
      rw [hst, watch_act, hm, advance_takeGate, watch_act, hm, Int.natCast_zero, Int.zero_add,
        advance_leaveLast, List.cons_append, List.nil_append, watch_act, hm, advance_giveGate,
        watch_done, hd]
      refine ⟨_, rfl, ?_⟩
      refine settled_inRoom _ hs hq he hw (List.length_eq_zero_iff.1 (by rw [hl, hn])) ?_
      exact fun k fin => settled_opened q k fin
    | succ n =>
      rw [hst, Int.natCast_succ, watch_act, hm, advance_takeGate, watch_act, hm,
        advance_leaveOthers, watch_act, hm, advance_giveGate, watch_done, hd]
      refine ⟨_, rfl, ?_⟩
      rw [watch_nil]
      exact ⟨.leaving e q n hq he hw (by simp only [hl, hn, Nat.add_sub_cancel]) rfl, hs.withState _⟩

/-- The writer gives its access back and ends its call, and the turnstile goes down the row. -/
theorem settled_releaseWrite (h : k.Settled) (ha : ∀ e ∈ k.pending, e.1 ≠ a) (hw : a ∈ k.writers) :
    ∃ r, (k.calling a .releaseWrite).watch ⟨k.state, [⟨a, Call.releaseWrite.plan, none⟩], []⟩ =
      (k.released a .releaseWrite).watch r ∧ ((k.released a .releaseWrite).watch r).Settled := by
  have hc : Call.releaseWrite.asks? = none := rfl
  have hm := move_release (f := none) ha hc
  have hd := move_released ha hc
  have hs := h.sound.released a hc
  simp only [Call.plan, Plan.releaseWrite, Plan.step]
  cases h.calm with
  | shared hq hw' hst => simp [hw'] at hw
  | owned w hw' hr hst =>
    have : a = w := by simpa [hw'] using hw
    subst this
    rw [hst, watch_act, hm, advance_giveRoom, watch_act, hm, advance_giveTurnstile,
      List.cons_append, List.nil_append, watch_done, hd]
    refine ⟨_, rfl, ?_⟩
    have := settled_opened _ (k.released a .releaseWrite) [(a, none)] hs rfl
      (by simp [Record.released, hw'])
    simpa [opened, Record.released, hr] using this
  | leaving e q n hq he hw' hn hst => simp [hw'] at hw

/-- An actor that does not wait is in no call. -/
theorem Calm.ne_of_not_waiting (h : k.Calm) (hb : k.state.isWaiting a = false) :
    ∀ e ∈ k.pending, e.1 ≠ a := by
  intro e he hea
  rw [h.isWaiting, List.any_eq_false] at hb
  exact hb e he (decide_eq_true hea)

theorem step_of_not_waiting (hb : k.state.isWaiting a = false) :
    k.step a c = (k.calling a c).watch ⟨k.state, [⟨a, c.plan, none⟩], []⟩ := by
  rw [Record.step, hb]
  rfl

/-- A release that is permitted ends before anything else happens, and leads to a calm lock. -/
theorem settled_release (h : k.Settled) (hb : k.state.isWaiting a = false) (hp : k.Permits a c)
    (hc : c.asks? = none) : ∃ r, k.step a c = (k.released a c).watch r ∧ (k.step a c).Settled := by
  have ha := h.calm.ne_of_not_waiting hb
  have key : ∃ r, (k.calling a c).watch ⟨k.state, [⟨a, c.plan, none⟩], []⟩ =
      (k.released a c).watch r ∧ ((k.released a c).watch r).Settled := by
    cases c with
    | releaseRead => exact settled_releaseRead h ha hp
    | releaseWrite => exact settled_releaseWrite h ha hp
    | acquireRead | acquireWrite | read | write | readFailing | writeFailing => cases hc
  obtain ⟨r, hr, hs⟩ := key
  rw [step_of_not_waiting hb, hr]
  exact ⟨r, rfl, hs⟩

/-- **A step leads from a calm lock to a calm lock.** -/
theorem Settled.step (h : k.Settled) (hp : k.Permits a c) : (k.step a c).Settled := by
  cases hb : k.state.isWaiting a with
  | true =>
    rw [Record.step, if_pos hb]
    exact h
  | false =>
    cases hc : c.asks? with
    | some x =>
      rw [step_of_not_waiting hb]
      exact settled_asking h (h.calm.ne_of_not_waiting hb) (by simp [hc])
    | none =>
      obtain ⟨_, -, hs⟩ := settled_release h hb hp hc
      exact hs

omit [DecidableEq α] in
theorem settled_initial : (Record.initial α).Settled := by
  refine ⟨.shared rfl rfl rfl, ⟨?_, rfl, ?_, ?_⟩⟩
  all_goals
    intro e he
    cases he

/-- **Every record that can be reached is calm and sound.** -/
theorem settled_of_reached (h : k.Reached) : k.Settled := by
  induction h with
  | initial => exact settled_initial
  | step _ hp ih => exact ih.step hp

end Record

end RemoteTree.Lock
