import Mathlib.Data.List.Infix
import RemoteTree.Proofs.Session.Idle

/-!
# A request in flight

While a request waits for its reply, references and stores may be made and changed. The operation that sent
it took what it needs when it was issued, and none of this touches it. Only a step that fails does: its error
stands in the place of the reply, and since it is none of the client's, nothing catches it on its way out.

* `Session.Abreast`: two runs of an operation side by side, one with steps in between and one without.
* `abreast_attempt`: a request and its reply keep the two abreast; `attempt_of_failed`: a step in between that fails
  stops the chain with its error.
* `alongside_pursue`: a chain keeps the two abreast or ends with such an error, by induction on how many requests
  it may send.
* `untouched_in_flight`: **an operation sends the same requests, writes the same lines into the log and comes
  to the same end as without the steps in between**, if none of them fails; the error of one that does is the end.
-/

namespace RemoteTree

/-- Whether an action asks the database and does nothing with the answer but yield it. -/
def Action.asks : Action → Bool
  | .request .. | .set _ | .update _ | .remove | .value _ => true
  | _ => false

/-- A reply that nothing happens before. -/
def Reply.quiet (r : Reply) : Reply := { r with meanwhile := [] }

namespace Script

/-- The same replies, with nothing before them. -/
def quiet (s : Script) : Script := ⟨s.next.quiet, s.later.map Reply.quiet⟩

theorem quiet_advance (s : Script) : s.advance.quiet = s.quiet.advance := by
  obtain ⟨next, later⟩ := s
  cases later <;> rfl

theorem length_quiet (s : Script) : s.quiet.length = s.length := by
  simp [length, quiet]

end Script

/-- What was asked for with a request that was sent, and in how many seconds. -/
def Sent.asked (q : Sent) : Request × Option Value := (q.request, q.seconds)

namespace Session

/-! ## Two runs side by side -/

/-- The same wire, where the replies of the second session have nothing before them, and those of the first
one only steps that send nothing. -/
structure Abreast (s t : Session) : Prop where
  wire : t.wire = { s.wire with script := s.script.quiet }
  idle : s.script.Idle

variable {s t : Session}

namespace Abreast

theorem script (h : s.Abreast t) : t.script = s.script.quiet := (congrArg Session.script h.wire :)

theorem policy (h : s.Abreast t) : t.policy = s.policy := (congrArg Session.policy h.wire :)

theorem sent (h : s.Abreast t) : t.sent = s.sent := (congrArg Session.sent h.wire :)

theorem log (h : s.Abreast t) : t.log = s.log := (congrArg Session.log h.wire :)

theorem patience (h : s.Abreast t) : t.patience = s.patience := by
  unfold Session.patience
  rw [h.script, Script.length_quiet]

theorem note (h : s.Abreast t) (level : Int) (source : Source) (message : Text) :
    (s.note level source message).Abreast (t.note level source message) := by
  have hlevel : t.level = s.level := (congrArg Session.level h.wire :)
  unfold Session.note
  by_cases hl : Log.admits s.level level = true
  · rw [if_pos hl, if_pos (hlevel ▸ hl)]
    let line : LogLine := ⟨level, source, message⟩
    exact ⟨(congrArg (fun u : Session => { u with log := u.log ++ [line] }) h.wire :), h.idle⟩
  · rw [if_neg hl, if_neg (hlevel ▸ hl)]
    exact h

/-- The first session may be changed where the wire does not show it. -/
theorem of_wire_eq {u : Session} (h : s.Abreast t) (hu : u.wire = s.wire) : u.Abreast t := by
  have hscript : u.script = s.script := (congrArg Session.script hu :)
  exact ⟨by rw [hu, hscript]; exact h.wire, by rw [hscript]; exact h.idle⟩

theorem sending (h : s.Abreast t) (q : Request) (seconds : Option Value) :
    (s.sending q seconds).Abreast (t.sending q seconds) := by
  refine ⟨?_, h.idle.advance⟩
  have hw := congrArg (fun u : Session => (u.sending q seconds).wire) h.wire
  show (t.wire.sending q seconds).wire = _
  refine hw.trans ?_
  show ({ (s.sending q seconds).wire with script := s.script.quiet.advance } : Session) = _
  rw [← Script.quiet_advance]
  rfl

theorem release (h : s.Abreast t) (place : Nat) (released : Option Bool) :
    (s.release place released).Abreast (t.release place released) :=
  ⟨(congrArg (fun u : Session => u.release place released) h.wire :), h.idle⟩

theorem ask (h : s.Abreast t) (shown : Option Nat) : (s.ask shown).Abreast (t.ask shown) :=
  ⟨(congrArg (fun u : Session => u.ask shown) h.wire :), h.idle⟩

end Abreast

/-- The steps between a request and its reply leave the wire as it is. -/
theorem wire_exchange (depth : Nat) (h : s.script.Idle) (q : Request) (seconds : Option Value) :
    (s.exchange (between depth) q seconds).1.wire = (s.sending q seconds).wire := by
  rw [exchange_eq]
  exact wire_between depth (h s.script.next List.mem_cons_self) _

/-- **A request and its reply** leave two runs abreast. The reply is the same, unless a step before it
fails. -/
theorem abreast_exchange (depth : Nat) (h : s.Abreast t) (q : Request) (seconds : Option Value) :
    let x := s.exchange (between depth) q seconds
    let y := t.exchange (between depth) q seconds
    x.1.Abreast y.1 ∧ ((∃ e, x.2 = .error (.error e)) ∨ x.2 = y.2) ∧
      (NoneFails (s.untilReply (tellBetween depth) q seconds) → x.2 = y.2) := by
  intro x y
  have hy : y = (t.sending q seconds, s.script.next.outcome.mapError Raised.failure) := by
    show t.exchange (between depth) q seconds = _
    have hquiet : between depth t.script.next.meanwhile (t.sending q seconds) = (t.sending q seconds, .ok ()) := by
      rw [h.script]
      exact between_nil depth _
    rw [exchange_eq, hquiet, h.script]
    rfl
  have habreast : x.1.Abreast y.1 := by
    rw [hy]
    exact (h.sending q seconds).of_wire_eq (wire_exchange depth h.idle q seconds)
  have hx2 : x.2 = ((between depth s.script.next.meanwhile (s.sending q seconds)).2.mapError
      Raised.error).bind fun _ => s.script.next.outcome.mapError Raised.failure :=
    congrArg Prod.snd (exchange_eq (between depth) s q seconds)
  refine ⟨habreast, ?_, fun hm => ?_⟩
  · rw [hx2, hy]
    cases (between depth s.script.next.meanwhile (s.sending q seconds)).2 with
    | error e => exact .inl ⟨e, rfl⟩
    | ok _ => exact .inr rfl
  · have hok : (between depth s.script.next.meanwhile (s.sending q seconds)).2 = .ok () :=
      between_of_moments hm
    rw [hx2, hok, hy]
    rfl

/-- What has been asked for so far. -/
def asked (s : Session) : List (Request × Option Value) := s.sent.map Sent.asked

theorem asked_release (s : Session) (place : Nat) (released : Option Bool) :
    (s.release place released).asked = s.asked := by
  show (s.sent.modify place fun x => { x with released }).map Sent.asked = s.sent.map Sent.asked
  refine List.ext_getElem? fun i => ?_
  simp only [List.getElem?_map, List.getElem?_modify]
  split <;> cases s.sent[i]? <;> rfl

/-- The first session has come less far than the second one, on the same way. -/
structure CutShort (s t : Session) : Prop where
  asked : s.asked <+: t.asked
  log : s.log <+: t.log

theorem Abreast.cutShort (h : s.Abreast t) : s.CutShort t where
  asked := by
    show s.sent.map Sent.asked <+: t.sent.map Sent.asked
    rw [h.sent]
  log := by
    rw [h.log]

theorem CutShort.grows {u : Session} (h : s.CutShort t) (g : t.Grows u) : s.CutShort u where
  asked := h.asked.trans (g.sent.map Sent.asked)
  log := h.log.trans g.log

/-- Two runs that are abreast and have come to the same. -/
def Together {α : Type} (x y : Session × α) : Prop := x.1.Abreast y.1 ∧ x.2 = y.2

/-- Two runs alongside each other, of which the first one has the moments in between: they end together,
unless one of the moments fails, which cuts the first run short. Its end is then the error, as `ending` has it, in
the session that the moment leaves. -/
structure Alongside {ε α : Type} (ending : Error → ε) (ms : List Moment) (x y : Session × Except ε α) : Prop where
  ends : Together x y ∨ (∃ e, x.2 = .error e) ∧ x.1.CutShort y.1
  together : NoneFails ms → Together x y
  failed : ∀ m ∈ ms, ∀ e, m.result = .error e → x = (m.after, .error (ending e))

/-- What does not ask runs alongside. -/
theorem Abreast.alongside {ε α : Type} {ending : Error → ε} (h : s.Abreast t) (x : Except ε α) :
    Alongside ending [] (s, x) (t, x) := ⟨.inl ⟨h, rfl⟩, fun _ => ⟨h, rfl⟩, List.forall_mem_nil _⟩

/-- The session that has taken what a reply does to the request at a place. -/
def take (s : Session) (place : Nat) (turn : Turn) : Session :=
  let s := (s.release place turn.released).ask turn.shown
  match turn.progress with
  | .followed status c => s.noteHop status c
  | _ => s

/-- An attempt is an exchange of which the turn is taken. -/
theorem attempt_eq (meanwhile : Meanwhile) (s : Session) (seconds : Option Value) (c : Chain) :
    let x := s.exchange meanwhile c.current seconds
    let turn := c.feed x.1.policy (x.2.mapError Raised.stop)
    s.attempt meanwhile seconds c = (x.1.take s.sent.length turn, turn.progress) := by
  simp only [attempt, take]
  rcases s.exchange meanwhile c.current seconds with ⟨u, reply⟩
  cases (c.feed u.policy (reply.mapError Raised.stop)).progress <;> rfl

theorem asked_take (s : Session) (place : Nat) (turn : Turn) : (s.take place turn).asked = s.asked := by
  have hr := asked_release s place turn.released
  unfold take
  split
  · refine Eq.trans ?_ hr
    unfold asked noteHop
    rw [sent_note]
    rfl
  · exact hr

theorem log_take (s : Session) (place : Nat) (turn : Turn) : s.log <+: (s.take place turn).log := by
  unfold take
  split
  · exact (grows_note ((s.release place turn.released).ask turn.shown) _ _ _).log
  · exact List.prefix_rfl

theorem Abreast.take (h : s.Abreast t) (place : Nat) (turn : Turn) :
    (s.take place turn).Abreast (t.take place turn) := by
  unfold Session.take
  split
  · exact ((h.release place _).ask _).note _ _ _
  · exact (h.release place _).ask _

/-- What a request adds to what is asked for. -/
theorem asked_attempt (depth : Nat) (h : s.script.Idle) (seconds : Option Value) (c : Chain) :
    (s.attempt (between depth) seconds c).1.asked = s.asked ++ [(c.current, seconds)] := by
  have hw := congrArg asked (wire_exchange depth h c.current seconds)
  rw [attempt_eq, asked_take]
  refine Eq.trans hw ?_
  show (s.sent ++ [_]).map Sent.asked = _
  rw [List.map_append]
  rfl

theorem script_take (s : Session) (place : Nat) (turn : Turn) : (s.take place turn).script = s.script := by
  unfold take
  split
  · exact script_note ((s.release place turn.released).ask turn.shown) _ _ _
  · rfl

theorem idle_attempt (depth : Nat) (h : s.script.Idle) (seconds : Option Value) (c : Chain) :
    (s.attempt (between depth) seconds c).1.script.Idle := by
  have hscript := congrArg script (wire_exchange depth h c.current seconds)
  rw [attempt_eq, script_take]
  exact Eq.mpr (congrArg Script.Idle hscript) h.advance

/-- As long as nothing is known of a response, there is nothing to release. -/
theorem release_none {u : Session} {q : Request} {seconds : Option Value} (h : (s.record q seconds).Grows u) :
    u.release s.sent.length none = u := by
  obtain ⟨others, hsent⟩ := h.sent
  have hcons : u.sent = s.sent ++ ⟨q, seconds, s.trust, none⟩ :: others :=
    hsent.symm.trans (List.append_assoc _ _ _)
  have hmodify : u.sent.modify s.sent.length (fun x => { x with released := none }) = u.sent := by
    rw [hcons, modify_append_cons]
  show ({ u with sent := u.sent.modify s.sent.length fun x => { x with released := none } } : Session) = u
  rw [hmodify]

theorem ask_none (s : Session) : s.ask none = s := by
  show ({ s with shown := s.shown ++ [] } : Session) = s
  rw [List.append_nil]

/-- A step in between that fails stops the chain with its error. Nothing is done after it. -/
theorem attempt_of_failed {depth : Nat} (h : s.script.Idle) {seconds : Option Value} {c : Chain} {m : Moment}
    (hm : m ∈ s.untilReply (tellBetween depth) c.current seconds) {e : Error} (he : m.result = .error e) :
    s.attempt (between depth) seconds c = (m.after, .stopped (.error e)) := by
  obtain ⟨hpasses, hbetween⟩ := between_of_failed (h s.script.next List.mem_cons_self) hm he
  have hexchange : s.exchange (between depth) c.current seconds = (m.after, .error (.error e)) := by
    rw [exchange_eq, hbetween]
    rfl
  have hgrows := grows_exchange (grows_between depth) s c.current seconds
  rw [hexchange] at hgrows
  -- the turn of an error releases nothing and does not ask the policy
  rw [attempt_eq, hexchange]
  show ((m.after.release s.sent.length none).ask none, Progress.stopped (.ofError e)) = _
  rw [release_none hgrows, ask_none, hpasses.stop]

/-- **One attempt** leaves two runs together, unless a step in between fails, which ends the chain. -/
theorem abreast_attempt (depth : Nat) (h : s.Abreast t) (seconds : Option Value) (c : Chain) :
    let x := s.attempt (between depth) seconds c
    let y := t.attempt (between depth) seconds c
    (Together x y ∨ (∃ why, x.2 = .stopped why) ∧ x.1.CutShort y.1) ∧
      (NoneFails (s.untilReply (tellBetween depth) c.current seconds) → Together x y) := by
  obtain ⟨habreast, hreply, hok⟩ := abreast_exchange depth h c.current seconds
  rw [attempt_eq, attempt_eq]
  generalize s.exchange (between depth) c.current seconds = x at *
  generalize t.exchange (between depth) c.current seconds = y at *
  obtain ⟨u, reply⟩ := x
  obtain ⟨v, reply'⟩ := y
  simp only at habreast hreply hok ⊢
  rw [h.sent, habreast.policy]
  -- the same turn is taken in both runs if the replies are the same
  have htogether : reply = reply' → Together
      (u.take s.sent.length (c.feed u.policy (reply.mapError Raised.stop)),
        (c.feed u.policy (reply.mapError Raised.stop)).progress)
      (v.take s.sent.length (c.feed u.policy (reply'.mapError Raised.stop)),
        (c.feed u.policy (reply'.mapError Raised.stop)).progress) := by
    rintro rfl
    exact ⟨habreast.take _ _, rfl⟩
  refine ⟨?_, fun hm => htogether (hok hm)⟩
  rcases hreply with ⟨e, rfl⟩ | heq
  · refine .inr ⟨⟨_, rfl⟩, ?_, ?_⟩
    · rw [asked_take, asked_take]
      exact habreast.cutShort.asked
    · exact habreast.cutShort.log.trans (log_take v _ _)
  · exact .inl (htogether heq)

/-! ## Chains and operations -/

/-- **A chain** leaves two runs together, unless a step in between fails, which cuts it short. -/
theorem alongside_pursue (depth : Nat) (h : s.Abreast t) (seconds : Option Value) (fuel : Nat) (c : Chain) :
    Alongside Stop.error (s.untilEnd (between depth) (tellBetween depth) seconds fuel c)
      (s.pursue (between depth) seconds fuel c) (t.pursue (between depth) seconds fuel c) := by
  induction fuel generalizing s t c with
  | zero => exact h.alongside _
  | succ fuel ih =>
    simp only [pursue, untilEnd]
    split
    · exact h.alongside _
    · have hattempt := abreast_attempt depth h seconds c
      have hfailed : ∀ m ∈ s.untilReply (tellBetween depth) c.current seconds, ∀ e, m.result = .error e →
          s.attempt (between depth) seconds c = (m.after, .stopped (.error e)) :=
        fun _ hm _ he => attempt_of_failed h.idle hm he
      have hgrows := pursue_adds (grows_between depth) seconds fuel
      generalize s.attempt (between depth) seconds c = x at *
      generalize t.attempt (between depth) seconds c = y at *
      obtain ⟨u, progress⟩ := x
      obtain ⟨v, progress'⟩ := y
      simp only at hattempt ⊢
      obtain ⟨hends, hok⟩ := hattempt
      refine ⟨?_, fun hm => ?_, fun m hm e he => ?_⟩
      · rcases hends with ⟨habreast, rfl⟩ | ⟨⟨why, rfl⟩, hcut⟩
        · cases progress with
          | stopped why => exact .inl ⟨habreast, rfl⟩
          | answered a => exact .inl ⟨habreast, rfl⟩
          | followed status c' => exact (ih habreast c').ends
        · -- the run without steps in between may go on
          refine .inr ⟨⟨why, rfl⟩, hcut.grows ?_⟩
          cases progress' with
          | stopped why => exact Grows.refl v
          | answered a => exact Grows.refl v
          | followed status c' => exact (hgrows v c').2.1
      · obtain ⟨habreast, rfl⟩ := hok hm.of_append.1
        cases progress with
        | stopped why => exact ⟨habreast, rfl⟩
        | answered a => exact ⟨habreast, rfl⟩
        | followed status c' => exact (ih habreast c').together hm.of_append.2
      · rcases List.mem_append.1 hm with hm | hm
        · obtain ⟨rfl, rfl⟩ := Prod.mk.inj (hfailed m hm e he)
          rfl
        · cases progress with
          | stopped why => cases hm
          | answered a => cases hm
          | followed status c' =>
            -- a run that goes on has not been cut short
            obtain ⟨habreast, -⟩ | ⟨⟨why, hwhy⟩, -⟩ := hends
            · exact (ih habreast c').failed m hm e he
            · cases hwhy

/-- Each request of a chain is asked for in the same time. -/
theorem asked_pursue (depth : Nat) (h : s.script.Idle) (seconds : Option Value) (fuel : Nat) (c : Chain) :
    ∃ qs : List Request, (s.pursue (between depth) seconds fuel c).1.asked =
      s.asked ++ qs.map fun q => (q, seconds) := by
  induction fuel generalizing s c with
  | zero => exact ⟨[], (List.append_nil _).symm⟩
  | succ fuel ih =>
    simp only [pursue]
    split
    · exact ⟨[], (List.append_nil _).symm⟩
    · have hasked := asked_attempt depth h seconds c
      have hidle := idle_attempt depth h seconds c
      rcases hx : s.attempt (between depth) seconds c with ⟨u, progress⟩
      rw [hx] at hasked hidle
      cases progress with
      | stopped why => exact ⟨[c.current], hasked⟩
      | answered a => exact ⟨[c.current], hasked⟩
      | followed status c' =>
        obtain ⟨qs, hqs⟩ := ih hidle c'
        refine ⟨c.current :: qs, ?_⟩
        show (pursue _ _ _ u c').1.asked = _
        rw [hqs, hasked, List.append_assoc]
        rfl

theorem abreast_judge (h : s.Abreast t) (m : Method) (r : Reference) (a : Answer) :
    Together (s.judge m r a) (t.judge m r a) := by
  unfold judge
  split
  · exact ⟨h, rfl⟩
  · exact ⟨h.note _ _ _, rfl⟩

/-- **An operation** leaves two runs together, unless a step in between fails, which cuts it short. -/
theorem alongside_operate (depth : Nat) (h : s.Abreast t) {r : Reference} {m : Method} {payload : Body}
    {headers : List (Text × Value)}
    (hf : t.firstRequest r m payload headers = s.firstRequest r m payload headers) :
    Alongside id (s.whileOperating (between depth) (tellBetween depth) r m payload headers)
      (s.operate (between depth) r m payload headers) (t.operate (between depth) r m payload headers) := by
  unfold operate whileOperating
  rw [hf]
  cases s.firstRequest r m payload headers with
  | error e => exact h.alongside _
  | ok x =>
    obtain ⟨target, first⟩ := x
    have hn : (s.noteFirst m target).Abreast (t.noteFirst m target) := h.note _ _ _
    unfold submit
    cases Timeout.attempt r.timeout with
    | error why => exact hn.alongside _
    | ok seconds =>
      have hpursue := alongside_pursue depth hn seconds (s.noteFirst m target).patience
        (.start first)
      dsimp only
      rw [hn.patience]
      generalize (s.noteFirst m target).pursue (between depth) seconds (s.noteFirst m target).patience
        (.start first) = x at *
      generalize (t.noteFirst m target).pursue (between depth) seconds (s.noteFirst m target).patience
        (.start first) = y at *
      obtain ⟨u, result⟩ := x
      obtain ⟨v, result'⟩ := y
      refine ⟨?_, fun hm => ?_, fun k hk e he => ?_⟩
      · rcases hpursue.ends with ⟨habreast, rfl : result = result'⟩ | ⟨⟨why, rfl : result = .error why⟩, hcut⟩
        · cases result with
          | error why => exact .inl ⟨habreast, rfl⟩
          | ok a => exact .inl (abreast_judge habreast m r a)
        · -- what is made of the answer of the other run adds at most a line to its log
          refine .inr ⟨⟨_, rfl⟩, hcut.grows ?_⟩
          cases result' with
          | error why => exact Grows.refl v
          | ok a => exact grows_judge v m r a
      · obtain ⟨habreast, rfl : result = result'⟩ := hpursue.together hm
        cases result with
        | error why => exact ⟨habreast, rfl⟩
        | ok a => exact abreast_judge habreast m r a
      · obtain ⟨rfl, rfl⟩ : u = k.after ∧ result = .error (.error e) := Prod.mk.inj (hpursue.failed k hk e he)
        rfl

/-! ## Steps -/

/-- An action that asks ends before its operation, or yields what it reads from the answer. -/
theorem act_of_asks {a : Action} (ha : a.asks = true) (r : Reference) :
    (a.operation? = none ∧ ∃ e, ∀ (s : Session) meanwhile place,
      s.act meanwhile place r a = (s, .error e)) ∨
    ∃ m payload headers read, a.operation? = some (m, payload, headers) ∧
      ∀ (s : Session) meanwhile place, s.act meanwhile place r a =
        ((s.operate meanwhile r m payload headers).1,
          (s.operate meanwhile r m payload headers).2.bind read) := by
  have hwrite (m : Method) (payload : Body) (s : Session) (meanwhile : Meanwhile) :
      s.write meanwhile r m payload = ((s.operate meanwhile r m payload []).1,
        (s.operate meanwhile r m payload []).2.bind fun _ => .ok (.value .none)) := by
    unfold write
    rcases s.operate meanwhile r m payload [] with ⟨t, _ | _⟩ <;> rfl
  cases a with
  | request m payload headers =>
    refine .inr ⟨m, payload, headers, fun x => .ok (.response x.headers x.body), rfl, fun s meanwhile _ => ?_⟩
    simp only [act]
    rcases s.operate meanwhile r m payload headers with ⟨t, _ | _⟩ <;> rfl
  | set v | update v =>
    simp only [act, writeValue, Action.operation?]
    cases Json.encode v with
    | error e => exact .inl ⟨rfl, e, fun _ _ _ => rfl⟩
    | ok bs => exact .inr ⟨_, _, _, _, rfl, fun s meanwhile _ => hwrite _ _ s meanwhile⟩
  | remove => exact .inr ⟨_, _, _, _, rfl, fun s meanwhile _ => hwrite _ _ s meanwhile⟩
  | value into =>
    refine .inr ⟨_, _, _, fun x => (Json.decode (.bytes x.body) into).map .value, rfl,
      fun s meanwhile _ => ?_⟩
    simp only [act]
    rcases s.operate meanwhile r .get .none [] with ⟨t, _ | x⟩
    · rfl
    · dsimp only [Except.bind]
      cases Json.decode (.bytes x.body) into <;> rfl
  | _ => cases ha

/-- **An action that asks** leaves two runs together, unless a step in between fails, which cuts it short. -/
theorem alongside_act (depth : Nat) (h : s.Abreast t) (hstores : t.stores = s.stores) {a : Action} (ha : a.asks = true)
    (place : Nat) (r : Reference) :
    Alongside id (s.whileActing (between depth) (tellBetween depth) r a) (s.act (between depth) place r a)
      (t.act (between depth) place r a) := by
  rcases act_of_asks ha r with ⟨hop, e, hact⟩ | ⟨m, payload, headers, read, hop, hact⟩
  · rw [hact, hact, whileActing, hop]
    exact h.alongside _
  · have hf : t.firstRequest r m payload headers = s.firstRequest r m payload headers := by
      unfold firstRequest resolve token?
      rw [hstores]
    have hoperate := alongside_operate depth h hf
    rw [hact, hact, whileActing, hop]
    have hread (x y : Session × Except Error Answer) (hxy : Together x y) :
        Together (x.1, x.2.bind read) (y.1, y.2.bind read) := ⟨hxy.1, congrArg (·.bind read) hxy.2⟩
    refine ⟨?_, fun hm => hread _ _ (hoperate.together hm), fun k hk e he => ?_⟩
    · rcases hoperate.ends with htogether | ⟨⟨e, he⟩, hcut⟩
      · exact .inl (hread _ _ htogether)
      · exact .inr ⟨⟨e, congrArg (·.bind read) he⟩, hcut⟩
    · rw [hoperate.failed k hk e he]
      rfl

/-- Each request of an operation is asked for in the time that its reference gives when it is issued. -/
theorem asked_operate (depth : Nat) (h : s.script.Idle) (r : Reference) (m : Method) (payload : Body)
    (headers : List (Text × Value)) :
    ∃ qs, (s.operate (between depth) r m payload headers).1.asked = s.asked ++ qs ∧
      ∀ q ∈ qs, Timeout.attempt r.timeout = .ok q.2 := by
  have hnone : s.asked = s.asked ++ [] := (List.append_nil _).symm
  unfold operate
  cases s.firstRequest r m payload headers with
  | error e => exact ⟨[], hnone, List.forall_mem_nil _⟩
  | ok x =>
    obtain ⟨target, first⟩ := x
    have hasked : (s.noteFirst m target).asked = s.asked := congrArg (List.map Sent.asked) (sent_note _ _ _ _)
    have hidle : (s.noteFirst m target).script.Idle := by
      rw [noteFirst, script_note]
      exact h
    unfold submit
    cases hat : Timeout.attempt r.timeout with
    | error why => exact ⟨[], hasked.trans hnone, List.forall_mem_nil _⟩
    | ok seconds =>
      obtain ⟨qs, hqs⟩ := asked_pursue depth hidle seconds (s.noteFirst m target).patience (.start first)
      refine ⟨qs.map fun q => (q, seconds), ?_, ?_⟩
      · rw [hasked] at hqs
        rw [← hqs]
        dsimp only
        rcases (s.noteFirst m target).pursue (between depth) seconds (s.noteFirst m target).patience
          (.start first) with ⟨u, why | x⟩
        · rfl
        · exact congrArg (List.map Sent.asked) (judge_history u m r x).1
      · intro q hq
        obtain ⟨_, -, rfl⟩ := List.mem_map.1 hq
        rfl

/-- **A step that asks** leaves two runs of the same client together, unless a step in between fails, which
cuts it short. -/
theorem alongside_step (depth : Nat) (h : s.Abreast t) (hreferences : t.references = s.references)
    (hstores : t.stores = s.stores) (name : Text) {a : Action} (ha : a.asks = true) :
    Alongside id (s.whileStepping (between depth) (tellBetween depth) (.act name a))
      (s.step (between depth) (.act name a)) (t.step (between depth) (.act name a)) := by
  simp only [step, whileStepping]
  rw [hreferences]
  cases s.references.find? name with
  | none => exact h.alongside _
  | some x => exact alongside_act depth h hstores ha x.1 x.2

/-- Each request of a step that asks is asked for in the time of the reference when the step begins. -/
theorem asked_step (depth : Nat) (h : s.script.Idle) (name : Text) {a : Action} (ha : a.asks = true) :
    ∃ qs, (s.step (between depth) (.act name a)).1.asked = s.asked ++ qs ∧
      ∀ place r, s.references.find? name = some (place, r) →
        ∀ q ∈ qs, Timeout.attempt r.timeout = .ok q.2 := by
  have hnone : s.asked = s.asked ++ [] := (List.append_nil _).symm
  simp only [step]
  cases s.references.find? name with
  | none => exact ⟨[], hnone, fun _ _ _ => List.forall_mem_nil _⟩
  | some x =>
    obtain ⟨place, r⟩ := x
    show ∃ qs, (s.act (between depth) place r a).1.asked = _ ∧ _
    rcases act_of_asks ha r with ⟨-, e, hact⟩ | ⟨m, payload, headers, read, -, hact⟩
    · exact ⟨[], by rw [hact]; exact hnone, fun _ _ _ => List.forall_mem_nil _⟩
    · obtain ⟨qs, hqs, hseconds⟩ := asked_operate depth h r m payload headers
      refine ⟨qs, by rw [hact]; exact hqs, fun place' r' hr => ?_⟩
      obtain ⟨-, rfl⟩ := Prod.mk.inj (Option.some.inj hr)
      exact hseconds

/-- **A request in flight is not touched.** An action that asks the database is observed twice: with steps
before the replies of the script that send nothing themselves, and without them.

* If none of these steps fails, the requests, the lines of the log and the result are the same.
* If one of them fails, its error is the result, and nothing is done after it. What has been asked for and logged
  until then is how the run without them begins.
* Each request gets the time of the reference when the action begins. -/
theorem untouched_in_flight (s : Session) (h : s.script.Idle) (name : Text) {a : Action}
    (ha : a.asks = true) :
    let x := s.observe (.act name a)
    let y := ({ s with script := s.script.quiet } : Session).observe (.act name a)
    (NoneFails (s.inBetween (.act name a)) → x.sent = y.sent ∧ x.log = y.log ∧ x.result = y.result) ∧
      (∀ m ∈ s.inBetween (.act name a), ∀ e, m.result = .error e → x.result = .error e ∧ x.after = m.after) ∧
      x.sent.map Sent.asked <+: y.sent.map Sent.asked ∧ x.log <+: y.log ∧
      ∀ place r, s.references.find? name = some (place, r) →
        ∀ q ∈ x.sent, Timeout.attempt r.timeout = .ok q.seconds := by
  have habreast : s.Abreast { s with script := s.script.quiet } := ⟨rfl, h⟩
  have hstep := alongside_step (s.script.length + nesting) habreast rfl rfl name ha
  obtain ⟨qs, hqs, hseconds⟩ := asked_step (s.script.length + nesting) h name ha
  simp only [observe, perform, inBetween, Script.length_quiet]
  generalize s.step (between (s.script.length + nesting)) (.act name a) = x at *
  generalize Session.step (between (s.script.length + nesting)) { s with script := s.script.quiet }
    (.act name a) = y at *
  have hcut : x.1.CutShort y.1 := hstep.ends.elim (fun htogether => htogether.1.cutShort) And.right
  refine ⟨fun hm => ?_, fun m hm e he => ?_, ?_, hcut.log.drop _, fun place r hr q hq => ?_⟩
  · obtain ⟨htogether, hresult⟩ := hstep.together hm
    rw [htogether.sent, htogether.log, hresult]
    exact ⟨rfl, rfl, rfl⟩
  · have hfailed : x = (m.after, .error e) := hstep.failed m hm e he
    rw [hfailed]
    exact ⟨rfl, rfl⟩
  · rw [List.map_drop, List.map_drop]
    exact hcut.asked.drop _
  · -- what the step has asked for comes behind what had been asked for before it
    have hdrop : (x.1.sent.drop s.sent.length).map Sent.asked = qs := by
      have hlength : s.sent.length = s.asked.length := (List.length_map _).symm
      rw [List.map_drop, hlength]
      show x.1.asked.drop _ = qs
      rw [hqs, List.drop_left]
    exact hseconds place r hr q.asked (hdrop ▸ List.mem_map_of_mem hq)

/-- A client with a reference, before it asks a database that replies from a script. -/
def waiting (script : Script) : Session :=
  ((start script .restoring 10 ⟨none, none⟩ .usual).introduce "r" (.make "http://a" 0 (.int 3)))

/-- The first reply leads to another host. The url, the timeout and the token are changed before each of the
two, and a reference derived. -/
def reconfigured : Script :=
  ⟨⟨[.act "r" (.setTimeout (.int 7)), .act "r" (.setUrl (.text "http://c")), .act "r" (.auth (.text "t"))],
    .ok ⟨307, [("Location", .text "http://b/y")], [], none⟩⟩,
  [⟨[.store "k" (.text "u"), .act "r" (.bind (some "k")), .act "r" (.derive (.limitToFirst (.int 1)) "q")],
    .ok ⟨404, [], [], none⟩⟩]⟩

/-- Before the reply a reference is derived with a limit that is none. -/
def unlimited : Script :=
  ⟨⟨[.act "r" (.derive (.limitToFirst (.int (-1))) "q")], .ok ⟨200, [], [0x31], none⟩⟩, []⟩

/-- Both requests got the three seconds that the reference had when they were issued, and the limit that is none is
the end of the other operation. -/
theorem untouched_in_flight_reconfigured :
    let s := waiting reconfigured
    let x := s.observe (.act "r" .remove)
    let t := waiting unlimited
    (s.script.Idle ∧ NoneFails (s.inBetween (.act "r" .remove)) ∧ x.sent.length = 2 ∧
      (∀ q ∈ x.sent, q.seconds = some (.int 3)) ∧
      x.log = (({ s with script := s.script.quiet } : Session).observe (.act "r" .remove)).log) ∧
      ∃ m ∈ t.inBetween (.act "r" .remove), ∃ e, m.result = .error e ∧
        (t.observe (.act "r" .remove)).result = .error e := by
  intro s x t
  have hidle : s.script.Idle := by decide +kernel
  have hnone : NoneFails (s.inBetween (.act "r" .remove)) := by decide +kernel
  obtain ⟨hsame, -, -, -, htime⟩ := untouched_in_flight s hidle "r" (a := .remove) rfl
  have hseconds := htime 0 (.make "http://a" 0 (.int 3)) rfl
  have hnumber : (Double.ofInt? 3).isNone = false := by decide +kernel
  have hattempt : Timeout.attempt (.int 3) = .ok (some (.int 3)) := by simp [Timeout.attempt, hnumber]
  refine ⟨⟨hidle, hnone, by decide +kernel,
    fun q hq => Except.ok.inj ((hseconds q hq).symm.trans hattempt), (hsame hnone).2.1⟩, ?_⟩
  have hunlimited : t.script.Idle := by decide +kernel
  obtain ⟨-, hfailed, -⟩ := untouched_in_flight t hunlimited "r" (a := .remove) rfl
  obtain ⟨m, hm, hresult⟩ : ∃ m ∈ t.inBetween (.act "r" .remove), m.result.isOk = false := by decide +kernel
  cases he : m.result with
  | error e => exact ⟨m, hm, e, he, (hfailed m hm e he).1⟩
  | ok v =>
    rw [he] at hresult
    cases hresult

/-- A step in between that fails changes the end of an operation: its error is what comes of it. -/
theorem untouched_in_flight_unlimited :
    let s := waiting unlimited
    let x := s.observe (.act "r" .remove)
    let y := ({ s with script := s.script.quiet } : Session).observe (.act "r" .remove)
    s.script.Idle ∧ x.result ≠ y.result := by
  intro s x y
  have hx : x.result.isOk = false := by decide +kernel
  have hy : y.result.isOk = true := by decide +kernel
  refine ⟨by decide +kernel, fun h => ?_⟩
  rw [h, hy] at hx
  cases hx

end Session

end RemoteTree
