import RemoteTree.Session.Run

/-!
# The requests of an operation

An operation sends one request after the other, and other operations may send theirs in between. An
attempt is what one request of an operation comes to: the chain that it stands in, what came of it,
and what the steps in between have added to the history of the session.

* `Session.Grows`: one session is a later moment of another one.
* `Attempt`, `Session.attempts`: the requests of a chain in their order.
* `Walk`: how the chain comes from one request to the next, and to its end.
* `Session.attempt_adds`, `Session.pursue_adds`: what one attempt, and what a chain adds to the history,
  request by request.
-/

namespace RemoteTree

/-- A session at a later moment: the settings are the same, and the history goes on. -/
structure Session.Grows (s t : Session) : Prop where
  policy : t.policy = s.policy
  level : t.level = s.level
  timeouts : t.timeouts = s.timeouts
  trust : t.trust = s.trust
  sent : s.sent <+: t.sent
  log : s.log <+: t.log
  shown : s.shown <+: t.shown

/-- Steps in between that take nothing back. -/
def Meanwhile.Grows (m : Meanwhile) : Prop := ∀ steps (s : Session), s.Grows (m steps s).1

/-- One request of a chain and what came of it. -/
structure Attempt where
  /-- The chain when the request is sent. -/
  chain : Chain
  reply : Except Raised Response
  /-- What the steps in between have sent. -/
  others : List Sent
  /-- How many requests the policy was shown by the steps in between. -/
  showings : List Nat

namespace Attempt

/-- The request that is sent. -/
def request (a : Attempt) : Request := a.chain.current

/-- What the reply makes of the chain. -/
def turn (a : Attempt) (p : Policy) : Turn := a.chain.feed p (a.reply.mapError Raised.stop)

/-- What the attempt adds to the requests that have been sent: its own request comes first. -/
def sent (a : Attempt) (p : Policy) (seconds : Option Value) (trust : Trust) : List Sent :=
  ⟨a.request, seconds, trust, (a.turn p).released⟩ :: a.others

/-- What the attempt adds to what the policy was shown: its own request comes last. -/
def shown (a : Attempt) (p : Policy) : List Nat := a.showings ++ (a.turn p).shown.toList

end Attempt

/-- How a chain of at most the given number of requests comes to its end. -/
inductive Walk (p : Policy) : Nat → Chain → List Attempt → Except Stop Answer → Prop where
  /-- No more requests may be sent. -/
  | exhausted (c : Chain) : Walk p 0 c [] (.error (.error .endlessChain))
  | unsendable {n : Nat} {c : Chain} (h : c.isSendable = false) :
    Walk p (n + 1) c [] (.error c.unsendable)
  | stopped {n : Nat} {c : Chain} {a : Attempt} {why : Stop} (h : c.isSendable = true)
    (hc : a.chain = c) (hp : (a.turn p).progress = .stopped why) : Walk p (n + 1) c [a] (.error why)
  | answered {n : Nat} {c : Chain} {a : Attempt} {x : Answer} (h : c.isSendable = true)
    (hc : a.chain = c) (hp : (a.turn p).progress = .answered x) : Walk p (n + 1) c [a] (.ok x)
  | followed {n : Nat} {c c' : Chain} {a : Attempt} {status : Int} {as : List Attempt}
    {result : Except Stop Answer} (h : c.isSendable = true) (hc : a.chain = c)
    (hp : (a.turn p).progress = .followed status c') (hw : Walk p n c' as result) :
    Walk p (n + 1) c (a :: as) result

namespace Session

namespace Grows

theorem refl (s : Session) : s.Grows s :=
  ⟨rfl, rfl, rfl, rfl, List.prefix_rfl, List.prefix_rfl, List.prefix_rfl⟩

theorem trans {s t u : Session} (h : s.Grows t) (g : t.Grows u) : s.Grows u where
  policy := g.policy.trans h.policy
  level := g.level.trans h.level
  timeouts := g.timeouts.trans h.timeouts
  trust := g.trust.trans h.trust
  sent := h.sent.trans g.sent
  log := h.log.trans g.log
  shown := h.shown.trans g.shown

theorem of_eq {β : Type} {s t : Session} {x : Session × β} {y : β} (h : s.Grows x.1)
    (he : x = (t, y)) : s.Grows t := by
  rw [he] at h
  exact h

end Grows

theorem grows_note (s : Session) (level : Int) (source : Source) (t : Text) :
    s.Grows (s.note level source t) := by
  unfold note
  split
  · exact { Grows.refl s with log := List.prefix_append _ _ }
  · exact Grows.refl s

@[simp] theorem sent_note (s : Session) (level : Int) (source : Source) (t : Text) :
    (s.note level source t).sent = s.sent := by
  unfold note
  split <;> rfl

@[simp] theorem shown_note (s : Session) (level : Int) (source : Source) (t : Text) :
    (s.note level source t).shown = s.shown := by
  unfold note
  split <;> rfl

theorem modify_append_cons {α : Type} (l : List α) (a : α) (rest : List α) (f : α → α) :
    (l ++ a :: rest).modify l.length f = l ++ f a :: rest := by
  induction l with
  | nil => rfl
  | cons b l ih => rw [List.cons_append, List.length_cons, List.modify_succ_cons, ih, List.cons_append]

variable (meanwhile : Meanwhile)

/-- The attempt that the next request of a chain is. -/
def attempted (seconds : Option Value) (s : Session) (c : Chain) : Attempt :=
  let (t, reply) := s.exchange meanwhile c.current seconds
  ⟨c, reply, t.sent.drop (s.sent.length + 1), t.shown.drop s.shown.length⟩

/-- The requests of a chain in their order. -/
def attempts (seconds : Option Value) : (fuel : Nat) → Session → Chain → List Attempt
  | 0, _, _ => []
  | fuel + 1, s, c =>
    if !c.isSendable then []
    else s.attempted meanwhile seconds c ::
      match s.attempt meanwhile seconds c with
      | (s, .followed _ c) => attempts seconds fuel s c
      | _ => []

variable {meanwhile} (hm : meanwhile.Grows)

include hm

/-- A request is recorded before anything happens in between. -/
theorem grows_exchange (s : Session) (r : Request) (seconds : Option Value) :
    (s.record r seconds).Grows (s.exchange meanwhile r seconds).1 := by
  have h : (s.record r seconds).Grows
      (meanwhile s.script.next.meanwhile { s.record r seconds with script := s.script.advance }).1 :=
    { hm s.script.next.meanwhile { s.record r seconds with script := s.script.advance } with }
  unfold exchange
  dsimp only
  split
  · rename_i he
    exact h.of_eq he
  · rename_i he
    exact h.of_eq he

/-- **One attempt** adds its request to those that have been sent, followed by those of the steps in
between, and its turn decides what becomes of the chain. -/
theorem attempt_adds (seconds : Option Value) (s : Session) (c : Chain) :
    let a := s.attempted meanwhile seconds c
    let x := s.attempt meanwhile seconds c
    x.2 = (a.turn s.policy).progress ∧ s.Grows x.1 ∧
      x.1.sent = s.sent ++ a.sent s.policy seconds s.trust ∧ x.1.shown = s.shown ++ a.shown s.policy := by
  have h := grows_exchange hm s c.current seconds
  simp only [attempt, attempted]
  rcases hx : s.exchange meanwhile c.current seconds with ⟨t, reply⟩
  rw [hx] at h
  obtain ⟨others, hsent⟩ := h.sent
  obtain ⟨showings, hshown⟩ := h.shown
  have hpolicy : t.policy = s.policy := h.policy
  simp only [record, List.append_assoc, List.singleton_append] at hsent hshown
  -- what the steps in between have added is what is found behind the request
  have hothers : t.sent.drop (s.sent.length + 1) = others := by simp [← hsent]
  have hshowings : t.shown.drop s.shown.length = showings := by simp [← hshown]
  rw [hothers, hshowings, hpolicy]
  -- the turn is the same on both sides, and nothing else of it matters
  have hturn : (⟨c, reply, others, showings⟩ : Attempt).turn s.policy =
      c.feed s.policy (reply.mapError Raised.stop) := rfl
  simp only [Attempt.sent, Attempt.shown, Attempt.request, hturn]
  generalize c.feed s.policy (reply.mapError Raised.stop) = turn
  generalize hu : (t.release s.sent.length turn.released).ask turn.shown = u
  have husent : u.sent = s.sent ++ ⟨c.current, seconds, s.trust, turn.released⟩ :: others := by
    rw [← hu]
    show t.sent.modify s.sent.length _ = _
    rw [← hsent, modify_append_cons]
  have hushown : u.shown = s.shown ++ (showings ++ turn.shown.toList) := by
    rw [← hu]
    show t.shown ++ turn.shown.toList = _
    rw [← hshown, List.append_assoc]
  have hgrows : s.Grows u :=
    { policy := hu ▸ h.policy
      level := hu ▸ h.level
      timeouts := hu ▸ h.timeouts
      trust := hu ▸ h.trust
      sent := husent ▸ List.prefix_append _ _
      log := hu ▸ h.log
      shown := hushown ▸ List.prefix_append _ _ }
  cases hp : turn.progress with
  | stopped why => exact ⟨rfl, hgrows, husent, hushown⟩
  | answered a => exact ⟨rfl, hgrows, husent, hushown⟩
  | followed status c' =>
    refine ⟨rfl, hgrows.trans (grows_note _ _ _ _), ?_, ?_⟩
    · show (u.noteHop status c').sent = _
      rw [noteHop, sent_note, husent]
    · show (u.noteHop status c').shown = _
      rw [noteHop, shown_note, hushown]

/-- **A chain** walks from its next request to its end, and adds its attempts to the history one after
the other. -/
theorem pursue_adds (seconds : Option Value) (fuel : Nat) (s : Session) (c : Chain) :
    let as := s.attempts meanwhile seconds fuel c
    let x := s.pursue meanwhile seconds fuel c
    Walk s.policy fuel c as x.2 ∧ s.Grows x.1 ∧
      x.1.sent = s.sent ++ as.flatMap (fun a => a.sent s.policy seconds s.trust) ∧
      x.1.shown = s.shown ++ as.flatMap (fun a => a.shown s.policy) := by
  induction fuel generalizing s c with
  | zero =>
    simp only [attempts, pursue, List.flatMap_nil, List.append_nil]
    exact ⟨.exhausted c, Grows.refl s, trivial, trivial⟩
  | succ fuel ih =>
    simp only [attempts, pursue]
    cases hc : c.isSendable with
    | false =>
      simp only [Bool.not_false, if_true, List.flatMap_nil, List.append_nil]
      exact ⟨.unsendable hc, Grows.refl s, trivial, trivial⟩
    | true =>
      simp only [Bool.not_true, Bool.false_eq_true, if_false, List.flatMap_cons]
      obtain ⟨hp, hg, hsent, hshown⟩ := attempt_adds hm seconds s c
      have hchain : (s.attempted meanwhile seconds c).chain = c := rfl
      rcases hx : s.attempt meanwhile seconds c with ⟨t, progress⟩
      rw [hx] at hp hg hsent hshown
      cases progress with
      | stopped why =>
        simp only [List.flatMap_nil, List.append_nil]
        exact ⟨.stopped hc hchain hp.symm, hg, hsent, hshown⟩
      | answered x =>
        simp only [List.flatMap_nil, List.append_nil]
        exact ⟨.answered hc hchain hp.symm, hg, hsent, hshown⟩
      | followed status c' =>
        obtain ⟨hw, hg', hsent', hshown'⟩ := ih t c'
        simp only at hg hsent hshown
        -- no step in between changes the policy or the trust, by which the rest is judged
        rw [hg.policy] at hw hsent' hshown'
        rw [hg.trust] at hsent'
        refine ⟨.followed hc hchain hp.symm hw, hg.trans hg', ?_, ?_⟩
        · rw [hsent', hsent, List.append_assoc]
        · rw [hshown', hshown, List.append_assoc]

end Session

end RemoteTree
