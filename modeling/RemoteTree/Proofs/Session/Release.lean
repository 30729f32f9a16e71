import RemoteTree.Proofs.Session.Action
import RemoteTree.Proofs.Url.Target

/-!
# Which responses are released

A response keeps its connection until it is released. The client releases every response that it takes as an
answer, and every redirect that it has read. It gives up on a redirect before that if it cannot read the place
it leads to, or if its body breaks off in a way that is not passed over.

* `Response.isAbandoned`: whether the client gives up on a response.
* `Chain.released_of_feed`: a response is released exactly if it is not given up on, as the url of a request
  can always be taken apart (`Chain.splits_of_followed`).
* `Session.Settles`: what is sent from one session to a later one takes the replies of the script in their
  order, and each response is released or not as it deserves.
* `settles_step`: so it is in a step, if it is in the steps in between; `settles_between`: so it is in these,
  by induction on how deep they go.
* `released_unless_abandoned`: **every response is released but those that the client gives up on**.
-/

namespace RemoteTree

/-- Whether the client gives up on a response before it is released: a redirect whose place cannot be read, or
whose body breaks off in a way that is not passed over. -/
def Response.isAbandoned (r : Response) : Bool :=
  match r.place? with
  | none => false
  | some place =>
    match Response.readPlace place, r.read with
    | .ok _, .ok _ => false
    | .ok _, .error f => !f.kind.isPassedOver
    | .error _, _ => true

/-- Whether the response to a request has been released, given what came for it: there is nothing to release
if nothing came. -/
def Response.releasedOf {ε : Type} (reply : Except ε Response) : Option Bool :=
  reply.toOption.map fun r => !r.isAbandoned

/-- A url that can be taken apart. -/
def Url.Splits (url : Text) : Prop := ∃ parts, Url.split url = .ok parts

namespace Chain

variable {c : Chain} {p : Policy}

theorem lookAhead_isOk {r : Response} {place : Text} (hs : Url.Splits c.current.url)
    (hp : r.place? = some place) : (c.lookAhead r place).isOk = !r.isAbandoned := by
  obtain ⟨parts, hs⟩ := hs
  unfold Response.isAbandoned lookAhead skipBody
  simp only [hp, hs]
  cases Response.readPlace place with
  | error e => rfl
  | ok read =>
    cases r.read with
    | ok body => rfl
    | error f =>
      dsimp only
      cases f.kind.isPassedOver <;> rfl

/-- **A response is released** exactly if the client does not give up on it. -/
theorem released_of_feed (hs : Url.Splits c.current.url) (r : Response) :
    (c.feed p (.ok r)).released = some (!r.isAbandoned) := by
  simp only [feed]
  cases hp : r.place? with
  | none =>
    have hkept : r.isAbandoned = false := by
      unfold Response.isAbandoned
      rw [hp]
    rw [hkept]
    unfold finish
    cases r.read <;> rfl
  | some place =>
    rw [← lookAhead_isOk hs hp]
    simp only [follow]
    cases c.lookAhead r place with
    | error why => rfl
    | ok x =>
      dsimp only
      cases c.current.redirected x.2 r.status x.1 with
      | error e => rfl
      | ok next =>
        dsimp only
        cases p.apply next (c.via ++ [c.current]) <;> rfl

/-- The next request of a chain goes to a url that can be taken apart. -/
theorem splits_of_followed {reply : Except Stop Response} {status : Int} {c' : Chain}
    (h : (c.feed p reply).progress = .followed status c') : Url.Splits c'.current.url := by
  cases reply with
  | error why => cases h
  | ok r =>
    simp only [feed] at h
    split at h
    · rename_i place _
      simp only [follow] at h
      split at h
      · cases h
      split at h
      · cases h
      rename_i next hnext
      split at h
      · cases h
      rename_i q hq
      obtain ⟨-, rfl⟩ := Progress.followed.inj h
      -- the client has taken the url apart for the signature
      obtain ⟨url, -, hnext⟩ := bind_eq_ok.1 hnext
      obtain ⟨parts, hparts, hnext⟩ := bind_eq_ok.1 hnext
      obtain ⟨headers, -, hnext⟩ := bind_eq_ok.1 hnext
      obtain rfl := Except.ok.inj hnext
      obtain ⟨restored, rfl⟩ := Policy.eq_with_headers hq
      exact ⟨parts, mapError_eq_ok.1 hparts⟩
    · unfold finish at h
      split at h <;> cases h

end Chain

/-- A request is settled by a reply: nothing has come for it, or the response of the reply, which is released
unless it is given up on. -/
def Sent.SettledBy (q : Sent) (reply : Reply) : Prop :=
  q.released = none ∨ q.released = Response.releasedOf reply.outcome

/-- The replies of a script. -/
def Script.replies (s : Script) : List Reply := s.next :: s.later

theorem Script.replies_advance {s : Script} {r : Reply} (h : r ∈ s.advance.replies) : r ∈ s.replies := by
  obtain ⟨next, later⟩ := s
  cases later with
  | nil => exact h
  | cons x rest => exact List.mem_cons_of_mem _ h

/-- However far a script has come, its next reply is one of its replies. -/
theorem Script.next_mem_replies (s : Script) (n : Nat) : (Script.advance^[n] s).next ∈ s.replies := by
  induction n generalizing s with
  | zero => exact List.mem_cons_self
  | succ n ih => exact replies_advance (ih s.advance)

namespace Session

variable {s t u : Session}

/-- A reply settles the request at its place. -/
theorem sent_take (s : Session) (place : Nat) (turn : Turn) : (s.take place turn).sent =
    s.sent.modify place fun x => { x with released := turn.released } := by
  unfold take
  split
  · exact sent_note _ _ _ _
  · rfl

/-- From one session to a later one, each request that is sent takes the next reply of the script, and is
settled by it. -/
def Settles (s t : Session) : Prop :=
  ∃ more : List Sent, t.sent = s.sent ++ more ∧ t.script = Script.advance^[more.length] s.script ∧
    ∀ n (q : Sent), more[n]? = some q → q.SettledBy (Script.advance^[n] s.script).next

namespace Settles

theorem of_eq (hsent : t.sent = s.sent) (hscript : t.script = s.script) : s.Settles t :=
  ⟨[], by rw [hsent, List.append_nil], hscript, fun n q hq => by cases hq⟩

theorem trans (h : s.Settles t) (g : t.Settles u) : s.Settles u := by
  obtain ⟨more, hsent, hscript, hall⟩ := h
  obtain ⟨more', hsent', hscript', hall'⟩ := g
  refine ⟨more ++ more', by rw [hsent', hsent, List.append_assoc], ?_, fun n q hq => ?_⟩
  · rw [hscript', hscript, ← Function.iterate_add_apply, List.length_append, Nat.add_comm]
  · by_cases hn : n < more.length
    · exact hall n q (by rwa [List.getElem?_append_left hn] at hq)
    · rw [List.getElem?_append_right (by omega)] at hq
      have hq := hall' _ q hq
      rwa [hscript, ← Function.iterate_add_apply, Nat.sub_add_cancel (by omega)] at hq

/-- What leaves the wire as it is sends nothing. -/
theorem of_wire_eq (h : t.wire = s.wire) : s.Settles t :=
  of_eq (congrArg Session.sent h :) (congrArg Session.script h :)

theorem note (h : s.Settles t) (level : Int) (source : Source) (message : Text) :
    s.Settles (t.note level source message) :=
  h.trans (of_eq (sent_note _ _ _ _) (script_note _ _ _ _))

end Settles

section

variable {meanwhile : Meanwhile} (hm : ∀ steps s, Settles s (meanwhile steps s).1)

include hm

/-- **A request** takes the next reply of the script and is settled by it. -/
theorem settles_attempt {c : Chain} (hs : Url.Splits c.current.url) (seconds : Option Value) :
    s.Settles (s.attempt meanwhile seconds c).1 := by
  obtain ⟨others, hsent, hscript, hall⟩ := hm s.script.next.meanwhile (s.sending c.current seconds)
  rw [attempt_eq, exchange_eq]
  dsimp only
  generalize meanwhile s.script.next.meanwhile (s.sending c.current seconds) = x at *
  obtain ⟨u, result⟩ := x
  generalize hreply : ((result.mapError Raised.error).bind fun _ =>
    s.script.next.outcome.mapError Raised.failure) = reply
  -- what is released depends on the reply alone
  have hreleased : (c.feed u.policy (reply.mapError Raised.stop)).released = none ∨
      (c.feed u.policy (reply.mapError Raised.stop)).released = Response.releasedOf s.script.next.outcome := by
    cases reply with
    | error why => exact .inl rfl
    | ok r =>
      have hr : s.script.next.outcome = .ok r := by
        cases result with
        | error e => cases hreply
        | ok _ => exact mapError_eq_ok.1 hreply
      rw [hr]
      exact .inr (Chain.released_of_feed hs r)
  generalize c.feed u.policy (reply.mapError Raised.stop) = turn at *
  have hfirst : u.sent = s.sent ++ ⟨c.current, seconds, s.trust, none⟩ :: others := by
    rw [hsent]
    exact List.append_assoc _ _ _
  refine ⟨⟨c.current, seconds, s.trust, turn.released⟩ :: others, ?_, ?_, fun n q hq => ?_⟩
  · rw [sent_take, hfirst, modify_append_cons]
  · rw [script_take, hscript]
    rfl
  · cases n with
    | zero =>
      obtain rfl := Option.some.inj hq
      exact hreleased
    | succ n => exact hall n q hq

/-- The requests of an operation do so one after the other, as their urls can be taken apart. -/
theorem accrues_settles : Accrues meanwhile (fun c => Url.Splits c.current.url) Settles where
  refl := fun s => .of_eq rfl rfl
  trans := .trans
  noteFirst := fun s m target => (Settles.of_eq rfl rfl).note _ _ _
  judge := by
    intro s m r a
    unfold judge
    split
    · exact .of_eq rfl rfl
    · exact (Settles.of_eq rfl rfl).note _ _ _
  attempt := fun s seconds c hs => settles_attempt hm hs seconds
  followed := by
    intro s seconds c status c' _ hp
    rw [attempt_eq] at hp
    exact Chain.splits_of_followed hp

/-- **An operation** does so. -/
theorem settles_operate (s : Session) (r : Reference) (m : Method) (payload : Body)
    (headers : List (Text × Value)) : s.Settles (s.operate meanwhile r m payload headers).1 :=
  (accrues_settles hm).operate s r m payload headers fun _ _ hf =>
    (Request.target_of_prepare (prepare_of_firstRequest hf)).2

/-- **A step** does so, if the steps in between do. -/
theorem settles_step (s : Session) (t : Step) : s.Settles (s.step meanwhile t).1 := by
  by_cases ht : t.sends = false
  · exact .of_wire_eq (wire_step meanwhile s ht)
  obtain ⟨name, a, rfl⟩ : ∃ name a, t = .act name a := by
    cases t with
    | act name a => exact ⟨name, a, rfl⟩
    | _ => exact absurd rfl ht
  simp only [step]
  cases s.references.find? name with
  | none => exact .of_eq rfl rfl
  | some x =>
    obtain ⟨place, r⟩ := x
    dsimp only
    cases hop : a.operation? with
    | none =>
      obtain ha | ⟨e, he⟩ := act_of_no_operation hop
      · exact absurd ha ht
      · rw [he]
        exact .of_eq rfl rfl
    | some o =>
      have ho := settles_operate hm s r o.1 o.2.1 o.2.2
      obtain heq | ⟨line, as, c, heq⟩ := act_of_operation meanwhile s place r hop
      · rw [heq]
        exact ho
      · rw [heq]
        exact (ho.note _ _ _).trans (.of_eq rfl rfl)

end

/-- **Steps in between** do so, however deep they go. -/
theorem settles_between (depth : Nat) (steps : List Step) (s : Session) :
    s.Settles (between depth steps s).1 := by
  induction depth generalizing steps s with
  | zero => exact inRow_of_steps (fun s => .of_eq rfl rfl) .trans (fun s t => .of_eq rfl rfl) s steps
  | succ depth ih =>
    exact inRow_of_steps (fun s => .of_eq rfl rfl) .trans (fun s t => settles_step ih s t) s steps

/-! ## Operations -/

/-- The attempts of a chain are sent to urls that can be taken apart. -/
theorem splits_of_walk {p : Policy} {n : Nat} {c : Chain} {as : List Attempt} {result : Except Stop Answer}
    (h : Walk p n c as result) (hs : Url.Splits c.current.url) {a : Attempt} (ha : a ∈ as) :
    Url.Splits a.request.url :=
  h.forall_chain (P := fun c => Url.Splits c.current.url) hs (fun _ _ _ _ hp => Chain.splits_of_followed hp) a ha

/-- **The requests of an operation**: each of its responses is released exactly if it is not given up on. -/
theorem released_of_trace {meanwhile : Meanwhile} (hm : meanwhile.Grows) (s : Session) (r : Reference)
    (m : Method) (payload : Body) (headers : List (Text × Value)) :
    let as := s.trace meanwhile r m payload headers
    (∃ seconds, (s.operate meanwhile r m payload headers).1.sent =
      s.sent ++ as.flatMap fun a => a.sent s.policy seconds s.trust) ∧
      ∀ a ∈ as, (a.turn s.policy).released = Response.releasedOf a.reply := by
  intro as
  refine ⟨sent_of_operate hm s r m payload headers, ?_⟩
  obtain hnil | ⟨target, first, n, result, hf, hw⟩ := walk_of_trace hm s r m payload headers
  · show ∀ a ∈ s.trace meanwhile r m payload headers, _
    rw [hnil]
    exact List.forall_mem_nil _
  · have hfirst : Url.Splits (Chain.start first).current.url :=
      (Request.target_of_prepare (prepare_of_firstRequest hf)).2
    intro a ha
    have hs : Url.Splits a.chain.current.url := splits_of_walk hw hfirst ha
    unfold Attempt.turn
    cases a.reply with
    | error x => rfl
    | ok r => exact Chain.released_of_feed hs r

/-- **Every response is released but those that the client gives up on**, in a step with an operation and in
the steps in between, however deep they go.

* The requests of the operation are the attempts of its trace, in their order, each followed by what is sent
  before its reply. If a response comes, it is released exactly if it is not given up on.
* Everything that is sent meanwhile takes the replies of the script in their order, and if the response of
  its reply comes, it is released exactly if it is not given up on.
* So if no response of the script is given up on, none is left on its connection. -/
theorem released_unless_abandoned (depth : Nat) (s : Session) (name : Text) (a : Action) :
    let sent := (s.step (between depth) (.act name a)).1.sent.drop s.sent.length
    (∀ place r m payload headers, s.references.find? name = some (place, r) →
      a.operation? = some (m, payload, headers) →
      let as := s.trace (between depth) r m payload headers
      (∃ seconds, sent = as.flatMap fun b => b.sent s.policy seconds s.trust) ∧
        ∀ b ∈ as, (b.turn s.policy).released = Response.releasedOf b.reply) ∧
      (∀ n (q : Sent), sent[n]? = some q → q.SettledBy (Script.advance^[n] s.script).next) ∧
      ((∀ reply ∈ s.script.replies, ∀ r, reply.outcome = .ok r → r.isAbandoned = false) →
        ∀ q ∈ sent, q.released ≠ some false) := by
  intro sent
  obtain ⟨more, hmore, -, hall⟩ := settles_step (settles_between depth) s (.act name a)
  have hsent : sent = more := by
    show (s.step (between depth) (.act name a)).1.sent.drop s.sent.length = more
    rw [hmore, List.drop_left]
  refine ⟨fun place r m payload headers hr hop => ?_, ?_, fun hkept q hq hleft => ?_⟩
  · obtain ⟨⟨seconds, hoperate⟩, hreleased⟩ :=
      released_of_trace (grows_between depth) s r m payload headers
    refine ⟨⟨seconds, ?_⟩, hreleased⟩
    show (s.step (between depth) (.act name a)).1.sent.drop s.sent.length = _
    simp only [step, hr]
    rw [sent_act, hop]
    dsimp only
    rw [hoperate, List.drop_left]
  · rw [hsent]
    exact hall
  · obtain ⟨n, hn⟩ := List.mem_iff_getElem?.1 hq
    rw [hsent] at hn
    -- a response that is left on its connection has been given up on
    rcases hall n q hn with hnone | houtcome
    · rw [hnone] at hleft
      cases hleft
    · rw [houtcome] at hleft
      cases ho : (Script.advance^[n] s.script).next.outcome with
      | error f =>
        rw [ho] at hleft
        cases hleft
      | ok r =>
        have habandoned := hkept _ (s.script.next_mem_replies n) r ho
        rw [ho] at hleft
        simp [Response.releasedOf, Except.toOption, habandoned] at hleft

/-- The first request is led to another place, after the location has been removed another time. -/
def ledAway : Script :=
  ⟨⟨[.act "r" .remove], .ok ⟨307, [("Location", .text "/b")], [0x31], none⟩⟩, [⟨[], .ok ⟨200, [], [], none⟩⟩]⟩

/-- No response of this script is given up on. -/
theorem kept_of_ledAway {reply : Reply} (hreply : reply ∈ ledAway.replies) {r : Response}
    (hr : reply.outcome = .ok r) : r.isAbandoned = false := by
  obtain rfl | rfl : reply = ledAway.next ∨ reply = ⟨[], .ok ⟨200, [], [], none⟩⟩ := by
    simpa [Script.replies, ledAway] using hreply
  all_goals
    obtain rfl := Except.ok.inj hr
    decide +kernel

/-- Three requests are sent, and all their responses are released. -/
theorem released_unless_abandoned_ledAway :
    let sent := ((waiting ledAway).step (between 3) (.act "r" .remove)).1.sent.drop (waiting ledAway).sent.length
    sent.length = 3 ∧ ∀ q ∈ sent, q.released ≠ some false :=
  ⟨by decide +kernel, (released_unless_abandoned 3 (waiting ledAway) "r" .remove).2.2
    fun _ hreply _ hr => kept_of_ledAway hreply hr⟩

/-- A redirect with some bytes as its place, whose body may break off. -/
def redirect (place : Text) (broken : Option Failure) : Script :=
  ⟨⟨[], .ok ⟨307, [("Location", .text place)], [], broken⟩⟩, []⟩

/-- A redirect whose body is not there in time, and one whose place is not UTF-8: neither response is released
when the operation is over. -/
theorem released_unless_abandoned_left :
    let late := (waiting (redirect "/b" (some (.simple ⟨.pool, "ReadTimeoutError"⟩ [])))).observe (.act "r" .remove)
    let unreadable := (waiting (redirect "/ÿ" none)).observe (.act "r" .remove)
    late.sent.map Sent.released = [some false] ∧ unreadable.sent.map Sent.released = [some false] := by
  decide +kernel

end Session

end RemoteTree
