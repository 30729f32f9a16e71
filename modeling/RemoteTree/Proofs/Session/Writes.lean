import RemoteTree.Proofs.Session.Bodies
import RemoteTree.Proofs.Session.Outcome

/-!
# What has been sent when a write succeeds

An operation that creates, replaces, merges or deletes reports what the last one of its requests was answered with.
By then redirects may have made another request of it: some statuses ask for the same request at another place, and
the others ask for a `GET` there, or for a request without a body. Neither the method nor the body comes back behind
such a redirect, so a single one of them decides about all requests that follow.

* `Attempt.Keeps`: a redirect keeps a request with a method and a body, by its status.
* `Request.Strays`: a request has become another one. `Attempt.same_or_strays`: this is what becomes of a request
  that is not kept. `Attempt.strays_of_followed`: **it stays so for good.**
* `Walk.same_iff`: a request of a chain is the one that the chain began with exactly if all redirects before it have
  kept it.
* `Session.kept_to_success`: **what a write that succeeds has sent last.**
-/

namespace RemoteTree

variable {p : Policy} {n : Nat} {c : Chain} {as : List Attempt} {result : Except Stop Answer} {m : Method} {b : Body}

/-! ## One redirect -/

/-- A request is for a method and a body. -/
def Request.Is (m : Method) (b : Body) (r : Request) : Prop := r.method = m ∧ r.body = b

/-- A request only asks to be told something, or it has lost the body. -/
def Request.Strays (b : Body) (r : Request) : Prop := r.method = .get ∨ r.body = .none ∧ b ≠ .none

theorem Request.Strays.not_is {r : Request} (h : r.Strays b) (hm : m ≠ .get) : ¬r.Is m b := by
  rintro ⟨hmethod, hbody⟩
  rcases h with hget | ⟨hnone, hb⟩
  · exact hm (hmethod.symm.trans hget)
  · exact hb (hbody.symm.trans hnone)

namespace Attempt

variable {a : Attempt} {status : Int}

/-- If the reply is a redirect, it keeps a request for the method and the body: it asks for the same request, or its
status makes another one of nothing but a creation, and there is no body to be dropped. -/
def Keeps (m : Method) (b : Body) (a : Attempt) : Prop :=
  ∀ x, a.reply = .ok x → x.status = 307 ∨ x.status = 308 ∨ x.status = 301 ∧ m ≠ .post ∧ b = .none

/-- Whether a redirect keeps a request is decided by its status. -/
theorem keeps_iff {x : Response} (hx : a.reply = .ok x) :
    a.Keeps m b ↔ x.status = 307 ∨ x.status = 308 ∨ x.status = 301 ∧ m ≠ .post ∧ b = .none :=
  ⟨fun hk => hk x hx, fun hk y hy => by rwa [← Except.ok.inj (hx.symm.trans hy)]⟩

instance (m : Method) (b : Body) (a : Attempt) : Decidable (a.Keeps m b) :=
  match h : a.reply with
  | .error _ => isTrue fun _ hx => by rw [h] at hx; cases hx
  | .ok _ => decidable_of_iff' _ (keeps_iff h)

/-- An attempt that a chain is answered at has a response with that status. -/
theorem reply_of_answered {x : Answer} (h : (a.turn p).progress = .answered x) :
    ∃ y, a.reply = .ok y ∧ y.status = x.status := by
  unfold turn at h
  cases hr : a.reply with
  | error why =>
    rw [hr] at h
    cases h
  | ok y =>
    rw [hr] at h
    obtain ⟨-, body, -, rfl⟩ := Chain.of_answered h
    exact ⟨y, rfl, rfl⟩

/-- **A request that has become another one stays so**, whatever redirects come. -/
theorem strays_of_followed (ha : a.request.Strays b) (h : (a.turn p).progress = .followed status c) :
    c.current.Strays b := by
  obtain ⟨x, -, -, hmethod, hbody⟩ := request_of_followed h
  rcases ha with hget | ⟨hnone, hb⟩
  · left
    rw [hmethod, hget, Method.redirected]
    split
    · rfl
    · split <;> rfl
  · right
    rw [hbody, hnone]
    exact ⟨ite_self _, hb⟩

/-- A redirect keeps a request, or makes another one of it. -/
theorem same_or_strays (hm : m ≠ .get) (ha : a.request.Is m b) (h : (a.turn p).progress = .followed status c) :
    a.Keeps m b ∧ c.current.Is m b ∨ ¬a.Keeps m b ∧ c.current.Strays b := by
  obtain ⟨x, hx, hstatus, hmethod, hbody⟩ := request_of_followed h
  obtain ⟨rfl, rfl⟩ := ha
  rw [keeps_iff hx]
  unfold Request.Is Request.Strays
  rw [hmethod, hbody]
  obtain h | h | h | h | h : x.status = 301 ∨ x.status = 302 ∨ x.status = 303 ∨ x.status = 307 ∨ x.status = 308 := by
    simpa [redirectStatuses] using hstatus
  · -- what becomes of the request depends on the request alone
    by_cases hpost : a.request.method = .post
    · simp [h, hpost, Method.redirected]
    · by_cases hnone : a.request.body = .none <;> simp [h, hpost, hnone, Method.redirected, repeatStatuses]
  · simp [h, Method.redirected]
  · simp [h, Method.redirected]
  · simp [h, Method.redirected, repeatStatuses]
  · simp [h, Method.redirected, repeatStatuses]

end Attempt

/-! ## A chain of redirects -/

/-- A request of a chain is the one that the chain began with, if all redirects before it have kept that, or it has
become another one. By induction on the number of redirects. -/
theorem Walk.same_or_strays (h : Walk p n c as result) (hm : m ≠ .get) (hc : c.current.Is m b) {i : Nat}
    {a : Attempt} (ha : as[i]? = some a) :
    (∀ x ∈ as.take i, x.Keeps m b) ∧ a.request.Is m b ∨ (∃ x ∈ as.take i, ¬x.Keeps m b) ∧ a.request.Strays b := by
  refine h.along (P := fun before a => (∀ x ∈ before, x.Keeps m b) ∧ a.request.Is m b ∨
    (∃ x ∈ before, ¬x.Keeps m b) ∧ a.request.Strays b) (fun a hca => ?_) (fun before x status a hx hp => ?_) ha
  · rw [Attempt.request, hca]
    exact .inl ⟨fun x hx => absurd hx List.not_mem_nil, hc⟩
  · rcases hx with ⟨hkept, hsame⟩ | ⟨⟨y, hy, hlost⟩, hstrays⟩
    · rcases Attempt.same_or_strays hm hsame hp with ⟨hkeeps, hnext⟩ | ⟨hlost, hnext⟩
      · exact .inl ⟨List.forall_mem_append.2 ⟨hkept, List.forall_mem_singleton.2 hkeeps⟩, hnext⟩
      · exact .inr ⟨⟨x, by simp, hlost⟩, hnext⟩
    · exact .inr ⟨⟨y, List.mem_append_left _ hy, hlost⟩, Attempt.strays_of_followed hstrays hp⟩

/-- **A request is the one that the chain began with** exactly if all redirects before it have kept that. -/
theorem Walk.same_iff (h : Walk p n c as result) (hm : m ≠ .get) (hc : c.current.Is m b) {i : Nat} {a : Attempt}
    (ha : as[i]? = some a) : a.request.Is m b ↔ ∀ x ∈ as.take i, x.Keeps m b := by
  rcases h.same_or_strays hm hc ha with ⟨hkept, hsame⟩ | ⟨⟨x, hx, hlost⟩, hstrays⟩
  · exact iff_of_true hsame hkept
  · exact iff_of_false (hstrays.not_is hm) fun hkept => hlost (hkept x hx)

/-- All replies but the one to the last request are redirects. -/
theorem Walk.redirected_of_mem_dropLast (h : Walk p n c as result) {a : Attempt} (ha : a ∈ as.dropLast) :
    ∃ x, a.reply = .ok x ∧ x.status ∈ redirectStatuses := by
  obtain ⟨i, hi, rfl⟩ := List.mem_iff_getElem.1 ha
  rw [List.length_dropLast] at hi
  have hthis : as[i]? = some as.dropLast[i] := by
    rw [List.getElem_dropLast]
    exact List.getElem?_eq_getElem (by omega)
  have hnext : as[i + 1]? = some as[i + 1] := List.getElem?_eq_getElem (by omega)
  obtain ⟨status, hp⟩ := h.follows hthis hnext
  obtain ⟨x, hx, hstatus, -, -⟩ := Attempt.request_of_followed hp
  exact ⟨x, hx, hstatus⟩

/-- An answer is the response to the last request of a chain. -/
theorem Walk.last_of_answered {x : Answer} (h : Walk p n c as (.ok x)) :
    ∃ last y, as.getLast? = some last ∧ last.reply = .ok y ∧ y.status = x.status := by
  rcases h.cases_of_end with ⟨last, hl, hx⟩ | ⟨⟨_, hr⟩, -⟩ | ⟨hr, -⟩
  · cases hp : (last.turn p).progress with
    | answered y =>
      rw [hp] at hx
      obtain rfl := Except.ok.inj (Option.some.inj hx)
      obtain ⟨z, hz, hstatus⟩ := Attempt.reply_of_answered hp
      exact ⟨last, z, hl, hz, hstatus⟩
    | stopped why =>
      rw [hp] at hx
      cases Option.some.inj hx
    | followed status c' =>
      rw [hp] at hx
      cases hx
  · cases hr
  · cases hr

/-! ## Operations -/

namespace Session

variable {meanwhile : Meanwhile} {s : Session} {place : Nat} {r : Reference} {payload : Body}
  {headers : List (Text × Value)}

/-- An action that comes to a result has come to an answer of its operation before. -/
theorem answered_of_act {a : Action} (hop : a.operation? = some (m, payload, headers)) {result : Result}
    (h : (s.act meanwhile place r a).2 = .ok result) :
    ∃ answer, (s.operate meanwhile r m payload headers).2 = .ok answer := by
  rcases asks_or_push hop with hasks | ⟨v, as, bs, rfl, hv, rfl, rfl, rfl⟩
  · obtain ⟨read, hact⟩ := act_of_asking hasks r hop
    rw [hact] at h
    obtain ⟨answer, hanswer, -⟩ := bind_eq_ok.1 h
    exact ⟨answer, hanswer⟩
  · rcases push_outcome meanwhile s place r hv as with ⟨e, -, hpush⟩ | ⟨answer, hanswer, -⟩
    · rw [show s.act meanwhile place r (.push v as) = _ from hpush] at h
      cases h
    · exact ⟨answer, hanswer⟩

/-- **What a write that succeeds has sent last.** An action creates, replaces, merges or deletes, by itself or to set,
update, push or remove a value, and it ends without an error.

* Its requests are the attempts of the trace, and whatever else is sent meanwhile comes from the steps in between.
* The last of them has been answered with a status of success, and the others with redirects.
* The last one has the method of the operation, and exactly its payload as the body, if and only if all redirects keep
  these: they have the status 307 or 308, or 301 for a write other than a creation that has no payload.

This holds under both policies, and for any number of redirects of any kinds. -/
theorem kept_to_success (depth : Nat) (s : Session) (name : Text) (place : Nat) (r : Reference) (a : Action)
    (m : Method) (payload : Body) (headers : List (Text × Value)) (result : Result)
    (hr : s.references.find? name = some (place, r)) (hop : a.operation? = some (m, payload, headers))
    (hm : m ≠ .get) (hok : (s.step (between depth) (.act name a)).2 = .ok result) :
    let as := s.trace (between depth) r m payload headers
    (∃ seconds, (s.step (between depth) (.act name a)).1.sent.drop s.sent.length =
        as.flatMap fun b => b.sent s.policy seconds s.trust) ∧
      ∃ last x, as.getLast? = some last ∧ last.reply = .ok x ∧ (200 ≤ x.status ∧ x.status < 300) ∧
        (∀ b ∈ as.dropLast, ∃ y, b.reply = .ok y ∧ y.status ∈ redirectStatuses) ∧
        (last.request.method = m ∧ last.request.body = payload.trimmed ↔
          ∀ b ∈ as.dropLast, b.Keeps m payload.trimmed) := by
  intro as
  refine ⟨(sent_of_step depth s a hr).2 m payload headers hop, ?_⟩
  have hact : (s.act (between depth) place r a).2 = .ok result := by
    simpa only [step, hr] using hok
  obtain ⟨answer, hanswer⟩ := answered_of_act hop hact
  obtain ⟨target, first, n, hf, hsuccess, hw⟩ := walk_of_answered (grows_between depth) hanswer
  obtain ⟨last, x, hl, hx, hstatus⟩ := hw.last_of_answered
  have hprepare := prepare_of_firstRequest hf
  have hfirst : (Chain.start first).current.Is m payload.trimmed :=
    ⟨Request.method_of_prepare hprepare, Request.body_of_prepare hprepare⟩
  have hsame := hw.same_iff hm hfirst (Walk.getElem?_of_last hl)
  rw [← List.dropLast_eq_take] at hsame
  refine ⟨last, x, hl, hx, ?_, fun b hb => hw.redirected_of_mem_dropLast hb, hsame⟩
  rw [hstatus]
  exact (Answer.isSuccess_iff answer).1 hsuccess

/-- A redirect that asks for the same request, and then one by which the method of a creation would change. -/
def relocated : Script :=
  ⟨⟨[], .ok ⟨308, [("Location", .text "/b")], [], none⟩⟩,
    [⟨[], .ok ⟨301, [("Location", .text "/c")], [], none⟩⟩, ⟨[], .ok ⟨200, [], [], none⟩⟩]⟩

/-- What is removed is removed there, after two redirects. -/
theorem kept_to_success_relocated :
    let s := waiting relocated
    let r : Reference := .make "http://a" 0 (.int 3)
    let as := s.trace (between 0) r .delete .none []
    s.references.find? "r" = some (0, r) ∧ Action.remove.operation? = some (.delete, .none, []) ∧
      (∃ result, (s.step (between 0) (.act "r" .remove)).2 = .ok result) ∧ as.length = 3 ∧
      ∃ last x, as.getLast? = some last ∧ last.reply = .ok x ∧ last.request.method = .delete ∧
        last.request.body = .none := by
  intro s r as
  have hok : ((s.step (between 0) (.act "r" .remove)).2.toOption).isSome = true := by decide +kernel
  obtain ⟨result, hresult⟩ := Option.isSome_iff_exists.1 hok
  have hstep := eq_ok_of_toOption hresult
  have hkept : ∀ b ∈ as.dropLast, b.Keeps .delete .none := by decide +kernel
  obtain ⟨-, last, x, hl, hx, -, -, hsame⟩ :=
    kept_to_success 0 s "r" 0 r .remove .delete .none [] result rfl rfl (by decide) hstep
  obtain ⟨hmethod, hbody⟩ := hsame.2 hkept
  exact ⟨rfl, rfl, ⟨result, hstep⟩, by decide +kernel, last, x, hl, hx, hmethod, hbody⟩

/-- The reply to the first request asks to look at another place. -/
def referredElsewhere : Script :=
  ⟨⟨[], .ok ⟨303, [("Location", .text "/b")], [], none⟩⟩, [⟨[], .ok ⟨200, [], [0x31], none⟩⟩]⟩

/-- A value is set without an error, and the request that succeeds is a `GET` without a body. -/
theorem kept_to_success_elsewhere :
    let x := (waiting referredElsewhere).observe (.act "r" (.set (.int 7)))
    x.result.isOk = true ∧ x.sent.map (fun q => q.request.method) = [.put, .get] ∧
      x.sent.map (fun q => q.request.body) = [.bytes [0x37], .none] := by
  decide +kernel

end Session

end RemoteTree
