import RemoteTree.Proofs.Session.Growth
import RemoteTree.Proofs.Session.Walk

/-!
# Operations as rows of attempts

* `Session.trace`: the requests of an operation in their order.
* `Session.operate_walks`: an operation sends nothing if it has no request to begin with or no time for
  one; else its attempts are a walk, and it reports what the walk comes to.
* `Session.sent_of_operate`, `Session.walk_of_trace`: what it sends, and that this is a walk if it is anything;
  `Session.walk_of_answered`: a walk to the answer, if it comes to one.
* `Session.isForeign_of_firstRequest`, `Session.isForeign_of_attempt`: what goes wrong before anything is sent
  is none of the library's own errors.
* `Session.firstRequest_eq_ok`, `Session.firstRequest_of_sent`: the first request, and what an operation sends
  first.
* `Session.failed_eq_tooManyRedirects`, `Session.firstRequest_ne_tooManyRedirects`: the count of redirects
  is reported only if the walk comes to it.
-/

namespace RemoteTree.Session

/-- The requests of an operation in their order. -/
def trace (meanwhile : Meanwhile) (s : Session) (r : Reference) (m : Method) (payload : Body)
    (headers : List (Text × Value)) : List Attempt :=
  match s.firstRequest r m payload headers, Timeout.attempt r.timeout with
  | .ok (target, first), .ok seconds =>
    let s := s.noteFirst m target
    s.attempts meanwhile seconds s.patience (.start first)
  | _, _ => []

/-- What an operation reports of the end of its chain. -/
def report (m : Method) (r : Reference) : Except Stop Answer → Except Error Answer
  | .error why => .error (failed m r why)
  | .ok a => if a.isSuccess then .ok a else .error (refusal a)

theorem judge_snd (s : Session) (m : Method) (r : Reference) (a : Answer) :
    (s.judge m r a).2 = report m r (.ok a) := by
  simp only [judge, report]
  split <;> rfl

theorem judge_history (s : Session) (m : Method) (r : Reference) (a : Answer) :
    (s.judge m r a).1.sent = s.sent ∧ (s.judge m r a).1.shown = s.shown := by
  unfold judge
  split
  · exact ⟨rfl, rfl⟩
  · exact ⟨sent_note _ _ _ _, shown_note _ _ _ _⟩

/-- A walk may have more requests than the policy lets it have. -/
theorem hopLimit_lt_patience (s : Session) : Policy.hopLimit + 1 < s.patience := by
  unfold patience Script.length
  omega

variable (meanwhile : Meanwhile)

/-- An operation that has no first request, or no time for it, sends nothing. -/
theorem operate_of_no_request {s : Session} {r : Reference} {m : Method} {payload : Body}
    {headers : List (Text × Value)} {e : Error} (h : s.firstRequest r m payload headers = .error e) :
    s.trace meanwhile r m payload headers = [] ∧
      s.operate meanwhile r m payload headers = (s, .error e) := by
  unfold trace operate
  rw [h]
  exact ⟨rfl, rfl⟩

theorem operate_of_no_time {s : Session} {r : Reference} {m : Method} {payload : Body}
    {headers : List (Text × Value)} {target : Text} {first : Request} {why : Stop}
    (h : s.firstRequest r m payload headers = .ok (target, first))
    (ht : Timeout.attempt r.timeout = .error why) :
    s.trace meanwhile r m payload headers = [] ∧
      s.operate meanwhile r m payload headers = (s.noteFirst m target, .error (failed m r why)) := by
  unfold trace operate submit
  simp only [h, ht]
  exact ⟨trivial, trivial⟩

variable {meanwhile}

/-- **An operation is a walk**: its requests are the attempts, in their order, each followed by those of
the steps in between, and it reports what the walk comes to. -/
theorem operate_walks (hm : meanwhile.Grows) {s : Session} {r : Reference} {m : Method} {payload : Body}
    {headers : List (Text × Value)} {target : Text} {first : Request} {seconds : Option Value}
    (h : s.firstRequest r m payload headers = .ok (target, first))
    (ht : Timeout.attempt r.timeout = .ok seconds) :
    let as := s.trace meanwhile r m payload headers
    let out := s.operate meanwhile r m payload headers
    (∃ n result, Policy.hopLimit + 1 < n ∧ Walk s.policy n (.start first) as result ∧
        out.2 = report m r result) ∧
      out.1.sent = s.sent ++ as.flatMap (fun a => a.sent s.policy seconds s.trust) ∧
      out.1.shown = s.shown ++ as.flatMap (fun a => a.shown s.policy) := by
  have hn : s.Grows (s.noteFirst m target) := grows_note _ _ _ _
  have hsent₀ : (s.noteFirst m target).sent = s.sent := sent_note _ _ _ _
  have hshown₀ : (s.noteFirst m target).shown = s.shown := shown_note _ _ _ _
  obtain ⟨hw, -, hsent, hshown⟩ := pursue_adds hm seconds (s.noteFirst m target).patience
    (s.noteFirst m target) (.start first)
  rw [hn.policy] at hw hsent hshown
  rw [hn.trust, hsent₀] at hsent
  rw [hshown₀] at hshown
  unfold trace operate submit
  simp only [h, ht]
  rcases hx : (s.noteFirst m target).pursue meanwhile seconds (s.noteFirst m target).patience
    (.start first) with ⟨t, result⟩
  rw [hx] at hw hsent hshown
  cases result with
  | error why =>
    exact ⟨⟨_, _, hopLimit_lt_patience _, hw, rfl⟩, hsent, hshown⟩
  | ok a =>
    obtain ⟨hs, hsh⟩ := judge_history t m r a
    exact ⟨⟨_, _, hopLimit_lt_patience _, hw, judge_snd t m r a⟩, hs.trans hsent, hsh.trans hshown⟩

/-- **What an operation sends** are its attempts in their order, each followed by what is sent before its reply. -/
theorem sent_of_operate (hm : meanwhile.Grows) (s : Session) (r : Reference) (m : Method) (payload : Body)
    (headers : List (Text × Value)) :
    ∃ seconds, (s.operate meanwhile r m payload headers).1.sent =
      s.sent ++ (s.trace meanwhile r m payload headers).flatMap fun a => a.sent s.policy seconds s.trust := by
  cases hf : s.firstRequest r m payload headers with
  | error e =>
    obtain ⟨has, hout⟩ := operate_of_no_request meanwhile hf
    rw [has, hout]
    exact ⟨none, (List.append_nil _).symm⟩
  | ok x =>
    obtain ⟨target, first⟩ := x
    cases ht : Timeout.attempt r.timeout with
    | error why =>
      obtain ⟨has, hout⟩ := operate_of_no_time meanwhile hf ht
      rw [has, hout]
      exact ⟨none, (sent_note _ _ _ _).trans (List.append_nil _).symm⟩
    | ok seconds =>
      obtain ⟨-, hsent, -⟩ := operate_walks hm hf ht
      exact ⟨seconds, hsent⟩

/-- **The attempts of an operation** are a walk from its first request, if there are any. -/
theorem walk_of_trace (hm : meanwhile.Grows) (s : Session) (r : Reference) (m : Method) (payload : Body)
    (headers : List (Text × Value)) :
    s.trace meanwhile r m payload headers = [] ∨
      ∃ target first n result, s.firstRequest r m payload headers = .ok (target, first) ∧
        Walk s.policy n (.start first) (s.trace meanwhile r m payload headers) result := by
  cases hf : s.firstRequest r m payload headers with
  | error e => exact .inl (operate_of_no_request meanwhile hf).1
  | ok x =>
    obtain ⟨target, first⟩ := x
    cases ht : Timeout.attempt r.timeout with
    | error why => exact .inl (operate_of_no_time meanwhile hf ht).1
    | ok seconds =>
      obtain ⟨⟨n, result, -, hw, -⟩, -, -⟩ := operate_walks hm hf ht
      exact .inr ⟨target, first, n, result, rfl, hw⟩

/-- **An operation that comes to an answer** has a first request, and walks from it to the answer, which is one of
success. -/
theorem walk_of_answered (hm : meanwhile.Grows) {s : Session} {r : Reference} {m : Method} {payload : Body}
    {headers : List (Text × Value)} {answer : Answer}
    (h : (s.operate meanwhile r m payload headers).2 = .ok answer) :
    ∃ target first n, s.firstRequest r m payload headers = .ok (target, first) ∧ answer.isSuccess = true ∧
      Walk s.policy n (.start first) (s.trace meanwhile r m payload headers) (.ok answer) := by
  cases hf : s.firstRequest r m payload headers with
  | error e =>
    rw [(operate_of_no_request meanwhile hf).2] at h
    cases h
  | ok x =>
    obtain ⟨target, first⟩ := x
    cases ht : Timeout.attempt r.timeout with
    | error why =>
      rw [(operate_of_no_time meanwhile hf ht).2] at h
      cases h
    | ok seconds =>
      obtain ⟨⟨n, result, -, hw, hreport⟩, -, -⟩ := operate_walks hm hf ht
      rw [hreport] at h
      cases result with
      | error why => cases h
      | ok a =>
        unfold report at h
        dsimp only at h
        split at h
        · rename_i hsuccess
          obtain rfl := Except.ok.inj h
          exact ⟨target, first, n, rfl, hsuccess, hw⟩
        · cases h

/-! ## Errors on the way, and the count of redirects -/

theorem failed_eq_tooManyRedirects {m : Method} {r : Reference} {why : Stop} {n : Nat} :
    failed m r why = .tooManyRedirects n ↔ why = .error (.tooManyRedirects n) := by
  cases why with
  | error e => simp [failed]
  | noResponse x =>
    simp only [failed, reduceCtorEq, iff_false]
    split
    · simp
    · split <;> simp

theorem report_eq_tooManyRedirects {m : Method} {r : Reference} {result : Except Stop Answer} {n : Nat} :
    report m r result = .error (.tooManyRedirects n) ↔ result = .error (.error (.tooManyRedirects n)) := by
  cases result with
  | error why => simp [report, failed_eq_tooManyRedirects]
  | ok a =>
    simp only [report, refusal, reduceCtorEq, iff_false]
    split
    · simp
    · split <;> simp

theorem isForeign_of_attempt (seconds : Value) : FailsWith Stop.IsForeign (Timeout.attempt seconds) := by
  have hexpired : ∀ v, FailsWith Stop.IsForeign
      (.error (Timeout.expiredStop v) : Except Stop (Option Value)) := by
    refine fun v => .error ?_
    unfold Timeout.expiredStop NoResponse.make
    split
    · exact rfl
    · cases (Timeout.expired _).message with
      | ok said => trivial
      | error fault => exact Error.isForeign_ofPrintFault fault
  unfold Timeout.attempt
  split
  · exact .ok _
  · exact hexpired _
  · exact .error rfl
  · split
    · exact hexpired _
    · split
      · exact .error rfl
      · exact .ok _
  · split
    · exact hexpired _
    · exact .ok _
  · exact .error rfl

/-- The url of a reference is not made if a value has too many digits, or is a text that cannot be encoded. -/
theorem failsWith_of_resolve {P : Error → Prop} (hdigits : ∀ f, P (.digits f)) (hencoding : ∀ f, P (.encoding f))
    (s : Session) (r : Reference) : FailsWith P (s.resolve r) := by
  have hvalue : ∀ v, FailsWith P (Parameters.encodeValue v) := by
    intro v
    unfold Parameters.encodeValue
    split
    · exact .ok _
    · split
      · exact .error (hdigits _)
      · exact .mapError _ hencoding
  refine .bind (.bind (.mapM (fun e => .bind (hvalue _) fun _ => .ok _) _) fun pairs => ?_) fun _ => .ok _
  split <;> exact .ok _

theorem isForeign_of_prepare (m : Method) (url : Text) (settings : List (Text × Value)) (payload : Body) :
    FailsWith Error.IsForeign (Request.prepare m url settings payload) := by
  unfold Request.prepare
  refine .bind (.mapError _ fun _ => rfl) fun target => .bind (.mapError _ fun fault => ?_) fun _ =>
    .bind (.mapError _ fun _ => rfl) fun parts => .bind (.mapError _ fun _ => rfl) fun headers =>
    .bind (.mapError _ fun _ => rfl) fun signature => ?_
  · exact rfl
  · split <;> exact .ok _

theorem isForeign_of_firstRequest (s : Session) (r : Reference) (m : Method) (payload : Body)
    (headers : List (Text × Value)) : FailsWith Error.IsForeign (s.firstRequest r m payload headers) :=
  .bind (failsWith_of_resolve (fun _ => rfl) (fun _ => rfl) s r) fun _ =>
    .bind (isForeign_of_prepare _ _ _ _) fun _ => .ok _

theorem attempt_ne_tooManyRedirects (seconds : Value) (n : Nat) :
    Timeout.attempt seconds ≠ .error (.error (.tooManyRedirects n)) :=
  fun h => (isForeign_of_attempt seconds _ h).ne_tooManyRedirects n rfl

theorem firstRequest_ne_tooManyRedirects (s : Session) (r : Reference) (m : Method) (payload : Body)
    (headers : List (Text × Value)) (n : Nat) :
    s.firstRequest r m payload headers ≠ .error (.tooManyRedirects n) :=
  fun h => (isForeign_of_firstRequest s r m payload headers _ h).ne_tooManyRedirects n rfl

/-- The first request is made for the url that its reference stands for. -/
theorem firstRequest_eq_ok {s : Session} {r : Reference} {m : Method} {payload : Body}
    {headers : List (Text × Value)} {target : Text} {first : Request} :
    s.firstRequest r m payload headers = .ok (target, first) ↔
      s.resolve r = .ok target ∧ Request.prepare m target headers payload = .ok first := by
  unfold firstRequest
  constructor
  · intro h
    obtain ⟨target', hresolve, h⟩ := bind_eq_ok.1 h
    obtain ⟨first', hprepare, h⟩ := bind_eq_ok.1 h
    obtain ⟨rfl, rfl⟩ := Prod.mk.inj (Except.ok.inj h)
    exact ⟨hresolve, hprepare⟩
  · rintro ⟨hresolve, hprepare⟩
    rw [hresolve]
    simp only [hprepare, bind, Except.bind, pure, Except.pure]

/-- The first request is prepared with what the caller gives. -/
theorem prepare_of_firstRequest {s : Session} {r : Reference} {m : Method} {payload : Body}
    {headers : List (Text × Value)} {target : Text} {first : Request}
    (h : s.firstRequest r m payload headers = .ok (target, first)) :
    Request.prepare m target headers payload = .ok first :=
  (firstRequest_eq_ok.1 h).2

/-- **What an operation sends first** is its first request, for the url of its reference. -/
theorem firstRequest_of_sent (hm : meanwhile.Grows) {s : Session} {r : Reference} {m : Method}
    {payload : Body} {headers : List (Text × Value)} {q : Sent}
    (h : ((s.operate meanwhile r m payload headers).1.sent.drop s.sent.length).head? = some q) :
    ∃ target, s.resolve r = .ok target ∧ Request.prepare m target headers payload = .ok q.request := by
  cases hf : s.firstRequest r m payload headers with
  | error e =>
    rw [(operate_of_no_request meanwhile hf).2, List.drop_length] at h
    cases h
  | ok x =>
    obtain ⟨target, first⟩ := x
    cases ht : Timeout.attempt r.timeout with
    | error why =>
      have hsent : (s.noteFirst m target).sent = s.sent := sent_note _ _ _ _
      rw [(operate_of_no_time meanwhile hf ht).2, hsent, List.drop_length] at h
      cases h
    | ok seconds =>
      obtain ⟨⟨n, result, -, hw, -⟩, hsent, -⟩ := operate_walks hm hf ht
      rw [hsent, List.drop_left] at h
      cases htrace : s.trace meanwhile r m payload headers with
      | nil =>
        rw [htrace] at h
        cases h
      | cons a as =>
        rw [htrace] at h hw
        have hfirst : q.request = a.request := by
          obtain rfl := Option.some.inj h
          rfl
        have hchain : a.chain = .start first := hw.chain_of_head rfl
        have hrequest : q.request = first := by
          rw [hfirst, Attempt.request, hchain]
          rfl
        obtain ⟨hresolve, hprepare⟩ := firstRequest_eq_ok.1 hf
        exact ⟨target, hresolve, hrequest ▸ hprepare⟩

end RemoteTree.Session
