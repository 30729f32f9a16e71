import RemoteTree.Proofs.Session.Failing
import RemoteTree.Proofs.Session.Outcome
import RemoteTree.Proofs.Session.Query
import RemoteTree.Proofs.Session.Release

/-!
# Errors that come out as they are

An operation puts what goes wrong into the words of the library where a request is sent and where an answer is
read. What goes wrong elsewhere comes out as it is: while the first request is made, while the place of a
redirect is taken apart, and while a failure is shown.

* `Request.prepare_eq_error_iff`: what keeps the first request from being made.
* `Attempt.LetsOut`: what comes out of an attempt as it is; `Attempt.stopped_iff` says that it stops the chain,
  and that nothing else does so with an error but the policy.
* `Session.transported`: what the way of a request comes to, before it is put into the words of an operation.
* `Session.Escapes`: all errors that come out of it as they are, with what they come from.
* `errors_that_escape`: **an operation ends in an error that is none of the library's own exactly in these
  cases**, or if it is answered without a status.
-/

namespace RemoteTree

/-! ## The first request -/

/-- A payload that can be sent: bytes, a text that can be written, or none. -/
def Body.IsWritable : Body → Prop
  | .text t => Utf8.writable t = true
  | _ => True

/-- The length of a payload that can be sent can be written down. -/
theorem Headers.withLength_of_isWritable (h : Headers) (m : Method) {b : Body} (hb : b.IsWritable) :
    ∃ h', h.withLength m b.trimmed = .ok h' := by
  cases b with
  | none => exact ⟨_, rfl⟩
  | bytes bs => cases bs <;> exact ⟨_, rfl⟩
  | text t =>
    cases t with
    | nil => exact ⟨_, rfl⟩
    | cons c t =>
      have hencode := Utf8.encode_of_writable hb
      exact ⟨_, by simp only [Body.trimmed, withLength, hencode, bind, Except.bind]; rfl⟩

/-- **What keeps a request from being made** whose payload can be sent, without headers of the caller: the
client takes no such url, or cannot take apart what it has made of it, or cannot write down the user. -/
theorem Request.prepare_eq_error_iff {m : Method} {url : Text} {payload : Body} (hp : payload.IsWritable)
    {e : Error} : prepare m url [] payload = .error e ↔
      (∃ why, Url.target url = .error why ∧ e = .badTarget url why) ∨
        ∃ target, Url.target url = .ok target ∧
          ((∃ fault, Url.split target = .error fault ∧ e = .brokenUrl fault) ∨
            ∃ parts fault, Url.split target = .ok parts ∧ parts.signature? = .error fault ∧
              e = .encoding fault) := by
  obtain ⟨headers, hheaders⟩ := Headers.withLength_of_isWritable (Headers.given []) m hp
  have hcheck : (Headers.given []).check = .ok () := rfl
  unfold prepare
  cases htarget : Url.target url with
  | error why => simp [bind, Except.bind, eq_comm]
  | ok target =>
    cases hsplit : Url.split target with
    | error fault => simp [bind, Except.bind, hcheck, hsplit, eq_comm]
    | ok parts =>
      cases hsign : parts.signature? with
      | error fault => simp [bind, Except.bind, hcheck, hheaders, hsplit, hsign, eq_comm]
      | ok signature =>
        cases signature <;>
          simp [bind, Except.bind, pure, Except.pure, hcheck, hheaders, hsplit, hsign]

/-! ## What an attempt lets out -/

/-- The request that a redirect with the status leads to from a chain. -/
def Chain.goal (c : Chain) (status : Int) (place : Text) : Except Error Request := do
  let place ← Response.readPlace place
  let now ← (Url.split c.current.url).mapError Error.brokenUrl
  c.current.redirected now status place

/-- The failure that the body of a response breaks off with. That of a redirect counts if it is not passed
over, and is not found out if the place cannot be read. -/
def Response.failure? (r : Response) : Option Failure :=
  match r.read with
  | .ok _ => none
  | .error f =>
    match r.place? with
    | none => some f
    | some place => if (Response.readPlace place).isOk && !f.kind.isPassedOver then some f else none

namespace Chain

variable {c : Chain} {p : Policy} {r : Response}

theorem goal_isAstray (c : Chain) (status : Int) (place : Text) :
    FailsWith Error.IsAstray (c.goal status place) :=
  .bind (Response.readPlace_isAstray place) fun _ => .bind (.mapError _ fun _ => trivial) fun _ =>
    Request.redirected_isAstray _ _ _ _

/-- A failure over a response stops the chain. -/
theorem progress_of_failure (hs : Url.Splits c.current.url) {f : Failure} (hf : r.failure? = some f) :
    (c.feed p (.ok r)).progress = .stopped (.ofFailure f) := by
  obtain ⟨parts, hs⟩ := hs
  unfold Response.failure? at hf
  cases hread : r.read with
  | ok body =>
    rw [hread] at hf
    cases hf
  | error f' =>
    rw [hread] at hf
    simp only [feed]
    cases hplace : r.place? with
    | none =>
      rw [hplace] at hf
      obtain rfl := Option.some.inj hf
      simp only [finish, hread]
    | some place =>
      simp only [hplace] at hf
      split at hf
      · rename_i hcounts
        obtain rfl := Option.some.inj hf
        rw [Bool.and_eq_true, Bool.not_eq_true'] at hcounts
        cases hpl : Response.readPlace place with
        | error e =>
          rw [hpl] at hcounts
          exact absurd hcounts.1 Bool.false_ne_true
        | ok text =>
          have hahead : c.lookAhead r place = .error (.ofFailure f') := by
            simp [lookAhead, skipBody, hpl, hs, hread, hcounts.2, bind, Except.bind]
          simp only [follow, hahead]
      · cases hf

/-- Without a failure, a response that is no redirect is the answer. -/
theorem progress_of_no_failure (hf : r.failure? = none) (hp : r.place? = none) :
    ∃ body, (c.feed p (.ok r)).progress = .answered ⟨r.status, r.headers, body⟩ := by
  unfold Response.failure? at hf
  rw [hp] at hf
  simp only [feed, hp, finish]
  cases hread : r.read with
  | ok body => exact ⟨body, rfl⟩
  | error f =>
    rw [hread] at hf
    cases hf

/-- Without a failure, a redirect leads to its goal, if the policy has it; if it has none, the chain is stopped
by the error that says so. -/
theorem progress_of_goal (hs : Url.Splits c.current.url) (hf : r.failure? = none) {place : Text}
    (hp : r.place? = some place) :
    (∀ e, c.goal r.status place = .error e → (c.feed p (.ok r)).progress = .stopped (.error e)) ∧
      ∀ next, c.goal r.status place = .ok next →
        c.feed p (.ok r) = asked p r.status next (c.via ++ [c.current]) := by
  obtain ⟨parts, hs⟩ := hs
  unfold Response.failure? at hf
  cases hpl : Response.readPlace place with
  | error e' =>
    -- the body is not looked at if the place cannot be read
    have hahead : c.lookAhead r place = .error (.error e') := by
      simp [lookAhead, hpl, bind, Except.bind]
    have hgoal : c.goal r.status place = .error e' := by
      simp [goal, hpl, bind, Except.bind]
    refine ⟨fun e he => ?_, fun next hn => ?_⟩
    · obtain rfl := Except.error.inj (hgoal.symm.trans he)
      simp only [feed, hp, follow, hahead]
    · rw [hgoal] at hn
      cases hn
  | ok text =>
    have hbody : skipBody r = .ok () := by
      unfold skipBody
      cases hread : r.read with
      | ok body => rfl
      | error f =>
        simp only [hread, hp, hpl] at hf
        have hpassed : f.kind.isPassedOver = true := by
          by_contra hne
          rw [Bool.not_eq_true] at hne
          simp [hne, Except.isOk, Except.toBool] at hf
        simp only [hpassed, if_true]
    have hahead : c.lookAhead r place = .ok (text, parts) := by
      simp [lookAhead, hpl, hs, hbody, bind, Except.bind, pure, Except.pure]
    have hgoal : c.goal r.status place = c.current.redirected parts r.status text := by
      simp [goal, hpl, hs, bind, Except.bind]
    refine ⟨fun e he => ?_, fun next hn => ?_⟩
    · rw [hgoal] at he
      simp only [feed, hp, follow, hahead, he]
    · have hnext : c.next? r = some next := by
        unfold next?
        simp only [hp, hahead, ← hgoal, hn]
        rfl
      exact feed_of_next hnext p

end Chain

namespace Attempt

/-- The failure that an attempt comes to, before the response or over it. -/
def failure? (a : Attempt) : Option Failure :=
  match a.reply with
  | .error x => some x.thrown
  | .ok r => r.failure?

/-- What comes out of an attempt as it is. -/
inductive LetsOut (a : Attempt) : Error → Prop
  /-- The failure has no text, so that nothing can be said of it but that. -/
  | textless {f : Failure} {fault : Failure.PrintFault} (hf : a.failure? = some f)
      (hm : f.message = .error fault) : LetsOut a (.ofPrintFault fault)
  /-- The place of the redirect cannot be read or taken apart. -/
  | astray {r : Response} {place : Text} {e : Error} (hr : a.reply = .ok r) (hp : r.place? = some place)
      (hf : a.failure? = none) (he : a.chain.goal r.status place = .error e) : LetsOut a e

variable {a : Attempt} {e : Error}

/-- What comes out as it is comes neither from the library nor from the client. -/
theorem LetsOut.origin (h : a.LetsOut e) : e.IsForeign ∧ e.kind.origin = .system := by
  cases h with
  | @textless f fault hf hm => cases fault <;> exact ⟨rfl, rfl⟩
  | astray hr hp hf he =>
    have hastray : e.IsAstray := Chain.goal_isAstray _ _ _ e he
    refine ⟨hastray.isForeign, ?_⟩
    cases e <;> first | rfl | cases hastray

/-- A failure stops the chain. -/
theorem progress_of_failure (hs : Url.Splits a.request.url) {f : Failure} (hf : a.failure? = some f)
    (hc : f.kind.isClientError = true) (p : Policy) : (a.turn p).progress = .stopped (.ofFailure f) := by
  unfold failure? at hf
  unfold turn
  cases hr : a.reply with
  | error x =>
    rw [hr] at hf
    obtain rfl := Option.some.inj hf
    rw [← Raised.stop_of_thrown hc]
    rfl
  | ok r =>
    rw [hr] at hf
    exact Chain.progress_of_failure hs hf

theorem letsOut_of_failure {f : Failure} (hf : a.failure? = some f) :
    a.LetsOut e ↔ ∃ fault, f.message = .error fault ∧ e = .ofPrintFault fault := by
  constructor
  · intro h
    cases h with
    | textless hf' hm =>
      obtain rfl := Option.some.inj (hf.symm.trans hf')
      exact ⟨_, hm, rfl⟩
    | astray _ _ hf' _ =>
      rw [hf] at hf'
      cases hf'
  · rintro ⟨fault, hm, rfl⟩
    exact .textless hf hm

theorem letsOut_of_no_failure (hf : a.failure? = none) {r : Response} (hr : a.reply = .ok r) :
    a.LetsOut e ↔ ∃ place, r.place? = some place ∧ a.chain.goal r.status place = .error e := by
  constructor
  · intro h
    cases h with
    | textless hf' _ =>
      rw [hf] at hf'
      cases hf'
    | astray hr' hp _ he =>
      obtain rfl := Except.ok.inj (hr.symm.trans hr')
      exact ⟨_, hp, he⟩
  · rintro ⟨place, hp, he⟩
    exact .astray hr hp hf he

/-- Without a failure there is a response, which is what the turn is about. -/
theorem turn_of_no_failure (hf : a.failure? = none) (p : Policy) :
    ∃ r, a.reply = .ok r ∧ r.failure? = none ∧ a.turn p = a.chain.feed p (.ok r) := by
  unfold failure? at hf
  unfold turn
  cases hr : a.reply with
  | ok r =>
    rw [hr] at hf
    exact ⟨r, rfl, hf, rfl⟩
  | error x =>
    rw [hr] at hf
    cases hf

/-- **What stops a chain with an error**: what the attempt lets out, or the policy, which has counted too many
redirects. -/
theorem stopped_iff (hs : Url.Splits a.request.url) (hc : ∀ f, a.failure? = some f → f.kind.isClientError = true)
    (p : Policy) (hne : ∀ k, e ≠ .tooManyRedirects k) :
    (a.turn p).progress = .stopped (.error e) ↔ a.LetsOut e := by
  cases hf : a.failure? with
  | some f =>
    rw [progress_of_failure hs hf (hc f hf) p, letsOut_of_failure hf]
    unfold Stop.ofFailure NoResponse.make
    rw [if_pos (hc f hf)]
    cases f.message with
    | ok said => simp
    | error fault => simp [eq_comm]
  | none =>
    obtain ⟨r, hr, hfr, hturn⟩ := turn_of_no_failure hf p
    rw [hturn, letsOut_of_no_failure hf hr]
    cases hp : r.place? with
    | none =>
      obtain ⟨body, hbody⟩ := Chain.progress_of_no_failure (c := a.chain) (p := p) hfr hp
      simp [hbody]
    | some place =>
      obtain ⟨herror, hgoes⟩ := Chain.progress_of_goal (p := p) hs hfr hp
      cases hg : a.chain.goal r.status place with
      | error e' => simp [herror e' hg, hg]
      | ok next =>
        rw [hgoes next hg]
        have hnot : (Chain.asked p r.status next (a.chain.via ++ [a.chain.current])).progress ≠
            .stopped (.error e) := by
          intro h
          unfold Chain.asked at h
          dsimp only at h
          split at h
          · rename_i e' he
            obtain rfl := Stop.error.inj (Progress.stopped.inj h)
            obtain ⟨k, rfl⟩ := Policy.eq_tooManyRedirects he
            exact hne k rfl
          · cases h
        simp [hnot, hg]

end Attempt

/-- A request that cannot be sent is not answered. -/
theorem Chain.unsendable_eq (c : Chain) : ∃ n, c.unsendable = .noResponse n := by
  unfold unsendable
  generalize ("No connection adapters were found for " ++ c.current.url.quoted : Text) = said
  have hclient : (Failure.simple ⟨.client, "InvalidSchema"⟩ [.text said]).kind.isClientError = true := rfl
  unfold Stop.ofFailure NoResponse.make
  rw [if_pos hclient, Failure.message_simple rfl (by decide)]
  exact ⟨_, rfl⟩

namespace Session

/-! ## The way of a request -/

variable (meanwhile : Meanwhile) (s : Session) (r : Reference) (m : Method) (payload : Body)

/-- What the way of a request to a target comes to: the request is made and sent, and redirects are followed.
This is not yet put into the words of an operation. -/
def transported (target : Text) : Except Stop Answer :=
  match Request.prepare m target [] payload with
  | .error e => .error (.error e)
  | .ok first =>
    match Timeout.attempt r.timeout with
    | .error why => .error why
    | .ok seconds =>
      ((s.noteFirst m target).pursue meanwhile seconds (s.noteFirst m target).patience (.start first)).2

/-- The errors that come out of the way of a request as they are. -/
inductive Escapes (target : Text) : Error → Prop
  /-- The client takes no such url. -/
  | refused {why : Url.TargetFault} (h : Url.target target = .error why) : Escapes target (.badTarget target why)
  /-- What the client has made of the url has an address that cannot be read. -/
  | broken {url : Text} {fault : Url.Fault} (h : Url.target target = .ok url)
      (hs : Url.split url = .error fault) : Escapes target (.brokenUrl fault)
  /-- The user that the url names cannot be written down. -/
  | unsigned {url : Text} {parts : Url.Parts} {fault : EncodeFault} (h : Url.target target = .ok url)
      (hs : Url.split url = .ok parts) (hf : parts.signature? = .error fault) :
      Escapes target (.encoding fault)
  /-- The last attempt lets it out. -/
  | letOut {last : Attempt} {e : Error} (hl : (s.trace meanwhile r m payload []).getLast? = some last)
      (h : last.LetsOut e) : Escapes target e
  /-- Redirects are followed without an end, by a policy that does not count them. -/
  | endless {last : Attempt} {status : Int} {c : Chain} (hp : s.policy = .passing)
      (hn : (s.trace meanwhile r m payload []).length = s.patience)
      (hl : (s.trace meanwhile r m payload []).getLast? = some last)
      (hf : (last.turn s.policy).progress = .followed status c) : Escapes target .endlessChain

variable {meanwhile s r m payload} {target : Text}

/-- An operation puts into words what the way of its request comes to. -/
theorem operate_eq_report (h : s.resolve r = .ok target) :
    (s.operate meanwhile r m payload []).2 = report m r (s.transported meanwhile r m payload target) := by
  unfold transported operate firstRequest
  simp only [h, bind, Except.bind, pure, Except.pure]
  cases Request.prepare m target [] payload with
  | error e => rfl
  | ok first =>
    simp only [submit]
    cases Timeout.attempt r.timeout with
    | error why => rfl
    | ok seconds =>
      dsimp only
      rcases (s.noteFirst m target).pursue meanwhile seconds (s.noteFirst m target).patience (.start first)
        with ⟨t, why | a⟩
      · rfl
      · exact judge_snd t m r a

theorem transported_of_no_request {e : Error} (hf : Request.prepare m target [] payload = .error e) :
    s.transported meanwhile r m payload target = .error (.error e) := by
  unfold transported
  rw [hf]

theorem transported_of_no_time {first : Request} (hf : Request.prepare m target [] payload = .ok first) {why : Stop}
    (ht : Timeout.attempt r.timeout = .error why) :
    s.transported meanwhile r m payload target = .error why := by
  unfold transported
  rw [hf, ht]

/-- The way of a request is a walk of its attempts. -/
theorem transported_walks (hm : meanwhile.Grows) (h : s.resolve r = .ok target) {first : Request}
    (hf : Request.prepare m target [] payload = .ok first) {seconds : Option Value}
    (ht : Timeout.attempt r.timeout = .ok seconds) :
    Walk s.policy s.patience (.start first) (s.trace meanwhile r m payload [])
      (s.transported meanwhile r m payload target) := by
  have hpatience : (s.noteFirst m target).patience = s.patience := by
    unfold patience noteFirst
    rw [script_note]
  have hpolicy : (s.noteFirst m target).policy = s.policy := (grows_note _ _ _ _).policy
  have hfirst : s.firstRequest r m payload [] = .ok (target, first) := firstRequest_eq_ok.2 ⟨h, hf⟩
  have htrace : s.trace meanwhile r m payload [] =
      (s.noteFirst m target).attempts meanwhile seconds s.patience (.start first) := by
    unfold trace
    simp only [hfirst, ht, hpatience]
  have hresult : s.transported meanwhile r m payload target =
      ((s.noteFirst m target).pursue meanwhile seconds s.patience (.start first)).2 := by
    unfold transported
    simp only [hf, ht, hpatience]
  rw [htrace, hresult, ← hpolicy]
  exact (pursue_adds hm seconds s.patience (s.noteFirst m target) (.start first)).1

theorem Escapes.isForeign {e : Error} (h : s.Escapes meanwhile r m payload target e) : e.IsForeign := by
  cases h with
  | refused | broken | unsigned | endless => exact rfl
  | letOut _ h => exact h.origin.1

/-- Only a url that the client does not take brings out an error of the client. -/
theorem Escapes.isClientError_iff {e : Error} (h : s.Escapes meanwhile r m payload target e) :
    e.kind.isClientError = true ↔ ∃ why, e = .badTarget target why := by
  constructor
  · intro hclient
    cases h with
    | refused => exact ⟨_, rfl⟩
    | broken | unsigned | endless => cases hclient
    | letOut _ h =>
      unfold Failure.Kind.isClientError at hclient
      rw [h.origin.2] at hclient
      cases hclient
  · rintro ⟨why, rfl⟩
    rfl

/-- Only a policy that does not count redirects lets a walk go on for as long as it may: the other one has had enough
before. -/
theorem policy_of_patience {first : Request} {as : List Attempt} {result : Except Stop Answer}
    (hw : Walk s.policy s.patience (.start first) as result) (hd : first.headers.Distinct)
    (hn : as.length = s.patience) : s.policy = .passing := by
  cases hp : s.policy with
  | passing => rfl
  | restoring =>
    rw [hp] at hw
    have hle := hw.length_le hd (Chain.began_start first) (Nat.zero_le _)
    have hlt := hopLimit_lt_patience s
    rw [hn] at hle
    omega

/-- An operation with attempts has made its first request, and has time for it. -/
theorem prepared_of_trace (h : s.resolve r = .ok target) (hne : s.trace meanwhile r m payload [] ≠ []) :
    (∃ first, Request.prepare m target [] payload = .ok first) ∧
      ∃ seconds, Timeout.attempt r.timeout = .ok seconds := by
  unfold trace at hne
  split at hne
  · rename_i target' first seconds hf ht
    obtain ⟨hresolve, hprepare⟩ := firstRequest_eq_ok.1 hf
    obtain rfl := Except.ok.inj (hresolve.symm.trans h)
    exact ⟨⟨first, hprepare⟩, seconds, ht⟩
  · exact absurd rfl hne

section

-- all that is raised are failures of the client
variable (hm : meanwhile.Grows) (h : s.resolve r = .ok target)
  (hraised : ∀ x ∈ s.trace meanwhile r m payload [], ∀ f, x.failure? = some f → f.kind.isClientError = true)

include hm h hraised

/-- What comes out of a walk: no response, too many redirects, or an error that comes out as it is. -/
theorem transported_cases_of_walk {first : Request} {seconds : Option Value}
    (hf : Request.prepare m target [] payload = .ok first) (ht : Timeout.attempt r.timeout = .ok seconds)
    {why : Stop} (hw : s.transported meanwhile r m payload target = .error why) :
    (∃ n, why = .noResponse n) ∨ (∃ k, why = .error (.tooManyRedirects k)) ∨
      ∃ e, why = .error e ∧ s.Escapes meanwhile r m payload target e := by
  have hwalk := transported_walks hm h hf ht
  have hfirst : Url.Splits (Chain.start first).current.url := (Request.target_of_prepare hf).2
  rw [hw] at hwalk
  rcases hwalk.cases_of_end with ⟨last, hlast, hresult⟩ | ⟨⟨c, hc⟩, -⟩ | ⟨hend, hlength, hfollowed⟩
  · have hmem : last ∈ s.trace meanwhile r m payload [] := List.mem_of_getLast? hlast
    have hprogress : (last.turn s.policy).progress = .stopped why := by
      cases hp : (last.turn s.policy).progress with
      | stopped why' =>
        rw [hp] at hresult
        rw [Except.error.inj (Option.some.inj hresult)]
      | answered | followed =>
        rw [hp] at hresult
        cases hresult
    cases why with
    | noResponse n => exact .inl ⟨n, rfl⟩
    | error e =>
      by_cases hcount : ∃ k, e = .tooManyRedirects k
      · obtain ⟨k, rfl⟩ := hcount
        exact .inr (.inl ⟨k, rfl⟩)
      · have hlets : last.LetsOut e :=
          (Attempt.stopped_iff (splits_of_walk hwalk hfirst hmem) (hraised last hmem) s.policy
            fun k hk => hcount ⟨k, hk⟩).1 hprogress
        exact .inr (.inr ⟨e, rfl, .letOut hlast hlets⟩)
  · obtain ⟨n, hn⟩ := c.unsendable_eq
    exact .inl ⟨n, (Except.error.inj hc).trans hn⟩
  · have hpolicy : s.policy = .passing := policy_of_patience hwalk (Request.distinct_of_prepare hf) hlength
    have hne : s.trace meanwhile r m payload [] ≠ [] := by
      have hlt := hopLimit_lt_patience s
      intro hnil
      rw [hnil, List.length_nil] at hlength
      omega
    have hlast := List.getLast?_eq_some_getLast hne
    obtain ⟨status, c, hc⟩ := hfollowed _ hlast
    exact .inr (.inr ⟨_, Except.error.inj hend, .endless hpolicy hlength hlast hc⟩)

/-- **What comes out of the way of a request**, where the timeout is none or a number. -/
theorem transported_cases (hp : payload.IsWritable) (ht : Timeout.IsSeconds r.timeout) {why : Stop}
    (hw : s.transported meanwhile r m payload target = .error why) :
    (∃ n, why = .noResponse n) ∨ (∃ k, why = .error (.tooManyRedirects k)) ∨
      ∃ e, why = .error e ∧ s.Escapes meanwhile r m payload target e := by
  cases hf : Request.prepare m target [] payload with
  | error e =>
    have hwhy : why = .error e := Except.error.inj (hw.symm.trans (transported_of_no_request hf))
    refine .inr (.inr ⟨e, hwhy, ?_⟩)
    obtain ⟨fault, hr, rfl⟩ | ⟨url, hr, ⟨fault, hs, rfl⟩ | ⟨parts, fault, hs, hu, rfl⟩⟩ :=
      (Request.prepare_eq_error_iff hp).1 hf
    · exact .refused hr
    · exact .broken hr hs
    · exact .unsigned hr hs hu
  | ok first =>
    obtain ⟨shown, hshown⟩ := Timeout.plain_of_isSeconds ht
    have htime := Timeout.attempt_of_isSeconds ht hshown
    split at htime
    · have hwhy := Except.error.inj (hw.symm.trans (transported_of_no_time hf htime))
      exact .inl ⟨_, hwhy⟩
    · obtain ⟨seconds, htime⟩ := htime
      exact transported_cases_of_walk hm h hraised hf htime hw

/-- **The errors that come out of the way of a request as they are end it.** -/
theorem transported_of_escapes (hp : payload.IsWritable) {e : Error} (he : s.Escapes meanwhile r m payload target e) :
    s.transported meanwhile r m payload target = .error (.error e) := by
  have hwalks : s.trace meanwhile r m payload [] ≠ [] →
      ∃ first, Request.prepare m target [] payload = .ok first ∧
        Walk s.policy s.patience (.start first) (s.trace meanwhile r m payload [])
          (s.transported meanwhile r m payload target) := by
    intro hne
    obtain ⟨⟨first, hf⟩, seconds, ht⟩ := prepared_of_trace h hne
    exact ⟨first, hf, transported_walks hm h hf ht⟩
  cases he with
  | refused hr => exact transported_of_no_request ((Request.prepare_eq_error_iff hp).2 (.inl ⟨_, hr, rfl⟩))
  | broken hr hs =>
    exact transported_of_no_request ((Request.prepare_eq_error_iff hp).2 (.inr ⟨_, hr, .inl ⟨_, hs, rfl⟩⟩))
  | unsigned hr hs hf =>
    exact transported_of_no_request
      ((Request.prepare_eq_error_iff hp).2 (.inr ⟨_, hr, .inr ⟨_, _, hs, hf, rfl⟩⟩))
  | @letOut last _ hl hlets =>
    have hmem : last ∈ s.trace meanwhile r m payload [] := List.mem_of_getLast? hl
    obtain ⟨first, hf, hwalk⟩ := hwalks (List.ne_nil_of_mem hmem)
    have hfirst : Url.Splits (Chain.start first).current.url := (Request.target_of_prepare hf).2
    have hstops : (last.turn s.policy).progress = .stopped (.error e) :=
      (Attempt.stopped_iff (splits_of_walk hwalk hfirst hmem) (hraised last hmem) s.policy
        hlets.origin.1.ne_tooManyRedirects).2 hlets
    exact hwalk.result_of_last hl (congrArg Progress.result? hstops)
  | @endless last status c _ hn hl hf =>
    obtain ⟨first, -, hwalk⟩ := hwalks (List.ne_nil_of_mem (List.mem_of_getLast? hl))
    refine hwalk.endless hn fun last' hl' => ?_
    obtain rfl := Option.some.inj (hl.symm.trans hl')
    exact ⟨status, c, hf⟩

end

/-- An action that reads nothing from the answer fails exactly if its operation does. -/
theorem act_eq_error_iff {a : Action} {headers : List (Text × Value)} (hop : a.operation? = some (m, payload, headers))
    (hread : a.reads = false) (place : Nat) {e : Error} :
    (s.act meanwhile place r a).2 = .error e ↔ (s.operate meanwhile r m payload headers).2 = .error e := by
  constructor
  · intro he
    obtain ⟨-, hresult | ⟨hreads, -⟩⟩ := error_of_act hop he
    · exact hresult
    · exact absurd (hread.symm.trans hreads) Bool.false_ne_true
  · intro he
    have hasks : a.asks = true := by
      obtain hasks | ⟨v, as, bs, rfl, -⟩ := asks_or_push hop
      · exact hasks
      · cases hread
    obtain ⟨read, hact⟩ := act_of_asking hasks r hop
    rw [hact]
    show (s.operate meanwhile r m payload headers).2.bind read = .error e
    rw [he]
    rfl

/-- That no response has come is one of the library's own errors, where the timeout can be shown. -/
theorem isSome_family_of_noResponse (ht : Timeout.IsSeconds r.timeout) (n : NoResponse) :
    (failed m r (.noResponse n)).family?.isSome = true := by
  obtain ⟨shown, hshown⟩ := Timeout.plain_of_isSeconds ht
  unfold failed
  dsimp only
  split
  · rfl
  · rw [hshown]
    rfl

/-- What an operation reports is none of the library's own errors exactly if an error came out of the way of
its request as it is, or if the answer has no status. -/
theorem report_foreign_iff {sent : Except Stop Answer} (ht : Timeout.IsSeconds r.timeout) {e : Error} :
    (report m r sent = .error e ∧ e.IsForeign) ↔
      (sent = .error (.error e) ∧ e.IsForeign) ∨
        (e = .bodiless ∧ ∃ x, sent = .ok x ∧ x.status = noStatus) := by
  cases sent with
  | error why =>
    cases why with
    | error e' => simp [report, failed]
    | noResponse n =>
      have hfamily := isSome_family_of_noResponse (m := m) ht n
      constructor
      · rintro ⟨he, hforeign⟩
        obtain rfl := Except.error.inj he
        have hnone : (failed m r (.noResponse n)).family? = none := hforeign
        rw [hnone] at hfamily
        cases hfamily
      · rintro (⟨he, -⟩ | ⟨-, x, hx, -⟩)
        · cases he
        · cases hx
  | ok x =>
    have hnot : x.status = noStatus → x.isSuccess = false := by
      intro hstatus
      unfold Answer.isSuccess
      rw [hstatus]
      rfl
    unfold report refusal
    dsimp only
    constructor
    · rintro ⟨he, hforeign⟩
      split at he
      · cases he
      · obtain rfl := Except.error.inj he
        by_cases hstatus : x.status = noStatus
        · exact .inr ⟨if_pos hstatus, x, rfl, hstatus⟩
        · rw [if_neg hstatus] at hforeign
          cases hforeign
    · rintro (⟨he, -⟩ | ⟨rfl, x', hx, hstatus⟩)
      · cases he
      · obtain rfl := Except.ok.inj hx
        rw [hnot hstatus, if_pos hstatus]
        exact ⟨rfl, rfl⟩

/-- **The errors of an operation that come out as they are**, where its parameters are texts without surrogates,
its timeout is none or a number, its payload can be sent without headers of the caller, and all that is raised
are failures of the client.

* What the way of the request comes to is a response, no response, too many redirects, or one of the errors that
  come out as they are: the client takes no such url or cannot take apart what it has made of it, the user of the
  url cannot be written down, a failure has no text, the place of a redirect cannot be read or taken apart, or
  redirects have no end and are not counted.
* Each of these ends it, and only the first is an error of the client.
* An action that reads nothing from its answer ends in an error that is none of the library's own exactly if it
  is one of these, or if the answer has no status. -/
theorem errors_that_escape (depth : Nat) {s : Session} {r : Reference} {m : Method} {payload : Body}
    {f : Parameter → Option Text} (hf : r.effective (s.token? r) = .ofTexts f)
    (hw : ∀ p t, f p = some t → Utf8.writable t = true) (ht : Timeout.IsSeconds r.timeout) (hp : payload.IsWritable)
    (hraised : ∀ x ∈ s.trace (between depth) r m payload [],
      ∀ y, x.failure? = some y → y.kind.isClientError = true) :
    ∃ target, s.resolve r = .ok target ∧
      let sent := s.transported (between depth) r m payload target
      let Escapes := s.Escapes (between depth) r m payload target
      (∀ why, sent = .error why →
        (∃ n, why = .noResponse n) ∨ (∃ k, why = .error (.tooManyRedirects k)) ∨
          ∃ e, why = .error e ∧ Escapes e) ∧
      (∀ e, Escapes e → sent = .error (.error e) ∧
        (e.kind.isClientError = true ↔ ∃ why, e = .badTarget target why)) ∧
      ∀ (a : Action) (place : Nat), a.operation? = some (m, payload, []) → a.reads = false → ∀ e,
        ((s.act (between depth) place r a).2 = .error e ∧ e.family? = none) ↔
          Escapes e ∨ (e = .bodiless ∧ ∃ x, sent = .ok x ∧ x.status = noStatus) := by
  have hm : (between depth).Grows := grows_between depth
  obtain ⟨target, hresolve⟩ : ∃ target, s.resolve r = .ok target := ⟨_, resolve_ofTexts hf hw⟩
  refine ⟨target, hresolve, ?_⟩
  intro sent Escapes
  have hends : ∀ e, Escapes e → sent = .error (.error e) := fun e he =>
    transported_of_escapes hm hresolve hraised hp he
  have hcases : ∀ why, sent = .error why →
      (∃ n, why = .noResponse n) ∨ (∃ k, why = .error (.tooManyRedirects k)) ∨
        ∃ e, why = .error e ∧ Escapes e :=
    fun why hwhy => transported_cases hm hresolve hraised hp ht hwhy
  refine ⟨hcases, fun e he => ⟨hends e he, he.isClientError_iff⟩, fun a place hop hread e => ?_⟩
  rw [act_eq_error_iff hop hread place, operate_eq_report hresolve]
  rw [show (e.family? = none) = e.IsForeign from rfl, report_foreign_iff ht]
  have hescapes : (sent = .error (.error e) ∧ e.IsForeign) ↔ Escapes e := by
    constructor
    · rintro ⟨hsent, hforeign⟩
      rcases hcases _ hsent with ⟨n, hn⟩ | ⟨k, hk⟩ | ⟨e', he', hescapes⟩
      · cases hn
      · exact absurd (Stop.error.inj hk) (hforeign.ne_tooManyRedirects k)
      · rwa [Stop.error.inj he']
    · exact fun he => ⟨hends e he, he.isForeign⟩
  exact or_congr hescapes Iff.rfl

/-- A client with a reference to a url, and a database that gives one response again and again. -/
def calling (url : Text) (response : Response) : Session :=
  (start ⟨⟨[], .ok response⟩, []⟩ .restoring 10 ⟨none, none⟩ .usual).introduce "r" (.make url 0 (.int 3))

/-- An answer of success. -/
def welcome : Response := ⟨200, [], [0x31], none⟩

/-- The port of the url is beyond the largest one, so the client does not take it. -/
theorem errors_that_escape_port :
    let r := Reference.make "http://a:99999" 0 (.int 3)
    ∃ e, ((calling "http://a:99999" welcome).act (between 0) 0 r .remove).2 = .error e ∧ e.family? = none ∧
      e.kind.isClientError = true := by
  intro r
  have heffective : r.effective ((calling "http://a:99999" welcome).token? r) = .ofTexts fun _ => none := by
    refine congrArg Parameters.mk (funext fun p => ?_)
    cases p <;> rfl
  have hseconds : Timeout.IsSeconds r.timeout := show (Double.ofInt? 3).isSome = true by decide +kernel
  have hpayload : Body.IsWritable .none := trivial
  have htrace : (calling "http://a:99999" welcome).trace (between 0) r .delete .none [] = [] :=
    List.isEmpty_iff.1 (by decide +kernel)
  have hraised : ∀ x ∈ (calling "http://a:99999" welcome).trace (between 0) r .delete .none [],
      ∀ y, x.failure? = some y → y.kind.isClientError = true := by
    rw [htrace]
    exact fun x hx => nomatch hx
  obtain ⟨target, hresolve, -, hends, hacts⟩ :=
    errors_that_escape 0 heffective (fun p t h => nomatch h) hseconds hpayload hraised
  have htarget : Text.ofString "http://a:99999/.json" = target := by
    have hresolved : ((calling "http://a:99999" welcome).resolve r).toOption =
        some (Text.ofString "http://a:99999/.json") := by
      decide +kernel
    rw [hresolve] at hresolved
    exact (Option.some.inj hresolved).symm
  have hrefused : Url.target target = .error .unparsable := by
    rw [← htarget]
    decide +kernel
  obtain ⟨hact, hforeign⟩ := (hacts .remove 0 rfl rfl _).2 (.inl (.refused hrefused))
  exact ⟨_, hact, hforeign, rfl⟩

/-- Errors that are none of the library's own do come out: one of the client before anything is sent, and a
plain one over the place of a redirect. -/
theorem errors_that_escape_astray :
    let s := calling "http://a:99999" welcome
    let t := calling "http://a" ⟨307, [("Location", .text "http://[")], [], none⟩
    let u : Step := .act "r" .remove
    ((s.observe u).sent.length = 0 ∧ (match (s.observe u).result with
      | .ok _ => none
      | .error e => some (e.kind, e.family?)) = some (⟨.client, "InvalidURL"⟩, none)) ∧
    ((t.observe u).sent.length = 1 ∧ (match (t.observe u).result with
      | .ok _ => none
      | .error e => some (e.kind, e.family?)) = some (Error.valueError, none)) := by
  decide +kernel

end Session

end RemoteTree
