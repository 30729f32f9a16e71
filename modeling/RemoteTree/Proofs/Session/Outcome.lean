import RemoteTree.Proofs.Session.Trace
import RemoteTree.Proofs.Timeout.Expiry
import RemoteTree.Proofs.Url.Target

/-!
# How an operation ends

The last attempt of an operation says how it ends: in an answer, in a failure on the way, or in a redirect
after too many others.

* `Attempt.coming`: what comes of an attempt.
* `Attempt.Clean`: what is raised is a failure of the client, and redirects lead to urls that can be taken
  apart.
* `outcome_of_operation`: **the end of an operation is that of its last attempt, and nothing is sent after it**.
-/

namespace RemoteTree

/-- What comes of an attempt. -/
inductive Coming where
  /-- A failure, before the response or while its body is read. -/
  | raised (f : Failure)
  | redirected
  | answered (x : Answer)

/-- The failure that keeps a response from coming, as the client shows it. -/
def Raised.thrown : Raised → Failure
  | .failure f => f
  | .error e => .simple e.kind [.text e.message]

/-- A failure of the client stops the chain as such. -/
theorem Raised.stop_of_thrown {x : Raised} (h : x.thrown.kind.isClientError = true) :
    x.stop = Stop.ofFailure x.thrown := by
  cases x with
  | failure f => rfl
  | error e => exact if_pos h

namespace Attempt

/-- What comes of an attempt: the body of a redirect does not matter. -/
def coming (a : Attempt) : Coming :=
  match a.reply with
  | .error x => .raised x.thrown
  | .ok r =>
    match r.place? with
    | some _ => .redirected
    | none =>
      match r.read with
      | .error f => .raised f
      | .ok body => .answered ⟨r.status, r.headers, body⟩

/-- An attempt without surprises: what is raised is a failure of the client, and a redirect has a body
that can be read, and leads to a url of the client's that can be taken apart. -/
structure Clean (a : Attempt) : Prop where
  raised : ∀ f, a.coming = .raised f → f.kind.isClientError = true
  redirected : ∀ r place, a.reply = .ok r → r.place? = some place →
    (∃ body, r.read = .ok body) ∧
      ∃ url, a.chain.target place = .ok url ∧ Url.isHttp url = true ∧ Url.Readable url

/-- Whether a redirect has a body that can be read and leads to such a url. -/
def redirectsWell (c : Chain) (r : Response) : Bool :=
  match r.place?, r.read with
  | none, _ => true
  | some _, .error _ => false
  | some place, .ok _ =>
    (c.target place).toOption.any fun url => Url.isHttp url && decide (Url.Readable url)

theorem redirectsWell_iff (c : Chain) (r : Response) : redirectsWell c r = true ↔
    ∀ place, r.place? = some place → (∃ body, r.read = .ok body) ∧
      ∃ url, c.target place = .ok url ∧ Url.isHttp url = true ∧ Url.Readable url := by
  unfold redirectsWell
  cases r.place? with
  | none => simp
  | some place =>
    cases r.read with
    | error f => simp
    | ok body => cases ht : c.target place <;> simp [ht, Except.toOption]

/-- Whether an attempt is clean can be found out. -/
theorem clean_iff (a : Attempt) : a.Clean ↔
    (match a.coming with
      | .raised f => f.kind.isClientError
      | _ => true) = true ∧ a.reply.toOption.all (redirectsWell a.chain) = true := by
  constructor
  · rintro ⟨hraised, hredirected⟩
    refine ⟨?_, ?_⟩
    · cases hc : a.coming with
      | raised f => exact hraised f hc
      | redirected | answered => rfl
    · cases hr : a.reply with
      | error x => rfl
      | ok r => exact (redirectsWell_iff a.chain r).2 fun place => hredirected r place hr
  · rintro ⟨hraised, hredirected⟩
    refine ⟨fun f hf => ?_, fun r place hr hp => ?_⟩
    · simpa [hf] using hraised
    · rw [hr] at hredirected
      exact (redirectsWell_iff a.chain r).1 hredirected place hp

instance (a : Attempt) : Decidable a.Clean := decidable_of_iff' _ (clean_iff a)

variable {a : Attempt}

theorem reply_of_redirected (h : a.coming = .redirected) :
    ∃ r place, a.reply = .ok r ∧ r.place? = some place := by
  unfold coming at h
  cases hr : a.reply with
  | error x => simp [hr] at h
  | ok r =>
    cases hp : r.place? with
    | some place => exact ⟨r, place, rfl, hp⟩
    | none =>
      simp only [hr, hp] at h
      cases hb : r.read <;> simp [hb] at h

/-- A clean redirect leads to a next request, at the url that it names. -/
theorem next_of_redirected (hc : a.Clean) (hu : Url.Readable a.request.url) (h : a.coming = .redirected) :
    ∃ next r place, a.next? = some next ∧ a.reply = .ok r ∧ r.place? = some place ∧
      a.chain.target place = .ok next.url ∧ Url.isHttp next.url = true ∧ Url.Readable next.url := by
  obtain ⟨r, place, hr, hp⟩ := reply_of_redirected h
  obtain ⟨⟨body, hb⟩, url, ht, hh, hread⟩ := hc.redirected r place hr hp
  obtain ⟨next, hn, rfl⟩ := Chain.next?_of_readable hu hp hb ht hread
  refine ⟨next, r, place, ?_, hr, hp, ht, hh, hread⟩
  unfold next?
  rw [hr]
  exact hn

/-- What is raised ends the chain. -/
theorem progress_of_raised {f : Failure} (h : a.coming = .raised f) (hf : f.kind.isClientError = true)
    (p : Policy) : (a.turn p).progress = .stopped (Stop.ofFailure f) := by
  unfold coming at h
  unfold turn
  cases hr : a.reply with
  | error x =>
    simp only [hr, Coming.raised.injEq] at h
    subst h
    rw [← Raised.stop_of_thrown hf]
    rfl
  | ok r =>
    simp only [mapError_ok, Chain.feed]
    cases hp : r.place? with
    | some place => simp [hr, hp] at h
    | none =>
      simp only [hr, hp] at h
      unfold Chain.finish
      cases hb : r.read with
      | error f' =>
        simp only [hb, Coming.raised.injEq] at h
        rw [h]
      | ok body => simp [hb] at h

/-- A response that is no redirect and can be read is the answer. -/
theorem progress_of_answered {x : Answer} (h : a.coming = .answered x) (p : Policy) :
    (a.turn p).progress = .answered x := by
  unfold coming at h
  unfold turn
  cases hr : a.reply with
  | error x => simp [hr] at h
  | ok r =>
    simp only [mapError_ok, Chain.feed]
    cases hp : r.place? with
    | some place => simp [hr, hp] at h
    | none =>
      simp only [hr, hp] at h
      unfold Chain.finish
      cases hb : r.read with
      | error f => simp [hb] at h
      | ok body =>
        simp only [hb, Coming.answered.injEq] at h
        rw [← h]

/-- What leads to a next request is a redirect. -/
theorem coming_of_next {next : Request} (h : a.next? = some next) : a.coming = .redirected := by
  unfold next? at h
  unfold coming
  cases hr : a.reply with
  | error x => simp [hr] at h
  | ok r =>
    simp only [hr, Chain.next?] at h ⊢
    cases hp : r.place? with
    | none => simp [hp] at h
    | some place => rfl

end Attempt

/-! ## What is reported -/

/-- The error of an operation that a failure of the client ends. It tells the text of the failure; a
failure without a text leaves only the error of showing it. -/
def Error.lost (m : Method) (r : Reference) (shown : Text) (f : Failure) : Error :=
  match f.message with
  | .error fault => .ofPrintFault fault
  | .ok said => if f.isTimeout then .timedOut m r.url shown said f else .unreached m r.url said f

/-- A failure that refers to no other one is a timeout if its class counts as one. -/
theorem Failure.isTimeout_simple (k : Failure.Kind) (t : Text) :
    (Failure.simple k [.text t]).isTimeout = k.counts := by
  simp [Failure.isTimeout, Failure.simple, Failure.visit, Failure.Node.neighbours, Failure.Arg.place?,
    List.filterMap_cons]

theorem Session.failed_ofFailure {m : Method} {r : Reference} {shown : Text} {f : Failure}
    (hs : r.timeout.plain = .ok shown) (hf : f.kind.isClientError = true) :
    failed m r (Stop.ofFailure f) = .lost m r shown f := by
  unfold Stop.ofFailure NoResponse.make Error.lost
  rw [if_pos hf]
  cases f.message with
  | error fault => rfl
  | ok said =>
    cases ht : f.isTimeout with
    | true => simp [failed, Failure.trouble, ht, hs]
    | false => simp [failed, Failure.trouble, ht]

/-- A request that there is no way of sending is not answered, for a reason other than time. -/
theorem Session.failed_unsendable (m : Method) {r : Reference} {shown : Text}
    (hs : r.timeout.plain = .ok shown) (c : Chain) : ∃ said cause,
      cause.kind = ⟨.client, "InvalidSchema"⟩ ∧ failed m r c.unsendable = .unreached m r.url said cause := by
  unfold Chain.unsendable
  generalize ("No connection adapters were found for " ++ c.current.url.quoted : Text) = said
  have hclient : (Failure.simple ⟨.client, "InvalidSchema"⟩ [.text said]).kind.isClientError = true := rfl
  refine ⟨said, .simple ⟨.client, "InvalidSchema"⟩ [.text said], rfl, ?_⟩
  rw [failed_ofFailure hs hclient]
  unfold Error.lost
  rw [Failure.message_simple rfl (by decide), Failure.isTimeout_simple]
  rfl

/-- Success is a status from 200 to 299. -/
theorem Answer.isSuccess_iff (x : Answer) : x.isSuccess = true ↔ 200 ≤ x.status ∧ x.status < 300 := by
  unfold Answer.isSuccess
  rw [beq_iff_eq, Int.fdiv_eq_ediv_of_nonneg _ (by decide)]
  omega

/-! ## The walk -/

namespace Walk

variable {n : Nat} {c : Chain} {first : Request} {as : List Attempt} {result : Except Stop Answer}

/-- Every url of a clean walk can be taken apart if the first one can. -/
theorem readable (h : Walk .restoring n c as result) (hd : first.headers.Distinct) (hb : c.Began first)
    (hu : Url.Readable c.current.url) (has : ∀ a ∈ as, a.Clean) :
    ∀ a ∈ as, Url.Readable a.request.url := by
  induction h with
  | exhausted | unsendable => simp
  | stopped _ hc _ | answered _ hc _ =>
    intro a ha
    rw [List.mem_singleton.1 ha, Attempt.request, hc]
    exact hu
  | @followed n c c' a status as result hs hc hp hw ih =>
    have hua : Url.Readable a.request.url := by
      rw [Attempt.request, hc]
      exact hu
    intro b hb'
    rcases List.mem_cons.1 hb' with rfl | hb'
    · exact hua
    obtain ⟨-, next, hn, rfl⟩ := Attempt.followed_restoring (hc ▸ hb) hp
    obtain ⟨next', -, -, hn', -, -, -, -, hread⟩ :=
      Attempt.next_of_redirected (has a List.mem_cons_self) hua (Attempt.coming_of_next hn)
    obtain rfl := Option.some.inj (hn.symm.trans hn')
    exact ih (Attempt.began_of_followed hd (hc ▸ hb) hp) hread
      (fun x hx => has x (List.mem_cons_of_mem _ hx)) b hb'

theorem request_of_head {p : Policy} (h : Walk p n (.start first) as result) {last : Attempt}
    (hl : as.getLast? = some last) : as[0]?.map Attempt.request = some first := by
  cases as with
  | nil => cases hl
  | cons a as =>
    have hc : a.chain = .start first := h.chain_of_head rfl
    rw [List.getElem?_cons_zero, Option.map_some, Attempt.request, hc, Chain.start]

/-- A walk without attempts has a first request that there is no way of sending. -/
theorem unsendable_of_nil {p : Policy} (h : Walk p n c [] result) (hn : Policy.hopLimit + 1 < n) :
    Url.isHttp c.current.url = false ∧ result = .error c.unsendable := by
  cases h with
  | exhausted => omega
  | unsendable hs => exact ⟨hs, rfl⟩

end Walk

/-- What an operation reports whose last attempt comes to this. An answer without a status has no body
that could be told of. -/
def Coming.report (m : Method) (r : Reference) (shown : Text) : Coming → Except Error Answer
  | .raised f => .error (.lost m r shown f)
  | .redirected => .error (.tooManyRedirects 31)
  | .answered x =>
    if 200 ≤ x.status ∧ x.status < 300 then .ok x
    else if x.status = noStatus then .error .bodiless
    else .error (.refused x.status (Utf8.decodeLossy x.body) x.headers)

/-- **The last attempt of a clean walk decides what is reported.** -/
theorem Walk.report_of_last {n : Nat} {first : Request} {as : List Attempt}
    {result : Except Stop Answer} (h : Walk .restoring n (.start first) as result)
    (hd : first.headers.Distinct) (hn : Policy.hopLimit + 1 < n) (hu : Url.Readable first.url)
    (hc : ∀ a ∈ as, a.Clean) {m : Method} {r : Reference} {shown : Text}
    (hs : r.timeout.plain = .ok shown) {last : Attempt} (hl : as.getLast? = some last) :
    (last.coming = .redirected → as.length = 31) ∧
      Session.report m r result = last.coming.report m r shown := by
  have hat := getElem?_of_last hl
  have hmem := List.mem_of_getElem? hat
  cases hcome : last.coming with
  | raised f =>
    have hf := (hc last hmem).raised f hcome
    have hr := h.result_of_last hl
      (congrArg Progress.result? (Attempt.progress_of_raised hcome hf .restoring))
    refine ⟨fun h => (by cases h), ?_⟩
    rw [hr]
    exact congrArg Except.error (Session.failed_ofFailure hs hf)
  | answered x =>
    have hr := h.result_of_last hl
      (congrArg Progress.result? (Attempt.progress_of_answered hcome .restoring))
    refine ⟨fun h => (by cases h), ?_⟩
    rw [hr]
    simp only [Session.report, Coming.report, Session.refusal, ← Answer.isSuccess_iff]
    split
    · rfl
    · split <;> rfl
  | redirected =>
    have hread := h.readable hd (Chain.began_start first) hu hc last hmem
    have hbegan := h.began hd (Chain.began_start first) last hmem
    have hle := h.length_le hd (Chain.began_start first) (Nat.zero_le _)
    obtain ⟨next, -, -, hnext, -, -, -, hhttp, -⟩ :=
      Attempt.next_of_redirected (hc last hmem) hread hcome
    by_cases hlong : Policy.hopLimit < as.length - 1 + 1
    · have hp := Attempt.progress_of_next hbegan hnext
      rw [h.via_length hat, if_pos hlong] at hp
      rw [show (Chain.start first).via.length = 0 from rfl, Nat.zero_add] at hle
      have hlen : as.length - 1 + 1 = 31 := by
        simp only [Policy.hopLimit] at hlong hle
        omega
      have hr := h.result_of_last hl (congrArg Progress.result? hp)
      refine ⟨fun _ => (by omega), ?_⟩
      rw [hr, hlen]
      rfl
    · -- the chain would go on: its next request can be sent, for its url is one of the client's
      have hgo : if _ then _ else _ := h.goes_on hd hn hat (by omega) hnext
      have hnone : as[as.length - 1 + 1]? = none := List.getElem?_eq_none (by omega)
      split at hgo
      · rw [hnone] at hgo
        cases hgo
      · rename_i hunsendable
        exact absurd hhttp hunsendable

namespace Session

/-- **How an operation ends**, under the policy that puts headers back and with a timeout that is none or a
number. Its requests are the attempts of its trace, and all but the last one are answered with a redirect
that leads to the next.

* No time is left: nothing is sent, and the operation times out.
* Something is raised in the last attempt, or while its body is read: the operation times out if the
  failure counts as a timeout, and has not reached the database otherwise. This is so exactly if the
  failure has a text; else the error is that of showing it.
* The last attempt is answered: a status of success gives the answer, and another one is refused with the
  body and the headers. A response without a status has no body, and the error is that of reading it.
* The last attempt is redirected: it is the 31st, and there have been too many redirects.

Nothing is sent if the client has no way of sending requests to the url, and then the database has not
been reached. -/
theorem outcome_of_operation (depth : Nat) {s : Session} {r : Reference} {m : Method} {payload : Body}
    {headers : List (Text × Value)} {target : Text} {first : Request} (hp : s.policy = .restoring)
    (ht : Timeout.IsSeconds r.timeout) (hf : s.firstRequest r m payload headers = .ok (target, first))
    (hc : ∀ a ∈ s.trace (between depth) r m payload headers, a.Clean) :
    let as := s.trace (between depth) r m payload headers
    let out := s.operate (between depth) r m payload headers
    ∃ shown, r.timeout.plain = .ok shown ∧
      if Timeout.isOver r.timeout then
        as = [] ∧ out.1.sent = s.sent ∧ out.2 = .error (.timedOut m r.url shown
          ("no time to connect with a timeout of " ++ shown ++ "s") (Timeout.expired shown))
      else
        (∃ seconds, out.1.sent = s.sent ++ as.flatMap fun a => a.sent s.policy seconds s.trust) ∧
          (∀ i a b, as[i]? = some a → as[i + 1]? = some b → a.coming = .redirected ∧
            ∃ rs place, a.reply = .ok rs ∧ rs.place? = some place ∧
              a.chain.target place = .ok b.request.url) ∧
          match as.getLast? with
          | some last => as[0]?.map Attempt.request = some first ∧
              (last.coming = .redirected → as.length = 31) ∧ out.2 = last.coming.report m r shown
          | none => Url.isHttp first.url = false ∧ ∃ said cause,
              cause.kind = ⟨.client, "InvalidSchema"⟩ ∧ out.2 = .error (.unreached m r.url said cause) := by
  intro as out
  obtain ⟨shown, hs⟩ := Timeout.plain_of_isSeconds ht
  refine ⟨shown, hs, ?_⟩
  have hat := Timeout.attempt_of_isSeconds ht hs
  split
  · rename_i hover
    rw [if_pos hover] at hat
    obtain ⟨has, hout⟩ := operate_of_no_time (between depth) hf hat
    refine ⟨has, ?_, ?_⟩
    · show (s.operate _ _ _ _ _).1.sent = _
      rw [hout]
      exact sent_note _ _ _ _
    · show (s.operate _ _ _ _ _).2 = _
      rw [hout]
      simp only [failed, hs]
  · rename_i hover
    rw [if_neg hover] at hat
    obtain ⟨seconds, hat⟩ := hat
    obtain ⟨⟨n, result, hn, hw, hresult⟩, hsent, -⟩ := operate_walks (grows_between depth) hf hat
    rw [hp] at hw
    have hprepare := prepare_of_firstRequest hf
    have hd := Request.distinct_of_prepare hprepare
    have hu := Request.readable_of_prepare hprepare
    refine ⟨⟨seconds, hsent⟩, fun i a b ha hb => ?_, ?_⟩
    · obtain ⟨st, hfol⟩ := hw.follows ha hb
      have hmem := List.mem_of_getElem? ha
      obtain ⟨-, next, hnext, hchain⟩ :=
        Attempt.followed_restoring (hw.began hd (Chain.began_start first) a hmem) hfol
      have hcome := Attempt.coming_of_next hnext
      obtain ⟨next', rs, place, hnext', hrs, hplace, htarget, -, -⟩ := Attempt.next_of_redirected
        (hc a hmem) (hw.readable hd (Chain.began_start first) hu hc a hmem) hcome
      obtain rfl := Option.some.inj (hnext.symm.trans hnext')
      refine ⟨hcome, rs, place, hrs, hplace, ?_⟩
      rw [Attempt.request, hchain]
      exact htarget
    · split
      · rename_i last hl
        obtain ⟨hlen, hreport⟩ := hw.report_of_last hd hn hu hc hs hl
        exact ⟨hw.request_of_head hl, hlen, hresult.trans hreport⟩
      · rename_i hl
        have hnil : s.trace (between depth) r m payload headers = [] := List.getLast?_eq_none_iff.1 hl
        rw [hnil] at hw
        obtain ⟨hhttp, rfl⟩ := hw.unsendable_of_nil hn
        obtain ⟨said, cause, hk, hfailed⟩ := failed_unsendable m hs (.start first)
        exact ⟨hhttp, said, cause, hk, hresult.trans (congrArg Except.error hfailed)⟩

/-- A session in which the database replies from a script. -/
def opened (script : Script) : Session := start script .restoring 30 ⟨none, none⟩ .usual

/-- A reference with three seconds for each attempt. -/
def quick : Reference := .make "http://a" 0 (.int 3)

/-- The first reply leads to another host, which answers. -/
def movedOnce : Script :=
  ⟨⟨[], .ok ⟨307, [("Location", .text "http://b/y")], [], none⟩⟩, [⟨[], .ok ⟨200, [], [0x31], none⟩⟩]⟩

theorem outcome_of_operation_moved :
    let as := (opened movedOnce).trace (between 0) quick .get .none [("Authorization", .text "t")]
    as.length = 2 ∧ (∀ a ∈ as, a.Clean) ∧
      ∀ a b, as[0]? = some a → as[1]? = some b → a.coming = .redirected := by
  have hclean : ∀ a ∈ (opened movedOnce).trace (between 0) quick .get .none
      [("Authorization", .text "t")], a.Clean := by
    decide +kernel
  refine ⟨by decide +kernel, hclean, fun a b ha hb => ?_⟩
  cases hf : (opened movedOnce).firstRequest quick .get .none [("Authorization", .text "t")] with
  | error e =>
    have hfirst : ((opened movedOnce).firstRequest quick .get .none
        [("Authorization", .text "t")]).toOption.isSome = true := by
      decide +kernel
    rw [hf] at hfirst
    cases hfirst
  | ok x =>
    have hseconds : Timeout.IsSeconds quick.timeout :=
      show (Double.ofInt? 3).isSome = true by decide +kernel
    have hover : Timeout.isOver quick.timeout = false := rfl
    obtain ⟨shown, -, hend⟩ := outcome_of_operation 0 rfl hseconds hf hclean
    rw [hover] at hend
    exact (hend.2.1 0 a b ha hb).1

/-- A failure of which the only part is the failure itself. -/
def selfContained : Failure :=
  ⟨[⟨⟨.client, "ReadTimeout"⟩, [.failure 0], none, none, none, none⟩], 0⟩

/-- Every failure of the client that is a timeout would make an operation time out, but one without a text
leaves only the error of showing it. -/
theorem outcome_of_operation_selfContained :
    selfContained.kind.isClientError = true ∧ selfContained.isTimeout = true ∧
      (match ((opened ⟨⟨[], .error selfContained⟩, []⟩).operate (between 0) quick .get .none []).2 with
        | .ok _ => none
        | .error e => some e.kind) = some ⟨.system, "RecursionError"⟩ := by
  have htimeout : selfContained.isTimeout = true := by
    simp [selfContained, Failure.isTimeout, Failure.visit, Failure.Node.neighbours,
      Failure.Arg.place?]
    decide
  exact ⟨by decide, htimeout, by decide +kernel⟩

end Session

end RemoteTree
