import RemoteTree.Proofs.Http.Framing
import RemoteTree.Proofs.Session.InFlight

/-!
# Bodies are framed along redirects

An operation can be redirected many times, by statuses that keep the body of its request and by others that drop it.
Whatever the mix, no request says of its body what was true of another one.

* `Walk.framed`: if the first request of a chain is framed, all of them are.
* `Attempt.Repeats`: a reply that is a response asks for the same request once more.
* `Walk.same_of_repeats`: as long as all replies do, the method and the body are those of the first request.
* `Session.framed_along_redirects`: **every request of an operation that has a body says how long it is**, and none says
  anything else of it.
-/

namespace RemoteTree

variable {p : Policy} {n : Nat} {c : Chain} {as : List Attempt} {result : Except Stop Answer}

/-! ## One redirect -/

namespace Attempt

variable {a : Attempt}

/-- What a chain goes on with is framed if the request before it is. -/
theorem isFramed_of_followed (ha : a.request.IsFramed) {status : Int} (h : (a.turn p).progress = .followed status c) :
    c.current.IsFramed := by
  obtain ⟨x, now, place, next, -, hnext, happly⟩ := redirected_of_followed h
  exact (ha.redirected hnext).apply happly

/-- If the reply is a response, its status asks for the same request once more. -/
def Repeats (a : Attempt) : Prop := ∀ x, a.reply = .ok x → x.status = 307 ∨ x.status = 308

instance (a : Attempt) : Decidable a.Repeats :=
  match h : a.reply with
  | .error _ => isTrue fun _ hx => by rw [h] at hx; cases hx
  | .ok x => decidable_of_iff (x.status = 307 ∨ x.status = 308) (by simp [Repeats, h])

/-- A chain goes on with the method and the body of the request before it if the reply asks for the same request. -/
theorem same_of_followed (ha : a.Repeats) {status : Int} (h : (a.turn p).progress = .followed status c) :
    c.current.method = a.request.method ∧ c.current.body = a.request.body := by
  obtain ⟨x, hx, -, hmethod, hbody⟩ := request_of_followed h
  rw [hmethod, hbody]
  rcases ha x hx with hstatus | hstatus <;> rw [hstatus] <;> exact ⟨rfl, rfl⟩

end Attempt

/-! ## A chain of redirects -/

/-- **A chain that begins with a framed request** has only framed requests. -/
theorem Walk.framed (h : Walk p n c as result) (hc : c.current.IsFramed) : ∀ a ∈ as, a.request.IsFramed :=
  h.forall_chain (P := fun c => c.current.IsFramed) hc fun _ _ _ ha hp => Attempt.isFramed_of_followed ha hp

/-- **As long as all replies ask for the same request**, the method and the body are those that the chain began with. -/
theorem Walk.same_of_repeats (h : Walk p n c as result) {i : Nat} {a : Attempt} (ha : as[i]? = some a)
    (hbefore : ∀ b ∈ as.take i, b.Repeats) : a.request.method = c.current.method ∧ a.request.body = c.current.body := by
  refine h.along (P := fun before a => (∀ b ∈ before, b.Repeats) →
    a.request.method = c.current.method ∧ a.request.body = c.current.body) (fun a hca _ => ?_)
    (fun before b status a hb hp hbefore => ?_) ha hbefore
  · rw [Attempt.request, hca]
    exact ⟨rfl, rfl⟩
  · -- the request before this one is the same as the first one, and its reply asks for it once more
    rw [List.forall_mem_append, List.forall_mem_singleton] at hbefore
    obtain ⟨hmethod, hbody⟩ := hb hbefore.1
    obtain ⟨hmethod', hbody'⟩ := Attempt.same_of_followed hbefore.2 hp
    exact ⟨hmethod'.trans hmethod, hbody'.trans hbody⟩

/-! ## Operations -/

namespace Session

/-- **Every request of an operation that has a body says how long it is**, and none says anything else of it, if the
caller leaves that to the client.

* The requests are the attempts of the trace, and whatever else is sent meanwhile comes from the steps in between.
* A request with a body has the number of its bytes as its length, and one without a body has a length of zero or
  none; no request announces that its body comes in pieces.
* As long as all responses before a request have the status 307 or 308, its method and its body are those of the first
  request, which are what the caller gives.

This holds under both policies, and for any number of redirects of any kinds. -/
theorem framed_along_redirects (depth : Nat) (s : Session) (r : Reference) (m : Method) (payload : Body)
    (headers : List (Text × Value)) (hheaders : Headers.IsUnframed headers) :
    let as := s.trace (between depth) r m payload headers
    (∃ seconds, (s.operate (between depth) r m payload headers).1.sent =
      s.sent ++ as.flatMap fun a => a.sent s.policy seconds s.trust) ∧
      (∀ a ∈ as, a.request.body.IsLength (a.request.headers.get? "Content-Length") ∧
        a.request.headers.get? "Transfer-Encoding" = none) ∧
      ∀ i a, as[i]? = some a → (∀ b ∈ as.take i, b.Repeats) →
        a.request.method = m ∧ a.request.body = payload.trimmed := by
  intro as
  refine ⟨sent_of_operate (grows_between depth) s r m payload headers, ?_⟩
  obtain hnil | ⟨target, first, n, result, hf, hw⟩ := walk_of_trace (grows_between depth) s r m payload headers
  · have has : as = [] := hnil
    simp [has]
  · have hprepare := prepare_of_firstRequest hf
    have hfirst : first.IsFramed := Request.isFramed_of_prepare hheaders hprepare
    refine ⟨?_, ?_⟩
    · intro a ha
      have hframed := hw.framed hfirst a ha
      exact ⟨hframed.length, hframed.whole⟩
    · intro i a ha hbefore
      obtain ⟨hmethod, hbody⟩ := hw.same_of_repeats ha hbefore
      rw [hmethod, hbody]
      exact ⟨Request.method_of_prepare hprepare, Request.body_of_prepare hprepare⟩

/-- Three redirects in a row: one that asks for the same request, one that asks for another one, and one that asks
for the same request as that. -/
def mixed : Script :=
  ⟨⟨[], .ok ⟨308, [("Location", .text "http://b/x")], [], none⟩⟩,
    [⟨[], .ok ⟨302, [("Location", .text "/y")], [], none⟩⟩, ⟨[], .ok ⟨307, [("Location", .text "/z")], [], none⟩⟩,
      ⟨[], .ok ⟨200, [], [], none⟩⟩]⟩

/-- Two requests have the body, the second one with its length, and two have none. -/
theorem framed_along_redirects_mixed :
    let headers : List (Text × Value) := [("Content-Type", .text "text/plain")]
    let as := (waiting mixed).trace (between 0) (.make "http://a" 0 (.int 3)) .put (.bytes [0x31, 0x32]) headers
    Headers.IsUnframed headers ∧
      as.map (fun a => a.request.body) = [.bytes [0x31, 0x32], .bytes [0x31, 0x32], .none, .none] ∧
      ∃ a, as[1]? = some a ∧ (∀ b ∈ as.take 1, b.Repeats) ∧ a.request.method = .put ∧
        a.request.headers.get? "Content-Length" = some (.text "2") := by
  intro headers as
  have hheaders : Headers.IsUnframed headers := by decide
  obtain ⟨-, hframed, hsame⟩ := framed_along_redirects 0 (waiting mixed) (.make "http://a" 0 (.int 3)) .put
    (.bytes [0x31, 0x32]) headers hheaders
  have hbodies : as.map (fun a => a.request.body) = [.bytes [0x31, 0x32], .bytes [0x31, 0x32], .none, .none] := by
    decide +kernel
  have hrepeats : ∀ b ∈ as.take 1, b.Repeats := by decide +kernel
  obtain ⟨a, ha⟩ : ∃ a, as[1]? = some a := Option.isSome_iff_exists.1 (by decide +kernel)
  obtain ⟨hmethod, hbody⟩ := hsame 1 a ha hrepeats
  have hlength := (hframed a (List.mem_of_getElem? ha)).1
  rw [hbody] at hlength
  exact ⟨hheaders, hbodies, a, ha, hrepeats, hmethod, hlength⟩

end Session

end RemoteTree
