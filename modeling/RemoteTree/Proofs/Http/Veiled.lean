import Mathlib.Data.List.Forall2
import RemoteTree.Http.Prepare
import RemoteTree.Proofs.Url.VeiledParts

/-!
# Requests that differ in their secrets

A chain of redirects looks at the host of a url, at its port and at its scheme, and at what a response says. So
chains that differ only in the secrets of their urls go the same way.

* `Request.Alike`, `Chain.Alike`: requests and chains that differ only in secrets.
* `Request.alike_prepare`, `Request.Alike.redirected`: first requests, and those that follow.
* `Chain.Alike.feed`: **what a reply makes of such chains.**
-/

namespace RemoteTree

/-! ## Parts of urls -/

namespace Url.VeiledParts

variable {p q : Parts}

theorem hostInfo_eq (h : VeiledParts p q) : p.hostInfo = q.hostInfo := by
  unfold Parts.hostInfo
  rw [h.authority]

theorem host_eq (h : VeiledParts p q) : p.host = q.host := by
  unfold Parts.host
  rw [h.hostInfo_eq]

theorem port_eq (h : VeiledParts p q) : p.port = q.port := by
  unfold Parts.port
  rw [h.hostInfo_eq]

theorem signature?_eq (h : VeiledParts p q) : p.signature? = q.signature? := by
  unfold Parts.signature? Parts.user
  rw [h.authority]

theorem mayShow_eq {p' q' : Parts} (h : VeiledParts p q) (h' : VeiledParts p' q') : mayShow p p' = mayShow q q' := by
  unfold mayShow
  rw [h.host_eq, h'.host_eq, h.port_eq, h'.port_eq, h.scheme, h'.scheme]

end Url.VeiledParts

/-! ## Requests -/

/-- Requests that differ only in the secrets of their urls. -/
structure Request.Alike (r q : Request) : Prop where
  method : r.method = q.method
  url : Url.Veiled false r.url q.url
  headers : r.headers = q.headers
  body : r.body = q.body

namespace Request

/-- **First requests** for veiled urls. -/
theorem alike_prepare (m : Method) {url url' : Text} (h : Url.Veiled false url url') (settings : List (Text × Value))
    (payload : Body) : Agree Alike (prepare m url settings payload) (prepare m url' settings payload) := by
  unfold prepare
  refine (h.target.mapError _ _).bind fun target target' htarget => ?_
  refine Agree.bind_same _ fun _ => ?_
  refine (htarget.split.mapError _ _).bind fun parts parts' hparts => ?_
  refine Agree.bind_same _ fun headers => ?_
  rw [hparts.signature?_eq]
  refine Agree.bind_same _ fun signature => ?_
  cases signature with
  | none => exact .ok ⟨rfl, htarget, rfl, rfl⟩
  | some s => exact .ok ⟨rfl, htarget, rfl, rfl⟩

/-- **Requests that follow a redirect.** -/
theorem Alike.redirected {r q : Request} (h : r.Alike q) {now now' : Url.Parts} (hnow : Url.VeiledParts now now')
    (status : Int) (place : Text) : Agree Alike (r.redirected now status place) (q.redirected now' status place) := by
  unfold Request.redirected
  refine (h.url.redirected hnow place).bind fun url url' hurl => ?_
  refine (hurl.split.mapError _ _).bind fun next next' hnext => ?_
  rw [h.method, h.headers, h.body]
  have hpass : ∀ headers, passSignature headers now next = passSignature headers now' next' := fun headers => by
    unfold passSignature
    rw [hnow.mayShow_eq hnext]
  dsimp only
  rw [hpass]
  refine Agree.bind_same _ fun headers => ?_
  exact .ok ⟨rfl, hurl, rfl, rfl⟩

end Request

/-! ## Chains -/

/-- Chains that differ only in the secrets of their urls. -/
structure Chain.Alike (c d : Chain) : Prop where
  via : List.Forall₂ Request.Alike c.via d.via
  current : c.current.Alike d.current

/-- What becomes of such chains; why they stop does not matter. -/
inductive Progress.Alike : Progress → Progress → Prop where
  | stopped (why why' : Stop) : Alike (.stopped why) (.stopped why')
  | answered (a : Answer) : Alike (.answered a) (.answered a)
  | followed (status : Int) {c d : Chain} (h : c.Alike d) : Alike (.followed status c) (.followed status d)

/-- What replies make of such chains. -/
structure Turn.Alike (x y : Turn) : Prop where
  released : x.released = y.released
  shown : x.shown = y.shown
  progress : x.progress.Alike y.progress

namespace Chain.Alike

variable {c d : Chain}

theorem start {r q : Request} (h : r.Alike q) : (Chain.start r).Alike (Chain.start q) := ⟨.nil, h⟩

theorem isSendable_eq (h : c.Alike d) : c.isSendable = d.isSendable := h.current.url.isHttp_eq

/-- A policy treats requests alike. -/
theorem apply {next next' : Request} (hnext : next.Alike next') {via via' : List Request}
    (hvia : List.Forall₂ Request.Alike via via') (p : Policy) :
    Agree Request.Alike (p.apply next via) (p.apply next' via') := by
  have hheaders : via.map Request.headers = via'.map Request.headers := by
    induction hvia with
    | nil => rfl
    | cons h _ ih => rw [List.map_cons, List.map_cons, h.headers, ih]
  cases p with
  | passing => exact .ok hnext
  | restoring =>
    unfold Policy.apply
    dsimp only
    rw [hnext.headers, hheaders]
    split
    · exact .ok ⟨hnext.method, hnext.url, rfl, hnext.body⟩
    · exact .error _ _

theorem lookAhead (h : c.Alike d) (r : Response) (place : Text) :
    Agree (fun x y => x.1 = y.1 ∧ Url.VeiledParts x.2 y.2) (c.lookAhead r place) (d.lookAhead r place) := by
  unfold Chain.lookAhead
  refine Agree.bind_same _ fun place => ?_
  refine (h.current.url.split.mapError _ _).bind fun now now' hnow => ?_
  refine Agree.bind_same _ fun _ => ?_
  exact .ok ⟨rfl, hnow⟩

theorem follow (h : c.Alike d) (p : Policy) (r : Response) (place : Text) :
    (c.follow p r place).Alike (d.follow p r place) := by
  unfold Chain.follow
  rcases (h.lookAhead r place).cases with ⟨⟨place, now⟩, ⟨_, now'⟩, hc, hd, rfl, hnow⟩ | ⟨why, why', hc, hd⟩
  · rw [hc, hd]
    dsimp only
    rcases (h.current.redirected hnow r.status place).cases with ⟨next, next', hn, hn', hnext⟩ | ⟨e, e', hn, hn'⟩
    · rw [hn, hn']
      dsimp only
      have hvia : List.Forall₂ Request.Alike (c.via ++ [c.current]) (d.via ++ [d.current]) :=
        List.rel_append h.via (.cons h.current .nil)
      rcases (apply hnext hvia p).cases with ⟨last, last', hl, hl', hlast⟩ | ⟨e, e', hl, hl'⟩
      · rw [hl, hl']
        exact ⟨rfl, congrArg some hvia.length_eq, .followed _ ⟨hvia, hlast⟩⟩
      · rw [hl, hl']
        exact ⟨rfl, congrArg some hvia.length_eq, .stopped _ _⟩
    · rw [hn, hn']
      exact ⟨rfl, rfl, .stopped _ _⟩
  · rw [hc, hd]
    exact ⟨rfl, rfl, .stopped _ _⟩

/-- **A reply makes the same of both.** -/
theorem feed (h : c.Alike d) (p : Policy) {x y : Except Stop Response} (hxy : Agree Eq x y) :
    (c.feed p x).Alike (d.feed p y) := by
  rcases hxy.cases with ⟨r, _, rfl, rfl, rfl⟩ | ⟨why, why', rfl, rfl⟩
  · unfold Chain.feed
    dsimp only
    split
    · exact h.follow p r _
    · unfold finish
      split
      · exact ⟨rfl, rfl, .stopped _ _⟩
      · exact ⟨rfl, rfl, .answered _⟩
  · exact ⟨rfl, rfl, .stopped _ _⟩

end Chain.Alike

end RemoteTree
