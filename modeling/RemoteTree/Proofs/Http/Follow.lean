import RemoteTree.Http.Chain
import RemoteTree.Proofs.Http.Carried

/-!
# What a reply makes of a chain

A reply either leads to a next request, and then the policy decides what becomes of it, or it ends the
chain without the policy.

* `Error.IsForeign`, `Stop.IsForeign`: what goes wrong without being an error of the library;
  `Error.IsAstray`: over the url that a redirect leads to.
* `Request.of_redirected`: how the request that follows a redirect is made.
* `Chain.next?`: the request that a response leads to. A redirect that the client cannot follow leads to
  none.
* `Chain.feed_of_next`, `Chain.feed_of_no_next`: the two cases of `Chain.feed`; `Chain.of_answered`: the response that
  it is answered with.
* `Chain.next?_of_readable`: a redirect to a url that can be taken apart leads there.
-/

namespace RemoteTree

/-! ## What goes wrong on the way -/

/-- The error is none of the library's own. -/
def Error.IsForeign (e : Error) : Prop := e.family? = none

/-- The error is one over the url that a redirect leads to. -/
def Error.IsAstray : Error → Prop
  | .brokenUrl _ | .encoding _ | .decoding _ => True
  | _ => False

/-- If the stop is an error, it is none of the library's own. -/
def Stop.IsForeign : Stop → Prop
  | .noResponse _ => True
  | .error e => e.IsForeign

theorem Error.IsForeign.ne_tooManyRedirects {e : Error} (h : e.IsForeign) (n : Nat) :
    e ≠ .tooManyRedirects n := by
  rintro rfl
  cases h

theorem Error.IsAstray.isForeign {e : Error} (h : e.IsAstray) : e.IsForeign := by
  cases e <;> first | rfl | cases h

theorem Stop.IsForeign.ne_tooManyRedirects {why : Stop} (h : why.IsForeign) (n : Nat) :
    why ≠ .error (.tooManyRedirects n) := by
  rintro rfl
  cases h

theorem Error.isForeign_ofPrintFault (fault : Failure.PrintFault) : (ofPrintFault fault).IsForeign := by
  cases fault <;> rfl

theorem Stop.isForeign_ofFailure (f : Failure) : (ofFailure f).IsForeign := by
  unfold ofFailure NoResponse.make
  split
  · cases f.message with
    | ok said => trivial
    | error fault => exact Error.isForeign_ofPrintFault fault
  · exact rfl

theorem Url.redirected_isAstray (current : Text) (now : Url.Parts) (place : Text) :
    FailsWith Error.IsAstray (Url.redirected current now place) := by
  unfold Url.redirected
  refine .bind (.mapError _ fun _ => trivial) fun parts => .bind (.mapError _ fun _ => trivial) fun quoted => ?_
  split
  · exact .mapError _ fun _ => trivial
  · exact .ok _

theorem Request.passSignature_isAstray (h : Headers) (old new : Url.Parts) :
    FailsWith Error.IsAstray (Request.passSignature h old new) := by
  unfold Request.passSignature
  split
  · exact .ok _
  · refine .bind (.mapError _ fun _ => trivial) fun shown => ?_
    split <;> exact .ok _

theorem Request.redirected_isAstray (r : Request) (now : Url.Parts) (status : Int) (place : Text) :
    FailsWith Error.IsAstray (r.redirected now status place) := by
  unfold Request.redirected
  refine .bind (Url.redirected_isAstray _ _ _) fun url => .bind (.mapError _ fun _ => trivial) fun next => ?_
  exact .bind (Request.passSignature_isAstray _ _ _) fun headers => .ok _

theorem Response.readPlace_isAstray (place : Text) : FailsWith Error.IsAstray (Response.readPlace place) :=
  .bind (.mapError _ fun _ => trivial) fun _ => .mapError _ fun _ => trivial

/-- A policy only objects to the number of redirects. -/
theorem Policy.eq_tooManyRedirects {p : Policy} {next : Request} {via : List Request} {e : Error}
    (h : p.apply next via = .error e) : ∃ k, e = .tooManyRedirects k := by
  cases p with
  | passing => cases h
  | restoring =>
    unfold Policy.apply at h
    dsimp only at h
    split at h
    · cases h
    · exact ⟨_, (Except.error.inj h).symm⟩

/-- A policy changes nothing but headers. -/
theorem Policy.eq_with_headers {p : Policy} {next q : Request} {via : List Request}
    (h : p.apply next via = .ok q) : ∃ headers, q = { next with headers } := by
  cases p with
  | passing => exact ⟨next.headers, (Except.ok.inj h).symm⟩
  | restoring =>
    unfold Policy.apply at h
    dsimp only at h
    split at h
    · exact ⟨_, (Except.ok.inj h).symm⟩
    · cases h

/-! ## What is sent on -/

/-- The headers are passed on as they are, or without the signature. -/
theorem Request.of_passSignature {h kept : Headers} {old new : Url.Parts}
    (hk : passSignature h old new = .ok kept) : kept = h ∨ kept = h.erase "Authorization" := by
  unfold passSignature at hk
  split at hk
  · exact .inl (Except.ok.inj hk).symm
  · obtain ⟨shown, -, hk⟩ := bind_eq_ok.1 hk
    split at hk
    · exact .inl (Except.ok.inj hk).symm
    · exact .inr (Except.ok.inj hk).symm

/-- **How the request that follows a redirect is made**: only a redirect that asks for the same request keeps the
body and the headers that describe it. -/
theorem Request.of_redirected {r q : Request} {now : Url.Parts} {status : Int} {place : Text}
    (h : r.redirected now status place = .ok q) :
    ∃ url next kept, passSignature
        ((if repeatStatuses.contains status then r.headers else r.headers.eraseAll Headers.describing).eraseAll
          ["Cookie", "Proxy-Authorization"]) now next = .ok kept ∧
      q = ⟨r.method.redirected status, url, kept, if repeatStatuses.contains status then r.body else .none⟩ := by
  unfold Request.redirected at h
  obtain ⟨url, -, h⟩ := bind_eq_ok.1 h
  obtain ⟨next, -, h⟩ := bind_eq_ok.1 h
  obtain ⟨kept, hk, h⟩ := bind_eq_ok.1 h
  exact ⟨url, next, kept, hk, (Except.ok.inj h).symm⟩

namespace Chain

theorem lookAhead_isForeign (c : Chain) (r : Response) (place : Text) :
    FailsWith Stop.IsForeign (c.lookAhead r place) := by
  have hplace : FailsWith Stop.IsForeign ((Response.readPlace place).mapError Stop.error) := by
    intro why hwhy
    obtain ⟨e, he, rfl⟩ := mapError_eq_error.1 hwhy
    exact (Response.readPlace_isAstray place e he).isForeign
  have hbody : FailsWith Stop.IsForeign (skipBody r) := by
    unfold skipBody
    split
    · exact .ok _
    · split
      · exact .ok _
      · exact .error (Stop.isForeign_ofFailure _)
  unfold lookAhead
  exact .bind hplace fun _ => .bind (.mapError _ fun _ => rfl) fun _ => .bind hbody fun _ => .ok _

/-! ## The two cases -/

/-- The request that a response leads to: it is a redirect, and the client can tell where it goes. -/
def next? (c : Chain) (r : Response) : Option Request :=
  match r.place? with
  | none => none
  | some place =>
    match c.lookAhead r place with
    | .error _ => none
    | .ok (place, now) => (c.current.redirected now r.status place).toOption

/-- The request that a response leads to is the one that follows a redirect. -/
theorem redirected_of_next {c : Chain} {r : Response} {next : Request} (h : c.next? r = some next) :
    ∃ now place, c.current.redirected now r.status place = .ok next := by
  unfold next? at h
  split at h
  · cases h
  split at h
  · cases h
  rename_i place now _
  exact ⟨now, place, eq_ok_of_toOption h⟩

/-- A response that leads to a next request has the status of a redirect. -/
theorem status_of_next {c : Chain} {r : Response} {next : Request} (h : c.next? r = some next) :
    r.status ∈ redirectStatuses := by
  unfold next? at h
  cases hp : r.place? with
  | none =>
    rw [hp] at h
    cases h
  | some place =>
    unfold Response.place? at hp
    split at hp
    · rename_i hstatus
      exact List.contains_iff_mem.1 hstatus
    · cases hp

/-- The turn in which the policy is shown the next request and those that have been sent. -/
def asked (p : Policy) (status : Int) (next : Request) (via : List Request) : Turn :=
  ⟨some true, some via.length,
    match p.apply next via with
    | .error e => .stopped (.error e)
    | .ok next => .followed status ⟨via, next⟩⟩

/-- A response that leads to a next request puts it before the policy, together with all requests of
the chain so far. -/
theorem feed_of_next {c : Chain} {r : Response} {next : Request} (h : c.next? r = some next)
    (p : Policy) : c.feed p (.ok r) = asked p r.status next (c.via ++ [c.current]) := by
  unfold next? at h
  simp only [feed]
  cases hp : r.place? with
  | none => simp [hp] at h
  | some place =>
    simp only [hp] at h
    simp only [follow]
    cases hl : c.lookAhead r place with
    | error why => simp [hl] at h
    | ok x =>
      obtain ⟨place, now⟩ := x
      simp only [hl] at h
      cases hr : c.current.redirected now r.status place with
      | error e => simp [hr, Except.toOption] at h
      | ok n =>
        obtain rfl : n = next := by simpa [hr, Except.toOption] using h
        simp only [hr, asked]
        cases p.apply n (c.via ++ [c.current]) <;> rfl

/-- How a turn without the policy ends a chain: in a stop that counts no redirects, or in the answer
that the response is. -/
def Turn.Ends (t : Turn) (r : Response) : Prop :=
  t.shown = none ∧
    ((∃ why, t.progress = .stopped why ∧ ∀ n, why ≠ .error (.tooManyRedirects n)) ∨
      ∃ body, r.place? = none ∧ r.read = .ok body ∧ t.progress = .answered ⟨r.status, r.headers, body⟩)

/-- A response that leads to no next request ends the chain, and the policy is not asked. -/
theorem feed_of_no_next {c : Chain} {r : Response} (h : c.next? r = none) (p : Policy) :
    Turn.Ends (c.feed p (.ok r)) r := by
  unfold next? at h
  simp only [feed]
  cases hp : r.place? with
  | none =>
    simp only [finish]
    cases hb : r.read with
    | error f =>
      exact ⟨rfl, .inl ⟨_, rfl, (Stop.isForeign_ofFailure f).ne_tooManyRedirects⟩⟩
    | ok body => exact ⟨rfl, .inr ⟨body, hp, hb, rfl⟩⟩
  | some place =>
    simp only [hp] at h
    simp only [follow]
    cases hl : c.lookAhead r place with
    | error why =>
      exact ⟨rfl, .inl ⟨why, rfl, (lookAhead_isForeign c r place why hl).ne_tooManyRedirects⟩⟩
    | ok x =>
      obtain ⟨place, now⟩ := x
      simp only [hl] at h
      cases hr : c.current.redirected now r.status place with
      | ok n => simp [hr, Except.toOption] at h
      | error e =>
        simp only [hr]
        have he : (Stop.error e).IsForeign := (Request.redirected_isAstray _ _ _ _ e hr).isForeign
        exact ⟨rfl, .inl ⟨_, rfl, he.ne_tooManyRedirects⟩⟩

/-- A response that a chain is answered with is no redirect, and has been read. -/
theorem of_answered {c : Chain} {p : Policy} {r : Response} {answer : Answer}
    (h : (c.feed p (.ok r)).progress = .answered answer) :
    r.place? = none ∧ ∃ body, r.read = .ok body ∧ answer = ⟨r.status, r.headers, body⟩ := by
  cases hn : c.next? r with
  | some next =>
    -- a chain that can go on is not answered, whatever the policy says
    rw [feed_of_next hn, asked] at h
    dsimp only at h
    split at h
    · cases h
    · cases h
  | none =>
    obtain ⟨-, ⟨why, hp, -⟩ | ⟨body, hplace, hread, hp⟩⟩ := feed_of_no_next hn p
    · rw [hp] at h
      cases h
    · rw [hp] at h
      exact ⟨hplace, body, hread, (Progress.answered.inj h).symm⟩

end Chain

/-! ## Redirects that can be followed -/

/-- A url that can be taken apart, down to its port. -/
def Url.Readable (url : Text) : Prop := ∃ parts port, Url.split url = .ok parts ∧ parts.port = .ok port

theorem Url.readable_iff (url : Text) :
    Url.Readable url ↔ ((Url.split url).toOption.bind fun p => p.port.toOption).isSome = true := by
  unfold Url.Readable
  cases Url.split url with
  | error f => simp [Except.toOption]
  | ok parts => cases hp : parts.port <;> simp [Except.toOption, hp]

instance (url : Text) : Decidable (Url.Readable url) := decidable_of_iff' _ (Url.readable_iff url)

theorem Url.mayShow_of_ports {old new : Url.Parts} {a b : Option Nat} (ha : old.port = .ok a)
    (hb : new.port = .ok b) : ∃ shown, Url.mayShow old new = .ok shown := by
  unfold Url.mayShow
  split
  · exact ⟨_, rfl⟩
  · simp only [ha, hb, bind, Except.bind]
    split
    · exact ⟨_, rfl⟩
    · split <;> exact ⟨_, rfl⟩

theorem Request.passSignature_of_ports {old new : Url.Parts} {a b : Option Nat} (ha : old.port = .ok a)
    (hb : new.port = .ok b) (h : Headers) : ∃ kept, Request.passSignature h old new = .ok kept := by
  obtain ⟨shown, hs⟩ := Url.mayShow_of_ports ha hb
  unfold Request.passSignature
  split
  · exact ⟨_, rfl⟩
  · simp only [hs, mapError_ok, bind, Except.bind]
    split <;> exact ⟨_, rfl⟩

namespace Chain

/-- The url that a place of a response means at the current url. -/
def target (c : Chain) (place : Text) : Except Error Text := do
  let place ← Response.readPlace place
  let now ← (Url.split c.current.url).mapError Error.brokenUrl
  Url.redirected c.current.url now place

/-- **A redirect from one readable url to another is followed there** if its body can be read. -/
theorem next?_of_readable {c : Chain} {r : Response} {place url : Text} {body : Bytes}
    (hc : Url.Readable c.current.url) (hp : r.place? = some place) (hb : r.read = .ok body)
    (ht : c.target place = .ok url) (hu : Url.Readable url) :
    ∃ next, c.next? r = some next ∧ next.url = url := by
  obtain ⟨now, oldPort, hnow, hold⟩ := hc
  obtain ⟨parts, newPort, hparts, hnew⟩ := hu
  unfold target at ht
  obtain ⟨read, hread, ht⟩ := bind_eq_ok.1 ht
  obtain ⟨now', hnow', ht⟩ := bind_eq_ok.1 ht
  rw [mapError_eq_ok, hnow] at hnow'
  obtain rfl := Except.ok.inj hnow'
  have hl : c.lookAhead r place = .ok (read, now) := by
    simp [lookAhead, skipBody, hread, hnow, hb, mapError_ok, bind, Except.bind, pure, Except.pure]
  unfold next?
  simp only [hp, hl]
  unfold Request.redirected
  simp only [ht, hparts, mapError_ok, bind, Except.bind]
  generalize Headers.eraseAll _ ["Cookie", "Proxy-Authorization"] = h
  obtain ⟨kept, hk⟩ := Request.passSignature_of_ports hold hnew h
  simp only [hk]
  exact ⟨_, rfl, rfl⟩

end Chain

end RemoteTree
