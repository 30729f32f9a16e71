import RemoteTree.Proofs.Http.Follow

/-!
# Headers that frame a body

The length of a body stands in the headers of its request. The client writes it there when it makes the first
request. What it makes of a redirect either keeps the body together with these headers or drops both, and a policy
that puts headers back leaves these alone. So a length never stands on a request with another body.

* `Body.IsLength`: what a request with a body may say of the length of the body.
* `Request.IsFramed`: a request says this, and that its body is sent in one piece.
* `Request.isFramed_of_prepare`: the first request is framed if the caller leaves that to the client.
* `Request.IsFramed.redirected`, `Request.IsFramed.apply`: **so is every request that follows from a framed one**.
-/

namespace RemoteTree

namespace Headers

variable {h h' : Headers} {name other : Text} {names : List Text}

/-! ## Headers that are left out -/

theorem get?_eq_none_iff : h.get? name = none ↔ ∀ e ∈ h, sameName e.1 name = false := by
  unfold get?
  simp

theorem mem_eraseAll {e : Text × Value} :
    e ∈ h.eraseAll names ↔ e ∈ h ∧ ∀ n ∈ names, sameName e.1 n = false := by
  induction names generalizing h with
  | nil => simp [eraseAll]
  | cons n names ih =>
    have hcons : h.eraseAll (n :: names) = (h.erase n).eraseAll names := rfl
    rw [hcons, ih, erase, List.mem_filter, List.forall_mem_cons, and_assoc, Bool.not_eq_true']

/-- Headers that are left out are gone. -/
theorem get?_eraseAll_of_mem (hn : name ∈ names) (h : Headers) : (h.eraseAll names).get? name = none :=
  get?_eq_none_iff.2 fun _ he => (mem_eraseAll.1 he).2 name hn

/-- Leaving a header out does not change the others. -/
theorem get?_erase_of_not_sameName (hn : sameName name other = false) (h : Headers) :
    (h.erase name).get? other = h.get? other := by
  rw [sameName_comm] at hn
  exact get?_filter (fun _ _ hab => sameName_congr hab name) hn h

theorem get?_eraseAll_of_other (hn : ∀ n ∈ names, sameName n other = false) (h : Headers) :
    (h.eraseAll names).get? other = h.get? other := by
  induction names generalizing h with
  | nil => rfl
  | cons n names ih =>
    have hrest := ih (fun x hx => hn x (List.mem_cons_of_mem _ hx)) (h.erase n)
    exact hrest.trans (get?_erase_of_not_sameName (hn n List.mem_cons_self) h)

/-! ## What the caller gives -/

/-- The headers of a caller that leaves it to the client to say how long a body is. -/
def IsUnframed (settings : List (Text × Value)) : Prop :=
  ∀ e ∈ settings, sameName e.1 "Content-Length" = false ∧ sameName e.1 "Transfer-Encoding" = false

instance (settings : List (Text × Value)) : Decidable (IsUnframed settings) :=
  inferInstanceAs (Decidable (∀ e ∈ settings, _))

/-- A name that is not set is not given. -/
theorem get?_given_eq_none {settings : List (Text × Value)} (hn : ∀ e ∈ settings, sameName e.1 name = false) :
    (given settings).get? name = none := by
  have hnone : (ofList settings).get? name = none := get?_setAll_of_other hn []
  rw [get?_eq_none_iff] at hnone ⊢
  exact fun e he => hnone e (List.mem_filter.1 he).1

end Headers

/-! ## The length of a body -/

/-- What a request with a body may say of the length of the body: the number of its bytes. Without a body it may say
that there are none, or nothing. -/
def Body.IsLength : Body → Option Value → Prop
  | .none, told => told = .none ∨ told = some (.text "0")
  | .text t, told => ∃ bs, Utf8.encode t = .ok bs ∧ told = some (.text (Text.ofNat bs.length))
  | .bytes bs, told => told = some (.text (Text.ofNat bs.length))

namespace Headers

variable {h h' : Headers} {m : Method} {b : Body}

/-- The length that the client writes down is that of the body. -/
theorem isLength_of_withLength (hnone : h.get? "Content-Length" = none) (hl : h.withLength m b = .ok h') :
    b.IsLength (h'.get? "Content-Length") := by
  cases b with
  | none =>
    obtain rfl := Except.ok.inj hl
    split
    · exact .inl hnone
    · exact .inr (get?_set _ _ _)
  | text t =>
    obtain ⟨bs, hbs, hl⟩ := bind_eq_ok.1 hl
    obtain rfl := Except.ok.inj hl
    exact ⟨bs, hbs, get?_set _ _ _⟩
  | bytes bs =>
    obtain rfl := Except.ok.inj hl
    exact get?_set _ _ _

/-- It writes down nothing else. -/
theorem get?_of_withLength {name : Text} (hn : sameName "Content-Length" name = false)
    (hl : h.withLength m b = .ok h') : h'.get? name = h.get? name := by
  cases b with
  | none =>
    obtain rfl := Except.ok.inj hl
    split
    · rfl
    · exact get?_set_of_not_sameName _ _ hn
  | text t =>
    obtain ⟨bs, -, hl⟩ := bind_eq_ok.1 hl
    obtain rfl := Except.ok.inj hl
    exact get?_set_of_not_sameName _ _ hn
  | bytes bs =>
    obtain rfl := Except.ok.inj hl
    exact get?_set_of_not_sameName _ _ hn

end Headers

/-! ## Requests that are framed -/

namespace Policy

/-- A header that frames a body has another name than one that does not. -/
theorem sameName_of_isFraming {a b : Text} (ha : isFraming a = false) (hb : isFraming b = true) :
    Headers.sameName a b = false := by
  refine Bool.eq_false_iff.2 fun hsame => ?_
  rw [isFraming_congr hsame, hb] at ha
  cases ha

/-- A policy leaves the headers that frame a body as they are. -/
theorem get?_of_apply {p : Policy} {next q : Request} {via : List Request} (h : p.apply next via = .ok q)
    {name : Text} (hn : isFraming name = true) : q.headers.get? name = next.headers.get? name := by
  cases p with
  | passing =>
    obtain rfl := Except.ok.inj h
    rfl
  | restoring =>
    cases via with
    | nil =>
      obtain rfl := Except.ok.inj h
      rfl
    | cons first rest =>
      rw [apply_restoring] at h
      split at h
      · cases h
      · obtain rfl := Except.ok.inj h
        -- what is put back does not frame a body, so it has another name
        have hkept : ∀ e ∈ first.headers.filter fun e => !isFraming e.1, isFraming e.1 = false := by
          intro e he
          simpa using (List.mem_filter.1 he).2
        exact Headers.get?_setAll_of_other (fun e he => sameName_of_isFraming (hkept e he) hn) _

end Policy

namespace Request

variable {r q : Request}

/-- The headers of a request frame its body: they say how long it is, and that it comes in one piece. -/
structure IsFramed (q : Request) : Prop where
  length : q.body.IsLength (q.headers.get? "Content-Length")
  whole : q.headers.get? "Transfer-Encoding" = none

/-- A request with the body of a framed one, and the headers that frame it, is framed. -/
theorem IsFramed.congr (h : r.IsFramed) (hbody : q.body = r.body)
    (hheaders : ∀ name, Policy.isFraming name = true → q.headers.get? name = r.headers.get? name) : q.IsFramed where
  length := by
    rw [hbody, hheaders "Content-Length" (by decide)]
    exact h.length
  whole := (hheaders "Transfer-Encoding" (by decide)).trans h.whole

/-- **The first request is framed** if the caller leaves it to the client to say how long the body is. -/
theorem isFramed_of_prepare {m : Method} {url : Text} {settings : List (Text × Value)} {payload : Body}
    (hs : Headers.IsUnframed settings) (h : prepare m url settings payload = .ok r) : r.IsFramed := by
  obtain ⟨target, parts, headers, -, -, hl, hr⟩ := of_prepare h
  have hlength := Headers.isLength_of_withLength (Headers.get?_given_eq_none fun e he => (hs e he).1) hl
  have hwhole : headers.get? "Transfer-Encoding" = none :=
    (Headers.get?_of_withLength (by decide) hl).trans (Headers.get?_given_eq_none fun e he => (hs e he).2)
  have hunsigned : IsFramed ⟨m, target, headers, payload.trimmed⟩ := ⟨hlength, hwhole⟩
  rcases hr with rfl | ⟨s, rfl⟩
  · exact hunsigned
  · refine hunsigned.congr rfl fun name hn => ?_
    exact Headers.get?_set_of_not_sameName _ _ (Policy.sameName_of_isFraming (by decide) hn)

/-- What the client drops at every redirect does not frame a body. -/
theorem get?_of_passed {h kept : Headers} {old new : Url.Parts}
    (hk : passSignature (h.eraseAll ["Cookie", "Proxy-Authorization"]) old new = .ok kept) {name : Text}
    (hn : Policy.isFraming name = true) : kept.get? name = h.get? name := by
  have hdropped : ∀ n ∈ (["Cookie", "Proxy-Authorization"] : List Text), Policy.isFraming n = false := by decide
  have hrest := Headers.get?_eraseAll_of_other (fun n hd => Policy.sameName_of_isFraming (hdropped n hd) hn) h
  rcases of_passSignature hk with rfl | rfl
  · exact hrest
  · have hsignature : Headers.sameName "Authorization" name = false :=
      Policy.sameName_of_isFraming (by decide) hn
    exact (Headers.get?_erase_of_not_sameName hsignature _).trans hrest

/-- **The request that follows a redirect is framed**: it has the body and the headers that frame it, or neither. -/
theorem IsFramed.redirected (h : r.IsFramed) {now : Url.Parts} {status : Int} {place : Text}
    (hq : r.redirected now status place = .ok q) : q.IsFramed := by
  obtain ⟨url, next, kept, hk, rfl⟩ := of_redirected hq
  split at hk
  · rename_i hagain
    exact h.congr (if_pos hagain) fun name hn => get?_of_passed hk hn
  · rename_i hanew
    -- the body is dropped, and the headers that describe it go with it
    have hgone : ∀ name ∈ Headers.describing, Policy.isFraming name = true → kept.get? name = none :=
      fun name hd hn => (get?_of_passed hk hn).trans (Headers.get?_eraseAll_of_mem hd _)
    refine ⟨?_, hgone "Transfer-Encoding" (by decide) (by decide)⟩
    rw [if_neg hanew]
    exact .inl (hgone "Content-Length" (by decide) (by decide))

/-- So is what a policy makes of it. -/
theorem IsFramed.apply {p : Policy} {next : Request} {via : List Request} (h : next.IsFramed)
    (hq : p.apply next via = .ok q) : q.IsFramed := by
  obtain ⟨headers, hheaders⟩ := Policy.eq_with_headers hq
  have hbody : q.body = next.body := by rw [hheaders]
  exact h.congr hbody fun name hn => Policy.get?_of_apply hq hn

end Request

end RemoteTree
