import RemoteTree.Proofs.Session.Timeline

/-!
# What is said of steps in a row

A session is made and changed in the steps in between alone: an operation itself touches neither references
nor stores, and only takes replies from the script. So what is said of a row of moments holds of an operation if
it holds of the steps in between, and if it can be put together from the parts of the row.

* `Session.inRow_of_steps`: what each step of a row does to a session, the row does.
* `Session.Accrues`: what each request of an operation does to a session; `Accrues.operate` says that the operation
  does it.
* `Session.Conducts`: what can be put together from the parts of a row of moments; `Session.Composes`: so can
  what does not depend on the replies that are left.
* `Conducts.row`: steps in a row have it, given that each of them has.
* `Conducts.operate`: **an operation has it**, given that the steps in between have.
-/

namespace RemoteTree.Session

variable {s t u : Session}

@[simp] theorem references_note (s : Session) (level : Int) (source : Source) (message : Text) :
    (s.note level source message).references = s.references := by
  unfold note
  split <;> rfl

@[simp] theorem stores_note (s : Session) (level : Int) (source : Source) (message : Text) :
    (s.note level source message).stores = s.stores := by
  unfold note
  split <;> rfl

theorem script_note (s : Session) (level : Int) (source : Source) (message : Text) :
    (s.note level source message).script = s.script := by
  unfold note
  split <;> rfl

/-- What each step of a row does to a session, the row does, if it may be done one after the other. -/
theorem inRow_of_steps {R : Session → Session → Prop} (refl : ∀ s, R s s)
    (trans : ∀ {s t u}, R s t → R t u → R s u) {act : Session → Step → Performed}
    (hact : ∀ s t, R s (act s t).1) (s : Session) (steps : List Step) : R s (s.inRow act steps).1 := by
  induction steps generalizing s with
  | nil => exact refl s
  | cons t rest ih =>
    have ht := hact s t
    unfold inRow
    rcases hx : act s t with ⟨u, result⟩
    rw [hx] at ht
    cases result with
    | error e => exact ht
    | ok v => exact trans ht (ih u)

/-- What the requests of an operation do to a session one after the other, if the chains that they stand in have
`P`. The lines about the first request and about the answer do it as well. -/
structure Accrues (meanwhile : Meanwhile) (P : Chain → Prop) (R : Session → Session → Prop) : Prop where
  refl : ∀ s, R s s
  trans : ∀ {s t u : Session}, R s t → R t u → R s u
  noteFirst : ∀ (s : Session) m target, R s (s.noteFirst m target)
  judge : ∀ (s : Session) m r a, R s (s.judge m r a).1
  attempt : ∀ (s : Session) seconds c, P c → R s (s.attempt meanwhile seconds c).1
  followed : ∀ (s : Session) seconds c status c', P c → (s.attempt meanwhile seconds c).2 = .followed status c' → P c'

namespace Accrues

variable {meanwhile : Meanwhile} {P : Chain → Prop} {R : Session → Session → Prop} (h : Accrues meanwhile P R)

include h

/-- A chain does it from its next request to its end, by induction on how many requests it may send. -/
theorem pursue {c : Chain} (hc : P c) (seconds : Option Value) (fuel : Nat) (s : Session) :
    R s (s.pursue meanwhile seconds fuel c).1 := by
  induction fuel generalizing s c with
  | zero => exact h.refl s
  | succ fuel ih =>
    unfold Session.pursue
    split
    · exact h.refl s
    have ha := h.attempt s seconds c hc
    have hnext := h.followed s seconds c
    rcases hx : s.attempt meanwhile seconds c with ⟨t, progress⟩
    rw [hx] at ha hnext
    cases progress with
    | stopped why => exact ha
    | answered a => exact ha
    | followed status c' => exact h.trans ha (ih (hnext status c' hc rfl) t)

/-- **An operation does it** if the chain of its first request has `P`. -/
theorem operate (s : Session) (r : Reference) (m : Method) (payload : Body) (headers : List (Text × Value))
    (hfirst : ∀ target first, s.firstRequest r m payload headers = .ok (target, first) → P (.start first)) :
    R s (s.operate meanwhile r m payload headers).1 := by
  unfold Session.operate
  cases hf : s.firstRequest r m payload headers with
  | error e => exact h.refl s
  | ok x =>
    obtain ⟨target, first⟩ := x
    have hn := h.noteFirst s m target
    unfold submit
    cases Timeout.attempt r.timeout with
    | error why => exact hn
    | ok seconds =>
      have hp := h.pursue (hfirst target first hf) seconds (s.noteFirst m target).patience (s.noteFirst m target)
      dsimp only
      rcases hx : (s.noteFirst m target).pursue meanwhile seconds (s.noteFirst m target).patience
        (.start first) with ⟨t, result⟩
      rw [hx] at hp
      cases result with
      | error why => exact h.trans hn hp
      | ok a => exact h.trans (h.trans hn hp) (h.judge t m r a)

end Accrues

/-- What is said of a row of moments and of the sessions before and after it: it holds of no moments where
references and stores are the same and at most one reply has been taken, and of two rows one after the other if
it holds of both. -/
structure Conducts (R : Session → List Moment → Session → Prop) : Prop where
  nil : ∀ {s t : Session}, t.references = s.references → t.stores = s.stores →
    (t.script = s.script ∨ t.script = s.script.advance) → R s [] t
  append : ∀ {s t u : Session} {ms ns : List Moment}, R s ms t → R t ns u → R s (ms ++ ns) u

/-- What does not depend on the replies that are left: it holds of no moments where references and stores are the
same. -/
structure Composes (R : Session → List Moment → Session → Prop) : Prop where
  nil : ∀ {s t : Session}, t.references = s.references → t.stores = s.stores → R s [] t
  append : ∀ {s t u : Session} {ms ns : List Moment}, R s ms t → R t ns u → R s (ms ++ ns) u

theorem Composes.conducts {R : Session → List Moment → Session → Prop} (hR : Composes R) : Conducts R :=
  ⟨fun hr hs _ => hR.nil hr hs, hR.append⟩

namespace Conducts

variable {R : Session → List Moment → Session → Prop} (hR : Conducts R) {ms : List Moment}

include hR

/-- Nothing has been done to references, stores and replies. -/
theorem of_eq (hr : t.references = s.references) (hs : t.stores = s.stores) (hscript : t.script = s.script) :
    R s [] t :=
  hR.nil hr hs (.inl hscript)

/-- The session before a row may be another one with the same references and stores. -/
theorem of_before (h : R t ms u) (hr : t.references = s.references) (hs : t.stores = s.stores)
    (hscript : t.script = s.script ∨ t.script = s.script.advance) : R s ms u :=
  hR.append (hR.nil hr hs hscript) h

/-- The session after a row may be another one with the same references, stores and replies. -/
theorem of_after (h : R s ms t) (hr : u.references = t.references) (hs : u.stores = t.stores)
    (hscript : u.script = t.script) : R s ms u := by
  have happend := hR.append h (hR.of_eq hr hs hscript)
  rwa [List.append_nil] at happend

/-- Steps in a row have what each of them has. -/
theorem row {act : Session → Step → Performed} {within : Session → Step → List Moment}
    (hact : ∀ s t, R s (within s t ++ [⟨s, t, (act s t).2, (act s t).1⟩]) (act s t).1) (s : Session)
    (steps : List Step) : R s (s.rowMoments act within steps) (s.inRow act steps).1 := by
  induction steps generalizing s with
  | nil => exact hR.of_eq rfl rfl rfl
  | cons t rest ih =>
    have ht := hact s t
    unfold rowMoments inRow
    rcases hx : act s t with ⟨u, result⟩
    rw [hx] at ht
    cases result with
    | error e => exact ht
    | ok v =>
      dsimp only
      rw [← List.singleton_append, ← List.append_assoc]
      exact hR.append ht (ih u)

variable {meanwhile : Meanwhile} {tell : Teller} (hm : ∀ steps s, R s (tell steps s) (meanwhile steps s).1)

include hm

/-- A reply touches neither references nor stores, so what has been done until it comes is all that counts. -/
theorem attempt (s : Session) (seconds : Option Value) (c : Chain) :
    R s (s.untilReply tell c.current seconds) (s.attempt meanwhile seconds c).1 := by
  have hreply : R s (s.untilReply tell c.current seconds) (s.exchange meanwhile c.current seconds).1 := by
    rw [exchange_eq]
    exact hR.of_before (hm s.script.next.meanwhile (s.sending c.current seconds)) rfl rfl (.inr rfl)
  unfold Session.attempt
  rcases hx : s.exchange meanwhile c.current seconds with ⟨t, reply⟩
  rw [hx] at hreply
  dsimp only
  generalize c.feed t.policy (reply.mapError Raised.stop) = turn
  cases turn.progress with
  | stopped why => exact hR.of_after hreply rfl rfl rfl
  | answered a => exact hR.of_after hreply rfl rfl rfl
  | followed status c' => exact hR.of_after hreply (references_note _ _ _ _) (stores_note _ _ _ _) (script_note _ _ _ _)

/-- A chain has it from its next request to its end, by induction on how many requests it may send. -/
theorem pursue (seconds : Option Value) (fuel : Nat) (s : Session) (c : Chain) :
    R s (s.untilEnd meanwhile tell seconds fuel c) (s.pursue meanwhile seconds fuel c).1 := by
  induction fuel generalizing s c with
  | zero => exact hR.of_eq rfl rfl rfl
  | succ fuel ih =>
    unfold untilEnd Session.pursue
    split
    · exact hR.of_eq rfl rfl rfl
    have ha := hR.attempt hm s seconds c
    rcases hx : s.attempt meanwhile seconds c with ⟨t, progress⟩
    rw [hx] at ha
    cases progress with
    | stopped why => exact hR.append ha (hR.of_eq rfl rfl rfl)
    | answered a => exact hR.append ha (hR.of_eq rfl rfl rfl)
    | followed status c' => exact hR.append ha (ih t c')

/-- **An operation** has it if the steps in between do. -/
theorem operate (s : Session) (r : Reference) (m : Method) (payload : Body) (headers : List (Text × Value)) :
    R s (s.whileOperating meanwhile tell r m payload headers)
      (s.operate meanwhile r m payload headers).1 := by
  unfold whileOperating Session.operate
  cases s.firstRequest r m payload headers with
  | error e => exact hR.of_eq rfl rfl rfl
  | ok x =>
    obtain ⟨target, first⟩ := x
    have hr : (s.noteFirst m target).references = s.references := references_note _ _ _ _
    have hs : (s.noteFirst m target).stores = s.stores := stores_note _ _ _ _
    have hscript : (s.noteFirst m target).script = s.script := script_note _ _ _ _
    unfold submit
    cases Timeout.attempt r.timeout with
    | error why => exact hR.of_eq hr hs hscript
    | ok seconds =>
      have hp := hR.pursue hm seconds (s.noteFirst m target).patience (s.noteFirst m target) (.start first)
      dsimp only
      rcases hx : (s.noteFirst m target).pursue meanwhile seconds (s.noteFirst m target).patience
        (.start first) with ⟨t, result⟩
      rw [hx] at hp
      have hp := hR.of_before hp hr hs (.inl hscript)
      cases result with
      | error why => exact hp
      | ok a =>
        dsimp only
        unfold judge
        split
        · exact hp
        · exact hR.of_after hp (references_note _ _ _ _) (stores_note _ _ _ _) (script_note _ _ _ _)

end Conducts

end RemoteTree.Session
