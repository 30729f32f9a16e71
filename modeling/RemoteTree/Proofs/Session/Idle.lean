import RemoteTree.Proofs.Session.Timeline
import RemoteTree.Proofs.Session.Trace

/-!
# Steps that send nothing

What a step configures is not on the wire, so a step that sends nothing leaves the wire as it is. It may fail
over what it is given, but never with an error of the client: such an error is made over a request, and would be
taken for a failure of the request that waits. Any other error goes past the client as it is.

* `Script.Idle`: no step before a reply sends a request.
* `Session.wire`: a session without what is configured in it; `wire_step`: such a step leaves it as it is.
* `Error.Passes`: an error that goes past the client; `passes_step`: such a step fails with no other.
* `between_of_moments`, `between_of_failed`: **steps in between come to their end if none of them fails, and to the
  error of one that does**, in the session that it leaves.
-/

namespace RemoteTree

namespace Script

/-- No step before a reply sends a request itself. -/
def Idle (s : Script) : Prop := ∀ r ∈ s.next :: s.later, ∀ t ∈ r.meanwhile, t.sends = false

instance (s : Script) : Decidable s.Idle :=
  inferInstanceAs (Decidable (∀ r ∈ s.next :: s.later, ∀ t ∈ r.meanwhile, t.sends = false))

theorem Idle.advance {s : Script} (h : s.Idle) : s.advance.Idle := by
  obtain ⟨next, later⟩ := s
  cases later with
  | nil => exact h
  | cons r rest => exact fun x hx => h x (List.mem_cons_of_mem _ hx)

end Script

/-- None of the moments fails. -/
def NoneFails (ms : List Moment) : Prop := ∀ m ∈ ms, m.result.isOk = true

instance (ms : List Moment) : Decidable (NoneFails ms) :=
  inferInstanceAs (Decidable (∀ m ∈ ms, m.result.isOk = true))

theorem NoneFails.of_append {ms ns : List Moment} (h : NoneFails (ms ++ ns)) :
    NoneFails ms ∧ NoneFails ns :=
  List.forall_mem_append.1 h

/-- An error that goes past the client: it is none of the client's own. -/
def Error.Passes (e : Error) : Prop := e.kind.isClientError = false

/-- It stops a request as it is. -/
theorem Error.Passes.stop {e : Error} (h : e.Passes) : Stop.ofError e = .error e :=
  if_neg (Bool.eq_false_iff.1 h)

namespace Session

/-- A session without what is configured in it. -/
def wire (s : Session) : Session :=
  { s with references := .empty, stores := .empty, channels := 0, closings := 0 }

/-! ## Steps without requests -/

theorem wire_act (meanwhile : Meanwhile) (s : Session) (place : Nat) (r : Reference) {a : Action}
    (h : a.sends = false) : (s.act meanwhile place r a).1.wire = s.wire := by
  cases a with
  | request | push | set | update | remove | value => cases h
  | derive | setUrl | resolve | sharesChannel =>
    simp only [act]
    split <;> rfl
  | bind store =>
    cases store with
    | none => rfl
    | some name =>
      simp only [act, bindStore]
      split <;> rfl
  | setTimeout | auth | unauth | shallow | includePriority | url | timeout | literal | storeNames => rfl

/-- **A step that sends nothing** leaves the wire as it is. -/
theorem wire_step (meanwhile : Meanwhile) (s : Session) {t : Step} (h : t.sends = false) :
    (s.step meanwhile t).1.wire = s.wire := by
  cases t with
  | reference name url timeout own =>
    simp only [step, refer]
    split <;> rfl
  | store name token | close => rfl
  | setToken name token | token name | storeLiteral name =>
    simp only [step, withStore]
    split <;> rfl
  | act name a =>
    simp only [step]
    split
    · rfl
    · exact wire_act meanwhile s _ _ h

/-- Steps in a row leave the wire as it is if each of them does. -/
theorem wire_inRow {act : Session → Step → Performed} {steps : List Step}
    (hact : ∀ t ∈ steps, ∀ s, (act s t).1.wire = s.wire) (s : Session) :
    (s.inRow act steps).1.wire = s.wire := by
  induction steps generalizing s with
  | nil => rfl
  | cons t rest ih =>
    have ht := hact t List.mem_cons_self s
    have hrest := ih fun u hu => hact u (List.mem_cons_of_mem _ hu)
    simp only [inRow]
    rcases hx : act s t with ⟨u, result⟩
    rw [hx] at ht
    cases result with
    | error e => exact ht
    | ok v => exact (hrest u).trans ht

/-- Steps in between that send nothing leave the wire as it is, whether one of them fails or not. -/
theorem wire_between (depth : Nat) {steps : List Step} (h : ∀ t ∈ steps, t.sends = false) (s : Session) :
    (between depth steps s).1.wire = s.wire := by
  cases depth with
  | zero => exact wire_inRow (fun _ _ _ => rfl) s
  | succ depth => exact wire_inRow (fun t ht s => wire_step _ s (h t ht)) s

theorem between_nil (depth : Nat) (s : Session) : between depth [] s = (s, .ok ()) := by
  cases depth <;> rfl

/-! ## What goes wrong in them

What they read is a text, a number, the url of a reference or a name, and no request is prepared for it. -/

theorem passes_asText (use : TextUse) (v : Value) : FailsWith Error.Passes (v.asText use) := by
  cases v with
  | text t => exact .ok t
  | _ => exact .error rfl

theorem passes_wrong (make : Text → Error) (hmake : ∀ shown, (make shown).Passes) (v : Value) :
    (Derivation.wrong make v).Passes := by
  unfold Derivation.wrong
  split
  · exact hmake _
  · exact rfl

theorem passes_orderKey (v : Value) : FailsWith Error.Passes (Derivation.orderKey v) := by
  unfold Derivation.orderKey
  split
  · exact .ok _
  · exact .error (passes_wrong .orderKey (fun _ => rfl) _)

theorem passes_limitText (v : Value) : FailsWith Error.Passes (Derivation.limitText v) := by
  unfold Derivation.limitText
  split
  · split
    · exact .error (passes_wrong .limit (fun _ => rfl) _)
    · exact .mapError _ fun _ => rfl
  · exact .error (passes_wrong .limit (fun _ => rfl) _)

theorem passes_boundText (name : String) (v : Value) : FailsWith Error.Passes (Derivation.boundText name v) := by
  unfold Derivation.boundText
  split
  · exact .error rfl
  · refine .mapError _ fun why => ?_
    cases why <;> exact rfl

theorem passes_origin (r : Reference) : FailsWith Error.Passes r.origin := by
  unfold Reference.origin
  split
  · exact .error rfl
  · split
    · exact .error rfl
    · exact .ok _

/-- A derivation fails over its argument, or over the url that it begins with. -/
theorem passes_derive (r : Reference) (d : Derivation) : FailsWith Error.Passes (r.derive d) := by
  cases d with
  | child path => exact .bind (passes_asText _ path) fun _ => .ok _
  | root path => exact .bind (passes_origin r) fun _ => .bind (passes_asText _ path) fun _ => .ok _
  | orderBy v => exact .map (passes_orderKey v) _
  | limitToFirst v | limitToLast v => exact .map (passes_limitText v) _
  | startAt v | endAt v | equalTo v => exact .map (passes_boundText _ v) _

theorem passes_default (timeouts : Timeout.Settings) : FailsWith Error.Passes timeouts.default := by
  unfold Timeout.Settings.default Timeout.ofConfigured
  extract_lets number
  have hnumber : FailsWith Error.Passes number := by
    unfold number
    split
    · split
      · exact .error rfl
      · exact .ok _
    · exact .error rfl
    · split <;> exact .error rfl
  split
  · exact .ok _
  · split
    · exact .ok _
    · exact hnumber
  · exact hnumber

theorem passes_resolve (s : Session) (r : Reference) : FailsWith Error.Passes (s.resolve r) :=
  failsWith_of_resolve (fun _ => rfl) (fun _ => rfl) s r

variable (meanwhile : Meanwhile) (s : Session)

theorem passes_act (place : Nat) (r : Reference) {a : Action} (h : a.sends = false) :
    FailsWith Error.Passes (s.act meanwhile place r a).2 := by
  cases a with
  | request | push | set | update | remove | value => cases h
  | derive d name =>
    have hd := passes_derive r d
    simp only [act]
    split
    · rename_i e he
      exact .error (hd e he)
    · exact .ok _
  | setUrl url =>
    have hurl := passes_asText .startsWith url
    simp only [act]
    split
    · rename_i e he
      exact .error (hurl e he)
    · exact .ok _
  | resolve =>
    have hresolve := passes_resolve s r
    simp only [act]
    split
    · rename_i e he
      exact .error (hresolve e he)
    · exact .ok _
  | sharesChannel other =>
    simp only [act]
    split
    · exact .error rfl
    · exact .ok _
  | bind store =>
    cases store with
    | none => exact .ok _
    | some name =>
      simp only [act, bindStore]
      split
      · exact .error rfl
      · exact .ok _
  | setTimeout | auth | unauth | shallow | includePriority | url | timeout | literal | storeNames => exact .ok _

theorem passes_refer (name : Text) (url : Value) (timeout : Option Value) (own : Bool) :
    FailsWith Error.Passes (s.refer name url timeout own).2 := by
  have hurl := passes_asText .startsWith url
  have hdefault := passes_default s.timeouts
  unfold refer
  dsimp only
  split
  · rename_i e he
    -- the default is asked for only where no timeout is given
    cases timeout with
    | some seconds => exact .error (hurl.bind (fun _ => .ok _) e he)
    | none => exact .error (hurl.bind (fun _ => hdefault.bind fun _ => .ok _) e he)
  · exact .ok _

theorem passes_withStore (name : Text) {f : Nat → Value → Performed}
    (hf : ∀ place token, FailsWith Error.Passes (f place token).2) :
    FailsWith Error.Passes (s.withStore name f).2 := by
  unfold withStore
  split
  · exact .error rfl
  · exact hf _ _

/-- **A step that sends nothing** fails with no error of the client. -/
theorem passes_step {t : Step} (h : t.sends = false) : FailsWith Error.Passes (s.step meanwhile t).2 := by
  cases t with
  | reference name url timeout own => exact passes_refer s name url timeout own
  | store | close => exact .ok _
  | setToken name token | token name | storeLiteral name => exact passes_withStore s name fun _ _ => .ok _
  | act name a =>
    simp only [step]
    split
    · exact .error rfl
    · exact passes_act meanwhile s _ _ h

/-! ## Steps in a row -/

/-- Within a step that sends nothing, nothing is done. -/
theorem whileStepping_of_idle (tell : Teller) {t : Step} (h : t.sends = false) :
    s.whileStepping meanwhile tell t = [] := by
  cases t with
  | act name a =>
    have hop : a.operation? = none := by
      cases a <;> first | rfl | cases h
    simp only [whileStepping, whileActing, hop]
    split <;> rfl
  | _ => rfl

variable {s}

/-- Steps in a row of which no moment fails come to the end of the row. -/
theorem inRow_of_moments {act : Session → Step → Performed} {within : Session → Step → List Moment}
    {s : Session} {steps : List Step} (h : NoneFails (s.rowMoments act within steps)) :
    (s.inRow act steps).2 = .ok () := by
  induction steps generalizing s with
  | nil => rfl
  | cons t rest ih =>
    simp only [rowMoments] at h
    simp only [inRow]
    rcases hx : act s t with ⟨u, result⟩
    rw [hx] at h
    cases result with
    | error e =>
      -- the step that fails is a moment of the row
      have hfailed := h ⟨s, t, .error e, u⟩ (List.mem_append_right _ List.mem_cons_self)
      cases hfailed
    | ok v => exact ih fun m hm => h m (List.mem_append_right _ (List.mem_cons_of_mem _ hm))

theorem between_of_moments {depth : Nat} {steps : List Step} {s : Session}
    (h : NoneFails (tellBetween depth steps s)) : (between depth steps s).2 = .ok () := by
  cases depth with
  | zero => exact inRow_of_moments h
  | succ depth => exact inRow_of_moments h

/-- **Steps in a row end with the first that fails**, if nothing is done within them. -/
theorem row_of_failed {P : Error → Prop} {act : Session → Step → Performed} {within : Session → Step → List Moment}
    {steps : List Step} (hact : ∀ t ∈ steps, ∀ s, within s t = [] ∧ FailsWith P (act s t).2) {m : Moment}
    (hm : m ∈ s.rowMoments act within steps) {e : Error} (he : m.result = .error e) :
    P e ∧ s.inRow act steps = (m.after, .error e) := by
  induction steps generalizing s with
  | nil => cases hm
  | cons t rest ih =>
    obtain ⟨hwithin, hP⟩ := hact t List.mem_cons_self s
    have hrest := fun u hu => hact u (List.mem_cons_of_mem t hu)
    simp only [rowMoments, hwithin, List.nil_append] at hm
    simp only [inRow]
    rcases hx : act s t with ⟨u, result⟩
    rw [hx] at hm hP
    cases result with
    | error e' =>
      -- the row ends here, and this is its last moment
      obtain rfl := List.mem_singleton.1 hm
      obtain rfl := Except.error.inj he
      exact ⟨hP _ rfl, rfl⟩
    | ok v =>
      rcases List.mem_cons.1 hm with rfl | hm
      · cases he
      · exact ih hrest hm

/-- The error of a step in between that fails is what comes of the steps in between. -/
theorem between_of_failed {depth : Nat} {steps : List Step} (h : ∀ t ∈ steps, t.sends = false) {m : Moment}
    (hm : m ∈ tellBetween depth steps s) {e : Error} (he : m.result = .error e) :
    e.Passes ∧ between depth steps s = (m.after, .error e) := by
  cases depth with
  | zero =>
    refine row_of_failed (fun _ _ _ => ⟨rfl, ?_⟩) hm he
    exact .error rfl
  | succ depth =>
    exact row_of_failed (fun t ht s => ⟨whileStepping_of_idle _ s _ (h t ht), passes_step _ s (h t ht)⟩) hm he

end Session

end RemoteTree
