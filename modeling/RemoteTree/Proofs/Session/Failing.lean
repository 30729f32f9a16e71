import RemoteTree.Proofs.Session.Action
import RemoteTree.Proofs.Session.History

/-!
# Steps that fail

A step names what it makes at its end, and changes a reference or a store only when nothing can go wrong any
more. So a step that fails has changed neither, if no other steps were done while it waited for replies.

* `Error.isEarly`: the errors about what a step is given; `error_of_operate` says that no operation ends in one.
* `Session.Unmoved`: without steps in between, references and stores stay as they are.
* `error_of_act`: an action that fails leaves the session as its operation does, and fails as it does or over
  the answer.
* `failing_changes_nothing`: **a step that fails changes no reference and no store, and one that fails over
  what it is given sends nothing**.
-/

namespace RemoteTree

open Failure (Family)

/-- Whether an action reads something from the answer that it yields or acts upon. -/
def Action.reads : Action → Bool
  | .push .. | .value _ => true
  | _ => false

namespace Error

/-- Whether an error is about what a step is given: a timeout that is none, a url that is none, or a value
without a JSON form. -/
def isEarly : Error → Bool
  | .timeoutNotNumber .. | .timeoutNegative _ | .unparsable .. | .rootless _ | .unwritable .. => true
  | _ => false

theorem IsForeign.isEarly_eq {e : Error} (h : e.IsForeign) : e.isEarly = false := by
  cases e <;> first | rfl | cases h

/-- Among the errors that are none of the library's own, only a failure that comes out as it is can be of a
class of the library. -/
theorem IsForeign.eq_failure {e : Error} (h : e.IsForeign) (ho : e.kind.origin = .library) :
    ∃ f, e = .failure f := by
  cases e with
  | failure f => exact ⟨f, rfl⟩
  | write why | badHeader why => cases why <;> cases ho
  | _ => first | (cases h; done) | cases ho

/-- An error of the classes for urls and timeouts is about what a step is given, unless it is a failure that
comes out as it is. -/
theorem isEarly_of_kind {e : Error} (h : e.kind = Family.malformedUrl.kind ∨ e.kind = Family.configuration.kind)
    (hf : ∀ f, e ≠ .failure f) : e.isEarly = true := by
  cases hfam : e.family? with
  | none =>
    have ho : e.kind.origin = .library := by
      rcases h with h | h <;> rw [h] <;> rfl
    obtain ⟨f, rfl⟩ := IsForeign.eq_failure hfam ho
    exact absurd rfl (hf f)
  | some fam =>
    have hkind : e.kind = fam.kind := by
      unfold kind
      rw [hfam]
    have hearly : fam = .malformedUrl ∨ fam = .configuration := by
      rw [hkind] at h
      rcases h with h | h <;> cases fam <;> simp [Family.kind, Family.name] at h ⊢
    cases e with
    | timeoutNotNumber | timeoutNegative | unparsable | rootless | unwritable => rfl
    | _ => obtain rfl | rfl := hearly <;> cases hfam

end Error

namespace Session

/-! ## Operations without steps in between -/

/-- Without steps in between, references and stores are the same. -/
def Unmoved (s : Session) (ms : List Moment) (t : Session) : Prop :=
  ms = [] → t.references = s.references ∧ t.stores = s.stores

theorem composes_unmoved : Composes Unmoved where
  nil := fun hr hs _ => ⟨hr, hs⟩
  append := by
    intro s t u ms ns hms hns h
    obtain ⟨hm, hn⟩ := List.append_eq_nil_iff.1 h
    obtain ⟨hr, hs⟩ := hms hm
    obtain ⟨hr', hs'⟩ := hns hn
    exact ⟨hr'.trans hr, hs'.trans hs⟩

/-- Where nothing is told of the steps in between, there are none. -/
theorem eq_nil_of_tellBetween {depth : Nat} {steps : List Step} {s : Session}
    (h : tellBetween depth steps s = []) : steps = [] := by
  have hrow : ∀ (act : Session → Step → Performed) within,
      s.rowMoments act within steps = [] → steps = [] := by
    intro act within hrow
    cases steps with
    | nil => rfl
    | cons t rest =>
      unfold rowMoments at hrow
      split at hrow <;> simp at hrow
  cases depth with
  | zero => exact hrow _ _ h
  | succ depth => exact hrow _ _ h

theorem unmoved_between (depth : Nat) (steps : List Step) (s : Session) :
    s.Unmoved (tellBetween depth steps s) (between depth steps s).1 := by
  intro h
  rw [eq_nil_of_tellBetween h, between_nil]
  exact ⟨rfl, rfl⟩

/-- Without steps in between, none of them keeps a reply from coming. -/
theorem reply_of_quiet {depth : Nat} {seconds : Option Value} {fuel : Nat} {s : Session} {c : Chain}
    (h : s.untilEnd (between depth) (tellBetween depth) seconds fuel c = []) :
    ∀ a ∈ s.attempts (between depth) seconds fuel c, ∀ e, a.reply ≠ .error (.error e) := by
  induction fuel generalizing s c with
  | zero => exact List.forall_mem_nil _
  | succ fuel ih =>
    unfold untilEnd at h
    unfold attempts
    split
    · exact List.forall_mem_nil _
    rename_i hs
    rw [if_neg hs] at h
    obtain ⟨hreply, hrest⟩ := List.append_eq_nil_iff.1 h
    have hfirst : ∀ e, (s.attempted (between depth) seconds c).reply ≠ .error (.error e) := by
      intro e he
      have heq : (s.attempted (between depth) seconds c).reply =
          (s.exchange (between depth) c.current seconds).2 := rfl
      rw [heq, exchange_eq, eq_nil_of_tellBetween hreply, between_nil] at he
      obtain ⟨f, -, hf⟩ := mapError_eq_error.1 he
      cases hf
    refine List.forall_mem_cons.2 ⟨hfirst, ?_⟩
    rcases hx : s.attempt (between depth) seconds c with ⟨t, progress⟩
    rw [hx] at hrest
    cases progress with
    | stopped why | answered x => exact List.forall_mem_nil _
    | followed status c' => exact ih hrest

end Session

/-! ## What an operation ends in -/

/-- What stops a chain over a response is none of the library's own errors, or the policy has had enough. -/
theorem Chain.stopped_of_feed {c : Chain} {p : Policy} {r : Response} {why : Stop}
    (h : (c.feed p (.ok r)).progress = .stopped why) :
    why.IsForeign ∨ ∃ k, why = .error (.tooManyRedirects k) := by
  simp only [feed] at h
  split at h
  · rename_i place _
    simp only [follow] at h
    split at h
    · rename_i why' hl
      obtain rfl := Progress.stopped.inj h
      exact .inl (lookAhead_isForeign _ _ _ _ hl)
    split at h
    · rename_i e he
      obtain rfl := Progress.stopped.inj h
      exact .inl (Request.redirected_isAstray _ _ _ _ e he).isForeign
    split at h
    · rename_i e he
      obtain rfl := Progress.stopped.inj h
      obtain ⟨k, rfl⟩ := Policy.eq_tooManyRedirects he
      exact .inr ⟨k, rfl⟩
    · cases h
  · unfold finish at h
    split at h
    · obtain rfl := Progress.stopped.inj h
      exact .inl (Stop.isForeign_ofFailure _)
    · cases h

/-- What stops an attempt may also be the error of a step in between. -/
theorem Attempt.stopped_cases {a : Attempt} {p : Policy} {why : Stop} (h : (a.turn p).progress = .stopped why) :
    why.IsForeign ∨ (∃ k, why = .error (.tooManyRedirects k)) ∨ ∃ e, a.reply = .error (.error e) := by
  unfold turn at h
  cases hr : a.reply with
  | ok r =>
    rw [hr] at h
    exact (Chain.stopped_of_feed h).imp_right .inl
  | error x =>
    cases x with
    | error e => exact .inr (.inr ⟨e, rfl⟩)
    | failure f =>
      rw [hr] at h
      obtain rfl := Progress.stopped.inj h
      exact .inl (Stop.isForeign_ofFailure f)

theorem Walk.stopped_cases {p : Policy} {n : Nat} {c : Chain} {as : List Attempt} {why : Stop}
    (h : Walk p n c as (.error why)) :
    why.IsForeign ∨ (∃ k, why = .error (.tooManyRedirects k)) ∨
      ∃ a ∈ as, ∃ e, a.reply = .error (.error e) := by
  generalize hresult : (Except.error why : Except Stop Answer) = result at h
  induction h with
  | exhausted =>
    obtain rfl := Except.error.inj hresult
    exact .inl rfl
  | unsendable =>
    obtain rfl := Except.error.inj hresult
    exact .inl (Stop.isForeign_ofFailure _)
  | answered => cases hresult
  | @stopped _ _ a _ _ _ hp =>
    obtain rfl := Except.error.inj hresult
    exact (Attempt.stopped_cases hp).imp_right (.imp_right fun he => ⟨a, List.mem_singleton_self a, he⟩)
  | followed _ _ _ _ ih =>
    refine (ih hresult).imp_right (.imp_right fun ⟨a, ha, he⟩ => ⟨a, List.mem_cons_of_mem _ ha, he⟩)

namespace Session

theorem isEarly_failed {why : Stop} (h : why.IsForeign ∨ ∃ k, why = .error (.tooManyRedirects k)) (m : Method)
    (r : Reference) : (failed m r why).isEarly = false := by
  rcases h with h | ⟨k, rfl⟩
  · cases why with
    | error e => exact Error.IsForeign.isEarly_eq h
    | noResponse n =>
      unfold failed
      dsimp only
      split
      · rfl
      · split <;> rfl
  · rfl

/-- **No operation ends in an error about what a step is given**, without steps in between. -/
theorem error_of_operate {depth : Nat} {s : Session} {r : Reference} {m : Method} {payload : Body}
    {headers : List (Text × Value)} {e : Error}
    (hq : s.whileOperating (between depth) (tellBetween depth) r m payload headers = [])
    (he : (s.operate (between depth) r m payload headers).2 = .error e) : e.isEarly = false := by
  cases hf : s.firstRequest r m payload headers with
  | error e' =>
    rw [(operate_of_no_request (between depth) hf).2] at he
    obtain rfl := Except.error.inj he
    exact (isForeign_of_firstRequest _ _ _ _ _ _ hf).isEarly_eq
  | ok x =>
    obtain ⟨target, first⟩ := x
    cases ht : Timeout.attempt r.timeout with
    | error why =>
      rw [(operate_of_no_time (between depth) hf ht).2] at he
      obtain rfl := Except.error.inj he
      exact isEarly_failed (.inl (isForeign_of_attempt _ _ ht)) m r
    | ok seconds =>
      obtain ⟨⟨n, result, -, hw, hresult⟩, -, -⟩ := operate_walks (grows_between depth) hf ht
      rw [hresult] at he
      cases result with
      | error why =>
        obtain rfl := Except.error.inj he
        rcases hw.stopped_cases with h | h | ⟨a, ha, e, hreply⟩
        · exact isEarly_failed (.inl h) m r
        · exact isEarly_failed (.inr h) m r
        · unfold whileOperating at hq
          unfold trace at ha
          rw [hf, ht] at hq ha
          exact absurd hreply (reply_of_quiet hq a ha e)
      | ok a =>
        unfold report refusal at he
        dsimp only at he
        split at he
        · cases he
        · obtain rfl := Except.error.inj he
          split <;> rfl

/-! ## Actions -/

theorem isEarly_decode (blob : Value) (into : Option Conversion) :
    FailsWith (fun e => e.isEarly = false) (Json.decode blob into) := by
  unfold Json.decode
  split
  · exact .error rfl
  · split
    · exact .ok _
    · unfold Json.convert
      split
      · exact .ok _
      · split
        · split
          · exact .error rfl
          · exact .error (Error.isForeign_ofPrintFault _).isEarly_eq
        · exact .error rfl

variable {meanwhile : Meanwhile} {s : Session} {place : Nat} {r : Reference} {m : Method} {payload : Body}
  {headers : List (Text × Value)} {e : Error}

theorem error_of_write (he : (s.write meanwhile r m payload).2 = .error e) :
    (s.write meanwhile r m payload).1 = (s.operate meanwhile r m payload []).1 ∧
      (s.operate meanwhile r m payload []).2 = .error e := by
  unfold write at he ⊢
  generalize s.operate meanwhile r m payload [] = x at *
  obtain ⟨t, e' | answer⟩ := x
  · obtain rfl := Except.error.inj he
    exact ⟨rfl, rfl⟩
  · cases he

/-- A child that is not created leaves the session as the operation does. -/
theorem error_of_push {v : Value} {as : Text} {bs : Bytes} (hv : Json.encode v = .ok bs)
    (he : (s.push meanwhile place r v as).2 = .error e) :
    (s.push meanwhile place r v as).1 = (s.operate meanwhile r .post (.bytes bs) []).1 ∧
      ((s.operate meanwhile r .post (.bytes bs) []).2 = .error e ∨ e.isEarly = false) := by
  unfold push at he ⊢
  simp only [hv] at he ⊢
  generalize s.operate meanwhile r .post (.bytes bs) [] = x at *
  obtain ⟨t, e' | answer⟩ := x
  · obtain rfl := Except.error.inj he
    exact ⟨rfl, .inl rfl⟩
  dsimp only at he ⊢
  cases hd : Json.decode (.bytes answer.body) none with
  | error e' =>
    simp only [hd] at he ⊢
    obtain rfl := Except.error.inj he
    exact ⟨rfl, .inr (isEarly_decode _ _ _ hd)⟩
  | ok response =>
    simp only [hd] at he ⊢
    cases hc : childName? response with
    | none =>
      simp only [hc] at he ⊢
      obtain rfl := Except.error.inj he
      exact ⟨rfl, .inr rfl⟩
    | some child =>
      simp only [hc] at he
      cases he

/-- An action that fails leaves the session as its operation does. It fails as the operation does, or over
what it reads from the answer. -/
theorem error_of_act {a : Action} (hop : a.operation? = some (m, payload, headers))
    (he : (s.act meanwhile place r a).2 = .error e) :
    (s.act meanwhile place r a).1 = (s.operate meanwhile r m payload headers).1 ∧
      ((s.operate meanwhile r m payload headers).2 = .error e ∨ a.reads = true ∧ e.isEarly = false) := by
  cases a with
  | request m' payload' headers' =>
    obtain ⟨rfl, rfl, rfl⟩ : m' = m ∧ payload' = payload ∧ headers' = headers := by
      simpa [Action.operation?] using hop
    simp only [act] at he ⊢
    generalize s.operate meanwhile r m' payload' headers' = x at *
    obtain ⟨t, e' | answer⟩ := x
    · obtain rfl := Except.error.inj he
      exact ⟨rfl, .inl rfl⟩
    · cases he
  | set v | update v =>
    simp only [act, writeValue] at he ⊢
    cases hv : Json.encode v with
    | error e' => simp [Action.operation?, hv, Except.toOption] at hop
    | ok bs =>
      obtain ⟨rfl, rfl, rfl⟩ : _ = m ∧ Body.bytes bs = payload ∧ [] = headers := by
        simpa [Action.operation?, hv, Except.toOption] using hop
      simp only [hv] at he ⊢
      obtain ⟨hsession, hresult⟩ := error_of_write he
      exact ⟨hsession, .inl hresult⟩
  | remove =>
    obtain ⟨rfl, rfl, rfl⟩ : Method.delete = m ∧ Body.none = payload ∧ [] = headers := by
      simpa [Action.operation?] using hop
    obtain ⟨hsession, hresult⟩ := error_of_write he
    exact ⟨hsession, .inl hresult⟩
  | value into =>
    obtain ⟨rfl, rfl, rfl⟩ : Method.get = m ∧ Body.none = payload ∧ [] = headers := by
      simpa [Action.operation?] using hop
    simp only [act] at he ⊢
    generalize s.operate meanwhile r .get .none [] = x at *
    obtain ⟨t, e' | answer⟩ := x
    · obtain rfl := Except.error.inj he
      exact ⟨rfl, .inl rfl⟩
    · dsimp only at he ⊢
      cases hd : Json.decode (.bytes answer.body) into with
      | error e' =>
        simp only [hd] at he ⊢
        obtain rfl := Except.error.inj he
        exact ⟨rfl, .inr ⟨rfl, isEarly_decode _ _ _ hd⟩⟩
      | ok v =>
        simp only [hd] at he
        cases he
  | push v as =>
    cases hv : Json.encode v with
    | error e' => simp [Action.operation?, hv, Except.toOption] at hop
    | ok bs =>
      obtain ⟨rfl, rfl, rfl⟩ : Method.post = m ∧ Body.bytes bs = payload ∧ [] = headers := by
        simpa [Action.operation?, hv, Except.toOption] using hop
      obtain ⟨hsession, hresult⟩ := error_of_push hv he
      exact ⟨hsession, hresult.imp_right fun h => ⟨rfl, h⟩⟩
  | _ => cases hop

/-- An action that sends nothing and fails does nothing at all. -/
theorem act_of_fails {a : Action} (ha : a.sends = false) (he : (s.act meanwhile place r a).2 = .error e) :
    (s.act meanwhile place r a).1 = s := by
  cases a with
  | request | push | set | update | remove | value => cases ha
  | derive | setUrl | resolve | sharesChannel =>
    simp only [act] at he ⊢
    split
    · rfl
    · rename_i h
      rw [h] at he
      cases he
  | bind store =>
    cases store with
    | none => cases he
    | some name =>
      simp only [act, bindStore] at he ⊢
      split
      · rfl
      · rename_i h
        rw [h] at he
        cases he
  | setTimeout | auth | unauth | shallow | includePriority | url | timeout | literal | storeNames => cases he

/-! ## Steps -/

/-- **An action that fails** has changed no reference and no store, without steps in between. Over what it is
given, or if it is of a kind that sends nothing, it fails before it has done anything. -/
theorem failing_act {depth : Nat} {a : Action}
    (hq : s.whileActing (between depth) (tellBetween depth) r a = [])
    (he : (s.act (between depth) place r a).2 = .error e) :
    let t := (s.act (between depth) place r a).1
    (t.references = s.references ∧ t.stores = s.stores) ∧ (a.sends = false ∨ e.isEarly = true → t = s) := by
  intro t
  by_cases hs : a.sends = false
  · have ht : t = s := act_of_fails hs he
    rw [ht]
    exact ⟨⟨rfl, rfl⟩, fun _ => rfl⟩
  cases hop : a.operation? with
  | none =>
    obtain hs' | ⟨e', hact⟩ := act_of_no_operation hop
    · exact absurd hs' hs
    · have ht : t = s := congrArg Prod.fst (hact s (between depth) place r)
      rw [ht]
      exact ⟨⟨rfl, rfl⟩, fun _ => rfl⟩
  | some o =>
    obtain ⟨m, payload, headers⟩ := o
    obtain ⟨ht, hresult⟩ := error_of_act hop he
    unfold whileActing at hq
    rw [hop] at hq
    refine ⟨?_, fun h => ?_⟩
    · have hmoved := composes_unmoved.conducts.operate (unmoved_between depth) s r m payload headers hq
      rwa [← ht] at hmoved
    · have hearly : e.isEarly = false := by
        rcases hresult with hresult | ⟨-, hearly⟩
        · exact error_of_operate hq hresult
        · exact hearly
      rcases h with h | h
      · exact absurd h hs
      · exact absurd (hearly.symm.trans h) Bool.false_ne_true

/-- A step that does nothing with a reference and fails does nothing at all. -/
theorem step_of_fails {t : Step} (ht : ∀ name a, t ≠ .act name a) (he : (s.step meanwhile t).2 = .error e) :
    (s.step meanwhile t).1 = s := by
  cases t with
  | store | close => cases he
  | act name a => exact absurd rfl (ht name a)
  | reference name url timeout own =>
    simp only [step] at he ⊢
    obtain ⟨e', h⟩ | ⟨text, seconds, -, -, h⟩ := refer_cases s name url timeout own
    · rw [h]
      rfl
    · rw [h] at he
      cases he
  | setToken name token | token name | storeLiteral name =>
    simp only [step, withStore] at he ⊢
    split
    · rfl
    · rename_i h
      rw [h] at he
      cases he

/-- **A step that fails** has changed no reference and no store, on the same terms. -/
theorem failing_step {depth : Nat} {t : Step}
    (hq : s.whileStepping (between depth) (tellBetween depth) t = [])
    (he : (s.step (between depth) t).2 = .error e) :
    let u := (s.step (between depth) t).1
    (u.references = s.references ∧ u.stores = s.stores) ∧ (t.sends = false ∨ e.isEarly = true → u = s) := by
  intro u
  by_cases ht : ∃ name a, t = .act name a
  · obtain ⟨name, a, rfl⟩ := ht
    have hu : u = (s.step (between depth) (.act name a)).1 := rfl
    simp only [step, whileStepping] at he hq hu
    cases hr : s.references.find? name with
    | none =>
      rw [hr] at hu
      rw [hu]
      exact ⟨⟨rfl, rfl⟩, fun _ => rfl⟩
    | some x =>
      rw [hr] at he hq hu
      rw [hu]
      exact failing_act hq he
  · have hu : u = s := step_of_fails (fun name a h => ht ⟨name, a, h⟩) he
    rw [hu]
    exact ⟨⟨rfl, rfl⟩, fun _ => rfl⟩

/-- **A step that fails changes nothing**, if no other steps were done while it waited for replies: names,
references and stores are what they were, and every reference stands for the same url. Nothing is sent

* by a step that gets a reference from another one,
* if a value has no JSON form,
* or if a url or a timeout is none, which is said by an error of the classes for these, unless it is a failure
  of such a class that was handed to the library and comes out as it is. -/
theorem failing_changes_nothing (s : Session) (t : Step) (hq : s.inBetween t = []) {e : Error}
    (he : (s.observe t).result = .error e) :
    let x := s.observe t
    x.after.references = s.references ∧ x.after.stores = s.stores ∧ (∀ r, x.after.resolve r = s.resolve r) ∧
      ((∃ name d as, t = .act name (.derive d as)) ∨ (∃ type why, e = .unwritable type why) ∨
          ((e.kind = Family.malformedUrl.kind ∨ e.kind = Family.configuration.kind) ∧ ∀ f, e ≠ .failure f) →
        x.sent = []) := by
  intro x
  obtain ⟨⟨hreferences, hstores⟩, hnothing⟩ := failing_step hq he
  refine ⟨hreferences, hstores, fun r => ?_, fun h => ?_⟩
  · have htokens : x.after.token? r = s.token? r := congrArg (fun g : Registry Value => r.store.bind g.get?) hstores
    unfold resolve
    rw [htokens]
  · have hafter : x.after = s := by
      apply hnothing
      rcases h with ⟨name, d, as, rfl⟩ | ⟨type, why, rfl⟩ | ⟨hkind, hf⟩
      · exact .inl rfl
      · exact .inr rfl
      · exact .inr (Error.isEarly_of_kind hkind hf)
    show x.after.sent.drop s.sent.length = []
    rw [hafter, List.drop_length]

/-- The answer to the creation of a child names none. -/
def unnamed : Script := ⟨⟨[], .ok ⟨200, [], [0x31], none⟩⟩, []⟩

theorem failing_changes_nothing_unnamed :
    let s := waiting unnamed
    let t : Step := .act "r" (.push (.int 1) "c")
    (s.observe t).result.isOk = false ∧ (s.observe t).sent.length = 1 ∧
      (s.observe t).after.references = s.references := by
  intro s t
  have hquiet : s.inBetween t = [] := List.isEmpty_iff.1 (by decide +kernel)
  have hfails : (s.observe t).result.isOk = false := by decide +kernel
  refine ⟨hfails, by decide +kernel, ?_⟩
  cases he : (s.observe t).result with
  | ok v =>
    rw [he] at hfails
    cases hfails
  | error e => exact (failing_changes_nothing s t hquiet he).1

/-- Instead of a reply there is a failure of the library's class for urls. -/
def misled : Script := ⟨⟨[], .error (.simple Family.malformedUrl.kind [])⟩, []⟩

/-- A failure of the class for urls may come after a request: the one that takes the place of the reply. -/
theorem failing_changes_nothing_misled :
    let s := waiting misled
    let x := s.observe (.act "r" .remove)
    s.inBetween (.act "r" .remove) = [] ∧ x.sent ≠ [] ∧
      ∃ e, x.result = .error e ∧ e.kind = Family.malformedUrl.kind := by
  intro s x
  have hsent : x.sent.length = 1 := by decide +kernel
  have hkind : (x.result.mapError Error.kind).map (fun _ => ()) = .error Family.malformedUrl.kind := by
    decide +kernel
  refine ⟨List.isEmpty_iff.1 (by decide +kernel), fun h => ?_, ?_⟩
  · rw [h] at hsent
    cases hsent
  · cases he : x.result with
    | ok v =>
      rw [he] at hkind
      cases hkind
    | error e =>
      rw [he] at hkind
      exact ⟨e, rfl, Except.error.inj hkind⟩

end Session

end RemoteTree
