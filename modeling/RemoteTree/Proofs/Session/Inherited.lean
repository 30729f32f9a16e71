import RemoteTree.Proofs.Json.Members
import RemoteTree.Proofs.Session.Creation
import RemoteTree.Proofs.Session.Release

/-!
# What references inherit

A url comes into a session in one of three ways: a step gives it, it is derived from the url of another reference,
or it is that of a child whose name is in a response of the script. So every url of every session has a property
that the base of each given url has, and that goes over to what is derived and to what is created.

* `Session.Draws`: no replies are left but some of those that were; `answer_of_operate` says that an operation
  is answered by one of them.
* `Url.Inherited`: a property that goes from the url of a reference to those of the references made from it.
* `Session.Bears`: a session all of whose urls have a property, with a script that gives no names but some.
* `bears_step`: **a step keeps that**, if the steps in between do; `bears_between` says that these do, by
  induction on how deep they go.
* `bears_timeline`: **every url has an inherited property at every moment**, if the base of each url that a step
  gives has it.
-/

namespace RemoteTree

/-! ## What the database names -/

/-- A reply whose response names a child. -/
def Reply.Names (reply : Reply) (name : Text) : Prop :=
  ∃ r body v, reply.outcome = .ok r ∧ r.read = .ok body ∧ Json.decode (.bytes body) none = .ok v ∧
    Session.childName? v = some name

/-- A script that may name a child. -/
def Script.Names (s : Script) (name : Text) : Prop := ∃ reply ∈ s.replies, reply.Names name

namespace Session

variable {s t : Session}

/-- No replies are left but some of those that were. -/
def Draws (s t : Session) : Prop := ∀ reply ∈ t.script.replies, reply ∈ s.script.replies

theorem conducts_draws : Conducts fun s _ t => s.Draws t where
  nil := by
    intro s t _ _ hscript reply hreply
    rcases hscript with hscript | hscript
    · rwa [hscript] at hreply
    · rw [hscript] at hreply
      exact Script.replies_advance hreply
  append := fun hs ht reply hreply => hs reply (ht reply hreply)

theorem draws_between (depth : Nat) (steps : List Step) (s : Session) : s.Draws (between depth steps s).1 := by
  obtain ⟨more, -, hscript, -⟩ := settles_between depth steps s
  have hiterate : ∀ (n : Nat) (x : Script) (reply : Reply), reply ∈ (Script.advance^[n] x).replies →
      reply ∈ x.replies := by
    intro n
    induction n with
    | zero => exact fun x reply hreply => hreply
    | succ n ih => exact fun x reply hreply => Script.replies_advance (ih x.advance reply hreply)
  intro reply hreply
  rw [hscript] at hreply
  exact hiterate _ _ reply hreply

/-- A response that ends an attempt with an answer is the next one of the script, and its body is read. -/
theorem answer_of_attempt {meanwhile : Meanwhile} {seconds : Option Value} {c : Chain} {answer : Answer}
    (h : (s.attempt meanwhile seconds c).2 = .answered answer) :
    ∃ r, s.script.next.outcome = .ok r ∧ r.read = .ok answer.body := by
  rw [attempt_eq, exchange_eq] at h
  dsimp only at h
  generalize (meanwhile s.script.next.meanwhile (s.sending c.current seconds)).2 = result at h
  generalize (meanwhile s.script.next.meanwhile (s.sending c.current seconds)).1.policy = p at h
  cases result with
  | error e => cases h
  | ok _ =>
    cases ho : s.script.next.outcome with
    | error f =>
      rw [ho] at h
      cases h
    | ok r =>
      rw [ho] at h
      obtain ⟨-, body, hread, rfl⟩ := Chain.of_answered h
      exact ⟨r, rfl, hread⟩

/-- What a chain is answered with is the body of a response of the script. -/
theorem answer_of_pursue (depth : Nat) (seconds : Option Value) (fuel : Nat) {c : Chain} {answer : Answer}
    (h : (s.pursue (between depth) seconds fuel c).2 = .ok answer) :
    ∃ reply ∈ s.script.replies, ∃ r, reply.outcome = .ok r ∧ r.read = .ok answer.body := by
  induction fuel generalizing s c with
  | zero => cases h
  | succ fuel ih =>
    unfold pursue at h
    split at h
    · cases h
    have hdraws : s.Draws (s.attempt (between depth) seconds c).1 :=
      @Conducts.attempt _ conducts_draws _ (tellBetween depth) (draws_between depth) s seconds c
    rcases hx : s.attempt (between depth) seconds c with ⟨u, progress⟩
    rw [hx] at h hdraws
    cases progress with
    | stopped why => cases h
    | followed status c' =>
      obtain ⟨reply, hreply, hanswer⟩ := ih h
      exact ⟨reply, hdraws reply hreply, hanswer⟩
    | answered a =>
      obtain rfl := Except.ok.inj h
      exact ⟨_, List.mem_cons_self, answer_of_attempt (congrArg Prod.snd hx)⟩

/-- **What an operation is answered with** is the body of a response of the script. -/
theorem answer_of_operate (depth : Nat) {r : Reference} {m : Method} {payload : Body}
    {headers : List (Text × Value)} {answer : Answer}
    (h : (s.operate (between depth) r m payload headers).2 = .ok answer) :
    ∃ reply ∈ s.script.replies, ∃ x, reply.outcome = .ok x ∧ x.read = .ok answer.body := by
  unfold operate at h
  cases hf : s.firstRequest r m payload headers with
  | error e =>
    rw [hf] at h
    cases h
  | ok x =>
    obtain ⟨target, first⟩ := x
    rw [hf] at h
    unfold submit at h
    cases ht : Timeout.attempt r.timeout with
    | error why =>
      rw [ht] at h
      cases h
    | ok seconds =>
      have hscript : (s.noteFirst m target).script = s.script := script_note _ _ _ _
      rw [ht] at h
      dsimp only at h
      rcases hx : (s.noteFirst m target).pursue (between depth) seconds (s.noteFirst m target).patience
        (.start first) with ⟨u, why | a⟩
      · rw [hx] at h
        cases h
      · rw [hx] at h
        have hreport : report m r (.ok a) = .ok answer := (judge_snd u m r a).symm.trans h
        have ha : a = answer := by
          unfold report at hreport
          dsimp only at hreport
          split at hreport
          · exact Except.ok.inj hreport
          · cases hreport
        rw [← hscript, ← ha]
        exact answer_of_pursue depth seconds _ (congrArg Prod.snd hx)

end Session

/-! ## Inherited properties -/

/-- The string that a step makes a reference of or sets it to. -/
def Step.given? : Step → Option Text
  | .reference _ (.text url) _ _ => some url
  | .act _ (.setUrl (.text url)) => some url
  | _ => none

/-- A property that goes from the url of a reference to that of what is derived from it, and to that of a child
under any of some names. -/
structure Url.Inherited (names P : Text → Prop) : Prop where
  derived : ∀ {r c : Reference} {d : Derivation}, P r.url → r.derive d = .ok c → P c.url
  named : ∀ {url name : Text}, P url → names name → name ≠ [] → P (Url.base url ++ "/" ++ name)

namespace Session

variable {s t u : Session} {names P : Text → Prop}

/-- A session whose urls have a property, with a script that gives no other names. -/
structure Bears (names P : Text → Prop) (s : Session) : Prop where
  references : ∀ r ∈ s.references.items, P r.url
  script : ∀ name, s.script.Names name → names name

theorem bears_start (script : Script) (policy : Policy) (level : Int) (timeouts : Timeout.Settings) (trust : Trust) :
    (start script policy level timeouts trust).Bears script.Names P :=
  ⟨List.forall_mem_nil _, fun _ h => h⟩

namespace Bears

/-- No replies are there but some of those that were, so they give no other names. -/
theorem of_draws (h : s.Bears names P) (hd : s.Draws t) (hr : ∀ r ∈ t.references.items, P r.url) :
    t.Bears names P :=
  ⟨hr, fun name ⟨reply, hreply, hnames⟩ => h.script name ⟨reply, hd reply hreply, hnames⟩⟩

/-- Nothing has been done to references. -/
theorem of_eq (h : s.Bears names P) (hr : t.references = s.references) (hd : s.Draws t) : t.Bears names P := by
  refine h.of_draws hd ?_
  rw [hr]
  exact h.references

theorem draws_of_eq (hscript : t.script = s.script) : s.Draws t := fun _ hreply => hscript ▸ hreply

/-- A new reference whose url has the property. -/
theorem insert (h : s.Bears names P) {as : Text} {c : Reference} (hr : t.references = s.references.insert as c)
    (hd : s.Draws t) (hc : P c.url) : t.Bears names P := by
  refine h.of_draws hd fun r hmem => ?_
  rw [hr] at hmem
  rcases List.mem_append.1 hmem with hmem | hmem
  · exact h.references r hmem
  · rw [List.mem_singleton.1 hmem]
    exact hc

/-- A change of a reference that leaves the property to its url. -/
theorem modify (h : s.Bears names P) {place : Nat} {f : Reference → Reference}
    (hr : t.references = s.references.modify place f) (hd : s.Draws t)
    (hf : ∀ r : Reference, P r.url → P (f r).url) : t.Bears names P := by
  refine h.of_draws hd fun r hmem => ?_
  rw [hr] at hmem
  obtain ⟨i, hi⟩ := List.mem_iff_getElem?.1 hmem
  rw [show (s.references.modify place f).items = s.references.items.modify place f from rfl,
    List.getElem?_modify] at hi
  obtain ⟨q, hq, rfl⟩ := Option.map_eq_some_iff.1 hi
  have hbears := h.references q (List.mem_of_getElem? hq)
  split
  · exact hf q hbears
  · exact hbears

/-- Another line in the log. -/
theorem note (h : s.Bears names P) (level : Int) (source : Source) (message : Text) :
    (s.note level source message).Bears names P :=
  h.of_eq (references_note _ _ _ _) (draws_of_eq (script_note _ _ _ _))

end Bears

/-- What a row of moments makes of a session whose urls have a property, if the bases of the urls that its steps
give have it. -/
def Hands (names P : Text → Prop) (s : Session) (ms : List Moment) (t : Session) : Prop :=
  (∀ m ∈ ms, ∀ url ∈ m.step.given?, P (Url.base url)) → s.Bears names P →
    (∀ m ∈ ms, m.before.Bears names P ∧ m.after.Bears names P) ∧ t.Bears names P

theorem conducts_hands : Conducts (Hands names P) where
  nil := fun hr hs hscript _ h => ⟨List.forall_mem_nil _, h.of_eq hr (conducts_draws.nil hr hs hscript)⟩
  append := by
    intro s t u ms ns hms hns hgiven h
    obtain ⟨hm, ht⟩ := hms (fun m hm => hgiven m (List.mem_append_left _ hm)) h
    obtain ⟨hn, hu⟩ := hns (fun m hm => hgiven m (List.mem_append_right _ hm)) ht
    exact ⟨List.forall_mem_append.2 ⟨hm, hn⟩, hu⟩

/-- One moment. -/
theorem hands_singleton {m : Moment}
    (h : (∀ url ∈ m.step.given?, P (Url.base url)) → m.before.Bears names P → m.after.Bears names P) :
    Hands names P m.before [m] m.after := by
  intro hgiven hbefore
  have hafter := h (hgiven m (List.mem_singleton_self m)) hbefore
  refine ⟨fun x hx => ?_, hafter⟩
  rw [List.mem_singleton.1 hx]
  exact ⟨hbefore, hafter⟩

/-! ## Steps -/

section

variable (hP : Url.Inherited names P)

include hP

/-- An action that sends nothing keeps the property, if the base of the url that it sets has it. -/
theorem bears_act_quiet (meanwhile : Meanwhile) {name : Text} {place : Nat} {r : Reference} {a : Action}
    (hr : s.references.get? place = some r) (ha : a.sends = false)
    (hgiven : ∀ url ∈ (Step.act name a).given?, P (Url.base url)) (h : s.Bears names P) :
    (s.act meanwhile place r a).1.Bears names P := by
  have hdraws : s.Draws (s.act meanwhile place r a).1 :=
    Bears.draws_of_eq (congrArg Session.script (wire_act meanwhile s place r ha) :)
  cases touches_of_quiet meanwhile s place r ha with
  | nothing hx _ => exact h.of_eq hx hdraws
  | derived _ hd hx =>
    exact h.insert hx hdraws (hP.derived (h.references r (List.mem_of_getElem? hr)) hd)
  | moved hset _ hx =>
    obtain rfl := hset
    exact h.modify hx hdraws fun _ _ => hgiven _ rfl
  | changed _ hx hf =>
    refine h.modify hx hdraws fun q hq => ?_
    rw [hf]
    exact hq

variable {depth : Nat} (hm : ∀ steps s, Hands names P s (tellBetween depth steps s) (between depth steps s).1)

include hm

/-- An action with an operation keeps the property: a created child has a name that a response gives. -/
theorem bears_act_sends {name : Text} {place : Nat} {r : Reference} {a : Action}
    (hr : s.references.get? place = some r) {m : Method} {payload : Body} {headers : List (Text × Value)}
    (hop : a.operation? = some (m, payload, headers)) :
    let x := s.act (between depth) place r a
    Hands names P s (s.whileActing (between depth) (tellBetween depth) r a ++ [⟨s, .act name a, x.2, x.1⟩]) x.1 := by
  intro x hgiven h
  have hwhile : s.whileActing (between depth) (tellBetween depth) r a =
      s.whileOperating (between depth) (tellBetween depth) r m payload headers := by
    unfold whileActing
    rw [hop]
  rw [hwhile] at hgiven ⊢
  obtain ⟨hms, ht⟩ := conducts_hands.operate hm s r m payload headers
    (fun y hy => hgiven y (List.mem_append_left _ hy)) h
  have hx : x.1.Bears names P := by
    obtain hask | ⟨v, as, bs, rfl, hv, rfl, rfl, rfl⟩ := asks_or_push hop
    · obtain ⟨read, hact⟩ := act_of_asking hask r hop
      rw [show x.1 = _ from congrArg Prod.fst (hact s (between depth) place)]
      exact ht
    obtain hu | ⟨answer, response, child, ha, hd, hc, hu⟩ := push_cases (between depth) s place r hv as
    · rw [show x.1 = _ from hu]
      exact ht
    · obtain ⟨reply, hreply, y, hy, hread⟩ := answer_of_operate depth ha
      obtain ⟨-, -, -, hne⟩ := childName?_eq_some_iff.1 hc
      have hnames : names child := h.script child ⟨reply, hreply, y, answer.body, response, hy, hread, hd, hc⟩
      -- the source may have been set to another url while the request was on its way
      have hsource : P (((s.operate (between depth) r .post (.bytes bs) []).1.references.get? place).getD r).url := by
        cases hq : (s.operate (between depth) r .post (.bytes bs) []).1.references.get? place with
        | none => exact h.references r (List.mem_of_getElem? hr)
        | some q => exact ht.references q (List.mem_of_getElem? hq)
      rw [show x.1 = _ from hu]
      exact (ht.note _ _ _).insert rfl (Bears.draws_of_eq rfl)
        (hP.named hsource hnames hne)
  refine ⟨List.forall_mem_append.2 ⟨hms, fun y hy => ?_⟩, hx⟩
  rw [List.mem_singleton.1 hy]
  exact ⟨h, hx⟩

theorem bears_act {name : Text} {place : Nat} {r : Reference} (hr : s.references.get? place = some r) (a : Action) :
    let x := s.act (between depth) place r a
    Hands names P s (s.whileActing (between depth) (tellBetween depth) r a ++ [⟨s, .act name a, x.2, x.1⟩]) x.1 := by
  intro x
  cases hop : a.operation? with
  | some o =>
    obtain ⟨m, payload, headers⟩ := o
    exact bears_act_sends hP hm hr hop
  | none =>
    have hwhile : s.whileActing (between depth) (tellBetween depth) r a = [] := by
      unfold whileActing
      rw [hop]
    rw [hwhile, List.nil_append]
    refine hands_singleton fun hgiven h => ?_
    obtain hs | ⟨e, he⟩ := act_of_no_operation hop
    · exact bears_act_quiet hP _ hr hs hgiven h
    · have hx : x = s.fails e := he s (between depth) place r
      show x.1.Bears names P
      rw [hx]
      exact h

/-- **A step** keeps the property, if the steps in between do. -/
theorem bears_step (s : Session) (t : Step) :
    let x := s.step (between depth) t
    Hands names P s (s.whileStepping (between depth) (tellBetween depth) t ++ [⟨s, t, x.2, x.1⟩]) x.1 := by
  have hone : ∀ {x : Performed},
      ((∀ url ∈ t.given?, P (Url.base url)) → s.Bears names P → x.1.Bears names P) →
        Hands names P s ([] ++ [⟨s, t, x.2, x.1⟩]) x.1 := fun h => hands_singleton h
  intro x
  cases t with
  | reference name url timeout own =>
    refine hone fun hgiven h => ?_
    obtain ⟨e, he⟩ | ⟨text, seconds, hurl, -, he⟩ := refer_cases s name url timeout own
    · rw [show x = _ from he]
      exact h
    · obtain rfl := Value.eq_text_of_asText hurl
      have hchannels : ({ s with channels := if own then s.channels + 1 else s.channels } : Session).Bears names P :=
        h.of_eq rfl (Bears.draws_of_eq rfl)
      rw [show x = _ from he]
      exact hchannels.insert rfl (Bears.draws_of_eq rfl) (hgiven text rfl)
  | store | close => exact hone fun _ h => h.of_eq rfl (Bears.draws_of_eq rfl)
  | setToken | token | storeLiteral =>
    refine hone fun _ h => ?_
    simp only [x, step, withStore]
    split <;> exact h.of_eq rfl (Bears.draws_of_eq rfl)
  | act name a =>
    simp only [x, step, whileStepping]
    cases hf : s.references.find? name with
    | none => exact hone fun _ h => h
    | some y => exact bears_act hP hm (Registry.find?_eq_some.1 hf).2 a

omit hm

/-- **Steps in between** keep the property, however deep they go. -/
theorem bears_between (depth : Nat) (steps : List Step) (s : Session) :
    Hands names P s (tellBetween depth steps s) (between depth steps s).1 := by
  induction depth generalizing steps s with
  | zero => exact conducts_hands.row (fun s t => hands_singleton fun _ h => h) s steps
  | succ depth ih => exact conducts_hands.row (fun s t => bears_step hP ih s t) s steps

/-- **A row of steps of the client** keeps the property. -/
theorem bears_timeline (s : Session) (steps : List Step) : Hands names P s (s.timeline steps) (s.run steps) := by
  induction steps generalizing s with
  | nil => exact conducts_hands.of_eq rfl rfl rfl
  | cons t rest ih =>
    have ht := bears_step hP (bears_between hP (s.script.length + nesting)) s t
    rw [timeline, run_cons, ← List.singleton_append, ← List.append_assoc]
    exact conducts_hands.append ht (ih _)

end

/-- Every reference at every moment of a session has a url with an inherited property, if the bases of the urls
that steps give have it. -/
theorem of_inherited {script : Script} (hP : Url.Inherited script.Names P) {policy : Policy} {level : Int}
    {timeouts : Timeout.Settings} {trust : Trust} {steps : List Step}
    (hgiven : ∀ m ∈ (start script policy level timeouts trust).timeline steps, ∀ url ∈ m.step.given?, P (Url.base url))
    {m : Moment} (hm : m ∈ (start script policy level timeouts trust).timeline steps)
    (ht : t = m.before ∨ t = m.after) {place : Nat} {r : Reference} (hr : t.references.get? place = some r) :
    P r.url := by
  obtain ⟨hmoments, -⟩ := bears_timeline hP _ steps hgiven (bears_start script policy level timeouts trust)
  obtain ⟨hbefore, hafter⟩ := hmoments m hm
  rcases ht with rfl | rfl
  · exact hbefore.references r (List.mem_of_getElem? hr)
  · exact hafter.references r (List.mem_of_getElem? hr)

end Session

end RemoteTree
