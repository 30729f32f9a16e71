import RemoteTree.Proofs.Session.Action
import RemoteTree.Proofs.Session.History
import RemoteTree.Proofs.Url.Target

/-!
# Where a created child is

A child is created at the url that its reference has when the request is issued. The reference to it is made
when the answer has come, from the reference as it is then: its url may have been set in between, and it is
put into the form of a base once more.

* `urlAfter`: the url of a reference after a row of moments, of which only those count that set it.
* `keeps_step`: a step keeps every reference in its place, with the url that the moments say;
  `keeps_between`: so do steps in between, by induction on how deep they go.
* `push_yields_child`: **the new reference is the child of what the url is at the end**, and the line of the
  log says so; it is the child of what was asked for exactly if the base of the one url is the other.
-/

namespace RemoteTree

/-- The url that a moment gives to the reference at a place, if it gives it one. -/
def Moment.urlSet? (place : Nat) (m : Moment) : Option Text :=
  match m.step with
  | .act name (.setUrl url) =>
    if m.result.isOk && m.before.references.place? name == some place then
      (url.asText .startsWith).toOption.map Url.base
    else none
  | _ => none

/-- The url of the reference at a place after a row of moments, if it is `url` before them. -/
def urlAfter (place : Nat) (url : Text) (ms : List Moment) : Text :=
  ms.foldl (fun u m => (m.urlSet? place).getD u) url

theorem urlAfter_append (place : Nat) (url : Text) (ms ns : List Moment) :
    urlAfter place url (ms ++ ns) = urlAfter place (urlAfter place url ms) ns :=
  List.foldl_append

/-- A new thing leaves the others where they are. -/
theorem Registry.get?_insert {α : Type} {g : Registry α} {place : Nat} {x : α} (h : g.get? place = some x)
    (name : Text) (a : α) : (g.insert name a).get? place = some x :=
  List.getElem?_append_left (List.getElem?_eq_some_iff.1 h).1 |>.trans h

/-- A new thing is found under its name. -/
theorem Registry.find?_insert {α : Type} (g : Registry α) (name : Text) (a : α) :
    (g.insert name a).find? name = some (g.items.length, a) :=
  find?_eq_some.2 ⟨g.place?_insert name a, List.getElem?_concat_length⟩

namespace Session

variable {s t u : Session} {place : Nat} {r : Reference}

/-- Every reference is still in its place, with the url that the moments say. -/
def Keeps (s : Session) (ms : List Moment) (t : Session) : Prop :=
  ∀ place r, s.references.get? place = some r →
    ∃ q, t.references.get? place = some q ∧ q.url = urlAfter place r.url ms

theorem composes_keeps : Composes Keeps where
  nil := fun hr _ _ r h => ⟨r, by rw [hr]; exact h, rfl⟩
  append := by
    intro s t u ms ns hms hns place r hr
    obtain ⟨q, hq, hurl⟩ := hms place r hr
    obtain ⟨p, hp, hurl'⟩ := hns place q hq
    exact ⟨p, hp, by rw [hurl', hurl, urlAfter_append]⟩

/-! ## One moment -/

/-- What only names a new reference keeps the others. -/
theorem keeps_insert {m : Moment} (hm : ∀ place, m.urlSet? place = none) {as : Text} {c : Reference}
    (ht : t.references = s.references.insert as c) : s.Keeps [m] t := by
  intro place r hr
  refine ⟨r, by rw [ht]; exact Registry.get?_insert hr as c, ?_⟩
  simp [urlAfter, hm]

/-- What leaves the references as they are keeps them. -/
theorem keeps_of_eq {m : Moment} (hm : ∀ place, m.urlSet? place = none)
    (ht : t.references = s.references) : s.Keeps [m] t := by
  intro place r hr
  refine ⟨r, by rw [ht]; exact hr, ?_⟩
  simp [urlAfter, hm]

/-- A change of a reference keeps them all, if the moment says what becomes of its url. -/
theorem keeps_modify {m : Moment} {f : Reference → Reference} (ht : t.references = s.references.modify place f)
    (hf : ∀ r, (f r).url = (m.urlSet? place).getD r.url)
    (hm : ∀ other, other ≠ place → m.urlSet? other = none) : s.Keeps [m] t := by
  intro other r hr
  have hget : t.references.get? other = some (if place = other then f r else r) := by
    rw [ht]
    show (s.references.items.modify place f)[other]? = _
    rw [List.getElem?_modify, show s.references.items[other]? = some r from hr]
    rfl
  refine ⟨if place = other then f r else r, hget, ?_⟩
  by_cases he : place = other
  · obtain rfl := he
    rw [if_pos rfl, hf]
    rfl
  · rw [if_neg he]
    simp [urlAfter, hm other (Ne.symm he)]

/-- Only setting a url sets one, and only if it does not fail. -/
theorem urlSet?_eq_none {name : Text} {a : Action} {x : Performed} (h : ∀ v, a = .setUrl v → x.2.isOk = false)
    (other : Nat) : Moment.urlSet? other ⟨s, .act name a, x.2, x.1⟩ = none := by
  unfold Moment.urlSet?
  cases a with
  | setUrl v => simp [h v rfl]
  | _ => rfl

/-- A step that sends nothing keeps the references. -/
theorem keeps_act_quiet (meanwhile : Meanwhile) {name : Text} {a : Action}
    (hp : s.references.place? name = some place) (ha : a.sends = false) :
    let x := s.act meanwhile place r a
    s.Keeps [⟨s, .act name a, x.2, x.1⟩] x.1 := by
  intro x
  cases touches_of_quiet meanwhile s place r ha with
  | nothing h hn => exact keeps_of_eq (urlSet?_eq_none hn) h
  | derived hd _ h => exact keeps_insert (urlSet?_eq_none fun v hv => by rw [hd] at hv; cases hv) h
  | @moved text hset hok h =>
    obtain rfl := hset
    have hurl : ∀ other, Moment.urlSet? other ⟨s, .act name (.setUrl (.text text)), x.2, x.1⟩ =
        if place = other then some (Url.base text) else none := by
      intro other
      simp [Moment.urlSet?, x, hok, hp, Value.asText, Except.toOption]
    refine keeps_modify h (fun q => ?_) fun other hne => ?_
    · rw [hurl, if_pos rfl]
      rfl
    · rw [hurl, if_neg (Ne.symm hne)]
  | changed hn h hf =>
    have hnone : ∀ other, Moment.urlSet? other ⟨s, .act name a, x.2, x.1⟩ = none :=
      urlSet?_eq_none fun v hv => absurd hv (hn v)
    refine keeps_modify h (fun q => ?_) fun other _ => hnone other
    rw [hnone, hf]
    rfl

/-! ## Steps -/

section

variable {meanwhile : Meanwhile} {tell : Teller} (hm : ∀ steps s, Keeps s (tell steps s) (meanwhile steps s).1)

include hm

theorem keeps_act {name : Text} (hp : s.references.place? name = some place) (a : Action) :
    let x := s.act meanwhile place r a
    s.Keeps (s.whileActing meanwhile tell r a ++ [⟨s, .act name a, x.2, x.1⟩]) x.1 := by
  intro x
  unfold whileActing
  cases hop : a.operation? with
  | some o =>
    obtain ⟨m, payload, headers⟩ := o
    refine composes_keeps.append (composes_keeps.conducts.operate hm s r m payload headers) ?_
    -- an action that comes to an operation sets no url
    have hset : ∀ other, Moment.urlSet? other ⟨s, .act name a, x.2, x.1⟩ = none := by
      intro other
      cases a <;> first | rfl | cases hop
    rcases act_of_operation meanwhile s place r hop with heq | ⟨line, as, c, heq⟩
    · exact keeps_of_eq hset (congrArg Session.references heq)
    · have hinsert : x.1.references = (s.operate meanwhile r m payload headers).1.references.insert as c := by
        rw [show x.1 = _ from heq, introduce, references_note]
      exact keeps_insert hset hinsert
  | none =>
    rcases act_of_no_operation hop with ha | ⟨e, he⟩
    · exact keeps_act_quiet meanwhile hp ha
    · have hx : x = s.fails e := he s meanwhile place r
      have hset : ∀ other, Moment.urlSet? other ⟨s, .act name a, x.2, x.1⟩ = none := by
        intro other
        rw [hx]
        cases a <;> rfl
      exact keeps_of_eq hset (congrArg (fun y : Performed => y.1.references) hx)

/-- **A step** keeps the references, if the steps in between do. -/
theorem keeps_step (s : Session) (t : Step) :
    let x := s.step meanwhile t
    s.Keeps (s.whileStepping meanwhile tell t ++ [⟨s, t, x.2, x.1⟩]) x.1 := by
  cases t with
  | reference name url timeout own =>
    simp only [step, whileStepping, List.nil_append]
    rcases refer_cases s name url timeout own with ⟨e, he⟩ | ⟨text, seconds, -, -, he⟩
    · rw [he]
      exact keeps_of_eq (fun _ => rfl) rfl
    · rw [he]
      exact keeps_insert (fun _ => rfl) rfl
  | store | close => exact keeps_of_eq (fun _ => rfl) rfl
  | setToken | token | storeLiteral =>
    simp only [step, whileStepping, List.nil_append, withStore]
    split <;> exact keeps_of_eq (fun _ => rfl) rfl
  | act name a =>
    simp only [step, whileStepping]
    cases hf : s.references.find? name with
    | none =>
      refine keeps_of_eq (fun _ => ?_) rfl
      simp only [Moment.urlSet?]
      cases a <;> rfl
    | some x => exact keeps_act hm (Registry.find?_eq_some.1 hf).1 a

end

/-- **Steps in between** keep the references, however deep they go. -/
theorem keeps_between (depth : Nat) (steps : List Step) (s : Session) :
    s.Keeps (tellBetween depth steps s) (between depth steps s).1 := by
  induction depth generalizing steps s with
  | zero =>
    refine composes_keeps.conducts.row (fun s t => keeps_of_eq (fun _ => ?_) rfl) s steps
    cases t with
    | act name a => cases a <;> rfl
    | _ => rfl
  | succ depth ih => exact composes_keeps.conducts.row (fun s t => keeps_step ih s t) s steps

/-- The steps in between a step of the client and its end keep the references. -/
theorem keeps_operate (s : Session) {a : Action} {m : Method} {payload : Body} {headers : List (Text × Value)}
    {name : Text} (hr : s.references.find? name = some (place, r))
    (ha : a.operation? = some (m, payload, headers)) :
    s.Keeps (s.inBetween (.act name a))
      (s.operate (between (s.script.length + nesting)) r m payload headers).1 := by
  have ho := composes_keeps.conducts.operate (keeps_between (s.script.length + nesting)) s r m payload headers
  simpa only [inBetween, whileStepping, hr, whileActing, ha] using ho

/-! ## Creation -/

/-- An operation that comes to an answer has sent a request, for the url of its reference. -/
theorem asked_of_answered {meanwhile : Meanwhile} (hm : meanwhile.Grows) {m : Method} {payload : Body}
    {headers : List (Text × Value)} {answer : Answer}
    (ha : (s.operate meanwhile r m payload headers).2 = .ok answer) :
    ∃ q query, ((s.operate meanwhile r m payload headers).1.sent.drop s.sent.length).head? = some q ∧
      (r.effective (s.token? r)).query = .ok query ∧
      Url.target (r.url ++ "/.json" ++ query) = .ok q.request.url := by
  obtain ⟨q, hq⟩ : ∃ q,
      ((s.operate meanwhile r m payload headers).1.sent.drop s.sent.length).head? = some q := by
    obtain ⟨seconds, hsent⟩ := sent_of_operate hm s r m payload headers
    obtain ⟨target, first, n, -, -, hw⟩ := walk_of_answered hm ha
    rw [hsent, List.drop_left]
    generalize s.trace meanwhile r m payload headers = as at hw
    -- a walk without attempts comes to no answer
    cases hw with
    | answered | followed => exact ⟨_, rfl⟩
  obtain ⟨target, hresolve, hprepare⟩ := firstRequest_of_sent hm hq
  obtain ⟨query, hquery, htarget⟩ := bind_eq_ok.1 hresolve
  obtain rfl := Except.ok.inj htarget
  exact ⟨q, query, hq, hquery, (Request.target_of_prepare hprepare).1⟩

/-- **Where a created child is.** A value is pushed to a reference, and the database answers with the name of
the child that it has created.

* The request is sent for the url that the reference had when it was issued.
* The new reference, and the line of the log, show the child of the url that the reference has when the answer
  has come, once more in the form of a base.
* This is the child of the url that the request was sent for exactly if that form of the one url is the
  other. -/
theorem push_yields_child (s : Session) (as : Text) {name : Text} {v response : Value} {bs : Bytes}
    {answer : Answer} {child : Text} (hr : s.references.find? name = some (place, r)) (hv : Json.encode v = .ok bs)
    (ha : (s.operate (between (s.script.length + nesting)) r .post (.bytes bs) []).2 = .ok answer)
    (hd : Json.decode (.bytes answer.body) none = .ok response) (hc : childName? response = some child) :
    let x := s.observe (.act name (.push v as))
    let created := Url.base (urlAfter place r.url (s.inBetween (.act name (.push v as)))) ++ "/" ++ child
    x.result = .ok (.value .none) ∧
      (∃ q query, x.sent.head? = some q ∧ (r.effective (s.token? r)).query = .ok query ∧
        Url.target (r.url ++ "/.json" ++ query) = .ok q.request.url) ∧
      (∃ p c, x.after.references.find? as = some (p, c) ∧ c.url = created) ∧
      (Log.admits s.level Log.infoLevel = true →
        x.log.getLast? = some ⟨Log.infoLevel, .client, "created " ++ created⟩) ∧
      (created = r.url ++ "/" ++ child ↔
        Url.base (urlAfter place r.url (s.inBetween (.act name (.push v as)))) = r.url) := by
  intro x created
  have hgrows := grows_operate (grows_between (s.script.length + nesting)) s r .post (.bytes bs) []
  have hop : (Action.push v as).operation? = some (.post, .bytes bs, []) := by
    simp [Action.operation?, hv, Except.toOption]
  have hkeeps := keeps_operate s hr hop
  obtain ⟨q, query, hq, hquery, htarget⟩ := asked_of_answered (grows_between _) ha
  -- what the step comes to, once the answer is there
  rcases ho : s.operate (between (s.script.length + nesting)) r .post (.bytes bs) [] with ⟨t, result⟩
  rw [ho] at ha hgrows hkeeps hq
  obtain rfl : result = .ok answer := ha
  obtain ⟨r', hr', hurl⟩ := hkeeps place r (Registry.find?_eq_some.1 hr).2
  have hcreated : (r'.named child).url = created := by
    show Url.base r'.url ++ "/" ++ child = created
    rw [hurl]
  have hperform : s.perform (.act name (.push v as)) =
      ((t.note Log.infoLevel .client ("created " ++ created)).introduce as (r'.named child)).done := by
    simp only [perform, step, hr, act, push, hv, ho, hd, hc]
    rw [show t.references.get? place = some r' from hr', Option.getD_some, hcreated]
  have hx : x = ⟨.ok (.value .none),
      (t.note Log.infoLevel .client ("created " ++ created)).sent.drop s.sent.length,
      (t.note Log.infoLevel .client ("created " ++ created)).log.drop s.log.length,
      (t.note Log.infoLevel .client ("created " ++ created)).introduce as (r'.named child)⟩ := by
    simp only [x, observe, hperform]
    rfl
  refine ⟨by rw [hx], ⟨q, query, ?_, hquery, htarget⟩, ?_, fun hl => ?_, ?_⟩
  · rw [hx]
    dsimp only
    rw [sent_note]
    exact hq
  · rw [hx]
    exact ⟨_, _, Registry.find?_insert _ as _, hcreated⟩
  · rw [hx]
    dsimp only
    unfold note
    rw [if_pos (hgrows.level ▸ hl), List.drop_append_of_le_length hgrows.log.length_le]
    exact List.getLast?_concat
  · simp only [created, List.append_assoc]
    exact List.append_left_inj _

/-- The url of the reference is set before the database answers with the name `k` of a new child. -/
def movedTo (url : Text) : Script :=
  ⟨⟨[.act "r" (.setUrl (.text url))],
    .ok ⟨200, [], [0x7B, 0x22, 0x6E, 0x61, 0x6D, 0x65, 0x22, 0x3A, 0x22, 0x6B, 0x22, 0x7D], none⟩⟩, []⟩

/-- The url is set to what it is already, with a slash at its end: the child is where it was created. -/
theorem push_yields_child_same :
    let s := waiting (movedTo "http://a/")
    ∃ p c, (s.observe (.act "r" (.push (.int 1) "c"))).after.references.find? "c" = some (p, c) ∧
      c.url = Text.ofString "http://a/k" := by
  intro s
  have hanswer : (s.operate (between (s.script.length + nesting)) (.make "http://a" 0 (.int 3)) .post
      (.bytes [0x31]) []).2.toOption.map Answer.body =
        some [0x7B, 0x22, 0x6E, 0x61, 0x6D, 0x65, 0x22, 0x3A, 0x22, 0x6B, 0x22, 0x7D] := by
    decide +kernel
  obtain ⟨answer, ha, hbody⟩ := Option.map_eq_some_iff.1 hanswer
  have hname : ((Json.decode (.bytes answer.body) none).toOption.bind childName?) = some (Text.ofString "k") := by
    rw [hbody]
    decide +kernel
  obtain ⟨response, hd, hc⟩ := Option.bind_eq_some_iff.1 hname
  have hv : (Json.encode (.int 1)).toOption = some [0x31] := by decide +kernel
  have hr : s.references.find? "r" = some (0, .make "http://a" 0 (.int 3)) := rfl
  have hurl : Url.base (urlAfter 0 (Reference.make "http://a" 0 (.int 3)).url
      (s.inBetween (.act "r" (.push (.int 1) "c")))) = Text.ofString "http://a" := by
    decide +kernel
  have hchild : (Text.ofString "http://a" ++ Text.ofString "/" ++ Text.ofString "k" : Text) =
      Text.ofString "http://a/k" := rfl
  have hcreated := push_yields_child s "c" hr (eq_ok_of_toOption hv) (eq_ok_of_toOption ha)
    (eq_ok_of_toOption hd) hc
  rw [hurl, hchild] at hcreated
  exact hcreated.2.2.1

/-- The url is set to another one: the child is created below the first url, and the new reference and the log
show it below the second one. -/
theorem push_yields_child_elsewhere :
    let x := (waiting (movedTo "http://b")).observe (.act "r" (.push (.int 1) "c"))
    x.result.isOk = true ∧ x.sent.map (fun q => q.request.url) = [Text.ofString "http://a/.json"] ∧
      (x.after.references.find? "c").map (fun c => c.2.url) = some (Text.ofString "http://b/k") ∧
      x.log.getLast? = some ⟨Log.infoLevel, .client, "created http://b/k"⟩ := by
  decide +kernel

end Session

end RemoteTree
