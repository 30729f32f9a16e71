import RemoteTree.Proofs.Session.Creation
import RemoteTree.Proofs.Session.Release

/-!
# The creation of a child, from end to end

The creation of a child is an operation with the encoded value, and what is read from its answer. Without steps in
between the operation leaves references and stores as they are, and in the log only lines about what is sent. So all
that a creation adds to its operation is the child and a line about it.

* `Script.IsQuiet`: a script without steps before its replies.
* `Session.Alone`: what an operation under such a script does to a session; `alone_operate` says that it does no
  more.
* `Session.Creates`: what a creation adds to its operation; `creates_of_encoded` says that it adds this.
* `creation_from_end_to_end`: **what comes of a creation for every value and every answer**, and what is left as it
  was.
-/

namespace RemoteTree

/-- A script without steps before its replies. -/
def Script.IsQuiet (s : Script) : Prop := ∀ reply ∈ s.replies, reply.meanwhile = []

theorem Script.IsQuiet.advance {s : Script} (h : s.IsQuiet) : s.advance.IsQuiet :=
  fun reply hreply => h reply (replies_advance hreply)

/-- A line of the log about a child that was created. -/
def LogLine.tellsCreation (line : LogLine) : Bool := (Text.ofString "created ").isPrefixOf line.message

/-- The loggers take lines about what has been done if their level is that one or a lower one. Level zero is none, and
the root takes only worse lines. -/
theorem Log.admits_info_iff {own : Int} : admits own infoLevel = true ↔ own ≠ 0 ∧ own ≤ infoLevel := by
  unfold admits
  rcases eq_or_ne own 0 with rfl | hne
  · decide
  · have hpos : (0 < infoLevel) := by decide
    simp [hne, hpos]

namespace Session

variable {s t u : Session}

/-! ## Operations alone -/

/-- What an operation without steps in between does to a session: references and stores are the same, and only lines
about what is sent have come to the log. -/
structure Alone (s t : Session) : Prop where
  references : t.references = s.references
  stores : t.stores = s.stores
  script : s.script.IsQuiet → t.script.IsQuiet
  log : ∃ lines, t.log = s.log ++ lines ∧ ∀ line ∈ lines, line.tellsCreation = false

namespace Alone

theorem of_eq (hr : t.references = s.references) (hs : t.stores = s.stores)
    (hscript : s.script.IsQuiet → t.script.IsQuiet) (hlog : t.log = s.log) : s.Alone t :=
  ⟨hr, hs, hscript, [], by rw [hlog, List.append_nil], List.forall_mem_nil _⟩

theorem refl (s : Session) : s.Alone s := of_eq rfl rfl id rfl

theorem trans (hs : s.Alone t) (ht : t.Alone u) : s.Alone u := by
  obtain ⟨lines, hlines, hnone⟩ := hs.log
  obtain ⟨more, hmore, hnone'⟩ := ht.log
  refine ⟨ht.references.trans hs.references, ht.stores.trans hs.stores, ht.script ∘ hs.script, lines ++ more, ?_,
    List.forall_mem_append.2 ⟨hnone, hnone'⟩⟩
  rw [hmore, hlines, List.append_assoc]

/-- A line that tells of no child. -/
theorem note (s : Session) {level : Int} {source : Source} {message : Text}
    (h : (Text.ofString "created ").isPrefixOf message = false) : s.Alone (s.note level source message) where
  references := references_note _ _ _ _
  stores := stores_note _ _ _ _
  script := by
    rw [script_note]
    exact id
  log := by
    unfold Session.note
    split
    · exact ⟨[_], rfl, List.forall_mem_singleton.2 h⟩
    · exact ⟨[], (List.append_nil _).symm, List.forall_mem_nil _⟩

end Alone

theorem alone_take (s : Session) (place : Nat) (turn : Turn) : s.Alone (s.take place turn) := by
  have hrelease : s.Alone ((s.release place turn.released).ask turn.shown) := .of_eq rfl rfl id rfl
  unfold take
  split
  · exact hrelease.trans (.note _ rfl)
  · exact hrelease

variable (depth : Nat)

theorem alone_attempt (h : s.script.IsQuiet) (seconds : Option Value) (c : Chain) :
    s.Alone (s.attempt (between depth) seconds c).1 := by
  have hsending : s.Alone (s.sending c.current seconds) := .of_eq rfl rfl Script.IsQuiet.advance rfl
  have hreply : s.script.next.meanwhile = [] := h _ List.mem_cons_self
  rw [attempt_eq, exchange_eq, hreply, between_nil]
  exact hsending.trans (alone_take _ _ _)

/-- The requests of an operation, one after the other. -/
theorem accrues_alone :
    Accrues (between depth) (fun _ => True) fun s t => s.script.IsQuiet → s.Alone t where
  refl := fun s _ => .refl s
  trans := fun hs ht h => (hs h).trans (ht ((hs h).script h))
  noteFirst := fun s m target _ => .note s (by cases m <;> rfl)
  judge := by
    intro s m r a _
    unfold judge
    split
    · exact .refl s
    · exact .note s (by cases m <;> rfl)
  attempt := fun s seconds c _ h => alone_attempt depth h seconds c
  followed := fun _ _ _ _ _ _ _ => trivial

/-- **An operation without steps in between** leaves references and stores as they are, and only lines about what is
sent in the log. -/
theorem alone_operate (h : s.script.IsQuiet) (r : Reference) (m : Method) (payload : Body)
    (headers : List (Text × Value)) : s.Alone (s.operate (between depth) r m payload headers).1 :=
  (accrues_alone depth).operate s r m payload headers (fun _ _ _ => trivial) h

/-! ## Steps -/

theorem observe_eq (s : Session) (t : Step) : s.observe t =
    ⟨(s.perform t).2, (s.perform t).1.sent.drop s.sent.length, (s.perform t).1.log.drop s.log.length,
      (s.perform t).1⟩ := rfl

section

variable {name : Text} {place : Nat} {r : Reference} (hr : s.references.find? name = some (place, r))

include hr

/-- What a request of its own yields is the answer of the operation. -/
theorem perform_request (m : Method) (payload : Body) (headers : List (Text × Value)) :
    let x := s.operate (between (s.script.length + nesting)) r m payload headers
    s.perform (.act name (.request m payload headers)) =
      (x.1, x.2.map fun answer => .response answer.headers answer.body) := by
  intro x
  have hx : s.operate (between (s.script.length + nesting)) r m payload headers = x := rfl
  simp only [perform, step, hr, act, hx]
  rcases x with ⟨t, e | answer⟩ <;> rfl

theorem perform_push (v : Value) (as : Text) :
    s.perform (.act name (.push v as)) = s.push (between (s.script.length + nesting)) place r v as := by
  simp only [perform, step, hr, act]

/-- A value that cannot be encoded ends a creation before it has begun. -/
theorem observe_push_of_not_encoded {v : Value} {e : Error} (hv : Json.encode v = .error e) (as : Text) :
    s.observe (.act name (.push v as)) = ⟨.error e, [], [], s⟩ := by
  have hfails : s.push (between (s.script.length + nesting)) place r v as = s.fails e := by
    simp only [push, hv]
  rw [observe_eq, perform_push hr, hfails]
  simp [fails]

end

/-- What is noted comes to the log, if it is taken. -/
theorem log_note (s : Session) (level : Int) (source : Source) (message : Text) :
    (s.note level source message).log = s.log ++ if Log.admits s.level level then [⟨level, source, message⟩] else [] := by
  unfold note
  split
  · rfl
  · exact (List.append_nil _).symm

/-- A created child has the configuration of its source, and its name behind the url. -/
theorem named_eq {r : Reference} (h : Url.base r.url = r.url) (child : Text) :
    r.named child = { r with url := r.url ++ "/" ++ child } := by
  unfold Reference.named Reference.copy
  rw [h]

/-- What a creation under a name adds to the request that creates: nothing, unless the answer names a child. -/
inductive Creates (s : Session) (r : Reference) (as : Text) (x y : Observation) : Prop
  /-- The request ends in an error, and so does the creation. -/
  | failed {e : Error} (hy : y.result = .error e) (hx : x.result = .error e)
      (hr : x.after.references = s.references) (hlog : x.log = y.log)
  /-- The answer names a child. It has the configuration of the source, and its name behind the url. All that comes to
  the log besides is a line about it, if such lines are taken. -/
  | created {headers : Headers} {body : Bytes} {child : Text} {c : Reference}
      (hy : y.result = .ok (.response headers body)) (hchild : NamesChild body child)
      (hx : x.result = .ok (.value .none)) (hc : c = { r with url := r.url ++ "/" ++ child })
      (hr : x.after.references = s.references.insert as c)
      (hlog : x.log = y.log ++ if s.level ≠ 0 ∧ s.level ≤ Log.infoLevel then
        [⟨Log.infoLevel, .client, "created " ++ c.url⟩] else [])
  /-- The answer names none. -/
  | nameless {headers : Headers} {body : Bytes} {e : Error} (hy : y.result = .ok (.response headers body))
      (hnone : ∀ child, ¬NamesChild body child) (hx : x.result = .error e) (he : e.family? = some .serialization)
      (hr : x.after.references = s.references) (hlog : x.log = y.log)

/-- **A value that can be encoded** is created with the request that sends its bytes. -/
theorem creates_of_encoded {name : Text} {place : Nat} {r : Reference}
    (hr : s.references.find? name = some (place, r)) (hbase : Url.base r.url = r.url) (hquiet : s.script.IsQuiet)
    {v : Value} {bs : Bytes} (hv : Json.encode v = .ok bs) (as : Text) :
    let x := s.observe (.act name (.push v as))
    let y := s.observe (.act name (.request .post (.bytes bs) []))
    (x.after.references.get? place = some r ∧ x.after.stores = s.stores) ∧
      x.sent = y.sent ∧ (∀ line ∈ y.log, line.tellsCreation = false) ∧ s.Creates r as x y := by
  intro x y
  have hget : s.references.get? place = some r := (Registry.find?_eq_some.1 hr).2
  have halone := alone_operate (s.script.length + nesting) hquiet r .post (.bytes bs) []
  have hlevel := (grows_operate (grows_between (s.script.length + nesting)) s r .post (.bytes bs) []).level
  have hpush := push_outcome (between (s.script.length + nesting)) s place r hv as
  have hx : x = _ := observe_eq s _
  have hy : y = _ := observe_eq s _
  rw [perform_push hr] at hx
  rw [perform_request hr] at hy
  generalize s.operate (between (s.script.length + nesting)) r .post (.bytes bs) [] = o at halone hlevel hpush hy
  obtain ⟨t, result⟩ := o
  have hlevel : t.level = s.level := hlevel
  obtain ⟨lines, (hlines : t.log = s.log ++ lines), hnone⟩ := halone.log
  have hlog : t.log.drop s.log.length = lines := by rw [hlines, List.drop_left]
  have hsource : t.references.get? place = some r := by rw [halone.references, hget]
  rw [hy]
  obtain ⟨e, rfl, hu⟩ | ⟨answer, rfl, ⟨child, hchild, hu⟩ | ⟨hno, e, hfamily, hu⟩⟩ := hpush
  · rw [hx, hu]
    exact ⟨⟨hsource, halone.stores⟩, rfl, hlog ▸ hnone, .failed rfl rfl halone.references rfl⟩
  · -- the line about the child is the only thing that comes behind those of the operation
    rw [hsource, Option.getD_some, named_eq hbase] at hu
    obtain ⟨w, hw⟩ : ∃ w, t.note Log.infoLevel .client ("created " ++ (r.url ++ "/" ++ child)) = w := ⟨_, rfl⟩
    have hsent : w.sent = t.sent := hw ▸ sent_note _ _ _ _
    have hreferences : w.references = s.references := (hw ▸ references_note _ _ _ _).trans halone.references
    have hstores : w.stores = s.stores := (hw ▸ stores_note _ _ _ _).trans halone.stores
    have hnoted : w.log.drop s.log.length = t.log.drop s.log.length ++
        if s.level ≠ 0 ∧ s.level ≤ Log.infoLevel then
          [⟨Log.infoLevel, .client, "created " ++ (r.url ++ "/" ++ child)⟩] else [] := by
      rw [← hw, log_note, hlevel, hlines, List.append_assoc, List.drop_left, List.drop_left]
      simp only [Log.admits_info_iff]
    rw [hx, hu, hw]
    refine ⟨⟨Registry.get?_insert (hreferences ▸ hget) as _, hstores⟩, congrArg (List.drop _) hsent, hlog ▸ hnone,
      .created rfl hchild rfl rfl ?_ hnoted⟩
    exact congrArg (fun g : Registry Reference => g.insert as _) hreferences
  · rw [hx, hu]
    exact ⟨⟨hsource, halone.stores⟩, rfl, hlog ▸ hnone, .nameless rfl hno rfl hfamily halone.references rfl⟩

/-- **The creation of a child, from end to end**, for every value and every script without steps before its replies,
if the url of the source is in the form of a base.

* The source stays in its place as it is, and so do all stores.
* A value that cannot be encoded is an error about what was to be written. Nothing is sent or logged then, and nothing
  is changed.
* Else the same is sent as by the request that creates with the encoded value, which tells of no child in the log.
  What comes of the creation is the error of that request, or the child that its answer names, or an error about what
  was read where it names none; and there is a line about a child exactly if there is one. -/
theorem creation_from_end_to_end (s : Session) {name : Text} {place : Nat} {r : Reference}
    (hr : s.references.find? name = some (place, r)) (hbase : Url.base r.url = r.url) (hquiet : s.script.IsQuiet)
    (v : Value) (as : Text) :
    let x := s.observe (.act name (.push v as))
    (x.after.references.get? place = some r ∧ x.after.stores = s.stores) ∧
      (∀ e, Json.encode v = .error e →
        x.result = .error e ∧ e.family? = some .serialization ∧ x.sent = [] ∧ x.log = [] ∧ x.after = s) ∧
      ∀ bs, Json.encode v = .ok bs →
        let y := s.observe (.act name (.request .post (.bytes bs) []))
        x.sent = y.sent ∧ (∀ line ∈ y.log, line.tellsCreation = false) ∧ s.Creates r as x y := by
  intro x
  cases hv : Json.encode v with
  | error e =>
    have hx : x = ⟨.error e, [], [], s⟩ := observe_push_of_not_encoded hr hv as
    rw [hx]
    refine ⟨⟨(Registry.find?_eq_some.1 hr).2, rfl⟩, fun e' he => ?_, fun bs hbs => nomatch hbs⟩
    obtain rfl := Except.error.inj he
    exact ⟨rfl, Json.family_of_encode hv, rfl, rfl, rfl⟩
  | ok bs =>
    obtain ⟨hkept, hrest⟩ := creates_of_encoded hr hbase hquiet hv as
    refine ⟨hkept, fun e he => (nomatch he), fun bs' hbs => ?_⟩
    obtain rfl := Except.ok.inj hbs
    exact hrest

/-- The request is led to another place, and the answer from there has two members of the same name. -/
def renamed : Script :=
  ⟨⟨[], .ok ⟨307, [("Location", .text "/b")], [], none⟩⟩,
    [⟨[], .ok ⟨200, [], [0x7B, 0x22, 0x6E, 0x61, 0x6D, 0x65, 0x22, 0x3A, 0x31, 0x2C, 0x22, 0x6E, 0x61, 0x6D, 0x65, 0x22,
      0x3A, 0x22, 0x6B, 0x22, 0x7D], none⟩⟩]⟩

/-- The child has the name of the last one, and there is one line about it. -/
theorem creation_from_end_to_end_renamed :
    (waiting renamed).script.IsQuiet ∧
      ∃ x body c, (waiting renamed).observe (.act "r" (.push (.list [.none]) "c")) = x ∧ NamesChild body "k" ∧
        x.after.references = (waiting renamed).references.insert "c" c ∧ c.url = Text.ofString "http://a/k" ∧
        x.log.filter LogLine.tellsCreation = [⟨Log.infoLevel, .client, "created http://a/k"⟩] := by
  have hquiet : (waiting renamed).script.IsQuiet := List.forall_mem_cons.2 ⟨rfl, List.forall_mem_singleton.2 rfl⟩
  have hr : (waiting renamed).references.find? "r" = some (0, .make "http://a" 0 (.int 3)) := rfl
  have hcreates := creation_from_end_to_end (waiting renamed) hr rfl hquiet (.list [.none]) "c"
  have hok : ((waiting renamed).observe (.act "r" (.push (.list [.none]) "c"))).result.isOk = true := by decide +kernel
  have hurl : (((waiting renamed).observe (.act "r" (.push (.list [.none]) "c"))).after.references.get? 1).map
      Reference.url = some (Text.ofString "http://a/k") := by
    decide +kernel
  refine ⟨hquiet, ?_⟩
  generalize (waiting renamed).observe (.act "r" (.push (.list [.none]) "c")) = x at hcreates hok hurl
  obtain ⟨-, -, hcreates⟩ := hcreates
  obtain ⟨-, hnone, hcreates⟩ := hcreates _ rfl
  generalize (waiting renamed).observe (.act "r" (.request .post _ [])) = y at hnone hcreates
  cases hcreates with
  | failed hy hx =>
    rw [hx] at hok
    cases hok
  | nameless hy hno hx =>
    rw [hx] at hok
    cases hok
  | @created headers body child c hy hchild hx hcopy href hlog =>
    rw [href] at hurl
    have hc : c.url = Text.ofString "http://a/k" := Option.some.inj hurl
    have hpath : Text.ofString "http://a/" ++ child = Text.ofString "http://a/" ++ Text.ofString "k" :=
      (congrArg Reference.url hcopy).symm.trans hc
    obtain rfl := List.append_cancel_left hpath
    have hold : y.log.filter LogLine.tellsCreation = [] :=
      List.filter_eq_nil_iff.2 fun line hline => by simp [hnone line hline]
    refine ⟨x, body, c, rfl, hchild, href, hc, ?_⟩
    rw [hlog, List.filter_append, hold, hc]
    rfl

end Session

end RemoteTree
