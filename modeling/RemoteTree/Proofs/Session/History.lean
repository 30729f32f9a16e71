import Mathlib.Data.List.Forall2
import RemoteTree.Proofs.Reference.Lineage
import RemoteTree.Proofs.Session.Along

/-!
# Sessions follow their history

What a session knows of references and stores is what has happened to them, step by step, the steps in
between included.

* `Moment.event?`: what happens to references and stores in a step that succeeds.
* `Session.Follows`: every reference is what its lineage says, and every store holds its last token.
* `Session.Leads`: a row of moments along which every session follows the history so far; `composes_leads`: it is
  put together from the parts of the row.
* `leads_step`: a step leads on, given that the steps in between do; `leads_between`: so they do, by
  induction on how deep they go.
* `parameters_follow_lineage`: **at every moment of a session the parameters of each reference, its timeout,
  its channel and its store are those of its lineage.**
-/

namespace RemoteTree

/-- Whether an action may derive a reference. -/
def Action.derives : Action → Bool
  | .derive .. | .push .. => true
  | _ => false

/-- The change that an action makes to its reference, apart from the url. -/
def Action.change? (stores : Registry Value) : Action → Option Change
  | .setTimeout seconds => some (.timeout seconds)
  | .auth token => some (.set .auth token)
  | .unauth => some (.clear .auth)
  | .shallow on => some (if on then .set .shallow (.text "true") else .clear .shallow)
  | .includePriority on => some (if on then .set .format (.text "export") else .clear .format)
  | .bind none => some (.bind none)
  | .bind (some name) => (stores.place? name).map fun store => .bind (some store)
  | _ => none

/-- What happens to references and stores in a step that begins in a session and succeeds. -/
def Session.event? (s : Session) : Step → Option Event
  | .reference _ _ timeout own =>
    ((timeout.map Except.ok).getD s.timeouts.default).toOption.map fun seconds =>
      .made (if own then s.channels else 0) seconds
  | .store _ token => some (.stored token)
  | .setToken name token => (s.stores.place? name).map fun store => .rotated store token
  | .act name a =>
    (s.references.place? name).bind fun place =>
      match a with
      | .derive d _ => some (.derived place d.setting?)
      | .push .. => some (.derived place none)
      | a => (a.change? s.stores).map (.changed place)
  | _ => none

/-- What happens to references and stores in a moment. A step that fails does nothing to them. -/
def Moment.event? (m : Moment) : Option Event :=
  match m.result with
  | .ok _ => m.before.event? m.step
  | .error _ => none

/-- What happens to references and stores along a row of moments. -/
def events (ms : List Moment) : List Event := ms.filterMap Moment.event?

theorem events_append (ms ns : List Moment) : events (ms ++ ns) = events ms ++ events ns :=
  List.filterMap_append

theorem events_singleton (m : Moment) : events [m] = m.event?.toList := by
  unfold events
  cases h : m.event? <;> simp [h]

theorem forall₂_modify {α β : Type} {R : α → β → Prop} {f : α → α} {g : β → β}
    (hfg : ∀ a b, R a b → R (f a) (g b)) {as : List α} {bs : List β} (h : List.Forall₂ R as bs)
    (n : Nat) : List.Forall₂ R (as.modify n f) (bs.modify n g) := by
  induction h generalizing n with
  | nil => cases n <;> exact .nil
  | cons hab _ ih =>
    cases n with
    | zero => exact .cons (hfg _ _ hab) ‹_›
    | succ n => exact .cons hab (ih n)

/-- What a name finds is what stands in its place. -/
theorem Registry.find?_eq_some {α : Type} {g : Registry α} {name : Text} {place : Nat} {x : α} :
    g.find? name = some (place, x) ↔ g.place? name = some place ∧ g.get? place = some x := by
  unfold Registry.find?
  cases hp : g.place? name with
  | none => simp [bind, Option.bind]
  | some q =>
    cases hg : g.get? q with
    | none =>
      simp only [bind, Option.bind, hg, reduceCtorEq, Option.some.injEq, false_iff, not_and]
      rintro rfl
      simp [hg]
    | some y =>
      simp only [bind, Option.bind, hg, pure, Option.some.injEq, Prod.mk.injEq]
      constructor
      · rintro ⟨rfl, rfl⟩
        exact ⟨rfl, hg⟩
      · rintro ⟨rfl, hx⟩
        exact ⟨rfl, Option.some.inj (hg.symm.trans hx)⟩

namespace Session

/-- Every reference is what its lineage says, and every store holds the token that was put there last. -/
structure Follows (s : Session) (history : List Event) : Prop where
  references : List.Forall₂ Reference.Follows s.references.items (lineages history)
  stores : s.stores.items = tokens history

variable {s t : Session} {history : List Event} {place : Nat} {r : Reference}

/-- A reference is made with the timeout that is given or configured, or not at all. -/
theorem refer_cases (s : Session) (name : Text) (url : Value) (timeout : Option Value) (own : Bool) :
    (∃ e, s.refer name url timeout own = s.fails e) ∨
      ∃ text seconds, url.asText .startsWith = .ok text ∧
        (timeout.map Except.ok).getD s.timeouts.default = .ok seconds ∧
        s.refer name url timeout own =
          ({ s with channels := if own then s.channels + 1 else s.channels }.introduce name
            (Reference.make text (if own then s.channels else 0) seconds)).done := by
  unfold refer
  cases url.asText .startsWith with
  | error e => exact .inl ⟨e, rfl⟩
  | ok text =>
    cases timeout with
    | some seconds => exact .inr ⟨text, seconds, rfl, rfl, rfl⟩
    | none =>
      simp only [Option.map_none, Option.getD_none]
      cases s.timeouts.default with
      | error e => exact .inl ⟨e, rfl⟩
      | ok seconds => exact .inr ⟨text, seconds, rfl, rfl, rfl⟩

namespace Follows

/-- Only references and stores matter. -/
theorem of_eq (h : s.Follows history) (hr : t.references = s.references) (hs : t.stores = s.stores) :
    t.Follows history :=
  ⟨by rw [hr]; exact h.references, by rw [hs]; exact h.stores⟩

theorem note (h : s.Follows history) (level : Int) (source : Source) (message : Text) :
    (s.note level source message).Follows history := by
  unfold Session.note
  split
  · exact h.of_eq rfl rfl
  · exact h

theorem lineage (h : s.Follows history) (hr : s.references.get? place = some r) :
    ∃ l, (lineages history)[place]? = some l ∧ r.Follows l := by
  obtain ⟨hlt, hr⟩ := List.getElem?_eq_some_iff.1 hr
  have hlt' : place < (lineages history).length := by rwa [← h.references.length_eq]
  refine ⟨(lineages history)[place], List.getElem?_eq_getElem hlt', ?_⟩
  rw [← hr]
  exact h.references.get hlt hlt'

/-! ## What happens -/

theorem introduce {c : Reference} {source : Nat} {l : Lineage} {setting : Option Change}
    (h : s.Follows history) (hl : (lineages history)[source]? = some l)
    (hc : c.Follows (l.extend setting)) (name : Text) :
    (s.introduce name c).Follows (history ++ [.derived source setting]) := by
  refine ⟨?_, ?_⟩
  · rw [lineages_append_singleton, Event.lineages, hl]
    exact List.rel_append h.references (.cons hc .nil)
  · rw [tokens_append_singleton]
    exact h.stores

theorem configure {f : Reference → Reference} {c : Change} (h : s.Follows history)
    (hf : ∀ r l, Reference.Follows r l → (f r).Follows (l.extend (some c))) (place : Nat) :
    (s.configure place f).Follows (history ++ [.changed place c]) := by
  refine ⟨?_, ?_⟩
  · rw [lineages_append_singleton]
    exact forall₂_modify hf h.references place
  · rw [tokens_append_singleton]
    exact h.stores

/-- A change of the url is none of the lineage. -/
theorem configureUrl (h : s.Follows history) (place : Nat) (url : Text) :
    (s.configure place fun r => { r with url }).Follows history := by
  refine ⟨?_, h.stores⟩
  have := forall₂_modify (g := id) (fun r l (hr : Reference.Follows r l) => hr.withUrl url)
    h.references place
  rwa [List.modify_id] at this

theorem refer (h : s.Follows history) (name : Text) (url : Value) (timeout : Option Value) (own : Bool) :
    let x := s.refer name url timeout own
    x.1.Follows (history ++ (Moment.event? ⟨s, .reference name url timeout own, x.2, x.1⟩).toList) := by
  rcases refer_cases s name url timeout own with ⟨e, he⟩ | ⟨text, seconds, -, hd, he⟩
  · rw [he]
    simpa [fails, Moment.event?] using h
  · rw [he]
    simp only [done, Moment.event?, Session.event?, hd, Except.toOption, Option.map_some,
      Option.toList_some]
    refine ⟨?_, ?_⟩
    · rw [lineages_append_singleton]
      exact List.rel_append h.references (.cons (Reference.follows_make _ _ _) .nil)
    · rw [tokens_append_singleton]
      exact h.stores

end Follows

/-! ## Rows of moments -/

/-- Along the row every session follows the history so far, and after it the last one does. -/
structure Leads (history : List Event) (ms : List Moment) (t : Session) : Prop where
  along : ∀ past m later, ms = past ++ m :: later → m.after.Follows (history ++ events (past ++ [m]))
  follows : t.Follows (history ++ events ms)

namespace Leads

variable {ms ns : List Moment} {u : Session}

theorem nil (h : s.Follows history) : Leads history [] s := by
  refine ⟨fun past m later he => ?_, ?_⟩
  · simp at he
  · rwa [show events [] = [] from rfl, List.append_nil]

theorem append (h : Leads history ms t) (h' : Leads (history ++ events ms) ns u) :
    Leads history (ms ++ ns) u := by
  refine ⟨fun past m later he => ?_, ?_⟩
  · rcases List.append_eq_append_iff.1 he with ⟨more, rfl, hns⟩ | ⟨more, hms, hlater⟩
    · have := h'.along more m later hns
      rwa [List.append_assoc, ← events_append, ← List.append_assoc] at this
    · cases more with
      | nil =>
        -- the moment is the first of the second row
        rw [List.append_nil] at hms
        rw [List.nil_append] at hlater
        have := h'.along [] m later hlater.symm
        rwa [List.append_assoc, ← events_append, List.nil_append, hms] at this
      | cons x more =>
        obtain ⟨rfl, -⟩ := List.cons.inj hlater
        exact h.along past m more hms
  · rw [events_append, ← List.append_assoc]
    exact h'.follows

/-- The row goes on with a step, if its session follows what happens in it. -/
theorem snoc {m : Moment} (h : Leads history ms t)
    (hm : m.after.Follows (history ++ events ms ++ m.event?.toList)) :
    Leads history (ms ++ [m]) m.after := by
  refine h.append ⟨fun past x later he => ?_, ?_⟩
  · obtain ⟨rfl, rfl, -⟩ : past = [] ∧ m = x ∧ later = [] := by
      cases past with
      | nil => simpa using he
      | cons y past => simp at he
    rwa [List.nil_append, events_singleton]
  · rwa [events_singleton]

end Leads

/-- To lead on from whatever has happened is put together from the parts of a row. -/
theorem composes_leads : Composes fun s ms t => ∀ history, s.Follows history → Leads history ms t where
  nil hr hs _ h := .nil (h.of_eq hr hs)
  append hms hns history h :=
    have hl := hms history h
    hl.append (hns _ hl.follows)

/-- What is told of steps in between leads to where they lead. -/
def Tells (tell : Teller) (meanwhile : Meanwhile) : Prop :=
  ∀ steps (s : Session) history, s.Follows history → Leads history (tell steps s) (meanwhile steps s).1

section

variable {meanwhile : Meanwhile} {tell : Teller} (hm : Tells tell meanwhile)

include hm

/-! ## Operations -/

/-- An operation leads on: it touches references and stores through the steps in between alone. -/
theorem leads_operate (h : s.Follows history) (r : Reference) (m : Method) (payload : Body)
    (headers : List (Text × Value)) :
    Leads history (s.whileOperating meanwhile tell r m payload headers)
      (s.operate meanwhile r m payload headers).1 :=
  composes_leads.conducts.operate (fun steps s history h => hm steps s history h) s r m payload headers history h

/-! ## Actions -/

omit hm in
/-- An action that sends nothing leads on by what happens in it. -/
theorem leads_of_quiet {name : Text} {a : Action} {x : Performed} (h : s.Follows history)
    (ha : a.operation? = none)
    (hx : x.1.Follows (history ++ (Moment.event? ⟨s, .act name a, x.2, x.1⟩).toList)) :
    Leads history (s.whileActing meanwhile tell r a ++ [⟨s, .act name a, x.2, x.1⟩]) x.1 := by
  have hw : s.whileActing meanwhile tell r a = [] := by
    unfold whileActing
    rw [ha]
  rw [hw]
  refine (Leads.nil h).snoc ?_
  rw [show events [] = [] from rfl, List.append_nil]
  exact hx

omit hm in
theorem event?_of_change {name : Text} {a : Action} (hp : s.references.place? name = some place)
    (hd : a.derives = false) : s.event? (.act name a) = (a.change? s.stores).map (.changed place) := by
  cases a with
  | derive | push => cases hd
  | _ => simp only [event?, hp, Option.bind_some]

omit hm in
/-- Nothing happens in an action that neither derives nor changes anything. -/
theorem event?_of_no_change {name : Text} {a : Action} (hp : s.references.place? name = some place)
    (hd : a.derives = false) (hc : a.change? s.stores = none) (result : Except Error Result) (t : Session) :
    Moment.event? ⟨s, .act name a, result, t⟩ = none := by
  cases result with
  | error e => rfl
  | ok v =>
    show s.event? (.act name a) = none
    rw [event?_of_change hp hd, hc]
    rfl

omit hm in
/-- A change that succeeds leads on. -/
theorem leads_configure {name : Text} {a : Action} {f : Reference → Reference} {c : Change}
    (h : s.Follows history) (hp : s.references.place? name = some place) (ha : a.operation? = none)
    (hd : a.derives = false) (hc : a.change? s.stores = some c)
    (hf : ∀ r l, Reference.Follows r l → (f r).Follows (l.extend (some c))) :
    let x := (s.configure place f).done
    Leads history (s.whileActing meanwhile tell r a ++ [⟨s, .act name a, x.2, x.1⟩]) x.1 := by
  refine leads_of_quiet h ha ?_
  show (s.configure place f).Follows (history ++ (s.event? (.act name a)).toList)
  rw [event?_of_change hp hd, hc]
  exact h.configure hf place

/-- An operation leads on, and nothing happens in it but in the steps in between. -/
theorem leads_of_operation {name : Text} {a : Action} {m : Method} {payload : Body}
    {headers : List (Text × Value)} {x : Performed} (h : s.Follows history)
    (hp : s.references.place? name = some place) (ha : a.operation? = some (m, payload, headers))
    (hd : a.derives = false) (hx : x.1 = (s.operate meanwhile r m payload headers).1) :
    Leads history (s.whileActing meanwhile tell r a ++ [⟨s, .act name a, x.2, x.1⟩]) x.1 := by
  have hl := leads_operate hm h r m payload headers
  have hc : a.change? s.stores = none := by
    cases a <;> first | rfl | cases ha
  have hw : s.whileActing meanwhile tell r a = s.whileOperating meanwhile tell r m payload headers := by
    unfold whileActing
    rw [ha]
  rw [hw]
  refine hl.snoc ?_
  rw [event?_of_no_change hp hd hc, Option.toList_none, List.append_nil, hx]
  exact hl.follows

omit hm in
theorem write_fst (s : Session) (r : Reference) (m : Method) (payload : Body) :
    (s.write meanwhile r m payload).1 = (s.operate meanwhile r m payload []).1 := by
  unfold write
  rcases s.operate meanwhile r m payload [] with ⟨t, _ | _⟩ <;> rfl

/-- A value that can be written is sent, and no other. -/
theorem leads_writeValue {name : Text} {a : Action} {m : Method} {v : Value} (h : s.Follows history)
    (hp : s.references.place? name = some place)
    (ha : a.operation? = (Json.encode v).toOption.map fun bs => (m, .bytes bs, []))
    (hd : a.derives = false) :
    let x := s.writeValue meanwhile r m v
    Leads history (s.whileActing meanwhile tell r a ++ [⟨s, .act name a, x.2, x.1⟩]) x.1 := by
  unfold writeValue
  cases he : Json.encode v with
  | error e =>
    rw [he] at ha
    exact leads_of_quiet h ha (by simpa [fails, Moment.event?] using h)
  | ok bs =>
    rw [he] at ha
    exact leads_of_operation hm h hp ha hd (write_fst s r m (.bytes bs))

/-- A push derives from its reference as it is once the answer has come. -/
theorem leads_push {name as : Text} {v : Value} (h : s.Follows history)
    (hp : s.references.place? name = some place) (hr : s.references.get? place = some r) :
    let x := s.push meanwhile place r v as
    Leads history (s.whileActing meanwhile tell r (.push v as) ++
      [⟨s, .act name (.push v as), x.2, x.1⟩]) x.1 := by
  unfold push
  cases he : Json.encode v with
  | error e =>
    refine leads_of_quiet h ?_ (by simpa [fails, Moment.event?] using h)
    simp [Action.operation?, he, Except.toOption]
  | ok bs =>
    have hl := leads_operate hm h r .post (.bytes bs) []
    have hw : s.whileActing meanwhile tell r (.push v as) =
        s.whileOperating meanwhile tell r .post (.bytes bs) [] := by
      simp [whileActing, Action.operation?, he, Except.toOption]
    rw [hw]
    dsimp only
    generalize s.whileOperating meanwhile tell r .post (.bytes bs) [] = ms at hl ⊢
    generalize s.operate meanwhile r .post (.bytes bs) [] = x at hl ⊢
    obtain ⟨t, result⟩ := x
    have hfail : ∀ e : Error, Leads history (ms ++ [⟨s, .act name (.push v as), .error e, t⟩]) t :=
      fun e => hl.snoc (by simpa [Moment.event?] using hl.follows)
    cases result with
    | error e => exact hfail e
    | ok answer =>
      dsimp only
      cases Json.decode (.bytes answer.body) none with
      | error e => exact hfail e
      | ok response =>
        dsimp only
        cases childName? response with
        | none => exact hfail _
        | some child =>
          -- the reference is still there, and has the lineage that it has now
          obtain ⟨l₀, hl₀, -⟩ := h.lineage hr
          obtain ⟨hlt, -⟩ := List.getElem?_eq_some_iff.1 hl₀
          have hlt' : place < t.references.items.length := by
            have := length_lineages_append history (events ms)
            rw [hl.follows.references.length_eq]
            omega
          obtain ⟨q, hq⟩ : ∃ q, t.references.get? place = some q :=
            ⟨_, List.getElem?_eq_getElem hlt'⟩
          obtain ⟨l, hll, hfollows⟩ := hl.follows.lineage hq
          refine hl.snoc ?_
          have hevent : (Moment.event? ⟨s, .act name (.push v as), .ok (.value .none),
              (t.note Log.infoLevel .client ("created " ++ (q.named child).url)).introduce as
                (q.named child)⟩) = some (.derived place none) := by
            simp [Moment.event?, event?, hp]
          rw [hq, Option.getD_some]
          simp only [done, hevent, Option.toList_some]
          refine Follows.introduce (hl.follows.note _ _ _) hll ?_ as
          rw [Lineage.extend_none]
          exact hfollows.copy.withUrl _

omit hm in
theorem leads_derive {name as : Text} {d : Derivation} (h : s.Follows history)
    (hp : s.references.place? name = some place) (hr : s.references.get? place = some r) :
    let x := s.act meanwhile place r (.derive d as)
    Leads history (s.whileActing meanwhile tell r (.derive d as) ++
      [⟨s, .act name (.derive d as), x.2, x.1⟩]) x.1 := by
  refine leads_of_quiet h rfl ?_
  simp only [act]
  cases hd : r.derive d with
  | error e => simpa [fails, Moment.event?] using h
  | ok c =>
    obtain ⟨l, hl, hfollows⟩ := h.lineage hr
    simp only [done, Moment.event?, event?, hp, Option.bind_some, Option.toList_some]
    exact h.introduce hl (Reference.follows_derive hfollows hd) as

omit hm in
theorem leads_bind {name : Text} {store : Option Text} (h : s.Follows history)
    (hp : s.references.place? name = some place) :
    let x := s.bindStore place store
    Leads history (s.whileActing meanwhile tell r (.bind store) ++
      [⟨s, .act name (.bind store), x.2, x.1⟩]) x.1 := by
  cases store with
  | none => exact leads_configure h hp rfl rfl rfl fun _ _ hf => hf.withStore none
  | some as =>
    simp only [bindStore]
    cases hs : s.stores.place? as with
    | none => exact leads_of_quiet h rfl (by simpa [fails, Moment.event?] using h)
    | some store =>
      have hc : (Action.bind (some as)).change? s.stores = some (.bind (some store)) := by
        simp [Action.change?, hs]
      exact leads_configure h hp rfl rfl hc fun _ _ hf => hf.withStore (some store)

omit hm in
/-- An action that only looks leads to where it begins. -/
theorem leads_of_look {name : Text} {a : Action} {x : Performed} (h : s.Follows history)
    (hp : s.references.place? name = some place) (ha : a.operation? = none)
    (hd : a.derives = false) (hc : a.change? s.stores = none) (hx : x.1 = s) :
    Leads history (s.whileActing meanwhile tell r a ++ [⟨s, .act name a, x.2, x.1⟩]) x.1 := by
  refine leads_of_quiet h ha ?_
  rw [event?_of_no_change hp hd hc, Option.toList_none, List.append_nil, hx]
  exact h

/-- **An action** leads on, if the steps in between do. -/
theorem leads_act {name : Text} (h : s.Follows history) (hp : s.references.place? name = some place)
    (hr : s.references.get? place = some r) (a : Action) :
    let x := s.act meanwhile place r a
    Leads history (s.whileActing meanwhile tell r a ++ [⟨s, .act name a, x.2, x.1⟩]) x.1 := by
  cases a with
  | derive d as => exact leads_derive h hp hr
  | push v as => exact leads_push hm h hp hr
  | setUrl url =>
    refine leads_of_quiet h rfl ?_
    simp only [act]
    cases url.asText .startsWith with
    | error e => simpa [fails, Moment.event?] using h
    | ok t =>
      simp only [done, Moment.event?, event?, hp, Option.bind_some, Action.change?, Option.map_none,
        Option.toList_none, List.append_nil]
      exact h.configureUrl place _
  | setTimeout seconds =>
    exact leads_configure h hp rfl rfl rfl fun _ _ hf => hf.withTimeout seconds
  | auth token =>
    exact leads_configure h hp rfl rfl rfl fun _ _ hf => hf.withParameter .auth token
  | unauth =>
    exact leads_configure h hp rfl rfl rfl fun _ _ hf => hf.withoutParameter .auth
  | shallow on =>
    refine leads_configure h hp rfl rfl rfl fun _ _ hf => ?_
    cases on
    · exact hf.withoutParameter .shallow
    · exact hf.withParameter .shallow (.text "true")
  | includePriority on =>
    refine leads_configure h hp rfl rfl rfl fun _ _ hf => ?_
    cases on
    · exact hf.withoutParameter .format
    · exact hf.withParameter .format (.text "export")
  | bind store => exact leads_bind h hp
  | url | timeout | literal | storeNames =>
    exact leads_of_look h hp rfl rfl rfl rfl
  | resolve =>
    refine leads_of_look h hp rfl rfl rfl ?_
    simp only [act]
    split <;> rfl
  | sharesChannel other =>
    refine leads_of_look h hp rfl rfl rfl ?_
    simp only [act]
    split <;> rfl
  | request m payload headers =>
    refine leads_of_operation hm h hp rfl rfl ?_
    simp only [act]
    rcases s.operate meanwhile r m payload headers with ⟨t, _ | _⟩ <;> rfl
  | set v => exact leads_writeValue hm h hp rfl rfl
  | update v => exact leads_writeValue hm h hp rfl rfl
  | remove => exact leads_of_operation hm h hp rfl rfl (write_fst s r .delete .none)
  | value into =>
    refine leads_of_operation hm h hp rfl rfl ?_
    simp only [act]
    rcases s.operate meanwhile r .get .none [] with ⟨t, _ | answer⟩
    · rfl
    · dsimp only
      split <;> rfl

/-! ## Steps -/

omit hm in
theorem leads_of_step {t : Step} {x : Performed} (h : s.Follows history)
    (hw : s.whileStepping meanwhile tell t = [])
    (hx : x.1.Follows (history ++ (Moment.event? ⟨s, t, x.2, x.1⟩).toList)) :
    Leads history (s.whileStepping meanwhile tell t ++ [⟨s, t, x.2, x.1⟩]) x.1 := by
  rw [hw]
  refine (Leads.nil h).snoc ?_
  rw [show events [] = [] from rfl, List.append_nil]
  exact hx

/-- **A step** leads on, if the steps in between do. -/
theorem leads_step (h : s.Follows history) (t : Step) :
    let x := s.step meanwhile t
    Leads history (s.whileStepping meanwhile tell t ++ [⟨s, t, x.2, x.1⟩]) x.1 := by
  cases t with
  | reference name url timeout own => exact leads_of_step h rfl (h.refer name url timeout own)
  | store name token =>
    refine leads_of_step h rfl ⟨?_, ?_⟩
    · show List.Forall₂ _ s.references.items (lineages (history ++ [.stored token]))
      rw [lineages_append_singleton]
      exact h.references
    · show s.stores.items ++ [token] = tokens (history ++ [.stored token])
      rw [tokens_append_singleton, h.stores]
      rfl
  | setToken name token =>
    refine leads_of_step h rfl ?_
    simp only [step, withStore]
    cases hf : s.stores.find? name with
    | none => simpa [fails, Moment.event?] using h
    | some x =>
      obtain ⟨store, old⟩ := x
      simp only [done, Moment.event?, event?, (Registry.find?_eq_some.1 hf).1, Option.map_some,
        Option.toList_some]
      refine ⟨?_, ?_⟩
      · rw [lineages_append_singleton]
        exact h.references
      · rw [tokens_append_singleton, ← h.stores, Event.tokens, List.set_eq_modify]
        rfl
  | token name | storeLiteral name =>
    refine leads_of_step h rfl ?_
    simp only [step, withStore]
    cases s.stores.find? name <;> simpa [fails, yields, Moment.event?, event?] using h
  | close =>
    have hc : s.close.1.Follows history := h.of_eq rfl rfl
    refine leads_of_step h rfl ?_
    simpa [step, close, yields, Moment.event?, event?] using hc
  | act name a =>
    simp only [step, whileStepping]
    cases hf : s.references.find? name with
    | none =>
      refine (Leads.nil h).snoc ?_
      simpa [fails, Moment.event?, events] using h
    | some x =>
      obtain ⟨place, r⟩ := x
      obtain ⟨hp, hr⟩ := Registry.find?_eq_some.1 hf
      exact leads_act hm h hp hr a

end

/-- **Steps in between lead on**, however deep they go. -/
theorem leads_between (depth : Nat) : Tells (tellBetween depth) (between depth) := by
  induction depth with
  | zero =>
    refine fun steps s history h => composes_leads.conducts.row (fun s t history hs => ?_) s steps history h
    exact (Leads.nil hs).snoc (by simpa [fails, Moment.event?, events] using hs)
  | succ depth ih =>
    exact fun steps s history h =>
      composes_leads.conducts.row (fun s t history hs => leads_step ih hs t) s steps history h

/-- A row of steps of the client leads to the session after it. -/
theorem leads_timeline (h : s.Follows history) (steps : List Step) :
    Leads history (s.timeline steps) (s.run steps) := by
  induction steps generalizing s history with
  | nil => exact .nil h
  | cons t rest ih =>
    have hl := leads_step (leads_between (s.script.length + nesting)) h t
    rw [timeline, run_cons, ← List.singleton_append, ← List.append_assoc]
    exact hl.append (ih hl.follows)

theorem follows_start (script : Script) (policy : Policy) (level : Int) (timeouts : Timeout.Settings)
    (trust : Trust) : (start script policy level timeouts trust).Follows [] :=
  ⟨.nil, rfl⟩

/-- **The parameters of a reference follow its lineage and nothing else**, along every session and at every
moment of it, the steps in between included. There are as many references as lineages; each reference has
the channel, the timeout and the store of its lineage, and the parameters that it shows are those of its
lineage, with the current token of the store in the place of a token of its own. -/
theorem parameters_follow_lineage (script : Script) (policy : Policy) (level : Int)
    (timeouts : Timeout.Settings) (trust : Trust) (steps : List Step) :
    let s := start script policy level timeouts trust
    (∀ past m later, s.timeline steps = past ++ m :: later →
      let history := events (past ++ [m])
      m.after.references.items.length = (lineages history).length ∧
        ∀ place r, m.after.references.get? place = some r →
          ∃ l, (lineages history)[place]? = some l ∧ r.channel = l.channel ∧ r.timeout = l.timeout ∧
            r.store = l.store? ∧
            (∀ p, (r.effective (m.after.token? r)).get? p = l.shown (tokens history) p) ∧
            m.after.resolve r = (⟨l.shown (tokens history)⟩ : Parameters).query.map fun query =>
              (r.url ++ "/.json" ++ query : Text)) ∧
      (steps ≠ [] → ∃ past m, s.timeline steps = past ++ [m] ∧ m.after = s.run steps) := by
  intro s
  have hl := leads_timeline (follows_start script policy level timeouts trust) steps
  refine ⟨fun past m later he => ?_, fun hs => timeline_last s hs⟩
  have hf := hl.along past m later he
  rw [List.nil_append] at hf
  refine ⟨hf.references.length_eq, fun place r hr => ?_⟩
  obtain ⟨l, hll, hfollows⟩ := hf.lineage hr
  have heff := hfollows.effective (tokens (events (past ++ [m])))
  have htoken : m.after.token? r = r.store.bind ((tokens (events (past ++ [m])))[·]?) := by
    rw [← hf.stores]
    rfl
  rw [← htoken] at heff
  refine ⟨l, hll, hfollows.channel, hfollows.timeout, hfollows.store, fun p => by rw [heff], ?_⟩
  unfold resolve Reference.resolve
  rw [heff]
  cases (⟨l.shown (tokens (events (past ++ [m])))⟩ : Parameters).query <;> rfl

/-- A token is set while the database makes up the name of a child. -/
def tokenMeanwhile : Script :=
  ⟨⟨[.act "r" (.auth (.text "late"))],
    .ok ⟨200, [], [0x7B, 0x22, 0x6E, 0x61, 0x6D, 0x65, 0x22, 0x3A, 0x22, 0x6B, 0x22, 0x7D], none⟩⟩, []⟩

/-- A reference is made, and a child of it created. -/
def creating : List Step :=
  [.reference "r" (.text "http://a") (some (.int 3)) false, .act "r" (.push .none "c")]

/-- The child shows the token that was set before it was derived. -/
theorem parameters_follow_lineage_meanwhile :
    let s := start tokenMeanwhile .restoring 30 ⟨none, none⟩ .usual
    ∃ r, (s.run creating).references.get? 1 = some r ∧
      ((s.run creating).resolve r).toOption = some (Text.ofString "http://a/k/.json?auth=late") := by
  intro s
  obtain ⟨hfollow, hlast⟩ := parameters_follow_lineage tokenMeanwhile .restoring 30 ⟨none, none⟩ .usual
    creating
  obtain ⟨past, m, hm, hafter⟩ := hlast (List.cons_ne_nil _ _)
  obtain ⟨-, hplaces⟩ := hfollow past m [] hm
  rw [hafter, ← hm] at hplaces
  have hurl : ((s.run creating).references.get? 1).map Reference.url = some (Text.ofString "http://a/k") := by
    decide +kernel
  have hquery : ((lineages (events (s.timeline creating)))[1]?).map (fun l =>
      (⟨l.shown (tokens (events (s.timeline creating)))⟩ : Parameters).query.toOption) =
        some (some (Text.ofString "?auth=late")) := by
    decide +kernel
  obtain ⟨r, hr, hru⟩ := Option.map_eq_some_iff.1 hurl
  obtain ⟨l, hl, -, -, -, -, hresolve⟩ := hplaces 1 r hr
  rw [hl, Option.map_some, Option.some.injEq] at hquery
  refine ⟨r, hr, ?_⟩
  rw [hresolve, hru]
  cases hq : (⟨l.shown (tokens (events (s.timeline creating)))⟩ : Parameters).query with
  | error e => simp [hq, Except.toOption] at hquery
  | ok query =>
    rw [hq] at hquery
    obtain rfl := Option.some.inj hquery
    rfl

end Session

end RemoteTree
