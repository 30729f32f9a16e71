import RemoteTree.Proofs.Http.Veiled
import RemoteTree.Proofs.Reference.Veiled
import RemoteTree.Proofs.Session.InFlight

/-!
# The log keeps tokens secret

Two runs of a client that differ only in its tokens differ in the urls that are sent, and in what is yielded, but
not in what is done and what is written into the log.

* `Step.Alike`, `Script.Alike`: steps and scripts that differ only in tokens.
* `Session.Alike`: sessions that differ only in tokens, with the same log.
* `Session.Alike.operate`, `Session.Alike.act`, `Session.Alike.perform`: what such sessions become.
* `Session.log_hides_tokens`: **the lines of the log are the same.**
-/

namespace RemoteTree

/-! ## Registries -/

/-- Registries whose things are related one by one, under the same names. -/
structure Registry.Related {α : Type} (R : α → α → Prop) (a b : Registry α) : Prop where
  items : List.Forall₂ R a.items b.items
  places : a.places = b.places

namespace Registry.Related

variable {α : Type} {R : α → α → Prop} {a b : Registry α}

theorem empty : Related R (Registry.empty (α := α)) .empty := ⟨.nil, rfl⟩

theorem rel_getElem? {l m : List α} (h : List.Forall₂ R l m) (place : Nat) : Option.Rel R l[place]? m[place]? := by
  induction h generalizing place with
  | nil => exact .none
  | cons hxy _ ih =>
    cases place with
    | zero => exact .some hxy
    | succ place => exact ih place

theorem get? (h : Related R a b) (place : Nat) : Option.Rel R (a.get? place) (b.get? place) :=
  rel_getElem? h.items place

/-- A name stands for nothing in both, or for related things at the same place. -/
theorem find? (h : Related R a b) (name : Text) : (a.find? name = none ∧ b.find? name = none) ∨
    ∃ place x y, a.find? name = some (place, x) ∧ b.find? name = some (place, y) ∧ R x y := by
  unfold Registry.find? Registry.place?
  rw [h.places]
  cases (b.places.find? fun e => e.1 == name).map Prod.snd with
  | none => exact .inl ⟨rfl, rfl⟩
  | some place =>
    have hget := h.get? place
    simp only [Option.bind_eq_bind, Option.bind_some]
    generalize a.get? place = x at hget ⊢
    generalize b.get? place = y at hget ⊢
    cases hget with
    | none => exact .inl ⟨rfl, rfl⟩
    | some hxy => exact .inr ⟨place, _, _, rfl, rfl, hxy⟩

theorem insert (h : Related R a b) (name : Text) {x y : α} (hxy : R x y) :
    Related R (a.insert name x) (b.insert name y) := by
  refine ⟨List.rel_append h.items (.cons hxy .nil), ?_⟩
  unfold Registry.insert
  rw [h.items.length_eq, h.places]

theorem modify (h : Related R a b) (place : Nat) {f g : α → α} (hfg : ∀ x y, R x y → R (f x) (g y)) :
    Related R (a.modify place f) (b.modify place g) := by
  refine ⟨?_, h.places⟩
  have hitems := h.items
  unfold Registry.modify
  dsimp only
  generalize a.items = l at hitems ⊢
  generalize b.items = m at hitems ⊢
  induction hitems generalizing place with
  | nil => cases place <;> exact .nil
  | cons hxy hrest ih =>
    cases place with
    | zero => exact .cons (hfg _ _ hxy) hrest
    | succ place => exact .cons hxy (ih place)

end Registry.Related

/-! ## Steps and scripts -/

/-- Steps that differ only in the token that is given to a reference or a store. -/
inductive Step.Alike : Step → Step → Prop where
  | same (t : Step) : Alike t t
  | store (name : Text) {v w : Value} (h : v.IsTokenLike w) : Alike (.store name v) (.store name w)
  | setToken (name : Text) {v w : Value} (h : v.IsTokenLike w) : Alike (.setToken name v) (.setToken name w)
  | auth (on : Text) {v w : Value} (h : v.IsTokenLike w) : Alike (.act on (.auth v)) (.act on (.auth w))

/-- Replies that differ only in the tokens of the steps before them. -/
structure Reply.Alike (x y : Reply) : Prop where
  meanwhile : List.Forall₂ Step.Alike x.meanwhile y.meanwhile
  outcome : x.outcome = y.outcome

/-- Scripts that differ only in the tokens of the steps in between. -/
structure Script.Alike (x y : Script) : Prop where
  next : x.next.Alike y.next
  later : List.Forall₂ Reply.Alike x.later y.later

namespace Script.Alike

variable {x y : Script}

theorem advance (h : x.Alike y) : x.advance.Alike y.advance := by
  obtain ⟨next, later⟩ := x
  obtain ⟨next', later'⟩ := y
  obtain ⟨hnext, hlater⟩ := h
  dsimp only at hlater
  cases hlater with
  | nil => exact ⟨hnext, .nil⟩
  | cons hr hrest => exact ⟨hr, hrest⟩

theorem length_eq (h : x.Alike y) : x.length = y.length := congrArg Nat.succ h.later.length_eq

end Script.Alike

namespace Session

/-! ## Sessions -/

/-- Sessions that differ only in their tokens, and in what has been sent and seen of it. -/
structure Alike (s t : Session) : Prop where
  references : Registry.Related Reference.Alike s.references t.references
  stores : Registry.Related Value.IsTokenLike s.stores t.stores
  channels : s.channels = t.channels
  script : s.script.Alike t.script
  policy : s.policy = t.policy
  level : s.level = t.level
  timeouts : s.timeouts = t.timeouts
  log : s.log = t.log

/-- What is made of such sessions: others of them, and results that agree. -/
structure Meets {ε ε' α β : Type} (R : α → β → Prop) (x : Session × Except ε α) (y : Session × Except ε' β) : Prop where
  session : x.1.Alike y.1
  result : Agree R x.2 y.2

namespace Meets

variable {ε ε' α β : Type} {R : α → β → Prop} {x : Session × Except ε α} {y : Session × Except ε' β}

theorem cases (h : Meets R x y) :
    (∃ s t a b, x = (s, .ok a) ∧ y = (t, .ok b) ∧ s.Alike t ∧ R a b) ∨
      ∃ s t e e', x = (s, .error e) ∧ y = (t, .error e') ∧ s.Alike t := by
  obtain ⟨s, x⟩ := x
  obtain ⟨t, y⟩ := y
  obtain ⟨hsession, hresult⟩ := h
  rcases hresult.cases with ⟨a, b, rfl, rfl, hab⟩ | ⟨e, e', rfl, rfl⟩
  · exact .inl ⟨s, t, a, b, rfl, rfl, hsession, hab⟩
  · exact .inr ⟨s, t, e, e', rfl, rfl, hsession⟩

end Meets

/-- Steps in between that make the same of such sessions. -/
def IsBlind (meanwhile : Meanwhile) : Prop :=
  ∀ {s t : Session} {steps steps' : List Step}, s.Alike t → List.Forall₂ Step.Alike steps steps' →
    Meets (fun _ _ => True) (meanwhile steps s) (meanwhile steps' t)

namespace Alike

variable {s t : Session}

theorem note (h : s.Alike t) (level : Int) (source : Source) (message : Text) :
    (s.note level source message).Alike (t.note level source message) := by
  have hadmits : Log.admits s.level level = Log.admits t.level level := by rw [h.level]
  unfold Session.note
  rw [hadmits]
  split
  · exact { h with log := congrArg (· ++ _) h.log }
  · exact h

theorem configure (h : s.Alike t) (place : Nat) {f g : Reference → Reference}
    (hfg : ∀ r q, r.Alike q → (f r).Alike (g q)) : (s.configure place f).Alike (t.configure place g) :=
  { h with references := h.references.modify place hfg }

theorem introduce (h : s.Alike t) (name : Text) {r q : Reference} (hrq : r.Alike q) :
    (s.introduce name r).Alike (t.introduce name q) :=
  { h with references := h.references.insert name hrq }

theorem token? (h : s.Alike t) {r q : Reference} (hrq : r.Alike q) :
    Option.Rel Value.IsTokenLike (s.token? r) (t.token? q) := by
  unfold Session.token?
  rw [hrq.store]
  cases q.store with
  | none => exact .none
  | some store => exact h.stores.get? store

/-- **References stand for urls that differ only in secrets.** -/
theorem resolve (h : s.Alike t) {r q : Reference} (hrq : r.Alike q) :
    Agree (Url.Veiled false) (s.resolve r) (t.resolve q) := hrq.resolve (h.token? hrq)

theorem bindStore (h : s.Alike t) (place : Nat) (store : Option Text) :
    Meets (fun _ _ => True) (s.bindStore place store) (t.bindStore place store) := by
  have hbind : ∀ store : Option Nat, ∀ r q : Reference, r.Alike q →
      { r with store }.Alike { q with store } := fun _ r q hrq => { hrq with store := rfl }
  cases store with
  | none => exact ⟨h.configure place (hbind none), .ok trivial⟩
  | some name =>
    unfold Session.bindStore Registry.place?
    dsimp only
    rw [h.stores.places]
    split
    · exact ⟨h, .error _ _⟩
    · exact ⟨h.configure place (hbind _), .ok trivial⟩

/-- A new reference. -/
theorem refer (h : s.Alike t) (name : Text) (url : Value) (timeout : Option Value) (own : Bool) :
    Meets (fun _ _ => True) (s.refer name url timeout own) (t.refer name url timeout own) := by
  have hdefault : s.timeouts.default = t.timeouts.default := by rw [h.timeouts]
  have hchannels : ∀ n, ({ s with channels := n } : Session).Alike { t with channels := n } := fun n =>
    { h with channels := rfl }
  unfold Session.refer
  rw [hdefault, h.channels]
  dsimp only
  split
  · exact ⟨h, .error _ _⟩
  · exact ⟨(hchannels _).introduce name (.refl _), .ok trivial⟩

theorem withStore (h : s.Alike t) (name : Text) {f g : Nat → Value → Performed}
    (hfg : ∀ place v w, Meets (fun _ _ => True) (f place v) (g place w)) :
    Meets (fun _ _ => True) (s.withStore name f) (t.withStore name g) := by
  unfold Session.withStore
  rcases h.stores.find? name with ⟨hr, hq⟩ | ⟨place, v, w, hr, hq, -⟩
  · rw [hr, hq]
    exact ⟨h, .error _ _⟩
  · rw [hr, hq]
    exact hfg place v w

/-- A store with a token of each run. -/
theorem store (h : s.Alike t) (name : Text) {v w : Value} (hvw : v.IsTokenLike w) :
    Meets (fun _ _ => True) (Session.done { s with stores := s.stores.insert name v })
      (Session.done { t with stores := t.stores.insert name w }) :=
  ⟨{ h with stores := h.stores.insert name hvw }, .ok trivial⟩

theorem setToken (h : s.Alike t) (name : Text) {v w : Value} (hvw : v.IsTokenLike w) :
    Meets (fun _ _ => True)
      (s.withStore name fun place _ => Session.done { s with stores := s.stores.modify place fun _ => v })
      (t.withStore name fun place _ => Session.done { t with stores := t.stores.modify place fun _ => w }) :=
  h.withStore name fun place _ _ => ⟨{ h with stores := h.stores.modify place fun _ _ _ => hvw }, .ok trivial⟩

/-! ## Operations -/

/-- The url of a line of the log is the same for urls that differ only in secrets. -/
theorem withoutQuery_eq {t u : Text} (h : Url.Veiled false t u) : Url.withoutQuery t = Url.withoutQuery u :=
  h.cut_mark.1

section

variable {meanwhile : Meanwhile} (hm : IsBlind meanwhile)

include hm

/-- The script decides what comes back. -/
theorem exchange (h : s.Alike t) (r q : Request) (seconds : Option Value) :
    Meets Eq (s.exchange meanwhile r seconds) (t.exchange meanwhile q seconds) := by
  have hrecord : (s.record r seconds).Alike (t.record q seconds) := { h with }
  have hadvanced : ({ s.record r seconds with script := (s.record r seconds).script.advance } : Session).Alike
      { t.record q seconds with script := (t.record q seconds).script.advance } :=
    { hrecord with script := hrecord.script.advance }
  unfold Session.exchange
  dsimp only
  rcases (hm hadvanced hrecord.script.next.meanwhile).cases with ⟨u, v, _, _, hu, hv, huv, -⟩ | ⟨u, v, e, e', hu, hv, huv⟩
  · rw [hu, hv, hrecord.script.next.outcome]
    exact ⟨huv, .refl (fun _ => rfl) _⟩
  · rw [hu, hv]
    exact ⟨huv, .error _ _⟩

/-- **An attempt** writes the same line into the log, or none. -/
theorem attempt (h : s.Alike t) {c d : Chain} (hcd : c.Alike d) (seconds : Option Value) :
    (s.attempt meanwhile seconds c).1.Alike (t.attempt meanwhile seconds d).1 ∧
      (s.attempt meanwhile seconds c).2.Alike (t.attempt meanwhile seconds d).2 := by
  have hreply := exchange hm h c.current d.current seconds
  unfold Session.attempt
  generalize s.exchange meanwhile c.current seconds = x at hreply ⊢
  generalize t.exchange meanwhile d.current seconds = y at hreply ⊢
  obtain ⟨u, reply⟩ := x
  obtain ⟨v, reply'⟩ := y
  obtain ⟨huv, hreply⟩ := hreply
  dsimp only at huv hreply ⊢
  have hturn := hcd.feed u.policy (hreply.mapError Raised.stop Raised.stop)
  rw [← huv.policy]
  generalize c.feed u.policy (reply.mapError Raised.stop) = turn at hturn ⊢
  generalize d.feed u.policy (reply'.mapError Raised.stop) = turn' at hturn ⊢
  have hleft : ((u.release s.sent.length turn.released).ask turn.shown).Alike
      ((v.release t.sent.length turn'.released).ask turn'.shown) := { huv with }
  have hprogress := hturn.progress
  generalize turn.progress = progress at hprogress ⊢
  generalize turn'.progress = progress' at hprogress ⊢
  cases hprogress with
  | stopped why why' => exact ⟨hleft, .stopped why why'⟩
  | answered a => exact ⟨hleft, .answered a⟩
  | @followed status c d hnext =>
    have hline : ∀ s : Session, s.noteHop status c = s.note Log.debugLevel .wire
        ("redirect " ++ Text.ofNat c.via.length ++ " " ++ Text.ofInt status ++ " " ++
          Text.ofString c.current.method.name ++ " " ++ Url.withoutQuery c.current.url) := fun _ => rfl
    refine ⟨?_, .followed status hnext⟩
    dsimp only
    rw [hline, hnext.via.length_eq, hnext.current.method, withoutQuery_eq hnext.current.url]
    exact hleft.note _ _ _

theorem pursue (h : s.Alike t) {c d : Chain} (hcd : c.Alike d) (seconds : Option Value) (fuel : Nat) :
    Meets Eq (s.pursue meanwhile seconds fuel c) (t.pursue meanwhile seconds fuel d) := by
  induction fuel generalizing s t c d with
  | zero => exact ⟨h, .error _ _⟩
  | succ fuel ih =>
    unfold Session.pursue
    rw [hcd.isSendable_eq]
    split
    · exact ⟨h, .error _ _⟩
    · obtain ⟨hsession, hprogress⟩ := attempt hm h hcd seconds
      generalize s.attempt meanwhile seconds c = x at hsession hprogress ⊢
      generalize t.attempt meanwhile seconds d = y at hsession hprogress ⊢
      obtain ⟨u, progress⟩ := x
      obtain ⟨v, progress'⟩ := y
      dsimp only at hsession hprogress
      cases hprogress with
      | stopped why why' => exact ⟨hsession, .error _ _⟩
      | answered a => exact ⟨hsession, .ok rfl⟩
      | followed status hnext => exact ih hsession hnext

/-- **An operation** comes to the same answer, or to none, and writes the same lines into the log. -/
theorem operate (h : s.Alike t) {r q : Reference} (hrq : r.Alike q) (m : Method) (payload : Body)
    (headers : List (Text × Value)) :
    Meets Eq (s.operate meanwhile r m payload headers) (t.operate meanwhile q m payload headers) := by
  have hfirst : Agree (fun x y => Url.Veiled false x.1 y.1 ∧ x.2.Alike y.2) (s.firstRequest r m payload headers)
      (t.firstRequest q m payload headers) :=
    (h.resolve hrq).bind fun url url' hurl => (Request.alike_prepare m hurl headers payload).bind fun _ _ hreq =>
      .ok ⟨hurl, hreq⟩
  unfold Session.operate
  rcases hfirst.cases with ⟨⟨url, first⟩, ⟨url', first'⟩, hs, ht, hurl, hreq⟩ | ⟨e, e', hs, ht⟩
  · rw [hs, ht]
    dsimp only
    have hnote : (s.noteFirst m url).Alike (t.noteFirst m url') := by
      unfold Session.noteFirst
      rw [withoutQuery_eq hurl]
      exact h.note _ _ _
    unfold Session.submit
    dsimp only
    rw [hrq.timeout]
    cases Timeout.attempt q.timeout with
    | error why => exact ⟨hnote, .error _ _⟩
    | ok seconds =>
      dsimp only
      have hpatience : (s.noteFirst m url).patience = (t.noteFirst m url').patience := by
        unfold Session.patience
        rw [hnote.script.length_eq]
      rw [hpatience]
      rcases (pursue hm hnote (.start hreq) seconds _).cases with
        ⟨u, v, a, _, hu, hv, huv, rfl⟩ | ⟨u, v, e, e', hu, hv, huv⟩
      · rw [hu, hv]
        dsimp only
        unfold Session.judge
        rw [hrq.url]
        split
        · exact ⟨huv, .ok rfl⟩
        · exact ⟨huv.note _ _ _, .error _ _⟩
      · rw [hu, hv]
        exact ⟨huv, .error _ _⟩
  · rw [hs, ht]
    exact ⟨h, .error _ _⟩

/-! ## Steps -/

/-- An operation whose answer is made into something else. -/
theorem write (h : s.Alike t) {r q : Reference} (hrq : r.Alike q) (m : Method) (payload : Body) :
    Meets (fun _ _ => True) (s.write meanwhile r m payload) (t.write meanwhile q m payload) := by
  unfold Session.write
  rcases (operate hm h hrq m payload []).cases with ⟨u, v, a, b, hu, hv, huv, -⟩ | ⟨u, v, e, e', hu, hv, huv⟩
  · rw [hu, hv]
    exact ⟨huv, .ok trivial⟩
  · rw [hu, hv]
    exact ⟨huv, .error _ _⟩

theorem writeValue (h : s.Alike t) {r q : Reference} (hrq : r.Alike q) (m : Method) (v : Value) :
    Meets (fun _ _ => True) (s.writeValue meanwhile r m v) (t.writeValue meanwhile q m v) := by
  unfold Session.writeValue
  split
  · exact ⟨h, .error _ _⟩
  · exact write hm h hrq m _

/-- **The creation of a child** writes the same line, for the child has the url of the reference. -/
theorem push (h : s.Alike t) {r q : Reference} (hrq : r.Alike q) (place : Nat) (v : Value) (name : Text) :
    Meets (fun _ _ => True) (s.push meanwhile place r v name) (t.push meanwhile place q v name) := by
  unfold Session.push
  split
  · exact ⟨h, .error _ _⟩
  rename_i bs _
  rcases (operate hm h hrq .post (.bytes bs) []).cases with ⟨u, v, a, _, hu, hv, huv, rfl⟩ | ⟨u, v, e, e', hu, hv, huv⟩
  · rw [hu, hv]
    dsimp only
    -- the references are read again
    have hagain : ((u.references.get? place).getD r).Alike ((v.references.get? place).getD q) := by
      have hget := huv.references.get? place
      generalize u.references.get? place = x at hget ⊢
      generalize v.references.get? place = y at hget ⊢
      cases hget with
      | none => exact hrq
      | some hxy => exact hxy
    generalize (u.references.get? place).getD r = r' at hagain ⊢
    generalize (v.references.get? place).getD q = q' at hagain ⊢
    split
    · exact ⟨huv, .error _ _⟩
    split
    · exact ⟨huv, .error _ _⟩
    · rename_i child _
      have hchild := hagain.named child
      rw [hchild.url]
      exact ⟨(huv.note _ _ _).introduce name hchild, .ok trivial⟩
  · rw [hu, hv]
    exact ⟨huv, .error _ _⟩

/-- **What is done with references** that differ only in their tokens. -/
theorem act (h : s.Alike t) {r q : Reference} (hrq : r.Alike q) (place : Nat) (a : Action) :
    Meets (fun _ _ => True) (s.act meanwhile place r a) (t.act meanwhile place q a) := by
  cases a with
  | derive d name =>
    unfold Session.act
    dsimp only
    rcases (hrq.derive d).cases with ⟨c, c', hc, hc', hcc⟩ | ⟨e, e', hc, hc'⟩
    · rw [hc, hc']
      exact ⟨h.introduce name hcc, .ok trivial⟩
    · rw [hc, hc']
      exact ⟨h, .error _ _⟩
  | push v name => exact push hm h hrq place v name
  | setUrl url =>
    unfold Session.act
    dsimp only
    split
    · exact ⟨h, .error _ _⟩
    · exact ⟨h.configure place fun r q hrq => hrq.withUrl _, .ok trivial⟩
  | setTimeout seconds => exact ⟨h.configure place fun r q hrq => { hrq with timeout := rfl }, .ok trivial⟩
  | auth token => exact ⟨h.configure place fun r q hrq => hrq.withParameter _ _, .ok trivial⟩
  | unauth => exact ⟨h.configure place fun r q hrq => hrq.withoutParameter _, .ok trivial⟩
  | shallow on => exact ⟨h.configure place fun r q hrq => hrq.withFlag _ _ on, .ok trivial⟩
  | includePriority on => exact ⟨h.configure place fun r q hrq => hrq.withFlag _ _ on, .ok trivial⟩
  | bind store => exact h.bindStore place store
  | url => exact ⟨h, .ok trivial⟩
  | timeout => exact ⟨h, .ok trivial⟩
  | resolve =>
    unfold Session.act
    dsimp only
    rcases (h.resolve hrq).cases with ⟨u, u', hu, hu', -⟩ | ⟨e, e', hu, hu'⟩
    · rw [hu, hu']
      exact ⟨h, .ok trivial⟩
    · rw [hu, hu']
      exact ⟨h, .error _ _⟩
  | literal => exact ⟨h, .ok trivial⟩
  | storeNames => exact ⟨h, .ok trivial⟩
  | sharesChannel other =>
    unfold Session.act
    dsimp only
    rcases h.references.find? other with ⟨hr, hq⟩ | ⟨_, x, y, hx, hy, -⟩
    · rw [hr, hq]
      exact ⟨h, .error _ _⟩
    · rw [hx, hy]
      exact ⟨h, .ok trivial⟩
  | request m payload headers =>
    unfold Session.act
    dsimp only
    rcases (operate hm h hrq m payload headers).cases with ⟨u, v, a, b, hu, hv, huv, -⟩ | ⟨u, v, e, e', hu, hv, huv⟩
    · rw [hu, hv]
      exact ⟨huv, .ok trivial⟩
    · rw [hu, hv]
      exact ⟨huv, .error _ _⟩
  | set v => exact writeValue hm h hrq .put v
  | update v => exact writeValue hm h hrq .patch v
  | remove => exact write hm h hrq .delete .none
  | value into =>
    unfold Session.act
    dsimp only
    rcases (operate hm h hrq .get .none []).cases with ⟨u, v, a, _, hu, hv, huv, rfl⟩ | ⟨u, v, e, e', hu, hv, huv⟩
    · rw [hu, hv]
      dsimp only
      split
      · exact ⟨huv, .error _ _⟩
      · exact ⟨huv, .ok trivial⟩
    · rw [hu, hv]
      exact ⟨huv, .error _ _⟩

/-- **Steps** that differ only in a token. -/
theorem step (h : s.Alike t) {x y : Step} (hxy : x.Alike y) :
    Meets (fun _ _ => True) (Session.step meanwhile s x) (Session.step meanwhile t y) := by
  cases hxy with
  | same x =>
    cases x with
    | reference name url timeout own => exact h.refer name url timeout own
    | store name token => exact h.store name (.same token)
    | setToken name token => exact h.setToken name (.same token)
    | token name => exact h.withStore name fun place v w => ⟨h, .ok trivial⟩
    | storeLiteral name => exact h.withStore name fun place v w => ⟨h, .ok trivial⟩
    | close => exact ⟨{ h with }, .ok trivial⟩
    | act name a =>
      unfold Session.step
      dsimp only
      rcases h.references.find? name with ⟨hr, hq⟩ | ⟨place, r, q, hr, hq, hrq⟩
      · rw [hr, hq]
        exact ⟨h, .error _ _⟩
      · rw [hr, hq]
        exact act hm h hrq place a
  | store name hvw => exact h.store name hvw
  | setToken name hvw => exact h.setToken name hvw
  | auth name hvw =>
    unfold Session.step
    dsimp only
    rcases h.references.find? name with ⟨hr, hq⟩ | ⟨place, r, q, hr, hq, -⟩
    · rw [hr, hq]
      exact ⟨h, .error _ _⟩
    · rw [hr, hq]
      exact ⟨h.configure place fun r q hrq => hrq.withToken hvw, .ok trivial⟩

end

/-- Steps in a row, if each of them makes the same of such sessions. -/
theorem inRow {act : Session → Step → Performed}
    (hact : ∀ {s t : Session} {x y : Step}, s.Alike t → x.Alike y → Meets (fun _ _ => True) (act s x) (act t y))
    (h : s.Alike t) {steps steps' : List Step} (hsteps : List.Forall₂ Step.Alike steps steps') :
    Meets (fun _ _ => True) (s.inRow act steps) (t.inRow act steps') := by
  induction hsteps generalizing s t with
  | nil => exact ⟨h, .ok trivial⟩
  | cons hxy _ ih =>
    unfold Session.inRow
    rcases (hact h hxy).cases with ⟨u, v, a, b, hu, hv, huv, -⟩ | ⟨u, v, e, e', hu, hv, huv⟩
    · rw [hu, hv]
      exact ih huv
    · rw [hu, hv]
      exact ⟨huv, .error _ _⟩

/-- **Steps in between are blind to tokens**, by induction on how deep they go. -/
theorem isBlind_between (depth : Nat) : IsBlind (between depth) := by
  induction depth with
  | zero => exact fun h hsteps => inRow (fun hst _ => ⟨hst, .error _ _⟩) h hsteps
  | succ depth ih => exact fun h hsteps => inRow (fun hst hxy => step ih hst hxy) h hsteps

/-- **A step of the client** makes the same of sessions that differ only in tokens. -/
theorem perform (h : s.Alike t) {x y : Step} (hxy : x.Alike y) :
    Meets (fun _ _ => True) (s.perform x) (t.perform y) := by
  unfold Session.perform
  rw [h.script.length_eq]
  exact step (isBlind_between _) h hxy

/-- The log of a run, step by step. -/
theorem observeAll (h : s.Alike t) {steps steps' : List Step} (hsteps : List.Forall₂ Step.Alike steps steps') :
    (s.observeAll steps).map Observation.log = (t.observeAll steps').map Observation.log := by
  induction hsteps generalizing s t with
  | nil => rfl
  | @cons x y _ _ hxy _ ih =>
    have hleft : (s.observe x).after.Alike (t.observe y).after := (h.perform hxy).session
    have hlog : (s.observe x).log = (t.observe y).log := by
      show (s.observe x).after.log.drop s.log.length = (t.observe y).after.log.drop t.log.length
      rw [hleft.log, h.log]
    unfold Session.observeAll
    dsimp only
    rw [List.map_cons, List.map_cons, hlog, ih hleft]

theorem run (h : s.Alike t) {steps steps' : List Step} (hsteps : List.Forall₂ Step.Alike steps steps') :
    (s.run steps).Alike (t.run steps') := by
  induction hsteps generalizing s t with
  | nil => exact h
  | cons hxy _ ih => exact ih (h.perform hxy).session

end Alike

/-- **The log hides tokens.** Take two runs of a client from the start, with steps and with a script that differ
only in tokens without surrogates: those that are given to references and to stores, by the client or between a
request and its reply. Whatever the responses are and wherever they lead, the lines of the log are the same, step by
step and at the end. -/
theorem log_hides_tokens {script script' : Script} {steps steps' : List Step} (hscript : script.Alike script')
    (hsteps : List.Forall₂ Step.Alike steps steps') (policy : Policy) (level : Int) (timeouts : Timeout.Settings)
    (trust : Trust) :
    let s := start script policy level timeouts trust
    let t := start script' policy level timeouts trust
    (s.observeAll steps).map Observation.log = (t.observeAll steps').map Observation.log ∧
      (s.run steps).log = (t.run steps').log := by
  intro s t
  have h : s.Alike t := ⟨.empty, .empty, rfl, hscript, rfl, rfl, rfl, rfl⟩
  exact ⟨h.observeAll hsteps, (h.run hsteps).log⟩

/-- A database that sends the client to a fragment of the url it came to, and then answers. -/
def aside : Script :=
  ⟨⟨[], .ok ⟨307, Headers.ofList [("Location", .text "#f")], [], none⟩⟩, [⟨[], .ok ⟨200, [], [0x31], none⟩⟩]⟩

/-- A client that deletes something with a token. -/
def deletion (token : Text) : List Step :=
  [.reference "r" (.text "http://a") (some (.int 3)) false, .act "r" (.auth (.text token)), .act "r" .remove]

/-- Two tokens are sent twice each, and the log shows neither. -/
theorem log_hides_tokens_aside :
    let run := fun token : Text => (start aside .restoring 10 ⟨none, none⟩ .usual).run (deletion token)
    (run "x&y").log = (run "z").log ∧
      (run "z").log.map LogLine.message =
        [Text.ofString "DELETE http://a/.json", Text.ofString "redirect 1 307 DELETE http://a/.json"] ∧
      (run "x&y").sent.map (fun q => q.request.url) =
        [Text.ofString "http://a/.json?auth=x%26y", Text.ofString "http://a/.json?auth=x%26y#f"] ∧
      (run "z").sent.map (fun q => q.request.url) =
        [Text.ofString "http://a/.json?auth=z", Text.ofString "http://a/.json?auth=z#f"] := by
  have hscript : aside.Alike aside := ⟨⟨.nil, rfl⟩, .cons ⟨.nil, rfl⟩ .nil⟩
  have hsteps : List.Forall₂ Step.Alike (deletion "x&y") (deletion "z") :=
    .cons (.same _) (.cons (.auth _ (.texts (by decide) (by decide))) (.cons (.same _) .nil))
  refine ⟨(log_hides_tokens hscript hsteps .restoring 10 ⟨none, none⟩ .usual).2, ?_, ?_, ?_⟩
  all_goals decide +kernel

end Session

end RemoteTree
