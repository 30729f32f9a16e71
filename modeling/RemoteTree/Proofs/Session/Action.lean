import RemoteTree.Proofs.Json.Members
import RemoteTree.Proofs.Session.InFlight

/-!
# What an action comes to

An action that sends requests sends those of its operation, and leaves the session as the operation does. The
creation of a child alone adds something after the answer: a line of the log and the child.

* `Session.touches_of_quiet`: what an action that sends nothing does to references.
* `Session.push_outcome`, `Session.push_cases`: what the creation of a child comes to, and what it does to a session;
  `Session.asks_or_push`: every other action with an operation reads something from its answer and does no more.
* `Session.act_of_operation`, `Session.act_of_no_operation`: what an action does to a session, by the operation
  that it comes to.
* `Session.sent_act`: what it sends.
-/

namespace RemoteTree

/-- A text is asked for, and given. -/
theorem Value.eq_text_of_asText {use : TextUse} {v : Value} {text : Text} (h : v.asText use = .ok text) :
    v = .text text := by
  cases v with
  | text t => rw [Except.ok.inj h]
  | _ => cases h

namespace Session

/-- What an action of the reference at a place may do to references if it sends nothing. -/
inductive Touches (s : Session) (place : Nat) (r : Reference) (a : Action) (x : Performed) : Prop
  /-- Nothing; it sets no url then. -/
  | nothing (h : x.1.references = s.references) (hn : ∀ v, a = .setUrl v → x.2.isOk = false)
  /-- It names a reference that is derived. -/
  | derived {d : Derivation} {as : Text} {c : Reference} (ha : a = .derive d as) (hd : r.derive d = .ok c)
      (h : x.1.references = s.references.insert as c)
  /-- It sets the url. -/
  | moved {text : Text} (ha : a = .setUrl (.text text)) (hok : x.2.isOk = true)
      (h : x.1.references = s.references.modify place fun q => { q with url := Url.base text })
  /-- It changes something else than the url. -/
  | changed {f : Reference → Reference} (hn : ∀ v, a ≠ .setUrl v)
      (h : x.1.references = s.references.modify place f) (hf : ∀ q, (f q).url = q.url)

/-- **What an action that sends nothing does to references.** -/
theorem touches_of_quiet (meanwhile : Meanwhile) (s : Session) (place : Nat) (r : Reference) {a : Action}
    (ha : a.sends = false) : Touches s place r a (s.act meanwhile place r a) := by
  cases a with
  | request | push | set | update | remove | value => cases ha
  | derive d as =>
    simp only [act]
    cases hd : r.derive d with
    | error e => exact .nothing rfl fun v hv => by cases hv
    | ok c => exact .derived rfl hd rfl
  | setUrl url =>
    simp only [act]
    cases ht : url.asText .startsWith with
    | error e => exact .nothing rfl fun _ _ => rfl
    | ok text =>
      obtain rfl := Value.eq_text_of_asText ht
      exact .moved rfl rfl rfl
  | setTimeout | auth | unauth => exact .changed (fun v hv => by cases hv) rfl fun q => rfl
  | shallow on | includePriority on =>
    cases on <;> exact .changed (fun v hv => by cases hv) rfl fun q => rfl
  | bind store =>
    cases store with
    | none => exact .changed (fun v hv => by cases hv) rfl fun q => rfl
    | some name =>
      simp only [act, bindStore]
      cases s.stores.place? name with
      | none => exact .nothing rfl fun v hv => by cases hv
      | some store => exact .changed (fun v hv => by cases hv) rfl fun q => rfl
  | url | timeout | literal | storeNames => exact .nothing rfl fun v hv => by cases hv
  | resolve | sharesChannel =>
    simp only [act]
    split <;> exact .nothing rfl fun v hv => by cases hv

/-- **What the creation of a child comes to.** The error of its operation comes out as it is. An answer that names a
child adds a line to the log and the child, and any other one is an error about what was read. -/
theorem push_outcome (meanwhile : Meanwhile) (s : Session) (place : Nat) (r : Reference) {v : Value} {bs : Bytes}
    (hv : Json.encode v = .ok bs) (as : Text) :
    let x := s.operate meanwhile r .post (.bytes bs) []
    let u := s.push meanwhile place r v as
    (∃ e, x.2 = .error e ∧ u = (x.1, .error e)) ∨ ∃ answer, x.2 = .ok answer ∧
      ((∃ child, NamesChild answer.body child ∧
          let c := ((x.1.references.get? place).getD r).named child
          u = ((x.1.note Log.infoLevel .client ("created " ++ c.url)).introduce as c).done) ∨
        (∀ child, ¬NamesChild answer.body child) ∧ ∃ e, e.family? = some .serialization ∧ u = (x.1, .error e)) := by
  intro x u
  have hu : u = s.push meanwhile place r v as := rfl
  have hx : s.operate meanwhile r .post (.bytes bs) [] = x := rfl
  simp only [push, hv, hx] at hu
  rcases x with ⟨t, e | answer⟩
  · exact .inl ⟨e, rfl, hu⟩
  refine .inr ⟨answer, rfl, ?_⟩
  dsimp only at hu ⊢
  cases hd : Json.decode (.bytes answer.body) none with
  | error e =>
    rw [hd] at hu
    refine .inr ⟨fun child hchild => ?_, e, Json.family_of_decode hd, hu⟩
    obtain ⟨response, hresponse, -⟩ := namesChild_iff.1 hchild
    rw [hd] at hresponse
    cases hresponse
  | ok response =>
    rw [hd] at hu
    dsimp only at hu
    cases hc : childName? response with
    | none =>
      rw [hc] at hu
      refine .inr ⟨fun child hchild => ?_, _, rfl, hu⟩
      obtain ⟨response', hresponse, hname⟩ := namesChild_iff.1 hchild
      rw [hd] at hresponse
      rw [← Except.ok.inj hresponse, hc] at hname
      cases hname
    | some child =>
      rw [hc] at hu
      exact .inl ⟨child, namesChild_iff.2 ⟨response, hd, hc⟩, hu⟩

/-- **The creation of a child** leaves the session as its operation does, or adds a line to the log and the child
of a name that the answer tells. -/
theorem push_cases (meanwhile : Meanwhile) (s : Session) (place : Nat) (r : Reference) {v : Value} {bs : Bytes}
    (hv : Json.encode v = .ok bs) (as : Text) :
    let x := s.operate meanwhile r .post (.bytes bs) []
    let u := (s.push meanwhile place r v as).1
    u = x.1 ∨ ∃ answer response child, x.2 = .ok answer ∧ Json.decode (.bytes answer.body) none = .ok response ∧
      childName? response = some child ∧
      let c := ((x.1.references.get? place).getD r).named child
      u = (x.1.note Log.infoLevel .client ("created " ++ c.url)).introduce as c := by
  intro x u
  obtain ⟨e, -, hu⟩ | ⟨answer, ha, ⟨child, hchild, hu⟩ | ⟨-, e, -, hu⟩⟩ := push_outcome meanwhile s place r hv as
  · exact .inl (congrArg Prod.fst hu)
  · obtain ⟨response, hd, hc⟩ := namesChild_iff.1 hchild
    exact .inr ⟨answer, response, child, ha, hd, hc, congrArg Prod.fst hu⟩
  · exact .inl (congrArg Prod.fst hu)

/-- An action that asks yields what it reads from the answer of its operation. -/
theorem act_of_asking {a : Action} (ha : a.asks = true) (r : Reference) {m : Method} {payload : Body}
    {headers : List (Text × Value)} (hop : a.operation? = some (m, payload, headers)) :
    ∃ read, ∀ (s : Session) meanwhile place, s.act meanwhile place r a =
      ((s.operate meanwhile r m payload headers).1, (s.operate meanwhile r m payload headers).2.bind read) := by
  obtain ⟨hnone, -⟩ | ⟨m', payload', headers', read, hop', hact⟩ := act_of_asks ha r
  · rw [hnone] at hop
    cases hop
  · rw [hop'] at hop
    obtain ⟨rfl, rfl, rfl⟩ : m' = m ∧ payload' = payload ∧ headers' = headers := by simpa using hop
    exact ⟨read, hact⟩

/-- An action with an operation asks, or creates a child. -/
theorem asks_or_push {a : Action} {m : Method} {payload : Body} {headers : List (Text × Value)}
    (hop : a.operation? = some (m, payload, headers)) :
    a.asks = true ∨ ∃ v as bs, a = .push v as ∧ Json.encode v = .ok bs ∧ m = .post ∧ payload = .bytes bs ∧
      headers = [] := by
  cases a with
  | push v as =>
    cases hv : Json.encode v with
    | error e => simp [Action.operation?, hv, Except.toOption] at hop
    | ok bs =>
      obtain ⟨rfl, rfl, rfl⟩ : Method.post = m ∧ Body.bytes bs = payload ∧ [] = headers := by
        simpa [Action.operation?, hv, Except.toOption] using hop
      exact .inr ⟨v, as, bs, rfl, hv, rfl, rfl, rfl⟩
  | request | set | update | remove | value => exact .inl rfl
  | _ => cases hop

/-- An action leaves the session as its operation does, and the creation of a child adds a line to the log and
a reference. -/
theorem act_of_operation (meanwhile : Meanwhile) (s : Session) (place : Nat) (r : Reference) {a : Action}
    {m : Method} {payload : Body} {headers : List (Text × Value)} (ha : a.operation? = some (m, payload, headers)) :
    let t := (s.operate meanwhile r m payload headers).1
    let u := (s.act meanwhile place r a).1
    u = t ∨ ∃ line as c, u = (t.note Log.infoLevel .client line).introduce as c := by
  intro t u
  obtain hask | ⟨v, as, bs, rfl, hv, rfl, rfl, rfl⟩ := asks_or_push ha
  · obtain ⟨read, hact⟩ := act_of_asking hask r ha
    exact .inl (congrArg Prod.fst (hact s meanwhile place))
  · obtain hu | ⟨answer, response, child, -, -, -, hu⟩ := push_cases meanwhile s place r hv as
    · exact .inl hu
    · exact .inr ⟨_, as, _, hu⟩

/-- An action that comes to no operation sends nothing, or fails before it because of its value. -/
theorem act_of_no_operation {a : Action} (ha : a.operation? = none) :
    a.sends = false ∨ ∃ e, ∀ (s : Session) meanwhile place r, s.act meanwhile place r a = s.fails e := by
  cases a with
  | request | remove | value => cases ha
  | push v as | set v | update v =>
    cases hv : Json.encode v with
    | error e => exact .inr ⟨e, fun s meanwhile place r => by simp [act, push, writeValue, hv]⟩
    | ok bs => simp [Action.operation?, hv, Except.toOption] at ha
  | _ => exact .inl rfl

/-- An action sends what its operation sends. -/
theorem sent_act (meanwhile : Meanwhile) (s : Session) (place : Nat) (r : Reference) (a : Action) :
    (s.act meanwhile place r a).1.sent =
      match a.operation? with
      | some (m, payload, headers) => (s.operate meanwhile r m payload headers).1.sent
      | none => s.sent := by
  cases hop : a.operation? with
  | none =>
    rcases act_of_no_operation hop with ha | ⟨e, he⟩
    · exact (congrArg Session.sent (wire_act meanwhile s place r ha) :)
    · rw [he]
      rfl
  | some o =>
    obtain heq | ⟨line, as, c, heq⟩ := act_of_operation meanwhile s place r hop
    · exact congrArg Session.sent heq
    · rw [heq]
      exact sent_note _ _ _ _

end Session

end RemoteTree
