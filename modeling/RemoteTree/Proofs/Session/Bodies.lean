import RemoteTree.Proofs.Json.Outside
import RemoteTree.Proofs.Session.Release

/-!
# What is sent of a value

An operation that sends a value sends the bytes that it was encoded to, if it could be. Along redirects these bytes
go with the request, or it goes on without a body; nothing else is put in their place.

* `Walk.body`: the body of a request is that of the first one, or none.
* `Session.body_of_trace`: it is what the caller gives.
* `Action.carried?`: the value that an action sends.
* `Session.encodes_json_iff_finite`: **what is sent of a value is JSON exactly if all floats in it are finite.**
-/

namespace RemoteTree

/-! ## Bodies along redirects -/

/-- What a chain goes on with has the body of the request before it, or none. -/
theorem Attempt.body_of_followed {a : Attempt} {p : Policy} {status : Int} {c : Chain}
    (h : (a.turn p).progress = .followed status c) :
    c.current.body = a.request.body ∨ c.current.body = .none := by
  obtain ⟨x, -, -, -, hbody⟩ := request_of_followed h
  rw [hbody]
  split
  · exact .inl rfl
  · exact .inr rfl

/-- **The body of a request is that of the first one, or none.** -/
theorem Walk.body {p : Policy} {n : Nat} {c : Chain} {as : List Attempt} {result : Except Stop Answer}
    (h : Walk p n c as result) : ∀ a ∈ as, a.request.body = c.current.body ∨ a.request.body = .none := by
  refine h.forall_chain (P := fun c' => c'.current.body = c.current.body ∨ c'.current.body = .none) (.inl rfl) ?_
  intro a status c' ha hp
  rcases Attempt.body_of_followed hp with hbody | hbody
  · rw [hbody]
    exact ha
  · exact .inr hbody

namespace Session

/-- **The requests of an operation** have the body that the caller gives, or none. -/
theorem body_of_trace {meanwhile : Meanwhile} (hm : meanwhile.Grows) (s : Session) (r : Reference) (m : Method)
    (payload : Body) (headers : List (Text × Value)) :
    ∀ a ∈ s.trace meanwhile r m payload headers, a.request.body = payload.trimmed ∨ a.request.body = .none := by
  obtain hnil | ⟨target, first, n, result, hf, hw⟩ := walk_of_trace hm s r m payload headers
  · rw [hnil]
    exact List.forall_mem_nil _
  · rw [← Request.body_of_prepare (prepare_of_firstRequest hf)]
    exact hw.body

end Session

/-- The value that an action sends. -/
def Action.carried? : Action → Option Value
  | .push v _ | .set v | .update v => some v
  | _ => none

namespace Session

/-- An action that sends a value has the bytes of the value as its payload, if there are any. -/
theorem payload_of_carried {a : Action} {v : Value} (ha : a.carried? = some v) {m : Method} {payload : Body}
    {headers : List (Text × Value)} (hop : a.operation? = some (m, payload, headers)) :
    ∃ bs, Json.encode v = .ok bs ∧ payload = .bytes bs := by
  cases a with
  | push w as | set w | update w =>
    obtain rfl := Option.some.inj ha
    obtain ⟨bs, hbs, hop⟩ := Option.map_eq_some_iff.1 hop
    exact ⟨bs, eq_ok_of_toOption hbs, (congrArg (fun o => o.2.1) hop).symm⟩
  | _ => cases ha

/-- What is carried for a payload is the payload, or nothing. -/
theorem trimmed_bytes (bs : Bytes) : (Body.bytes bs).trimmed = .bytes bs ∨ (Body.bytes bs).trimmed = .none := by
  cases bs with
  | nil => exact .inr rfl
  | cons b bs => exact .inl rfl

/-- What a step with an action sends: the requests of its operation, each followed by what is sent before its
reply, and nothing if it comes to no operation. -/
theorem sent_of_step (depth : Nat) (s : Session) {name : Text} {place : Nat} {r : Reference} (a : Action)
    (hr : s.references.find? name = some (place, r)) :
    let sent := (s.step (between depth) (.act name a)).1.sent.drop s.sent.length
    (a.operation? = none → sent = []) ∧
      ∀ m payload headers, a.operation? = some (m, payload, headers) →
        ∃ seconds, sent = (s.trace (between depth) r m payload headers).flatMap
          fun b => b.sent s.policy seconds s.trust := by
  intro sent
  have hsent : sent = (s.act (between depth) place r a).1.sent.drop s.sent.length := by
    show (s.step (between depth) (.act name a)).1.sent.drop s.sent.length = _
    simp only [step, hr]
  rw [hsent, sent_act]
  refine ⟨fun hop => ?_, fun m payload headers hop => ?_⟩
  · rw [hop]
    exact List.drop_length
  · obtain ⟨⟨seconds, hoperate⟩, -⟩ := released_of_trace (grows_between depth) s r m payload headers
    rw [hop]
    dsimp only
    rw [hoperate, List.drop_left]
    exact ⟨seconds, rfl⟩

/-- **What is sent of a value is JSON exactly if all floats in it are finite.**

* A value that cannot be encoded is a serialization error, and an action that sends it sends nothing then.
* The bytes of any other value are JSON exactly if no float that stands in it, other than as a key, is not-a-number
  or an infinity.
* A request that an action sends for a value has just these bytes as its body, or it has no body after a redirect. -/
theorem encodes_json_iff_finite (v : Value) (hv : v.EachFloat Double.IsBinary64) :
    (∀ e, Json.encode v = .error e → e.family? = some .serialization) ∧
      (∀ bs, Json.encode v = .ok bs → (Json.IsJson bs ↔ v.EachFloat Double.IsFinite)) ∧
      ∀ (depth : Nat) (s : Session) (name : Text) (place : Nat) (r : Reference) (a : Action),
        s.references.find? name = some (place, r) → a.carried? = some v →
        let sent := (s.step (between depth) (.act name a)).1.sent.drop s.sent.length
        ((∃ e, Json.encode v = .error e) → sent = []) ∧
          ∀ m payload headers, a.operation? = some (m, payload, headers) →
            let as := s.trace (between depth) r m payload headers
            (∃ seconds, sent = as.flatMap fun b => b.sent s.policy seconds s.trust) ∧
              ∀ b ∈ as, b.request.body = .none ∨ ∃ bs, Json.encode v = .ok bs ∧ b.request.body = .bytes bs := by
  refine ⟨fun e he => ?_, fun bs hbs => Json.isJson_iff hv hbs, fun depth s name place r a hr ha => ?_⟩
  · unfold Json.encode at he
    split at he
    · cases he
    · obtain rfl := Except.error.inj he
      rfl
  · obtain ⟨hnone, hsome⟩ := sent_of_step depth s a hr
    refine ⟨?_, fun m payload headers hop => ⟨hsome m payload headers hop, fun b hb => ?_⟩⟩
    · rintro ⟨e, he⟩
      refine hnone ?_
      cases hop : a.operation? with
      | none => rfl
      | some o =>
        obtain ⟨bs, hbs, -⟩ := payload_of_carried ha hop
        rw [he] at hbs
        cases hbs
    · obtain ⟨bs, hbs, rfl⟩ := payload_of_carried ha hop
      rcases body_of_trace (grows_between depth) s r m (.bytes bs) headers b hb with hbody | hbody
      · rw [hbody]
        rcases trimmed_bytes bs with htrimmed | htrimmed
        · exact .inr ⟨bs, hbs, htrimmed⟩
        · exact .inl htrimmed
      · exact .inl hbody

/-- The least positive double is written as JSON, and not-a-number as a key is. -/
theorem encodes_json_iff_finite_least :
    let v : Value := .list [.float (.finite true 1 Double.minExponent), .dict [(.float .nan, .int 7)]]
    v.EachFloat Double.IsBinary64 ∧ ∃ bs, Json.encode v = .ok bs ∧ Json.IsJson bs := by
  intro v
  have heach : ∀ P : Double → Prop, P (.finite true 1 Double.minExponent) → v.EachFloat P := by
    refine fun P hP => Value.everywhere_iff.2 ⟨fun x hx => (nomatch hx), List.forall_mem_cons.2 ⟨?_, ?_⟩⟩
    · exact Value.everywhere_of_empty (fun x hx => Value.float.inj hx ▸ hP) rfl
    · have hseven : (Value.int 7).EachFloat P := Value.everywhere_of_empty (fun x hx => (nomatch hx)) rfl
      exact List.forall_mem_singleton.2 (Value.everywhere_iff.2
        ⟨fun x hx => (nomatch hx), List.forall_mem_singleton.2 hseven⟩)
  have hdouble := heach Double.IsBinary64 (by unfold Double.IsBinary64; decide)
  have hwrite : Json.write v = .ok "[-5e-324, \x7b\"NaN\": 7\x7d]" := by decide +kernel
  have hbs := Json.encode_eq_ok.2 ⟨_, hwrite, rfl⟩
  exact ⟨hdouble, _, hbs, ((encodes_json_iff_finite v hdouble).2.1 _ hbs).2 (heach Double.IsFinite trivial)⟩

/-- Not-a-number is encoded as a word that is not JSON, and sent so. -/
theorem encodes_json_iff_finite_nan :
    ∃ bs, Json.encode (.float .nan) = .ok bs ∧ ¬Json.IsJson bs ∧
      ((waiting ledAway).observe (.act "r" (.set (.float .nan)))).sent.map (fun q => q.request.body) =
        [.bytes bs, .none, .bytes bs] := by
  have hdouble : (Value.float .nan).EachFloat Double.IsBinary64 :=
    Value.everywhere_of_empty (fun x hx => Value.float.inj hx ▸ trivial) rfl
  refine ⟨Bytes.ofAscii "NaN", rfl, fun h => ?_, by decide +kernel⟩
  exact (Json.isJson_iff hdouble rfl).1 h 0 _ (.self _) .nan rfl

end Session

end RemoteTree
