import RemoteTree.Proofs.Http.Follow
import RemoteTree.Proofs.Session.InFlight

/-!
# What comes of an answer that is read

Bytes that have arrived are read as JSON, and the value is handed to a conversion of the caller's. All that can go
wrong with the reading is put into one error of the library. A conversion may fail with anything; only what means a
wrong type, a wrong value or a missing key is put into that error, and only if it has a text to be told in it.

* `Conversion.Escapes`: a failure of a conversion that comes out as another error.
* `Json.convert_eq_error_iff`, `Json.decode_eq_error_iff`: the ends of a conversion, and of the reading of an answer,
  that are errors.
* `Session.read_or_escaped`: **an answer is read, or its error is that of the library, exactly if the conversion does
  not escape**; so it is for what a client reads from the database.
-/

namespace RemoteTree

variable {c : Conversion} {v w : Value} {e : Error} {blob : Value} {into : Option Conversion}

/-! ## Conversions -/

/-- The error that a failure of a conversion comes out as, where it is not put into one of the library: the failure
itself, if it does not mean a wrong shape, or what keeps it from having a text. -/
inductive Conversion.Escapes (c : Conversion) (v : Value) : Error → Prop
  | unwrapped {f : Failure} (h : c.run v = .error f) (hshape : f.kind.isWrongShape = false) : c.Escapes v (.failure f)
  | textless {f : Failure} {fault : Failure.PrintFault} (h : c.run v = .error f)
      (hshape : f.kind.isWrongShape = true) (htext : f.message = .error fault) : c.Escapes v (.ofPrintFault fault)

/-- What escapes is no error of the library's own. -/
theorem Conversion.Escapes.isForeign (h : c.Escapes v e) : e.IsForeign := by
  cases h with
  | unwrapped => exact rfl
  | textless => exact Error.isForeign_ofPrintFault _

/-- An error of the library over a conversion that failed, with the failure as its cause. -/
inductive Conversion.Refuses (c : Conversion) (v : Value) : Error → Prop
  | intro {f : Failure} {said : Text} (h : c.run v = .error f) (hshape : f.kind.isWrongShape = true)
      (htext : f.message = .ok said) : c.Refuses v (.unconvertible c.name said f)

namespace Json

theorem convert_eq_ok_iff : convert c v = .ok w ↔ c.run v = .ok w := by
  unfold convert
  cases c.run v with
  | ok u => simp
  | error f =>
    refine iff_of_false (fun h => ?_) nofun
    dsimp only at h
    split at h
    · split at h <;> cases h
    · cases h

/-- **A conversion that fails is refused, or it escapes.** -/
theorem convert_eq_error_iff : convert c v = .error e ↔ c.Refuses v e ∨ c.Escapes v e := by
  constructor
  · intro h
    unfold convert at h
    split at h
    · cases h
    rename_i f hf
    split at h
    · rename_i hshape
      split at h
      · rename_i said htext
        obtain rfl := Except.error.inj h
        exact .inl ⟨hf, hshape, htext⟩
      · rename_i fault htext
        obtain rfl := Except.error.inj h
        exact .inr (.textless hf hshape htext)
    · rename_i hshape
      obtain rfl := Except.error.inj h
      exact .inr (.unwrapped hf (Bool.eq_false_iff.2 hshape))
  · unfold convert
    rintro (⟨hf, hshape, htext⟩ | ⟨hf, hshape⟩ | ⟨hf, hshape, htext⟩)
    · simp only [hf, hshape, htext, if_true]
    · simp only [hf, hshape, Bool.false_eq_true, if_false]
    · simp only [hf, hshape, htext, if_true]

/-- The value that an answer is read as is the one that it writes, or what the conversion makes of that. -/
theorem decode_eq_ok_iff_read : decode blob into = .ok w ↔
    ∃ v, read blob = .ok v ∧ (into = none ∧ w = v ∨ ∃ c, into = some c ∧ c.run v = .ok w) := by
  unfold decode
  cases read blob with
  | error why => exact iff_of_false nofun fun ⟨v, h, _⟩ => nomatch h
  | ok v =>
    cases into with
    | none => simp [eq_comm]
    | some c => simpa using convert_eq_ok_iff

/-- **What goes wrong with an answer**: it cannot be read, or it can be, and the conversion of its value fails. -/
theorem decode_eq_error_iff : decode blob into = .error e ↔
    (∃ why, read blob = .error why ∧ e = .unreadable why) ∨
      ∃ v c, read blob = .ok v ∧ into = some c ∧ (c.Refuses v e ∨ c.Escapes v e) := by
  unfold decode
  cases read blob with
  | error why => simp [eq_comm]
  | ok v =>
    cases into with
    | none => simp
    | some c => simpa using convert_eq_error_iff

end Json

/-! ## What a client reads -/

namespace Session

/-- A value is read by an operation and its answer. -/
theorem value_of_answered {meanwhile : Meanwhile} {s : Session} {place : Nat} {r : Reference} {answer : Answer}
    (h : (s.operate meanwhile r .get .none []).2 = .ok answer) :
    (s.act meanwhile place r (.value into)).2 = (Json.decode (.bytes answer.body) into).map .value := by
  unfold act
  rcases hx : s.operate meanwhile r .get .none [] with ⟨t, result⟩
  rw [hx] at h
  obtain rfl : result = .ok answer := h
  dsimp only
  cases Json.decode (.bytes answer.body) into <;> rfl

/-- **How the reading of an answer ends**, whatever has arrived and whatever the conversion does.

* It yields what the answer writes, or what the conversion makes of that.
* An error of the library says that the answer cannot be read, or that the conversion has failed, and has what went
  wrong there as its cause. Any other error is one that has escaped from the conversion: a failure that does not mean
  a wrong shape, or what keeps a failure from having a text.
* So there is no other error exactly if the conversion does not escape.
* What a client reads from the database ends in the same way, once its operation has come to an answer. -/
theorem read_or_escaped (blob : Value) (into : Option Conversion) :
    (∀ w, Json.decode blob into = .ok w ↔
        ∃ v, Json.read blob = .ok v ∧ (into = none ∧ w = v ∨ ∃ c, into = some c ∧ c.run v = .ok w)) ∧
      (∀ e, Json.decode blob into = .error e →
        e.family? = some .serialization ∧
            ((∃ why, Json.read blob = .error why ∧ e.cause? = some (Error.kindOfReadFault why)) ∨
              ∃ v c f, Json.read blob = .ok v ∧ into = some c ∧ c.run v = .error f ∧ e.cause? = some f.kind) ∨
          e.family? = none ∧ ∃ v c, Json.read blob = .ok v ∧ into = some c ∧ c.Escapes v e) ∧
      ((∀ e, Json.decode blob into = .error e → e.family? = some .serialization) ↔
        ∀ v c e, Json.read blob = .ok v → into = some c → ¬c.Escapes v e) ∧
      ∀ (depth : Nat) (s : Session) (name : Text) (place : Nat) (r : Reference) (answer : Answer),
        s.references.find? name = some (place, r) → blob = .bytes answer.body →
        (s.operate (between depth) r .get .none []).2 = .ok answer →
        (s.step (between depth) (.act name (.value into))).2 = (Json.decode blob into).map .value := by
  refine ⟨fun w => Json.decode_eq_ok_iff_read, fun e he => ?_, ⟨fun h v c e hv hc hescapes => ?_, fun h e he => ?_⟩, ?_⟩
  · rcases Json.decode_eq_error_iff.1 he with ⟨why, hwhy, rfl⟩ | ⟨v, c, hv, hc, ⟨hf, -, -⟩ | hescapes⟩
    · exact .inl ⟨rfl, .inl ⟨why, hwhy, rfl⟩⟩
    · exact .inl ⟨rfl, .inr ⟨v, c, _, hv, hc, hf, rfl⟩⟩
    · exact .inr ⟨hescapes.isForeign, v, c, hv, hc, hescapes⟩
  · -- what escapes would be an error of the library
    have hfamily := h e (Json.decode_eq_error_iff.2 (.inr ⟨v, c, hv, hc, .inr hescapes⟩))
    rw [hescapes.isForeign] at hfamily
    cases hfamily
  · rcases Json.decode_eq_error_iff.1 he with ⟨why, -, rfl⟩ | ⟨v, c, hv, hc, ⟨-, -, -⟩ | hescapes⟩
    · rfl
    · rfl
    · exact absurd hescapes (h v c e hv hc)
  · rintro depth s name place r answer hr rfl hanswer
    simp only [step, hr]
    exact value_of_answered hanswer

/-- The database answers with some bytes. -/
def answering (body : Bytes) : Script := ⟨⟨[], .ok ⟨200, [], body, none⟩⟩, []⟩

/-- A list is read where a dictionary was expected, and the error of the library says so. -/
theorem read_or_escaped_misshapen :
    let s := waiting (answering [0x5B, 0x31, 0x5D])
    let r : Reference := .make "http://a" 0 (.int 3)
    let into := some (Conversion.field "into" (.text "name"))
    ∃ answer e, s.references.find? "r" = some (0, r) ∧ (s.operate (between 0) r .get .none []).2 = .ok answer ∧
      (s.step (between 0) (.act "r" (.value into))).2 = .error e ∧ e.family? = some .serialization ∧
      ∃ v c f, Json.read (.bytes answer.body) = .ok v ∧ into = some c ∧ c.run v = .error f ∧
        e.cause? = some f.kind := by
  intro s r into
  have hbodies : (s.operate (between 0) r .get .none []).2.toOption.map Answer.body = some [0x5B, 0x31, 0x5D] := by
    decide +kernel
  obtain ⟨answer, ha, hbody⟩ := Option.map_eq_some_iff.1 hbodies
  have hanswer := eq_ok_of_toOption ha
  have hread : (Json.read (.bytes answer.body)).isOk = true := by
    rw [hbody]
    decide +kernel
  have hfamily : ((Json.decode (.bytes answer.body) into).mapError Error.family?).map (fun _ => ()) =
      .error (some .serialization) := by
    rw [hbody]
    decide +kernel
  obtain ⟨-, herror, -, hstep⟩ := read_or_escaped (.bytes answer.body) into
  have hvalue := hstep 0 s "r" 0 r answer rfl rfl hanswer
  cases hd : Json.decode (.bytes answer.body) into with
  | ok v =>
    rw [hd] at hfamily
    cases hfamily
  | error e =>
    rw [hd] at hfamily hvalue
    have he : e.family? = some .serialization := Except.error.inj hfamily
    refine ⟨answer, e, rfl, hanswer, hvalue, he, ?_⟩
    rcases herror e hd with ⟨-, ⟨why, hwhy, -⟩ | hcause⟩ | ⟨hnone, -⟩
    · rw [hwhy] at hread
      cases hread
    · exact hcause
    · rw [he] at hnone
      cases hnone

/-- A conversion that looks for the first item of an empty list fails with an error that is none of the library's. -/
theorem read_or_escaped_unwrapped :
    let into := Conversion.failing "into" "IndexError" [.text "list index out of range"]
    let x := (waiting (answering [0x5B, 0x5D])).observe (.act "r" (.value (some into)))
    (x.result.mapError fun e => (e.family?, e.kind)).map (fun _ => ()) = .error (none, ⟨.system, "IndexError"⟩) := by
  decide +kernel

end Session

end RemoteTree
