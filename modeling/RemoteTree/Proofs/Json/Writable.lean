import RemoteTree.Proofs.Json.Written

/-!
# What can be written

Some types have a JSON form, some may be keys as well, no container may stand inside itself, and no integer may
be too long. Nothing else keeps a value from being written, and it is one error that comes out then.

* `Value.HasForm`, `Value.CanBeKey`: the types.
* `Json.Writable`: what a value must be to be written.
* `Json.writable_iff`: it says of the whole what `Fit` says of every value inside.
* `written_iff_writable`: **a value is written, as ASCII, exactly if it is writable; else it is a serialization
  error with the fault as its cause.**
-/

namespace RemoteTree

namespace Value

/-- A value of a type that has a JSON form. What stands for a container has the form of the container. -/
def HasForm : Value → Prop
  | .none | .bool _ | .int _ | .float _ | .text _ | .list _ | .tuple _ | .dict _ | .again _ => True
  | .bytes _ | .set _ | .object => False

/-- A value of a type that has a JSON form as a key. -/
def CanBeKey : Value → Prop
  | .text _ | .int _ | .float _ | .bool _ | .none => True
  | _ => False

end Value

namespace Json

/-- What a value must be to be written. -/
structure Writable (v : Value) : Prop where
  forms : v.Everywhere Value.HasForm
  keys : ∀ depth entries, v.Holds depth (.dict entries) → ∀ e ∈ entries, e.1.CanBeKey
  apart : v.Everywhere fun c => ¬c.HoldsItself
  digits : ∀ n, v.Mentions (.int n) → (Text.ofNat n.natAbs).length ≤ 4300

theorem isWritten_iff {n : Int} : Integer.isWritten n = true ↔ (Text.ofNat n.natAbs).length ≤ 4300 := by
  unfold Integer.isWritten
  rw [decide_eq_true_iff]
  exact (Text.length_ofNat_le (k := digitLimit) (by decide)).symm

theorem isOk_keyText_iff {k : Value} :
    (∃ t, keyText k = .ok t) ↔ k.CanBeKey ∧ ∀ n, k = .int n → Integer.isWritten n = true := by
  cases k with
  | int n =>
    simp only [keyText, isOk_writeInt_iff, Value.CanBeKey, true_and]
    exact ⟨fun h m hm => Value.int.inj hm ▸ h, fun h => h n rfl⟩
  | _ => simp [keyText, Value.CanBeKey]

/-- **A closed value is writable exactly if all values inside it are fit.** -/
theorem writable_iff {v : Value} (h : v.Closed) : Writable v ↔ v.Everywhere Fit := by
  constructor
  · intro hw depth p hp
    have hagain := (Value.not_holdsItself_iff h).1 hw.apart depth p hp
    have hform := hw.forms depth p hp
    cases p with
    | none | bool | float | text | list | tuple => trivial
    | int n => exact isWritten_iff.2 (hw.digits n (.inl ⟨depth, hp⟩))
    | dict entries =>
      rintro ⟨k, u⟩ he
      refine isOk_keyText_iff.2 ⟨hw.keys depth entries hp _ he, ?_⟩
      rintro n rfl
      exact isWritten_iff.2 (hw.digits n (.inr ⟨depth, entries, u, hp, he⟩))
    | bytes | set | object => exact hform.elim
    | again level => exact absurd rfl (hagain level)
  · intro hfit
    refine ⟨hfit.mono ?_, ?_, (Value.not_holdsItself_iff h).2 (hfit.mono ?_), ?_⟩
    · intro p hp
      cases p <;> trivial
    · intro depth entries hp e he
      exact (isOk_keyText_iff.1 (hfit depth _ hp e he)).1
    · rintro p hp level rfl
      exact hp
    · rintro n (⟨depth, hp⟩ | ⟨depth, entries, u, hp, he⟩)
      · exact isWritten_iff.1 (hfit depth _ hp)
      · exact isWritten_iff.1 ((isOk_keyText_iff.1 (hfit depth _ hp _ he)).2 n rfl)

/-- **A value is written exactly if it is writable**, and then all its bytes are ASCII: they are the UTF-8 of the
text that is written. In every other case it is a serialization error whose cause is a wrong type or a wrong
value. -/
theorem written_iff_writable (v : Value) (h : v.Closed) :
    (Writable v ↔ ∃ bs, encode v = .ok bs) ∧
      (∀ bs, encode v = .ok bs → (∀ b ∈ bs, b.toNat < 0x80) ∧
        ∃ t, write v = .ok t ∧ Utf8.encode t = .ok bs) ∧
      (¬Writable v → ∃ e, encode v = .error e ∧ e.family? = some .serialization ∧
        (e.cause? = some Error.typeError ∨ e.cause? = some Error.valueError)) := by
  have hiff : Writable v ↔ ∃ t, write v = .ok t := by rw [writable_iff h, isOk_write_iff]
  refine ⟨?_, fun bs hbs => ?_, fun hno => ?_⟩
  · rw [hiff]
    constructor
    · rintro ⟨t, ht⟩
      exact ⟨_, encode_eq_ok.2 ⟨t, ht, rfl⟩⟩
    · rintro ⟨bs, hbs⟩
      obtain ⟨t, ht, -⟩ := encode_eq_ok.1 hbs
      exact ⟨t, ht⟩
  · obtain ⟨t, ht, rfl⟩ := encode_eq_ok.1 hbs
    have hascii := (visible_of_write v ht).lt
    refine ⟨fun b hb => ?_, t, ht, Utf8.encode_of_ascii hascii⟩
    obtain ⟨c, hc, rfl⟩ := List.mem_map.1 hb
    have hlt := hascii c hc
    rw [UInt8.toNat_ofNat_of_lt' (by simp only [UInt8.size]; omega)]
    exact hlt
  · cases hv : write v with
    | ok t => exact absurd (hiff.2 ⟨t, hv⟩) hno
    | error why =>
      refine ⟨.unwritable v.typeName why, by rw [encode, hv], rfl, ?_⟩
      cases why with
      | unsupported | badKey => exact .inl rfl
      | circular | digits => exact .inr rfl

/-- Whatever is written is closed, for nothing in it stands for a container. -/
theorem closed_of_write {v : Value} {t : Text} (h : write v = .ok t) : v.Closed := fun depth _ hp =>
  ((isOk_write_iff v).1 ⟨t, h⟩ depth _ hp).elim

theorem closed_selfDict : Value.selfDict.Closed := by
  intro depth level h
  cases h with
  | inside hw h =>
    obtain rfl := List.mem_singleton.1 hw
    cases h with
    | inside hw h =>
      obtain rfl := List.mem_singleton.1 hw
      cases h with
      | self => decide
      | inside hw _ => cases hw

/-- A dictionary in which one list stands twice is written, and one that stands inside itself is an error. -/
theorem written_iff_writable_shared :
    let shared : Value := .list [.int (-1), .text "é"]
    let twice : Value := .dict [(.int 2, shared), (.none, .tuple [shared, .float .nan])]
    twice.Closed ∧ Writable twice ∧ Value.selfDict.Closed ∧ ¬Writable Value.selfDict ∧
      ∃ e, encode Value.selfDict = .error e ∧ e.cause? = some Error.valueError := by
  intro shared twice
  have hwrite : write twice = .ok "\x7b\"2\": [-1, \"\\u00e9\"], \"null\": [[-1, \"\\u00e9\"], NaN]\x7d" := by
    decide +kernel
  have htwice : twice.Closed := closed_of_write hwrite
  have hself : encode Value.selfDict = .error (.unwritable "dict" .circular) := rfl
  refine ⟨htwice, ?_, closed_selfDict, fun hw => ?_, _, hself, rfl⟩
  · exact (written_iff_writable twice htwice).1.2 ⟨_, encode_eq_ok.2 ⟨_, hwrite, rfl⟩⟩
  · obtain ⟨bs, hbs⟩ := (written_iff_writable Value.selfDict closed_selfDict).1.1 hw
    rw [hself] at hbs
    cases hbs

end Json

end RemoteTree
