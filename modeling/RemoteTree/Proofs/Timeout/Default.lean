import RemoteTree.Proofs.Number.Largest
import RemoteTree.Proofs.Number.Reader
import RemoteTree.Proofs.Value.Shown
import RemoteTree.Timeout.Default

/-!
# What the default timeout can be

A configured value means no timeout, or it is taken for a number of seconds. A number is refused only where it is less
than zero, which not-a-number is not. An integer beyond the largest double is no number of seconds, but that is told by
an error of its own; and the error for what is no number at all shows the value, which fails for a container that holds
an integer with too many digits.

* `Timeout.MeansNone`, `Timeout.MeansNan`, `Timeout.IsHuge`, `Timeout.IsUnshown`: the kinds of value.
* `Timeout.Becomes`: all that a value can come to; `ofConfigured_eq_iff` says that there is nothing else.
* `Timeout.usable_or_refused_iff`: **the default timeout can be waited for, or it is refused by an error of the library,
  exactly if the value is none of the last three kinds.**
-/

namespace RemoteTree.Timeout

variable {v : Value} {t : Text} {r : Except Error Value}

/-! ## The kinds of value -/

/-- A value that means no timeout: none itself, or a text that is empty or the word for it without the white space
around it and in lower case. -/
def MeansNone (v : Value) : Prop :=
  v = .none ∨ ∃ t, v = .text t ∧
    ((t.trim CodePoint.isBlank).lower = [] ∨ (t.trim CodePoint.isBlank).lower = Text.ofString "none")

/-- A value that is not-a-number, or a text or bytes that write it. -/
inductive MeansNan : Value → Prop
  | float : MeansNan (.float .nan)
  | text {t : Text} (h : Double.WritesNan Double.isOuterBlank t) : MeansNan (.text t)
  | bytes {bs : Bytes} (h : Double.WritesNan CodePoint.isAsciiBlank (bs.map fun b => CodePoint.ofNat b.toNat)) :
      MeansNan (.bytes bs)

/-- An integer that is rounded beyond the largest double. -/
def IsHuge (v : Value) : Prop := ∃ n, v = .int n ∧ 2 ^ 1024 - 2 ^ 970 ≤ n.natAbs

/-- A container that shows an integer with more digits than are written. -/
def IsUnshown (v : Value) : Prop := v.IsTooLong ∧ ∀ n, v ≠ .int n

theorem meansNone_iff :
    meansNone t = true ↔
      (t.trim CodePoint.isBlank).lower = [] ∨ (t.trim CodePoint.isBlank).lower = Text.ofString "none" := by
  have hword : ∀ x ∈ Text.ofString "none", x.isAscii = true ∧ x ≠ CodePoint.ofChar 'k' := by decide
  rw [Text.lower_eq_iff (w := []) nofun, Text.lower_eq_iff hword]
  simp [meansNone]

section Reading

variable {o : Option Double} {x : Double} {k k' : Option Failure.Kind}

theorem read_eq_ok_iff : (o.map Except.ok).getD (.error k) = .ok x ↔ o = some x := by
  cases o <;> simp

theorem read_eq_error_iff : (o.map Except.ok).getD (.error k) = (.error k' : Except _ Double) ↔ o = none ∧ k = k' := by
  cases o <;> simp

end Reading

/-- **What is read as not-a-number.** -/
theorem seconds?_eq_nan_iff : seconds? v = .ok .nan ↔ MeansNan v := by
  cases v with
  | bool b => exact iff_of_false (fun h => Double.ofRatio_ne_nan _ _ _ (Except.ok.inj h)) nofun
  | int n => exact iff_of_false (fun h => Double.ofInt?_ne_nan n (read_eq_ok_iff.1 h)) nofun
  | float x => exact ⟨fun h => Except.ok.inj h ▸ .float, fun h => by cases h; rfl⟩
  | text t =>
    refine read_eq_ok_iff.trans ((Double.ofText?_eq_nan_iff t).trans ⟨.text, fun h => ?_⟩)
    cases h with
    | text h => exact h
  | bytes bs =>
    refine read_eq_ok_iff.trans ((Double.ofAscii?_eq_nan_iff _).trans ⟨.bytes, fun h => ?_⟩)
    cases h with
    | bytes h => exact h
  | none | list | tuple | set | dict | object | again => exact iff_of_false nofun nofun

/-- **What is no number of seconds for its size.** -/
theorem seconds?_eq_none_iff : seconds? v = .error none ↔ IsHuge v := by
  cases v with
  | int n =>
    rw [seconds?, read_eq_error_iff, Double.ofInt?_eq_none_iff]
    exact ⟨fun h => ⟨n, rfl, h.1⟩, fun ⟨m, hm, h⟩ => ⟨Value.int.inj hm ▸ h, rfl⟩⟩
  | text | bytes =>
    refine iff_of_false (fun h => ?_) fun ⟨n, hn, _⟩ => ?_
    · cases (read_eq_error_iff.1 h).2
    · cases hn
  | none | bool | float | list | tuple | set | dict | object | again =>
    refine iff_of_false (fun h => ?_) fun ⟨n, hn, _⟩ => ?_
    · cases h
    · cases hn

/-- What cannot be shown is no number. -/
theorem IsUnshown.seconds? (h : IsUnshown v) : seconds? v = .error (some Error.typeError) := by
  obtain ⟨hlong, hint⟩ := h
  cases v with
  | int n => exact absurd rfl (hint n)
  | none | bool | float | text | bytes => exact absurd hlong (Value.not_isTooLong hint rfl)
  | list | tuple | set | dict | object | again => rfl

theorem IsUnshown.not_meansNone (h : IsUnshown v) : ¬MeansNone v := by
  rintro (rfl | ⟨t, rfl, -⟩) <;> exact Value.not_isTooLong h.2 rfl h.1

theorem IsHuge.not_meansNone (h : IsHuge v) : ¬MeansNone v := by
  obtain ⟨n, rfl, -⟩ := h
  rintro (h | ⟨t, h, -⟩) <;> cases h

/-- No word for not-a-number means no timeout. -/
theorem MeansNan.not_meansNone (h : MeansNan v) : ¬MeansNone v := by
  rintro (rfl | ⟨t, rfl, hnone⟩)
  · cases h
  · cases h with
    | text hnan =>
      have hword := hnan.trim_isBlank
      rw [Text.lower_eq_iff (w := []) nofun, Text.lower_eq_iff (by decide)] at hnone
      rcases hnone with hnone | hnone
      · rw [hnone] at hword
        exact absurd hword (by decide)
      · rw [hnone] at hword
        exact absurd hword (by decide)

/-! ## What a value can come to -/

/-- All that a configured value can come to. -/
inductive Becomes (v : Value) : Except Error Value → Prop
  | forever (h : MeansNone v) : Becomes v (.ok .none)
  | seconds {x : Double} (h : ¬MeansNone v) (hx : seconds? v = .ok x) (hsign : x.isNegative = false) :
      Becomes v (.ok (.float x))
  | negative {x : Double} (h : ¬MeansNone v) (hx : seconds? v = .ok x) (hsign : x.isNegative = true) :
      Becomes v (.error (.timeoutNegative x))
  | huge (h : ¬MeansNone v) (hx : seconds? v = .error none) : Becomes v (.error .hugeNumber)
  | refused {cause : Failure.Kind} {shown : Text} (h : ¬MeansNone v) (hx : seconds? v = .error (some cause))
      (hshown : v.literal = .ok shown) : Becomes v (.error (.timeoutNotNumber shown cause))
  | unshown {cause : Failure.Kind} {fault : DigitFault} (h : ¬MeansNone v) (hx : seconds? v = .error (some cause))
      (hfault : v.literal = .error fault) : Becomes v (.error (.digits fault))

theorem ofConfigured_of_meansNone (h : MeansNone v) : ofConfigured v = .ok .none := by
  obtain rfl | ⟨t, rfl, ht⟩ := h
  · rfl
  · exact if_pos (meansNone_iff.2 ht)

/-- What a value comes to that is taken for a number. -/
def ofNumber (v : Value) : Except Error Value :=
  match seconds? v with
  | .ok x => if x.isNegative then .error (.timeoutNegative x) else .ok (.float x)
  | .error none => .error .hugeNumber
  | .error (some cause) =>
    match v.literal with
    | .ok shown => .error (.timeoutNotNumber shown cause)
    | .error f => .error (.digits f)

theorem ofConfigured_eq (v : Value) : ofConfigured v =
    match v with
    | .none => .ok .none
    | .text t => if meansNone t then .ok .none else ofNumber v
    | _ => ofNumber v := rfl

theorem ofConfigured_of_not_meansNone (h : ¬MeansNone v) : ofConfigured v = ofNumber v := by
  rw [ofConfigured_eq]
  split
  · exact absurd (.inl rfl) h
  · rename_i t
    exact if_neg fun ht => h (.inr ⟨t, rfl, meansNone_iff.1 ht⟩)
  · rfl

/-- **A value comes to one thing**, and to nothing else. -/
theorem ofConfigured_eq_iff : ofConfigured v = r ↔ Becomes v r := by
  by_cases hnone : MeansNone v
  · rw [ofConfigured_of_meansNone hnone]
    constructor
    · rintro rfl
      exact .forever hnone
    · intro h
      cases h
      · rfl
      all_goals contradiction
  · rw [ofConfigured_of_not_meansNone hnone]
    unfold ofNumber
    constructor
    · rintro rfl
      split
      · rename_i x hx
        split
        · rename_i hsign
          exact .negative hnone hx hsign
        · rename_i hsign
          exact .seconds hnone hx (Bool.eq_false_iff.2 hsign)
      · rename_i hx
        exact .huge hnone hx
      · rename_i cause hx
        split
        · rename_i shown hshown
          exact .refused hnone hx hshown
        · rename_i fault hfault
          exact .unshown hnone hx hfault
    · rintro (h | ⟨-, hx, hsign⟩ | ⟨-, hx, hsign⟩ | ⟨-, hx⟩ | ⟨-, hx, hshown⟩ | ⟨-, hx, hfault⟩)
      · contradiction
      · simp [hx, hsign]
      · simp [hx, hsign]
      · simp [hx]
      · simp [hx, hshown]
      · simp [hx, hfault]

namespace Becomes

theorem forever_iff : Becomes v (.ok .none) ↔ MeansNone v := by
  constructor
  · rintro ⟨h⟩
    exact h
  · exact .forever

theorem seconds_iff {x : Double} :
    Becomes v (.ok (.float x)) ↔ ¬MeansNone v ∧ seconds? v = .ok x ∧ x.isNegative = false := by
  constructor
  · rintro (_ | ⟨h, hx, hsign⟩)
    exact ⟨h, hx, hsign⟩
  · rintro ⟨h, hx, hsign⟩
    exact .seconds h hx hsign

theorem nan_iff : Becomes v (.ok (.float .nan)) ↔ MeansNan v := by
  rw [seconds_iff, seconds?_eq_nan_iff]
  exact ⟨fun h => h.2.1, fun h => ⟨h.not_meansNone, h, rfl⟩⟩

theorem huge_iff : Becomes v (.error .hugeNumber) ↔ IsHuge v := by
  rw [← seconds?_eq_none_iff]
  constructor
  · rintro (_ | _ | _ | ⟨-, hx⟩)
    exact hx
  · exact fun hx => .huge (seconds?_eq_none_iff.1 hx).not_meansNone hx

theorem digits_iff {fault : DigitFault} : Becomes v (.error (.digits fault)) ↔ fault = .writing ∧ IsUnshown v := by
  constructor
  · intro h
    cases h with
    | unshown _ hx hfault =>
      obtain ⟨hwriting, hlong⟩ := Value.literal_eq_error_iff.1 hfault
      refine ⟨hwriting, hlong, ?_⟩
      rintro n rfl
      cases (read_eq_error_iff.1 hx).2
  · rintro ⟨rfl, h⟩
    exact .unshown h.not_meansNone h.seconds? (Value.literal_eq_error_iff.2 ⟨rfl, h.1⟩)

/-- An error of another kind is one of the library. -/
theorem family_or {e : Error} (h : Becomes v (.error e)) :
    e.family? = some .configuration ∨ e = .hugeNumber ∨ e = .digits .writing := by
  cases h with
  | negative | refused => exact .inl rfl
  | huge => exact .inr (.inl rfl)
  | unshown _ _ hfault => exact .inr (.inr (by rw [(Value.literal_eq_error_iff.1 hfault).1]))

end Becomes

/-- An outcome that can be waited for: no timeout, or seconds that are at least zero. -/
inductive Usable : Except Error Value → Prop
  | forever : Usable (.ok .none)
  | seconds {x : Double} (hsign : x.isNegative = false) (hnan : x ≠ .nan) : Usable (.ok (.float x))

/-- An error of the library about what is configured. -/
def Refused (r : Except Error Value) : Prop := ∃ e, r = .error e ∧ e.family? = some .configuration

/-- **What a value comes to can be waited for or is refused** unless it is one of the three. -/
theorem Becomes.usable_or_refused (h : Becomes v r) :
    Usable r ∨ Refused r ↔ r ≠ .ok (.float .nan) ∧ r ≠ .error .hugeNumber ∧ r ≠ .error (.digits .writing) := by
  constructor
  · rintro ((_ | ⟨hsign, hnan⟩) | ⟨e, rfl, he⟩)
    · exact ⟨nofun, nofun, nofun⟩
    · exact ⟨fun hr => hnan (Value.float.inj (Except.ok.inj hr)), nofun, nofun⟩
    · refine ⟨nofun, ?_, ?_⟩ <;> rintro ⟨⟩ <;> cases he
  · rintro ⟨hnan, hhuge, hdigits⟩
    cases h with
    | forever => exact .inl .forever
    | seconds _ _ hsign => exact .inl (.seconds hsign fun hx => hnan (by rw [hx]))
    | negative | refused => exact .inr ⟨_, rfl, rfl⟩
    | huge => exact absurd rfl hhuge
    | unshown _ _ hfault => exact absurd (by rw [(Value.literal_eq_error_iff.1 hfault).1]) hdigits

/-- **The default timeout can be waited for or is refused**, whatever is configured, but for three kinds of value.

* There is no timeout exactly where the value is none, or a text that is empty or the word for none. Else a timeout is
  the number that the value is or writes, and such a number is a timeout unless it is less than zero.
* It is not-a-number exactly if the value is or writes that.
* An error is one of the library about what is configured, or it says that an integer is too large for a number, or that
  it has too many digits to be shown; the last two exactly for integers beyond the largest double and for containers
  that show an integer with too many digits.
* So it can be waited for or is refused exactly if the value is neither of these. -/
theorem usable_or_refused_iff (s : Settings) :
    (s.default = .ok .none ↔ MeansNone s.value) ∧
      (∀ x, s.default = .ok (.float x) ↔ ¬MeansNone s.value ∧ seconds? s.value = .ok x ∧ x.isNegative = false) ∧
      (∀ w, s.default = .ok w → w = .none ∨ ∃ x, w = .float x) ∧
      (s.default = .ok (.float .nan) ↔ MeansNan s.value) ∧
      (∀ e, s.default = .error e →
        e.family? = some .configuration ∨ e = .hugeNumber ∨ e = .digits .writing) ∧
      (s.default = .error .hugeNumber ↔ IsHuge s.value) ∧
      (s.default = .error (.digits .writing) ↔ IsUnshown s.value) ∧
      (Usable s.default ∨ Refused s.default ↔ ¬MeansNan s.value ∧ ¬IsHuge s.value ∧ ¬IsUnshown s.value) := by
  have hbecomes : ∀ r, s.default = r ↔ Becomes s.value r := fun r => ofConfigured_eq_iff
  have hnan := (hbecomes _).trans Becomes.nan_iff
  have hhuge := (hbecomes _).trans Becomes.huge_iff
  have hdigits : s.default = .error (.digits .writing) ↔ IsUnshown s.value :=
    (hbecomes _).trans (Becomes.digits_iff.trans (and_iff_right rfl))
  refine ⟨(hbecomes _).trans Becomes.forever_iff, fun x => (hbecomes _).trans Becomes.seconds_iff, fun w hw => ?_, hnan,
    fun e he => ((hbecomes _).1 he).family_or, hhuge, hdigits, ?_⟩
  · cases (hbecomes _).1 hw with
    | forever => exact .inl rfl
    | seconds => exact .inr ⟨_, rfl⟩
  · rw [((hbecomes _).1 rfl).usable_or_refused, ne_eq, ne_eq, ne_eq, hnan, hhuge, hdigits]

/-- A word for none is one in capital letters, with white space that is not of ASCII around it. -/
theorem usable_or_refused_iff_shouted :
    let s : Settings := ⟨none, some [.ofNat 0x3000, 'N', 'O', 'N', 'E', .ofNat 0x2028]⟩
    MeansNone s.value ∧ s.default = .ok .none := by
  intro s
  have hnone : MeansNone s.value := .inr ⟨_, rfl, .inr (by decide +kernel)⟩
  exact ⟨hnone, (usable_or_refused_iff s).1.2 hnone⟩

/-- Not-a-number is a timeout, and an integer of 401 digits and a list of one with 5001 digits end in errors that are
none of the library's. -/
theorem usable_or_refused_iff_unusable :
    let default := fun v => Settings.default ⟨some v, none⟩
    (default (.float .nan) = .ok (.float .nan) ∧ default (.int (10 ^ 400)) = .error .hugeNumber ∧
        default (.list [.int (10 ^ 5000)]) = .error (.digits .writing)) ∧
      ∀ r ∈ [default (.float .nan), default (.int (10 ^ 400)), default (.list [.int (10 ^ 5000)])],
        ¬(Usable r ∨ Refused r) := by
  intro default
  have hnan : default (.float .nan) = .ok (.float .nan) := ofConfigured_eq_iff.2 (Becomes.nan_iff.2 .float)
  have hhuge : default (.int (10 ^ 400)) = .error .hugeNumber :=
    ofConfigured_eq_iff.2 (Becomes.huge_iff.2 ⟨10 ^ 400, rfl, by decide +kernel⟩)
  have hlong : (Value.list [.int (10 ^ 5000)]).IsTooLong :=
    ⟨10 ^ 5000, .part List.mem_cons_self (.self _), by decide +kernel⟩
  have hdigits : default (.list [.int (10 ^ 5000)]) = .error (.digits .writing) :=
    ofConfigured_eq_iff.2 (Becomes.digits_iff.2 ⟨rfl, hlong, nofun⟩)
  refine ⟨⟨hnan, hhuge, hdigits⟩, ?_⟩
  rw [hnan, hhuge, hdigits]
  simp only [List.forall_mem_cons]
  exact ⟨fun h => ((ofConfigured_eq_iff.1 hnan).usable_or_refused.1 h).1 rfl,
    fun h => ((ofConfigured_eq_iff.1 hhuge).usable_or_refused.1 h).2.1 rfl,
    fun h => ((ofConfigured_eq_iff.1 hdigits).usable_or_refused.1 h).2.2 rfl, nofun⟩

end RemoteTree.Timeout
