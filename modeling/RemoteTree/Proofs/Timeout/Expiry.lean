import RemoteTree.Proofs.Results
import RemoteTree.Timeout.Attempt

/-!
# Timeouts that are numbers

A timeout is none, a double, or an integer that is not beyond the largest double. Such a timeout can be
shown, for an integer of that size has far fewer digits than are written, and one that is no more than
zero expires before anything is sent.

* `Double.isWritten_of_ofInt`: an integer with a nearest double can be written.
* `Timeout.IsSeconds`, `Timeout.isOver`: such timeouts, and those of them that leave no time.
* `Timeout.attempt_of_isSeconds`: what an attempt gets of such a timeout.
-/

namespace RemoteTree

/-- A whole number that has a finite double has no more than 1025 binary digits. -/
theorem Double.log2_lt_of_ofRatio_finite {s s' : Bool} {num m : Nat} {e : Int}
    (h : Double.ofRatio s num 1 = .finite s' m e) : Nat.log2 num < 1025 := by
  unfold Double.ofRatio at h
  split at h
  · rename_i hz
    obtain rfl : num = 0 := by omega
    decide
  extract_lets scaled least e₀ m₀ at h
  have hone : Nat.log2 1 = 0 := by decide
  -- rounding only raises the exponent, which begins at the number less the bits of a double
  have hleast : (Nat.log2 num : Int) - 53 ≤ least := by
    simp only [least, hone]
    omega
  have hexp : least ≤ e₀ := by
    simp only [e₀]
    split <;> omega
  have hmax : e₀ ≤ maxExponent := by
    split at h
    rename_i m₁ e₁ he
    split at h
    · cases h
    · rename_i hle
      split at he <;> obtain ⟨-, rfl⟩ := Prod.mk.inj he <;> omega
  simp only [maxExponent] at hmax
  omega

/-- A number has no more decimal digits than binary ones. -/
theorem lt_pow_of_log2 {n k : Nat} (h : Nat.log2 n + 1 ≤ k) : n < Nat.pow 10 k :=
  calc n < 2 ^ (Nat.log2 n + 1) := Nat.lt_log2_self
    _ ≤ 10 ^ (Nat.log2 n + 1) := Nat.pow_le_pow_left (by decide) _
    _ ≤ 10 ^ k := Nat.pow_le_pow_right (by decide) h

/-- An integer that is not beyond the largest double can be written. -/
theorem Double.isWritten_of_ofInt {n : Int} (h : (Double.ofInt? n).isSome) :
    Integer.isWritten n = true := by
  have hlog : Nat.log2 n.natAbs < 1025 := by
    unfold Double.ofInt? at h
    split at h
    · rename_i hr
      exact Double.log2_lt_of_ofRatio_finite hr
    · cases h
  have hdigits : Nat.log2 n.natAbs + 1 ≤ digitLimit := by
    simp only [digitLimit]
    omega
  exact decide_eq_true (lt_pow_of_log2 hdigits)

/-- A failure whose only argument is a text says just that, unless its class has words of its own. -/
theorem Failure.message_simple {k : Failure.Kind} (hp : k.neededPart? = none)
    (hk : k ≠ ⟨.system, "KeyError"⟩) (t : Text) : (Failure.simple k [.text t]).message = .ok t := by
  simp [Failure.simple, Failure.message, Failure.messageAt, hp, hk, Value.plain]

namespace Timeout

/-- A timeout that is none or a number: a double, or an integer that is not beyond the largest one. -/
def IsSeconds : Value → Prop
  | .none | .float _ => True
  | .int n => (Double.ofInt? n).isSome
  | _ => False

/-- Whether a timeout leaves no time: it is a number, and no more than zero. -/
def isOver : Value → Bool
  | .int n => n ≤ 0
  | .float x => x.atMostZero
  | _ => false

theorem message_expired (shown : Text) : (expired shown).message =
    .ok ("no time to connect with a timeout of " ++ shown ++ "s") :=
  Failure.message_simple rfl (by decide) _

/-- Such a timeout can be shown. -/
theorem plain_of_isSeconds {v : Value} (h : IsSeconds v) : ∃ shown, v.plain = .ok shown := by
  cases v with
  | none => exact ⟨"None", rfl⟩
  | float x => exact ⟨x.text, rfl⟩
  | int n =>
    refine ⟨Text.ofInt n, ?_⟩
    show Integer.text? n = _
    unfold Integer.text?
    rw [if_pos (Double.isWritten_of_ofInt h)]
  | bool | text | bytes | list | tuple | set | dict | object | again => cases h

/-- **What an attempt gets**: nothing if no time is left, and the whole timeout otherwise. -/
theorem attempt_of_isSeconds {v : Value} (h : IsSeconds v) {shown : Text} (hs : v.plain = .ok shown) :
    if isOver v then Timeout.attempt v = .error (.noResponse
      ⟨.timeout, expired shown, "no time to connect with a timeout of " ++ shown ++ "s"⟩)
    else ∃ seconds, Timeout.attempt v = .ok seconds := by
  have hstop : expiredStop v = .noResponse
      ⟨.timeout, expired shown, "no time to connect with a timeout of " ++ shown ++ "s"⟩ := by
    unfold expiredStop NoResponse.make
    simp only [hs, message_expired]
  cases v with
  | none => exact ⟨_, rfl⟩
  | float x =>
    simp only [isOver, attempt]
    split
    · rw [hstop]
    · exact ⟨_, rfl⟩
  | int n =>
    have hn : (Double.ofInt? n).isNone = false := by
      rw [← Option.not_isSome, h]
      rfl
    simp only [isOver, attempt, decide_eq_true_eq, hn]
    split
    · rw [hstop]
    · exact ⟨_, rfl⟩
  | bool | text | bytes | list | tuple | set | dict | object | again => cases h

end Timeout

end RemoteTree
