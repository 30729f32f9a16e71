import Mathlib.Data.List.DropRight
import Mathlib.Tactic.IntervalCases
import RemoteTree.Number.Shortest
import RemoteTree.Proofs.Text.Basic

/-!
# Numbers in decimal

* `Text.ofNat_eq_cons`: a positive number begins with a digit other than zero.
* `Double.isDecimalChar`: the characters that a finite double is written with; `isDecimalChar_of_mem` says that
  there are no others.
-/

namespace RemoteTree

namespace Text

theorem ofNat_eq_map (n : Nat) : ofNat n = (Nat.toDigits 10 n).map CodePoint.ofChar := by
  unfold ofNat ofString
  rw [Nat.toList_repr]

theorem ofNat_ne_nil (n : Nat) : ofNat n ≠ [] := by
  rw [ofNat_eq_map]
  exact fun h => Nat.toDigits_ne_nil (List.map_eq_nil_iff.1 h)

/-- The digits of a positive number begin with one that is not zero. -/
theorem toDigits_eq_cons {n : Nat} (hn : n ≠ 0) : ∃ c t, Nat.toDigits 10 n = c :: t ∧ c ≠ '0' := by
  induction n using Nat.strongRecOn with
  | ind n ih =>
    rw [Nat.toDigits_eq_if (by decide)]
    split
    · rename_i hlt
      refine ⟨n.digitChar, [], rfl, ?_⟩
      interval_cases n
      · exact absurd rfl hn
      all_goals decide
    · rename_i hlt
      obtain ⟨c, t, ht, hc⟩ := ih (n / 10) (by omega) (by omega)
      exact ⟨c, t ++ [(n % 10).digitChar], by rw [ht]; rfl, hc⟩

/-- **A positive number begins with a digit other than zero.** -/
theorem ofNat_eq_cons {n : Nat} (hn : n ≠ 0) : ∃ c t, ofNat n = c :: t ∧ c ≠ CodePoint.ofChar '0' := by
  obtain ⟨c, t, ht, hc⟩ := toDigits_eq_cons hn
  refine ⟨CodePoint.ofChar c, t.map CodePoint.ofChar, by rw [ofNat_eq_map, ht]; rfl, ?_⟩
  intro h
  exact hc (Char.toNat_inj.1 (congrArg CodePoint.val h))

end Text

namespace Double

/-- The characters that a finite double is written with: digits, a point, and the mark and the sign of an
exponent. -/
def isDecimalChar (c : CodePoint) : Bool := c.isDigit || c == '.' || c == 'e' || c == '+' || c == '-'

theorem isDecimalChar_of_isDigit {c : CodePoint} (h : c.isDigit = true) : isDecimalChar c = true := by
  simp [isDecimalChar, h]

theorem isDigit_of_mem_zeros {n : Int} {c : CodePoint} (h : c ∈ zeros n) : c.isDigit = true := by
  rw [List.eq_of_mem_replicate h]
  decide

/-- A row of digits has the characters of a decimal, wherever its point is set. -/
theorem isDecimalChar_of_mem_layOut {ds : Text} (hds : ∀ c ∈ ds, c.isDigit = true) (k : Int) :
    ∀ c ∈ layOut ds k, isDecimalChar c = true := by
  have hdigits : ∀ t : Text, (∀ c ∈ t, c ∈ ds) → ∀ c ∈ t, isDecimalChar c = true :=
    fun t ht c hc => isDecimalChar_of_isDigit (hds c (ht c hc))
  have hall := hdigits ds fun _ hc => hc
  have htake := fun n => hdigits (ds.take n) fun _ hc => List.mem_of_mem_take hc
  have hdrop := fun n => hdigits (ds.drop n) fun _ hc => List.mem_of_mem_drop hc
  have hzeros : ∀ n, ∀ c ∈ zeros n, isDecimalChar c = true :=
    fun n c hc => isDecimalChar_of_isDigit (isDigit_of_mem_zeros hc)
  have hsize : ∀ n, ∀ c ∈ Text.ofNat n, isDecimalChar c = true :=
    fun n c hc => isDecimalChar_of_isDigit (Text.isDigit_of_mem_ofNat hc)
  have hmarks : ∀ m ∈ ["0.", ".0", ".", "e", "-", "+"], ∀ c ∈ Text.ofString m, isDecimalChar c = true := by
    decide
  simp only [List.forall_mem_cons] at hmarks
  obtain ⟨hzero, htail, hpoint, hmark, hminus, hplus, -⟩ := hmarks
  have hwhen : ∀ (p : Prop) [Decidable p] (x y : Text), (∀ c ∈ x, isDecimalChar c = true) →
      (∀ c ∈ y, isDecimalChar c = true) → ∀ c ∈ (if p then x else y), isDecimalChar c = true := by
    intro p _ x y hx hy
    split
    · exact hx
    · exact hy
  unfold layOut
  dsimp only
  split
  · -- the point stands in front of all digits, behind them, or between two of them
    split
    · simp only [List.forall_mem_append]
      exact ⟨⟨hzero, hzeros _⟩, hall⟩
    · split
      · simp only [List.forall_mem_append]
        exact ⟨⟨hall, hzeros _⟩, htail⟩
      · simp only [List.forall_mem_append]
        exact ⟨⟨htake _, hpoint⟩, hdrop _⟩
  · -- an exponent says where it stands
    simp only [List.forall_mem_append]
    refine ⟨⟨⟨⟨⟨htake _, hwhen _ _ _ (fun c hc => nomatch hc) ?_⟩, hmark⟩, hwhen _ _ _ hminus hplus⟩, hzeros _⟩,
      hsize _⟩
    simp only [List.forall_mem_append]
    exact ⟨hpoint, hdrop _⟩

theorem mem_of_mem_dropTrailing {p : CodePoint → Bool} {t : Text} {c : CodePoint}
    (h : c ∈ Text.dropTrailing p t) : c ∈ t :=
  (List.rdropWhile_prefix p t).subset h

/-- **A finite double** has the characters of a decimal. -/
theorem isDecimalChar_of_mem {m : Nat} {e : Int} {c : CodePoint} (h : c ∈ magnitudeText m e) :
    isDecimalChar c = true := by
  unfold magnitudeText at h
  split at h
  · have hzero : ∀ c ∈ Text.ofString "0.0", isDecimalChar c = true := by decide
    exact hzero c h
  · exact isDecimalChar_of_mem_layOut
      (fun d hd => Text.isDigit_of_mem_ofNat (mem_of_mem_dropTrailing hd)) _ c h

end Double

end RemoteTree
