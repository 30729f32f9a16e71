import RemoteTree.Proofs.Json.Grammar
import RemoteTree.Proofs.Json.Written
import RemoteTree.Proofs.Number.Shortest

/-!
# Numbers that are written

The digits of a positive double begin with one that is not zero, so that a point or an exponent may stand behind
any of them, and a double that is laid out has a digit on both sides of its point.

* `Json.isNumber_layOut`: digits that begin with another one than zero are a number, wherever their point is set.
* `Json.isNumber_writeDouble`, `Json.isNumber_ofInt`: **finite doubles and integers are written as numbers.**
-/

namespace RemoteTree

open CodePoint

namespace Text

variable {p : CodePoint → Bool} {c : CodePoint} {t : Text}

/-- What is dropped from the end of a text never reaches a character that is kept at its beginning. -/
theorem dropTrailing_cons (h : p c = false) : ∃ u, dropTrailing p (c :: t) = c :: u := by
  have hprefix : dropTrailing p (c :: t) <+: c :: t := List.rdropWhile_prefix p (c :: t)
  have hne : dropTrailing p (c :: t) ≠ [] := by
    intro hnil
    have hall := List.rdropWhile_eq_nil_iff.1 hnil c List.mem_cons_self
    rw [h] at hall
    cases hall
  obtain ⟨d, u, hd⟩ := List.exists_cons_of_ne_nil hne
  rw [hd] at hprefix ⊢
  obtain ⟨rfl, -⟩ := List.cons_prefix_cons.1 hprefix
  exact ⟨u, rfl⟩

end Text

namespace Json

variable {c : CodePoint} {s t : Text}

theorem isDigits_append (hs : IsDigits s) (ht : ∀ d ∈ t, d.isDigit = true) : IsDigits (s ++ t) :=
  ⟨List.append_ne_nil_of_left_ne_nil hs.1 t, List.forall_mem_append.2 ⟨hs.2, ht⟩⟩

theorem append_isDigits (hs : ∀ d ∈ s, d.isDigit = true) (ht : IsDigits t) : IsDigits (s ++ t) :=
  ⟨List.append_ne_nil_of_right_ne_nil s ht.1, List.forall_mem_append.2 ⟨hs, ht.2⟩⟩

theorem isDigits_ofNat (n : Nat) : IsDigits (Text.ofNat n) :=
  ⟨Text.ofNat_ne_nil n, fun _ hc => Text.isDigit_of_mem_ofNat hc⟩

/-- Digits that begin with another one than zero are a number, wherever their point is set. -/
theorem isNumber_layOut (h : IsDigits (c :: t)) (hc : c ≠ ofChar '0') {sign : Text}
    (hs : sign = [] ∨ sign = Text.ofString "-") (k : Int) : IsNumber (sign ++ Double.layOut (c :: t) k) := by
  have hzeros : ∀ n, ∀ d ∈ Double.zeros n, d.isDigit = true := fun n d hd => Double.isDigit_of_mem_zeros hd
  unfold Double.layOut
  dsimp only
  split
  · split
    · -- all digits stand behind the point
      rename_i hpoint
      have hnumber := IsNumber.mk hs .zero (.digits (append_isDigits (hzeros (-((c :: t).length + k))) h)) .absent
      simpa [Text.ofString] using hnumber
    · split
      · -- all digits stand in front of the point
        rename_i hpoint hlength
        have hwhole := isDigits_append h (hzeros ((c :: t).length + k - (c :: t).length))
        have hzero : IsDigits "0" := ⟨by decide, by decide⟩
        have hnumber := IsNumber.mk hs (.digits hwhole hc) (.digits hzero) .absent
        simpa [Text.ofString] using hnumber
      · -- the point stands between two digits
        rename_i hpoint hlength
        obtain ⟨i, hi⟩ : ∃ i, (((c :: t).length : Int) + k).toNat = i + 1 :=
          ⟨(((c :: t).length : Int) + k).toNat - 1, by omega⟩
        have hrest : i < t.length := by
          rw [List.length_cons] at hi hlength
          omega
        have hwhole : IsDigits (c :: t.take i) :=
          ⟨List.cons_ne_nil _ _, fun d hd => h.2 d (List.mem_of_mem_take (i := i + 1) hd)⟩
        have hfraction : IsDigits (t.drop i) := by
          refine ⟨fun hnil => ?_, fun d hd => h.2 d (List.mem_cons_of_mem c (List.mem_of_mem_drop hd))⟩
          rw [List.drop_eq_nil_iff] at hnil
          omega
        have hnumber := IsNumber.mk hs (.digits hwhole hc) (.digits hfraction) .absent
        rw [hi, List.take_succ_cons, List.drop_succ_cons]
        simpa [Text.ofString] using hnumber
  · -- one digit stands in front of the point, if there is one
    have hfirst : IsWhole [c] :=
      .digits ⟨List.cons_ne_nil _ _, fun d hd => h.2 d (List.mem_singleton.1 hd ▸ List.mem_cons_self)⟩ hc
    have hfraction : IsFraction (if (c :: t).length = 1 then [] else Text.ofString "." ++ (c :: t).drop 1) := by
      split
      · exact .absent
      · rename_i hlength
        refine .digits ⟨fun hnil => hlength ?_, fun d hd => h.2 d (List.mem_of_mem_drop hd)⟩
        rw [List.drop_succ_cons, List.drop_zero] at hnil
        rw [hnil]
        rfl
    have hsign : ∀ n : Int, (if n < 0 then Text.ofString "-" else Text.ofString "+") = [] ∨
        (if n < 0 then Text.ofString "-" else Text.ofString "+") = Text.ofString "+" ∨
        (if n < 0 then Text.ofString "-" else Text.ofString "+") = Text.ofString "-" := by
      intro n
      split <;> simp
    have hsize := fun n : Nat => append_isDigits (hzeros (2 - (Text.ofNat n).length)) (isDigits_ofNat n)
    have hnumber := IsNumber.mk hs hfirst hfraction
      (.digits (.inl rfl) (hsign ((c :: t).length + k - 1)) (hsize ((c :: t).length + k - 1 : Int).natAbs))
    simpa using hnumber

/-- The digits of a positive number, without the zeros at their end, begin with another digit than zero. -/
theorem digits_of_ne_zero {n : Nat} (hn : n ≠ 0) : ∃ c u, (Text.ofNat n).dropTrailing (·.val = 0x30) = c :: u ∧
    IsDigits (c :: u) ∧ c ≠ ofChar '0' := by
  obtain ⟨c, t, hdigits, hc⟩ := Text.ofNat_eq_cons hn
  have hkept : decide (c.val = 0x30) = false := by
    refine decide_eq_false fun hval => hc ?_
    rw [← ofNat_val c, hval]
    rfl
  obtain ⟨u, hu⟩ := Text.dropTrailing_cons (p := fun c => c.val = 0x30) (t := t) hkept
  rw [← hdigits] at hu
  refine ⟨c, u, hu, ⟨List.cons_ne_nil c u, fun d hd => ?_⟩, hc⟩
  rw [← hu] at hd
  exact Text.isDigit_of_mem_ofNat (Double.mem_of_mem_dropTrailing hd)

/-- **A finite double is written as a number.** -/
theorem isNumber_writeDouble {x : Double} (hx : x.IsBinary64) (hfinite : x.IsFinite) :
    IsNumber (writeDouble x) := by
  cases x with
  | nan | infinite => exact hfinite.elim
  | finite negative m e =>
    have hs : (if negative then Text.ofString "-" else []) = [] ∨
        (if negative then Text.ofString "-" else []) = Text.ofString "-" := by
      cases negative <;> simp
    unfold writeDouble Double.textWith
    dsimp only
    generalize (if negative then Text.ofString "-" else []) = sign at hs ⊢
    unfold Double.magnitudeText
    by_cases hm : m = 0
    · have hzero := IsNumber.mk hs .zero (.digits (t := Text.ofString "0") ⟨by decide, by decide⟩) .absent
      rw [if_pos hm]
      simpa [Text.ofString] using hzero
    · obtain ⟨c, u, hu, hdigits, hc⟩ := digits_of_ne_zero (Double.shortest_ne_zero hm hx.2.1)
      rw [if_neg hm]
      dsimp only
      rw [hu]
      exact isNumber_layOut hdigits hc hs _

/-- **An integer is written as a number.** -/
theorem isNumber_ofInt (n : Int) : IsNumber (Text.ofInt n) := by
  have hs : (if n < 0 then Text.ofString "-" else []) = [] ∨
      (if n < 0 then Text.ofString "-" else []) = Text.ofString "-" := by
    split <;> simp
  have hwhole : IsWhole (Text.ofNat n.natAbs) := by
    by_cases hn : n.natAbs = 0
    · rw [hn]
      exact .zero
    · obtain ⟨c, t, hdigits, hc⟩ := Text.ofNat_eq_cons hn
      have hall := isDigits_ofNat n.natAbs
      rw [hdigits] at hall ⊢
      exact .digits hall hc
  have hnumber := IsNumber.mk hs hwhole .absent .absent
  rwa [List.append_nil, List.append_nil] at hnumber

end Json

end RemoteTree
