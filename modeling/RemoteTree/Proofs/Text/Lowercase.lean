import Mathlib.Tactic.SplitIfs
import RemoteTree.Text.Lowercase

/-!
# Lower case and ASCII

Beyond ASCII there is one letter with a form in it: the sign for kelvin, whose form is the letter k. So a word of ASCII
without that letter is the lower case form of the same texts whether the letters of all scripts have forms or those of
ASCII alone.

* `CodePoint.toLower_cases`, `CodePoint.eq_of_toLower_eq`: the form of a code point in ASCII.
* `CodePoint.lower_of_not_isAscii`: the form of a code point beyond ASCII.
* `Text.lower_eq_iff`: **a text is such a word in lower case exactly if it is so in ASCII.**
-/

namespace RemoteTree

namespace CodePoint

variable {c x : CodePoint}

theorem isUpper_eq_false (h : c.val < 0x41 ∨ 0x5A < c.val) : c.isUpper = false := by
  unfold isUpper within
  simp only [Bool.and_eq_false_iff, decide_eq_false_iff_not]
  omega

theorem toLower_of_not_isUpper (h : c.isUpper = false) : c.toLower = c := by
  unfold toLower
  rw [h]
  rfl

theorem toLower_of_not_isAscii (h : c.isAscii = false) : c.toLower = c := by
  have hbeyond : ¬c.val < 0x80 := decide_eq_false_iff_not.1 h
  exact toLower_of_not_isUpper (isUpper_eq_false (by omega))

theorem isLower_toLower (h : c.isUpper = true) : c.toLower.isLower = true := by
  simp only [toLower, if_pos h]
  simp only [isUpper, isLower, within, Bool.and_eq_true, decide_eq_true_eq] at h ⊢
  rw [val_ofNat (by omega)]
  omega

theorem isUpper_toUpper (h : c.isLower = true) : c.toUpper.isUpper = true := by
  simp only [toUpper, if_pos h]
  simp only [isUpper, isLower, within, Bool.and_eq_true, decide_eq_true_eq] at h ⊢
  rw [val_ofNat (by omega)]
  omega

/-- A character is put into lower case as it is, or as a letter. -/
theorem toLower_cases (c : CodePoint) : c.toLower = c ∨ c.toLower.isLetterOrDigit = true := by
  by_cases h : c.isUpper = true
  · simp [isLetterOrDigit, isLetter, isLower_toLower h]
  · exact .inl (if_neg h)

theorem toUpper_cases (c : CodePoint) : c.toUpper = c ∨ c.toUpper.isLetterOrDigit = true := by
  by_cases h : c.isLower = true
  · simp [isLetterOrDigit, isLetter, isUpper_toUpper h]
  · exact .inl (if_neg h)

/-- What is no letter in lower case is the form of nothing else. -/
theorem eq_of_toLower_eq (hx : x.isLower = false) (h : c.toLower = x) : c = x := by
  cases hc : c.isUpper with
  | false => rwa [toLower_of_not_isUpper hc] at h
  | true =>
    rw [← h, isLower_toLower hc] at hx
    cases hx

theorem isAscii_ofNat {n : Nat} (h : 0x80 ≤ n) : (ofNat n).isAscii = false := by
  unfold isAscii ofNat
  split
  · exact decide_eq_false (Nat.not_lt.2 h)
  · rfl

/-- A run of letters with forms in ASCII is one of ASCII or the sign for kelvin. -/
theorem run_of_lt {r : Nat × Nat × Nat × Int} (hr : r ∈ lowercaseRuns) :
    r.2.1 < 0x80 ∨ 0x80 ≤ r.1 + r.2.2.2 ∨ r.1 = 0x212A ∧ r.2.1 = 0x212A ∧ r.2.2.2 = -8383 := by
  have hruns : ∀ r ∈ lowercaseRuns,
      r.2.1 < 0x80 ∨ 0x80 ≤ r.1 + r.2.2.2 ∨ r.1 = 0x212A ∧ r.2.1 = 0x212A ∧ r.2.2.2 = -8383 := by
    decide +kernel
  exact hruns r hr

/-- **The form of a code point beyond ASCII** has one beyond ASCII in it, or is the letter k. -/
theorem lower_of_not_isAscii (h : c.isAscii = false) : ∃ x ∈ c.lower, x.isAscii = false ∨ x = 'k' := by
  have hbeyond : ¬c.val < 0x80 := decide_eq_false_iff_not.1 h
  unfold lower
  rw [h, if_neg (by decide)]
  split_ifs with hdotted
  · decide
  · split
    · rename_i r hr
      have hwithin := List.find?_some hr
      unfold within at hwithin
      simp only [Bool.and_eq_true, decide_eq_true_eq] at hwithin
      obtain ⟨⟨hfirst, hlast⟩, -⟩ := hwithin
      refine ⟨_, List.mem_singleton_self _, ?_⟩
      rcases run_of_lt (List.mem_of_find?_eq_some hr) with hrun | hrun | ⟨hkelvin, hkelvin', hstep⟩
      · omega
      · exact .inl (isAscii_ofNat (by omega))
      · have hval : c.val = 0x212A := by omega
        rw [hval, hstep]
        exact .inr (by decide)
    · exact ⟨c, List.mem_singleton_self c, .inl h⟩

end CodePoint

namespace Text

variable {t w : Text}

/-- The form of a code point in ASCII is one code point, whatever stands around it. -/
theorem lowerFrom_cons_of_isAscii {c : CodePoint} (h : c.isAscii = true) (inWord : Bool) (t : Text) :
    ∃ further, lowerFrom inWord (c :: t) = c.toLower :: lowerFrom further t := by
  have hsigma : c.val ≠ 0x3A3 := by
    have hlt : c.val < 0x80 := of_decide_eq_true h
    omega
  have hform : c.lower = [c.toLower] := if_pos h
  refine ⟨if c.isCaseIgnorable then inWord else c.isCased, ?_⟩
  simp [lowerFrom, hsigma, hform]

/-- The form of a code point beyond ASCII has one beyond ASCII in it, or is the letter k, whatever stands around it. -/
theorem mem_lowerFrom_of_not_isAscii {c : CodePoint} (h : c.isAscii = false) (inWord : Bool) (t : Text) :
    ∃ x ∈ lowerFrom inWord (c :: t), x.isAscii = false ∨ x = CodePoint.ofChar 'k' := by
  have hform : ∃ x ∈ (if c.val = 0x3A3 && inWord && !wordGoesOn t then [CodePoint.ofNat 0x3C2] else c.lower),
      x.isAscii = false ∨ x = CodePoint.ofChar 'k' := by
    split
    · decide
    · exact CodePoint.lower_of_not_isAscii h
  obtain ⟨x, hx, hbeyond⟩ := hform
  exact ⟨x, List.mem_append_left _ hx, hbeyond⟩

theorem lowerFrom_eq_iff (inWord : Bool) (hw : ∀ x ∈ w, x.isAscii = true ∧ x ≠ CodePoint.ofChar 'k') :
    lowerFrom inWord t = w ↔ t.lowerAscii = w := by
  induction t generalizing inWord w with
  | nil => exact Iff.rfl
  | cons c t ih =>
    cases hc : c.isAscii with
    | true =>
      obtain ⟨further, hform⟩ := lowerFrom_cons_of_isAscii hc inWord t
      rw [hform]
      show _ ↔ c.toLower :: Text.lowerAscii t = w
      cases w with
      | nil => exact iff_of_false nofun nofun
      | cons x w =>
        rw [List.cons_eq_cons, List.cons_eq_cons, ih further fun y hy => hw y (List.mem_cons_of_mem x hy)]
    | false =>
      refine iff_of_false (fun h => ?_) fun h => ?_
      · obtain ⟨x, hx, hbeyond⟩ := mem_lowerFrom_of_not_isAscii hc inWord t
        obtain ⟨hascii, hk⟩ := hw x (h ▸ hx)
        rw [hascii] at hbeyond
        exact hk (hbeyond.resolve_left nofun)
      · have hmem : c ∈ Text.lowerAscii (c :: t) :=
          List.mem_map.2 ⟨c, List.mem_cons_self, CodePoint.toLower_of_not_isAscii hc⟩
        have hascii := (hw c (h ▸ hmem)).1
        rw [hc] at hascii
        cases hascii

/-- **A word of ASCII without the letter k** is the lower case form of the same texts in full and in ASCII. -/
theorem lower_eq_iff (hw : ∀ x ∈ w, x.isAscii = true ∧ x ≠ CodePoint.ofChar 'k') :
    t.lower = w ↔ t.lowerAscii = w := lowerFrom_eq_iff false hw

end Text

end RemoteTree
