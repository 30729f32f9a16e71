import RemoteTree.Json.Reader
import RemoteTree.Proofs.Json.Written
import RemoteTree.Proofs.Text.Pairs

/-!
# Texts that are written and read

Between the quotes a character stands for itself, as an escape of one letter, or as one or two escapes of four
digits, and the reader takes each of these in one step. What it makes of two escapes in a row depends on nothing
but the two numbers, so that surrogates that stood side by side in the text come back as one character.

* `Json.Shape`: the ways in which a character stands between the quotes; `shape_escaped` says that the writer
  uses no others.
* `Json.readString_alone`, `Json.readString_joined`: one step of the reader.
* `Json.readString_escaped`: **what is read of a text that was written is the text with its pairs joined.**
-/

namespace RemoteTree

open CodePoint

namespace Json

variable {c d : CodePoint} {start n : Nat} {rest w : Text}

/-! ## Escapes of four digits -/

theorem hexValue?_hexDigit (h : n < 16) : hexValue? (Text.hexDigit n) = some n := by
  have hall : ∀ n < 16, hexValue? (Text.hexDigit n) = some n := by decide
  exact hall n h

/-- The four digits of a number below `16 ^ 4` are read as the number. -/
theorem hex4?_hex (h : n < 0x10000) :
    ∃ a b c d, Text.hex 4 n = [a, b, c, d] ∧ hex4? a b c d = some n := by
  refine ⟨Text.hexDigit (n / 16 / 16 / 16 % 16), Text.hexDigit (n / 16 / 16 % 16), Text.hexDigit (n / 16 % 16),
    Text.hexDigit (n % 16), rfl, ?_⟩
  have hdigit : ∀ k, hexValue? (Text.hexDigit (k % 16)) = some (k % 16) :=
    fun k => hexValue?_hexDigit (Nat.mod_lt k (by decide))
  have hsum : ((n / 16 / 16 / 16 % 16 * 16 + n / 16 / 16 % 16) * 16 + n / 16 % 16) * 16 + n % 16 = n := by omega
  simp only [hex4?, hdigit, Option.pure_def, Option.bind_eq_bind, Option.bind_some, hsum]

theorem escapedUnit_eq (n : Nat) :
    Text.escapedUnit n = .backslash :: CodePoint.ofChar 'u' :: Text.hex 4 n := rfl

/-- An escape of four digits is read as its code point, and what follows it decides whether that stands alone. -/
theorem readEscape_unit (hn : n < 0x10000) (hw : w ≠ []) :
    readEscape start (CodePoint.ofChar 'u' :: Text.hex 4 n ++ w) = completePair (ofNat n) w := by
  obtain ⟨a, b, c, d, hhex, hread⟩ := hex4?_hex hn
  obtain ⟨x, w, rfl⟩ := List.exists_cons_of_ne_nil hw
  simp [hhex, readEscape, hread]

theorem takeSecond_unit (hn : n < 0x10000) (hw : w ≠ []) :
    takeSecond (Text.escapedUnit n ++ w) = .ok (some (ofNat n, w)) := by
  obtain ⟨a, b, c, d, hhex, hread⟩ := hex4?_hex hn
  obtain ⟨x, w, rfl⟩ := List.exists_cons_of_ne_nil hw
  simp [escapedUnit_eq, hhex, takeSecond, hread]

/-- What does not begin an escape of four digits is no second half. -/
theorem takeSecond_eq_none {b y : CodePoint} (h : ¬(b = .backslash ∧ y = CodePoint.ofChar 'u')) :
    takeSecond (b :: y :: w) = .ok none := by
  unfold takeSecond
  split
  · rename_i heq
    obtain ⟨rfl, hrest⟩ := List.cons.inj heq
    obtain ⟨rfl, -⟩ := List.cons.inj hrest
    rw [if_neg h]
  · rfl

/-! ## Characters between the quotes -/

/-- The ways in which a character stands between the quotes. -/
inductive Shape (c : CodePoint) : Text → Prop
  | itself (hv : isVisible c = true) (hq : c ≠ .doubleQuote) (hb : c ≠ .backslash) : Shape c [c]
  | letter {e : CodePoint} (he : unescape? e = some c) : Shape c [.backslash, e]
  | unit (h : c.val < 0x10000) : Shape c (Text.escapedUnit c.val)
  | halves (h : 0x10000 ≤ c.val) :
      Shape c (Text.escapedUnit (Utf16.highHalf c).val ++ Text.escapedUnit (Utf16.lowHalf c).val)

theorem shape_escaped (c : CodePoint) : Shape c (escaped c) := by
  have hletter : ∀ (e : Char) (n : Nat), n < 0x110000 → unescape? e = some (ofNat n) → c.val = n →
      Shape c [.backslash, CodePoint.ofChar e] := by
    rintro e n - he rfl
    exact .letter (he.trans (by rw [ofNat_val]))
  unfold escaped
  split_ifs with hmark hvisible h8 h9 hA hC hD hunit
  · refine .letter ?_
    rcases hmark with rfl | rfl <;> decide
  · rw [not_or] at hmark
    exact .itself hvisible hmark.1 hmark.2
  · exact hletter 'b' _ (by decide) (by decide) h8
  · exact hletter 't' _ (by decide) (by decide) h9
  · exact hletter 'n' _ (by decide) (by decide) hA
  · exact hletter 'f' _ (by decide) (by decide) hC
  · exact hletter 'r' _ (by decide) (by decide) hD
  · exact .unit hunit
  · rw [← Utf16.val_highHalf, ← Utf16.val_lowHalf]
    exact .halves (by omega)

/-- The letter of an escape is not the one that four digits follow. -/
theorem ne_of_unescape? {e : CodePoint} (h : unescape? e = some c) : e ≠ CodePoint.ofChar 'u' := by
  rintro rfl
  have hnone : unescape? (CodePoint.ofChar 'u') = none := by decide
  rw [hnone] at h
  cases h

/-- A surrogate is written with four digits. -/
theorem escaped_of_isSurrogate (h : c.isHigh = true ∨ c.isLow = true) : escaped c = Text.escapedUnit c.val := by
  rw [Utf16.isHigh_iff, Utf16.isLow_iff] at h
  have hmark : ¬(c = .doubleQuote ∨ c = .backslash) := by
    rintro (rfl | rfl)
    · exact absurd h (by decide)
    · exact absurd h (by decide)
  have hvisible : ¬c.within 0x20 0x7E = true := by
    simp only [within, Bool.and_eq_true, decide_eq_true_eq]
    omega
  unfold escaped
  rw [if_neg hmark, if_neg hvisible, if_neg (by omega), if_neg (by omega), if_neg (by omega), if_neg (by omega),
    if_neg (by omega), if_pos (by omega)]

/-! ## One step of the reader -/

theorem readString_escape {x : CodePoint} {t : Text} (h : readEscape start t = .ok (x, rest)) :
    readString start (.backslash :: t) = prepend x (readString start rest) := by
  have hquote : CodePoint.backslash ≠ .doubleQuote := by decide
  rw [readString, if_neg hquote, if_neg (not_not_intro rfl)]
  split
  · rename_i heq
    rw [h] at heq
    cases heq
  · rename_i heq
    rw [h] at heq
    obtain ⟨rfl, rfl⟩ := Prod.mk.inj (Except.ok.inj heq)
    rfl

/-- Two escapes of four digits are read as one character if their numbers are those of a pair. -/
theorem readString_units (hw : w ≠ []) (hc : c.isHigh = true) (hd : d.isLow = true) :
    readString start (Text.escapedUnit c.val ++ (Text.escapedUnit d.val ++ w)) =
      prepend (Utf16.joined c d) (readString start w) := by
  have hltHigh := Utf16.isHigh_iff.1 hc
  have hltLow := Utf16.isLow_iff.1 hd
  rw [escapedUnit_eq c.val, List.cons_append]
  refine readString_escape ?_
  rw [readEscape_unit (by omega) (by simp [escapedUnit_eq]), ofNat_val, completePair, if_pos hc,
    takeSecond_unit (by omega) hw]
  simp only [ofNat_val, if_pos hd]

/-- A half that is written takes part in no pair with a character that is not its other half. -/
theorem completePair_escaped (hw : w ≠ []) (h : ¬(c.isHigh && d.isLow) = true) :
    completePair c (escaped d ++ w) = .ok (c, escaped d ++ w) := by
  unfold completePair
  by_cases hc : c.isHigh = true
  · rw [if_pos hc]
    have hd : ¬d.isLow = true := by simpa [hc] using h
    obtain ⟨z, w, rfl⟩ := List.exists_cons_of_ne_nil hw
    have hshape := shape_escaped d
    generalize escaped d = s at hshape ⊢
    cases hshape with
    | itself hv hq hb => rw [List.singleton_append, takeSecond_eq_none fun h => hb h.1]
    | letter he =>
      rw [List.cons_append, List.singleton_append, takeSecond_eq_none fun h => ne_of_unescape? he h.2]
    | unit hlt => simp only [takeSecond_unit hlt hw, ofNat_val, if_neg hd]
    | halves hge =>
      -- the second half that is found is itself a first one
      have hhigh := Utf16.isHigh_highHalf d
      rw [Utf16.isHigh_iff] at hhigh
      have hlow : ¬(Utf16.highHalf d).isLow = true := by
        rw [Utf16.isLow_iff]
        omega
      rw [List.append_assoc, takeSecond_unit (by omega) (by simp [escapedUnit_eq])]
      simp only [ofNat_val, if_neg hlow]
  · rw [if_neg hc]

/-- **A character that is written is read**, if what follows it is no second half for it. -/
theorem readString_alone (hw : w ≠ []) (h : completePair c w = .ok (c, w)) :
    readString start (escaped c ++ w) = prepend c (readString start w) := by
  have hshape := shape_escaped c
  generalize escaped c = s at hshape ⊢
  cases hshape with
  | itself hv hq hb =>
    have hmin : ¬c.val < 0x20 := by
      simp only [isVisible, within, Bool.and_eq_true, decide_eq_true_eq] at hv
      omega
    rw [List.singleton_append, readString, if_neg hq, if_pos hb, if_neg hmin]
  | @letter e he =>
    rw [List.cons_append, List.singleton_append]
    refine readString_escape ?_
    simp only [readEscape, if_pos (ne_of_unescape? he), he]
  | unit hlt =>
    rw [escapedUnit_eq, List.cons_append]
    refine readString_escape ?_
    rw [readEscape_unit hlt hw, ofNat_val, h]
  | halves hge =>
    rw [List.append_assoc, readString_units hw (Utf16.isHigh_highHalf c) (Utf16.isLow_lowHalf c),
      Utf16.joined_halves hge]

/-- **Surrogates that stand side by side are read as one character.** -/
theorem readString_joined (hw : w ≠ []) (hc : c.isHigh = true) (hd : d.isLow = true) :
    readString start (escaped c ++ (escaped d ++ w)) = prepend (Utf16.joined c d) (readString start w) := by
  rw [escaped_of_isSurrogate (.inl hc), escaped_of_isSurrogate (.inr hd), readString_units hw hc hd]

/-- **What is read of a text that was written** is the text with its pairs joined. -/
theorem readString_escaped (start : Nat) (t rest : Text) :
    readString start (t.flatMap escaped ++ .doubleQuote :: rest) = .ok (Utf16.pair t, rest) := by
  fun_induction Utf16.pair t with
  | case1 => rw [List.flatMap_nil, List.nil_append, readString, if_pos rfl]
  | case2 c =>
    have hquote : completePair c (.doubleQuote :: rest) = .ok (c, .doubleQuote :: rest) := by
      unfold completePair
      cases rest with
      | nil => simp [takeSecond]
      | cons y rest =>
        have hmark : CodePoint.doubleQuote ≠ .backslash := by decide
        rw [takeSecond_eq_none fun h => hmark h.1]
        simp
    rw [List.flatMap_singleton, readString_alone (List.cons_ne_nil _ _) hquote, readString, if_pos rfl]
    rfl
  | case3 c d t hpair ih =>
    rw [Bool.and_eq_true] at hpair
    rw [List.flatMap_cons, List.flatMap_cons, List.append_assoc, List.append_assoc,
      readString_joined (by simp) hpair.1 hpair.2, ih]
    rfl
  | case4 c d t hpair ih =>
    have hne : (d :: t).flatMap escaped ++ .doubleQuote :: rest ≠ [] := by simp
    rw [List.flatMap_cons, List.append_assoc, readString_alone hne ?_, ih]
    · rfl
    · rw [List.flatMap_cons, List.append_assoc]
      exact completePair_escaped (by simp) hpair

end Json

end RemoteTree
