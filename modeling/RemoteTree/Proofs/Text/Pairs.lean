import Mathlib.Tactic.ByContra
import RemoteTree.Proofs.Text.Basic
import RemoteTree.Text.Wide

/-!
# Surrogate pairs

* `Text.HasPair`: a high surrogate with a low one right after it.
* `Utf16.highHalf`, `Utf16.lowHalf`: the halves of a character beyond the first plane; `Utf16.joined_halves`: it is
  what they are joined to.
* `Utf16.not_hasPair_pair`, `Utf16.pair_eq_self_iff`: **what is joined has no pair any more**, and a text stays as
  it is exactly if it has none.
-/

namespace RemoteTree

/-- A high surrogate stands right before a low one. -/
def Text.HasPair (t : Text) : Prop :=
  ∃ (front back : Text) (high low : CodePoint), t = front ++ high :: low :: back ∧ high.isHigh = true ∧
    low.isLow = true

namespace Text

variable {c d : CodePoint} {t : Text}

theorem not_hasPair_nil : ¬HasPair [] := by
  rintro ⟨front, back, high, low, h, -⟩
  have hlen := congrArg List.length h
  simp at hlen

theorem not_hasPair_singleton : ¬HasPair [c] := by
  rintro ⟨front, back, high, low, h, -⟩
  have hlen := congrArg List.length h
  simp at hlen
  omega

theorem hasPair_cons : HasPair (c :: d :: t) ↔ (c.isHigh = true ∧ d.isLow = true) ∨ HasPair (d :: t) := by
  constructor
  · rintro ⟨front, back, high, low, h, hh, hl⟩
    cases front with
    | nil =>
      simp only [List.nil_append, List.cons.injEq] at h
      obtain ⟨rfl, rfl, -⟩ := h
      exact .inl ⟨hh, hl⟩
    | cons x front => exact .inr ⟨front, back, high, low, (List.cons.inj h).2, hh, hl⟩
  · rintro (⟨hh, hl⟩ | ⟨front, back, high, low, h, hh, hl⟩)
    · exact ⟨[], t, c, d, rfl, hh, hl⟩
    · exact ⟨c :: front, back, high, low, by rw [h]; rfl, hh, hl⟩

end Text

namespace Utf16

variable {c d high low : CodePoint}

theorem isHigh_iff : c.isHigh = true ↔ 0xD800 ≤ c.val ∧ c.val ≤ 0xDBFF := by
  simp [CodePoint.isHigh, CodePoint.within]

theorem isLow_iff : c.isLow = true ↔ 0xDC00 ≤ c.val ∧ c.val ≤ 0xDFFF := by
  simp [CodePoint.isLow, CodePoint.within]

/-- What a pair is joined to lies beyond the first plane. -/
theorem val_joined (hh : high.isHigh = true) (hl : low.isLow = true) :
    (joined high low).val = 0x10000 + (high.val - 0xD800) * 1024 + (low.val - 0xDC00) := by
  rw [isHigh_iff] at hh
  rw [isLow_iff] at hl
  exact CodePoint.val_ofNat (by omega)

theorem not_half_joined (hh : high.isHigh = true) (hl : low.isLow = true) :
    (joined high low).isHigh = false ∧ (joined high low).isLow = false := by
  have hval := val_joined hh hl
  rw [← Bool.not_eq_true, ← Bool.not_eq_true, isHigh_iff, isLow_iff]
  omega

/-- The first half of a character beyond the first plane. -/
def highHalf (c : CodePoint) : CodePoint := CodePoint.ofNat (0xD800 + (c.val - 0x10000) / 1024)

/-- The second half of a character beyond the first plane. -/
def lowHalf (c : CodePoint) : CodePoint := CodePoint.ofNat (0xDC00 + (c.val - 0x10000) % 1024)

theorem val_highHalf (c : CodePoint) : (highHalf c).val = 0xD800 + (c.val - 0x10000) / 1024 := by
  have hlt := c.lt
  exact CodePoint.val_ofNat (by omega)

theorem val_lowHalf (c : CodePoint) : (lowHalf c).val = 0xDC00 + (c.val - 0x10000) % 1024 :=
  CodePoint.val_ofNat (by omega)

theorem isHigh_highHalf (c : CodePoint) : (highHalf c).isHigh = true := by
  have hlt := c.lt
  rw [isHigh_iff, val_highHalf]
  omega

theorem isLow_lowHalf (c : CodePoint) : (lowHalf c).isLow = true := by
  rw [isLow_iff, val_lowHalf]
  omega

/-- **A character beyond the first plane** is what its two halves are joined to. -/
theorem joined_halves (h : 0x10000 ≤ c.val) : joined (highHalf c) (lowHalf c) = c := by
  have hval : 0x10000 + ((highHalf c).val - 0xD800) * 1024 + ((lowHalf c).val - 0xDC00) = c.val := by
    rw [val_highHalf, val_lowHalf]
    omega
  rw [joined, hval, CodePoint.ofNat_val]

/-- What begins with a low surrogate after pairs are joined did so before. -/
theorem isLow_head_pair {t : Text} (h : (pair t).head? = some c) (hc : c.isLow = true) : t.head? = some c := by
  fun_cases pair t with
  | case1 => exact h
  | case2 => exact h
  | case3 a b rest hab =>
    rw [pair, if_pos hab, List.head?_cons] at h
    rw [Bool.and_eq_true] at hab
    obtain rfl := Option.some.inj h
    rw [(not_half_joined hab.1 hab.2).2] at hc
    cases hc
  | case4 a b rest hab =>
    rw [pair, if_neg hab, List.head?_cons] at h
    exact h

/-- **What is joined has no pair any more.** -/
theorem not_hasPair_pair (t : Text) : ¬Text.HasPair (pair t) := by
  fun_induction pair t with
  | case1 => exact Text.not_hasPair_nil
  | case2 => exact Text.not_hasPair_singleton
  | case3 a b rest hab ih =>
    rw [Bool.and_eq_true] at hab
    cases hr : pair rest with
    | nil => exact Text.not_hasPair_singleton
    | cons x xs =>
      rw [hr] at ih
      rw [Text.hasPair_cons, (not_half_joined hab.1 hab.2).1]
      simpa using ih
  | case4 a b rest hab ih =>
    cases hr : pair (b :: rest) with
    | nil => exact Text.not_hasPair_singleton
    | cons x xs =>
      rw [hr] at ih
      rw [Text.hasPair_cons]
      rintro (⟨ha, hx⟩ | hx)
      · -- the low half would have been joined to the high one
        have hhead : (b :: rest).head? = some x := isLow_head_pair (by rw [hr]; rfl) hx
        obtain rfl := Option.some.inj hhead
        exact hab (Bool.and_eq_true_iff.2 ⟨ha, hx⟩)
      · exact ih hx

/-- **A text stays as it is exactly if it has no pair.** -/
theorem pair_eq_self_iff {t : Text} : pair t = t ↔ ¬Text.HasPair t := by
  constructor
  · intro h
    rw [← h]
    exact not_hasPair_pair t
  · intro h
    fun_induction pair t with
    | case1 => rfl
    | case2 => rfl
    | case3 a b rest hab ih =>
      rw [Bool.and_eq_true] at hab
      exact absurd (Text.hasPair_cons.2 (.inl hab)) h
    | case4 a b rest hab ih =>
      rw [ih fun hp => h (Text.hasPair_cons.2 (.inr hp))]

end Utf16

end RemoteTree
