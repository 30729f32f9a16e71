import Mathlib.Tactic.NormNum
import Mathlib.Tactic.Ring
import RemoteTree.Proofs.Number.Decimal

/-!
# The shortest decimal is not zero

Every positive double is at least `10 ^ (p - 1)`, where `p` is its magnitude, and zero does not read back as it.
So whichever decimal is taken for it, its digits are those of a positive number.

* `Double.IsBinary64`: the numbers that a double can be, its subnormal ones included.
* `Double.gridFloor_magnitude`: **a positive double reaches the power of ten below its magnitude.**
* `Double.shortest_ne_zero`: the digits of a positive double are not those of zero.
-/

namespace RemoteTree.Double

/-- The numbers that fit into 64 bits. -/
def IsBinary64 : Double → Prop
  | .nan | .infinite _ => True
  | .finite _ m e => m < binary 53 ∧ minExponent ≤ e ∧ e ≤ maxExponent

/-- Neither not-a-number nor an infinity. -/
def IsFinite : Double → Prop
  | .nan | .infinite _ => False
  | .finite _ _ _ => True

variable {m d n : Nat} {e k k' p : Int}

theorem binary_pos (e : Int) : 0 < binary e := Nat.pow_pos (by decide)

theorem decimal_pos (k : Int) : 0 < decimal k := Nat.pow_pos (by decide)

theorem decimal_mul (a b : Nat) : decimal ((a * b : Nat) : Int) = (10 ^ a) ^ b := Nat.pow_mul 10 a b

theorem decimal_mono (h : k' ≤ k) : decimal k' ≤ decimal k :=
  Nat.pow_le_pow_right (by decide) (Int.toNat_le_toNat h)

theorem gridFloor_ne_zero_iff :
    gridFloor m e k ≠ 0 ↔ decimal k * binary (-e) ≤ m * binary e * decimal (-k) := by
  rw [gridFloor, Nat.div_ne_zero_iff]
  exact and_iff_right (Nat.mul_pos (decimal_pos k) (binary_pos (-e))).ne'

/-- What reaches a power of ten reaches every smaller one. -/
theorem gridFloor_ne_zero_of_le (h : k' ≤ k) (hk : gridFloor m e k ≠ 0) : gridFloor m e k' ≠ 0 := by
  rw [gridFloor_ne_zero_iff] at hk ⊢
  calc decimal k' * binary (-e) ≤ decimal k * binary (-e) := Nat.mul_le_mul_right _ (decimal_mono h)
    _ ≤ m * binary e * decimal (-k) := hk
    _ ≤ m * binary e * decimal (-k') := Nat.mul_le_mul_left _ (decimal_mono (Int.neg_le_neg h))

/-- A positive number reaches the power of ten with one zero fewer than it has digits. -/
theorem pow_digitCount_le (hn : n ≠ 0) : 10 ^ (digitCount n - 1) ≤ n := by
  by_contra hlt
  have hpos : 0 < digitCount n - 1 := by
    by_contra hzero
    rw [Nat.eq_zero_of_not_pos hzero] at hlt
    omega
  have hlength : digitCount n ≤ digitCount n - 1 := by
    have hle := (Text.length_ofNat_le hpos).2 (Nat.lt_of_not_le hlt)
    rwa [Text.ofNat, Text.ofString, List.length_map, String.length_toList] at hle
  omega

/-- Ten to the 330 brings every positive double above one. -/
theorem gridFloor_least (hm : m ≠ 0) (he : minExponent ≤ e) : gridFloor m e (-330) ≠ 0 := by
  have hexponent : (-e).toNat ≤ 1074 := by
    unfold minExponent at he
    omega
  have hbinary : binary (-e) ≤ decimal 330 :=
    calc binary (-e) ≤ 2 ^ (98 * 11) := Nat.pow_le_pow_right (by decide) (by omega)
      _ = (2 ^ 98) ^ 11 := Nat.pow_mul 2 98 11
      _ ≤ (10 ^ 30) ^ 11 := Nat.pow_le_pow_left (by decide) 11
      _ = decimal 330 := (decimal_mul 30 11).symm
  rw [gridFloor_ne_zero_iff]
  calc decimal (-330) * binary (-e) = 1 * binary (-e) := rfl
    _ ≤ m * binary e * decimal 330 := Nat.mul_le_mul (Nat.mul_pos (Nat.pos_of_ne_zero hm) (binary_pos e)) hbinary

/-- What is a power of ten on a grid reaches the place of that power on it. -/
theorem gridFloor_ne_zero_of_pow_le (h : 10 ^ n ≤ gridFloor m e k) : gridFloor m e (k + n) ≠ 0 := by
  rw [gridFloor, Nat.le_div_iff_mul_le (Nat.mul_pos (decimal_pos k) (binary_pos (-e)))] at h
  rw [gridFloor_ne_zero_iff]
  -- both sides are ten to the larger of the two exponents that may not be below zero
  have hshift : decimal (k + n) * decimal (-k) = 10 ^ n * decimal k * decimal (-(k + n)) := by
    have hsum : (k + n).toNat + (-k).toNat = n + k.toNat + (-(k + n)).toNat := by omega
    calc decimal (k + n) * decimal (-k) = 10 ^ ((k + n).toNat + (-k).toNat) := (Nat.pow_add 10 _ _).symm
      _ = 10 ^ (n + k.toNat + (-(k + n)).toNat) := by rw [hsum]
      _ = 10 ^ n * decimal k * decimal (-(k + n)) := by rw [Nat.pow_add, Nat.pow_add]; rfl
  refine Nat.le_of_mul_le_mul_right ?_ (decimal_pos (-k))
  calc decimal (k + n) * binary (-e) * decimal (-k) = decimal (k + n) * decimal (-k) * binary (-e) := by ring
    _ = 10 ^ n * (decimal k * binary (-e)) * decimal (-(k + n)) := by rw [hshift]; ring
    _ ≤ m * binary e * decimal (-k) * decimal (-(k + n)) := Nat.mul_le_mul_right _ h
    _ = m * binary e * decimal (-(k + n)) * decimal (-k) := by ring

/-- **A positive double reaches the power of ten below its magnitude.** -/
theorem gridFloor_magnitude (hm : m ≠ 0) (he : minExponent ≤ e) : gridFloor m e (magnitude m e - 1) ≠ 0 := by
  unfold magnitude
  dsimp only
  split
  · -- the magnitude is the number of digits of the whole part
    rename_i hwhole
    exact gridFloor_ne_zero_of_le (by omega) (gridFloor_ne_zero_of_pow_le (pow_digitCount_le hwhole))
  · -- without a whole part the digits are counted on a grid so fine that no double is below it
    exact gridFloor_ne_zero_of_le (by omega)
      (gridFloor_ne_zero_of_pow_le (pow_digitCount_le (gridFloor_least hm he)))

/-- Zero reads back as no positive double. -/
theorem readsBack_zero (hm : m ≠ 0) : readsBack m e 0 k = false := by
  have hlow : ∀ x : Nat, x ≠ 0 → compareScaled 0 k x (e - 2) = .lt := by
    intro x hx
    unfold compareScaled
    rw [Nat.zero_mul, Nat.zero_mul, Nat.compare_eq_lt]
    exact Nat.mul_pos (Nat.mul_pos (Nat.pos_of_ne_zero hx) (binary_pos _)) (decimal_pos _)
  unfold readsBack
  dsimp only
  split <;> split <;> rw [hlow _ (by omega)] <;> rfl

/-- A decimal that reads back as a positive double is none of zero. -/
theorem withDigits_ne_zero (hm : m ≠ 0) (h : withDigits m e p n = some (d, k)) : d ≠ 0 := by
  -- the digits are those of a number that reads back, or of one above another number
  have hzero : ∀ k x, readsBack m e x k = true → x ≠ 0 := by
    rintro k x hx rfl
    rw [readsBack_zero hm] at hx
    cases hx
  unfold withDigits at h
  dsimp only at h
  split at h
  · cases h
  · rename_i hd _
    obtain ⟨rfl, -⟩ := Prod.mk.inj (Option.some.inj h)
    exact hzero _ _ hd
  · obtain ⟨rfl, -⟩ := Prod.mk.inj (Option.some.inj h)
    exact Nat.succ_ne_zero _
  · rename_i hd _
    split at h
    all_goals obtain ⟨rfl, -⟩ := Prod.mk.inj (Option.some.inj h)
    · exact hzero _ _ hd
    · exact Nat.succ_ne_zero _
    · split
      · exact hzero _ _ hd
      · exact Nat.succ_ne_zero _

/-- **The digits of a positive double are not those of zero.** -/
theorem shortest_ne_zero (hm : m ≠ 0) (he : minExponent ≤ e) : (shortest m e).1 ≠ 0 := by
  unfold shortest
  dsimp only
  cases hfound : (List.range 17).findSome? fun n => withDigits m e (magnitude m e) (n + 1) with
  | none => exact gridFloor_ne_zero_of_le (by omega) (gridFloor_magnitude hm he)
  | some x =>
    obtain ⟨n, -, hn⟩ := List.exists_of_findSome?_eq_some hfound
    exact withDigits_ne_zero hm hn

end RemoteTree.Double
