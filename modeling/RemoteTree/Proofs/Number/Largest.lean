import RemoteTree.Proofs.Number.Shortest

/-!
# Beyond the largest double

The largest double is `2 ^ 1024 - 2 ^ 971`. A whole number is beyond it from halfway to `2 ^ 1024` on, which is even as
a multiple of `2 ^ 971`, so that halfway itself is rounded up.

* `Double.le_roundDiv_iff`: rounding reaches an even number from halfway below it on.
* `Double.ofRatio_whole`: the exponent of a whole number is that of its first 53 binary digits, unless these are
  rounded to one digit more.
* `Double.ofInt?_eq_none_iff`: **an integer has no double exactly from `2 ^ 1024 - 2 ^ 970` on.**
-/

namespace RemoteTree.Double

variable {num den n : Nat}

/-- **Rounding reaches an even number from halfway below it on.** -/
theorem le_roundDiv_iff (hden : 0 < den) (heven : n % 2 = 0) :
    n ≤ roundDiv num den ↔ 2 * (n * den) ≤ 2 * num + den := by
  have hsplit := Nat.div_add_mod num den
  have hr := Nat.mod_lt num hden
  rw [Nat.mul_comm den] at hsplit
  unfold roundDiv
  dsimp only
  generalize num / den = q at *
  generalize num % den = r at *
  -- the quotient has reached the number, is one below it, or is further below
  rcases Nat.lt_trichotomy n (q + 1) with hlt | heq | hgt
  · have hmul : n * den ≤ q * den := Nat.mul_le_mul_right den (by omega)
    refine iff_of_true ?_ (by omega)
    split_ifs <;> omega
  · have hmul : n * den = q * den + den := by rw [heq, Nat.succ_mul]
    split_ifs <;> omega
  · have hmul : (q + 2) * den ≤ n * den := Nat.mul_le_mul_right den hgt
    rw [Nat.add_mul] at hmul
    refine iff_of_false ?_ (by omega)
    split_ifs <;> omega

theorem roundDiv_le (num den : Nat) : roundDiv num den ≤ num / den + 1 := by
  unfold roundDiv
  dsimp only
  split_ifs <;> omega

theorem binary_natCast (k : Nat) : binary k = 2 ^ k := rfl

/-- Of a whole number with more than 53 binary digits, the first 54 are a number of at least `2 ^ 53`. -/
theorem binary_le_div (hn : n ≠ 0) (h : 0 ≤ (Nat.log2 n : Int) - 53) :
    binary 53 ≤ n / binary ((Nat.log2 n : Int) - 53) := by
  have hsum : Nat.log2 n = 53 + ((Nat.log2 n : Int) - 53).toNat := by omega
  rw [Nat.le_div_iff_mul_le (binary_pos _)]
  calc binary 53 * binary ((Nat.log2 n : Int) - 53) = 2 ^ (53 + ((Nat.log2 n : Int) - 53).toNat) :=
        (Nat.pow_add 2 _ _).symm
    _ = 2 ^ Nat.log2 n := by rw [← hsum]
    _ ≤ n := Nat.log2_self_le hn

/-- A whole number with no more than 53 binary digits is such a number with as many zeros behind it. -/
theorem binary_le_mul (hn : n ≠ 0) (h : ¬0 ≤ (Nat.log2 n : Int) - 53) :
    binary 53 ≤ n * binary (-((Nat.log2 n : Int) - 53)) := by
  have hsum : 53 = Nat.log2 n + (-((Nat.log2 n : Int) - 53)).toNat := by omega
  calc binary 53 = 2 ^ (Nat.log2 n + (-((Nat.log2 n : Int) - 53)).toNat) := congrArg (2 ^ ·) hsum
    _ = 2 ^ Nat.log2 n * binary (-((Nat.log2 n : Int) - 53)) := Nat.pow_add 2 _ _
    _ ≤ n * binary (-((Nat.log2 n : Int) - 53)) := Nat.mul_le_mul_right _ (Nat.log2_self_le hn)

/-- **The double of a whole number** has the exponent of its first 53 binary digits, unless these are rounded to one
digit more. -/
theorem ofRatio_whole (s : Bool) (hn : n ≠ 0) : ∃ m e,
    ofRatio s n 1 =
      if 1023 < Nat.log2 n ∨ Nat.log2 n = 1023 ∧ roundDiv n (binary maxExponent) = binary 53 then .infinite s
      else .finite s m e := by
  unfold ofRatio
  rw [if_neg (by omega)]
  extract_lets scaled least e m
  have hone : Nat.log2 1 = 0 := by decide
  have hleast : least = (Nat.log2 n : Int) - 53 := by
    simp only [least, minExponent, hone]
    omega
  have hfirst : ¬(scaled least).1 / (scaled least).2 < binary 53 := by
    rw [Nat.not_lt, hleast]
    simp only [scaled]
    split_ifs with h
    · rw [Nat.one_mul]
      exact binary_le_div hn h
    · rw [Nat.div_one]
      exact binary_le_mul hn h
  have he : e = (Nat.log2 n : Int) - 52 := by
    rw [show e = least + 1 from if_neg hfirst, hleast]
    omega
  have hmax : maxExponent = 971 := rfl
  have hm : Nat.log2 n = 1023 → m = roundDiv n (binary maxExponent) := by
    intro hlog
    have hexp : e = maxExponent := by omega
    simp only [m, scaled, hexp]
    rw [if_pos (by decide), Nat.one_mul]
  clear_value m e
  subst he
  -- the exponent rises by one where the digits are rounded up to a power of two
  by_cases hround : m = binary 53
  · refine ⟨binary 52, (Nat.log2 n : Int) - 52 + 1, ?_⟩
    rw [if_pos hround]
    refine if_congr ?_ rfl rfl
    have hlimit : Nat.log2 n = 1023 → roundDiv n (binary maxExponent) = binary 53 := fun h => hm h ▸ hround
    omega
  · refine ⟨m, (Nat.log2 n : Int) - 52, ?_⟩
    rw [if_neg hround]
    refine if_congr ?_ rfl rfl
    have hlimit : Nat.log2 n = 1023 → roundDiv n (binary maxExponent) ≠ binary 53 := fun h => hm h ▸ hround
    omega

/-- A number has more than `k + 54` binary digits, or is rounded to more than it has, exactly from halfway on. -/
theorem overflows_iff {k : Nat} (hn : n ≠ 0) :
    k + 53 < Nat.log2 n ∨ Nat.log2 n = k + 53 ∧ roundDiv n (2 ^ (k + 1)) = 2 ^ 53 ↔ (2 ^ 54 - 1) * 2 ^ k ≤ n := by
  have hlow : 2 ^ Nat.log2 n ≤ n := Nat.log2_self_le hn
  have hhigh : n < 2 ^ (Nat.log2 n + 1) := Nat.lt_log2_self
  have hpos : 0 < 2 ^ k := Nat.pow_pos (by decide)
  have hpow : ∀ a, (2 : Nat) ^ (k + a) = 2 ^ k * 2 ^ a := fun a => Nat.pow_add 2 k a
  rcases Nat.lt_trichotomy (Nat.log2 n) (k + 53) with hlt | heq | hgt
  · have hbound : n < 2 ^ (k + 53) := Nat.lt_of_lt_of_le hhigh (Nat.pow_le_pow_right (by decide) hlt)
    rw [hpow] at hbound
    omega
  · -- what is rounded up has one digit more at most
    have hdiv : n / 2 ^ (k + 1) < 2 ^ 53 := by
      rw [Nat.div_lt_iff_lt_mul (Nat.pow_pos (by decide)), ← Nat.pow_add]
      rwa [heq, show k + 53 + 1 = 53 + (k + 1) by omega] at hhigh
    have hle := roundDiv_le n (2 ^ (k + 1))
    have hreach : 2 ^ 53 ≤ roundDiv n (2 ^ (k + 1)) ↔ 2 * (2 ^ 53 * 2 ^ (k + 1)) ≤ 2 * n + 2 ^ (k + 1) :=
      le_roundDiv_iff (Nat.pow_pos (by decide)) (by decide)
    rw [hpow] at hreach hle hdiv ⊢
    omega
  · have hbound : 2 ^ (k + 54) ≤ n := Nat.le_trans (Nat.pow_le_pow_right (by decide) hgt) hlow
    rw [hpow] at hbound
    omega

/-- **An integer has no double exactly from halfway between the largest double and `2 ^ 1024` on.** -/
theorem ofInt?_eq_none_iff {n : Int} : ofInt? n = none ↔ 2 ^ 1024 - 2 ^ 970 ≤ n.natAbs := by
  have hlimit : ∀ k : Nat, 2 ^ (54 + k) - 2 ^ k = (2 ^ 54 - 1) * 2 ^ k := fun k => by
    rw [Nat.sub_mul, Nat.one_mul, Nat.pow_add]
  have hunit : binary maxExponent = 2 ^ (970 + 1) := binary_natCast (970 + 1)
  rw [show 1024 = 54 + 970 from rfl, hlimit]
  unfold ofInt?
  by_cases hn : n.natAbs = 0
  · have hpos : ∀ k : Nat, 0 < (2 ^ 54 - 1) * 2 ^ k := fun k => Nat.mul_pos (by decide) (Nat.pow_pos (by decide))
    rw [hn]
    exact iff_of_false nofun (Nat.not_le.2 (hpos 970))
  · obtain ⟨m, e, he⟩ := ofRatio_whole (n < 0) hn
    rw [he, hunit, ← overflows_iff hn]
    split_ifs with h
    · exact iff_of_true rfl h
    · exact iff_of_false nofun h

end RemoteTree.Double
