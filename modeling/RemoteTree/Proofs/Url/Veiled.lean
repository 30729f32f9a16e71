import RemoteTree.Proofs.Url.Query

/-!
# Texts that differ in their secrets

What stands behind the question mark of a url may hold a secret: the value of a parameter, with escapes where it
needs them. Two texts are veiled if they differ in nothing but such values.

* `IsSecret`: the values; every percent sign of one begins an escape.
* `Veiled`: two texts that differ only in secrets behind a question mark.
* `Veiled.front`: **what stands in front of the first question mark is the same in both.**
* `Veiled.cut_number`, `Veiled.cut_mark`, `Veiled.takeWhile_eq`: veiled texts are cut alike.
-/

namespace RemoteTree.Url

/-! ## Secrets -/

/-- What a secret may hold besides unreserved characters: plus signs and escapes. -/
def isSecretChar (c : CodePoint) : Bool := Escape.isUnreserved c || c == '+' || c == '%'

theorem of_isSecretChar {c : CodePoint} (h : isSecretChar c = true) :
    c.val < 0x80 ∧ 0x20 < c.val ∧ c ≠ '=' ∧ c ≠ '?' ∧ c ≠ '#' := by
  have hnot : ∀ m, isSecretChar m = false → c ≠ m := fun m hm he => by
    rw [he, hm] at h
    cases h
  have hrange : 0x20 < c.val ∧ c.val < 0x80 := by
    simp only [isSecretChar, Bool.or_eq_true, beq_iff_eq] at h
    rcases h with (h | rfl) | rfl
    · exact Escape.within_of_urlChar (Escape.isUrlChar_of_unreserved h)
    · decide
    · decide
  exact ⟨hrange.2, hrange.1, hnot _ (by decide), hnot _ (by decide), hnot _ (by decide)⟩

theorem isSecretChar_of_unreserved {c : CodePoint} (h : Escape.isUnreserved c = true) : isSecretChar c = true := by
  simp [isSecretChar, h]

theorem isSecretChar_of_hexDigit {c : CodePoint} (h : Address.isHexDigit c = true) : isSecretChar c = true :=
  isSecretChar_of_unreserved (Escape.isUnreserved_of_isHexDigit h)

/-- The value of a parameter in a url: every percent sign begins an escape. -/
inductive IsSecret : Text → Prop where
  | nil : IsSecret []
  | char {c : CodePoint} {t : Text} (hc : isSecretChar c = true) (hsign : c ≠ '%') (h : IsSecret t) : IsSecret (c :: t)
  | escape {d e : CodePoint} {t : Text} (hd : Address.isHexDigit d = true) (he : Address.isHexDigit e = true)
    (h : IsSecret t) : IsSecret (CodePoint.ofChar '%' :: d :: e :: t)

namespace IsSecret

theorem chars {t : Text} (h : IsSecret t) : ∀ c ∈ t, isSecretChar c = true := by
  induction h with
  | nil => exact fun c hc => by cases hc
  | char hc _ _ ih => exact List.forall_mem_cons.2 ⟨hc, ih⟩
  | escape hd he _ ih =>
    simp only [List.forall_mem_cons]
    exact ⟨by decide, isSecretChar_of_hexDigit hd, isSecretChar_of_hexDigit he, ih⟩

theorem not_mem {t : Text} (h : IsSecret t) {m : CodePoint} (hm : isSecretChar m = false) : m ∉ t := fun hmem => by
  rw [h.chars m hmem] at hm
  cases hm

theorem unreserved {c : CodePoint} {t : Text} (hc : Escape.isUnreserved c = true) (h : IsSecret t) :
    IsSecret (c :: t) := .char (isSecretChar_of_unreserved hc) (ne_sign_of_unreserved hc) h

/-- Encoded bytes are a secret. -/
theorem encodeBytes (bs : Bytes) : IsSecret (Form.encodeBytes bs) := by
  induction bs with
  | nil => exact nil
  | cons b bs ih =>
    show IsSecret (Form.encodeByte b ++ Form.encodeBytes bs)
    rcases Form.encodeByte_cases b with ⟨-, he⟩ | ⟨c, -, -, hu, he⟩ | ⟨he, -⟩
    · rw [he]
      exact .char (by decide) (by decide) ih
    · rw [he]
      exact ih.unreserved hu
    · obtain ⟨m, hm, n, hn, -, hb⟩ := Escape.ofByte_eq b
      rw [he, hb]
      exact .escape (Escape.upperDigit_digit hm).1 (Escape.upperDigit_digit hn).1 ih

end IsSecret

/-! ## Veiled texts -/

/-- Whether what comes behind a character stands behind a question mark and no number sign since. -/
def behind (b : Bool) (c : CodePoint) : Bool := c == '?' || (b && c != '#')

theorem behind_eq {b : Bool} {c : CodePoint} (hq : c ≠ '?') (hn : c ≠ '#') : behind b c = b := by
  cases b <;> simp [behind, hq, hn]

theorem behind_number (b : Bool) : behind b '#' = false := by cases b <;> decide

/-- Texts that differ only in secrets. Each of these has an equals sign in front of it, and stands behind a
question mark and no number sign since, where `b` says that the texts themselves do. -/
inductive Veiled : Bool → Text → Text → Prop where
  | nil {b : Bool} : Veiled b [] []
  | char {b : Bool} (c : CodePoint) {t u : Text} (h : Veiled (behind b c) t u) : Veiled b (c :: t) (c :: u)
  | secret {x y t u : Text} (hx : IsSecret x) (hy : IsSecret y) (h : Veiled true t u) :
    Veiled true (CodePoint.ofChar '=' :: (x ++ t)) (CodePoint.ofChar '=' :: (y ++ u))

namespace Veiled

variable {b : Bool} {t u v w : Text}

theorem refl (b : Bool) (t : Text) : Veiled b t t := by
  induction t generalizing b with
  | nil => exact .nil
  | cons c t ih => exact .char c (ih _)

/-- What is veiled anywhere is veiled behind a question mark. -/
theorem weaken (h : Veiled b t u) : Veiled true t u := by
  induction h with
  | nil => exact .nil
  | @char b c t u h ih =>
    refine .char c ?_
    by_cases hn : c = '#'
    · subst hn
      rw [behind_number] at h ⊢
      exact h
    · have hbehind : behind true c = true := by simp [behind, hn]
      rw [hbehind]
      exact ih
  | secret hx hy h _ => exact .secret hx hy h

theorem lift (h : Veiled false t u) : Veiled b t u := by
  cases b with
  | false => exact h
  | true => exact h.weaken

theorem append (h : Veiled b t u) (g : Veiled false v w) : Veiled b (t ++ v) (u ++ w) := by
  induction h with
  | nil => exact g.lift
  | char c _ ih => exact .char c ih
  | secret hx hy _ ih =>
    rw [List.cons_append, List.cons_append, List.append_assoc, List.append_assoc]
    exact .secret hx hy ih

/-- What stands in front of a mark does not matter. -/
theorem mark (x : Text) (h : Veiled true t u) :
    Veiled b (x ++ CodePoint.ofChar '?' :: t) (x ++ CodePoint.ofChar '?' :: u) := by
  induction x generalizing b with
  | nil => exact .char _ h
  | cons c x ih => exact .char c ih

/-- The same characters may stand in front if none of them is a mark. -/
theorem prepend {x : Text} (hx : ∀ c ∈ x, c ≠ '?' ∧ c ≠ '#') (h : Veiled b t u) : Veiled b (x ++ t) (x ++ u) := by
  induction x with
  | nil => exact h
  | cons c x ih =>
    rw [List.forall_mem_cons] at hx
    refine .char c ?_
    rw [behind_eq hx.1.1 hx.1.2]
    exact ih hx.2

/-- **What stands in front of the first question mark is the same in both.** -/
theorem front (h : Veiled false t u) :
    t = u ∨ ∃ x v w, CodePoint.ofChar '?' ∉ x ∧ t = x ++ CodePoint.ofChar '?' :: v ∧
      u = x ++ CodePoint.ofChar '?' :: w ∧ Veiled true v w := by
  induction t generalizing u with
  | nil =>
    cases h
    exact .inl rfl
  | cons c t ih =>
    cases h with
    | char _ h =>
      by_cases hc : c = '?'
      · subst hc
        exact .inr ⟨[], _, _, List.not_mem_nil, rfl, rfl, h⟩
      · have hbehind : behind false c = false := by simp [behind, hc]
        rw [hbehind] at h
        rcases ih h with rfl | ⟨x, v, w, hx, rfl, rfl, hvw⟩
        · exact .inl rfl
        · refine .inr ⟨c :: x, v, w, ?_, rfl, rfl, hvw⟩
          rw [List.mem_cons, not_or]
          exact ⟨Ne.symm hc, hx⟩

theorem isEmpty_eq (h : Veiled b t u) : t.isEmpty = u.isEmpty := by cases h <;> rfl

/-- A text that no equals sign can be taken for begins both or none of them. -/
theorem isPrefixOf_map {f : CodePoint → CodePoint} (h : Veiled b t u) {p : Text} (hp : f '=' ∉ p) :
    p.isPrefixOf (t.map f) = p.isPrefixOf (u.map f) := by
  induction p generalizing b t u with
  | nil => simp
  | cons c p ih =>
    rw [List.mem_cons, not_or] at hp
    cases h with
    | nil => rfl
    | char x h => simp only [List.map_cons, List.isPrefixOf_cons_cons, ih h hp.2]
    | secret hx hy h =>
      have hne : (c == f '=') = false := beq_eq_false_iff_ne.2 (Ne.symm hp.1)
      simp [List.isPrefixOf_cons_cons, hne]

theorem isPrefixOf_eq (h : Veiled b t u) {p : Text} (hp : CodePoint.ofChar '=' ∉ p) : p.isPrefixOf t = p.isPrefixOf u := by
  have := h.isPrefixOf_map (f := id) hp
  rwa [List.map_id, List.map_id] at this

/-- What is cut off at the first number sign is veiled by itself. -/
theorem cut_number (h : Veiled b t u) :
    Veiled b (Text.cut '#' t).1 (Text.cut '#' u).1 ∧
      Veiled false ((Text.cut '#' t).2.getD []) ((Text.cut '#' u).2.getD []) := by
  induction h with
  | nil => exact ⟨.nil, .nil⟩
  | @char b c t u h ih =>
    by_cases hc : c = '#'
    · subst hc
      rw [behind_number] at h
      simpa [Text.cut] using And.intro Veiled.nil h
    · simp only [Text.cut, hc, if_false]
      exact ⟨.char c ih.1, ih.2⟩
  | @secret x y t u hx hy h ih =>
    have hcut : ∀ {x : Text} (t : Text), IsSecret x → Text.cut '#' (CodePoint.ofChar '=' :: (x ++ t)) =
        (CodePoint.ofChar '=' :: (x ++ (Text.cut '#' t).1), (Text.cut '#' t).2) := by
      intro x t hx
      have hnot : CodePoint.ofChar '#' ∉ CodePoint.ofChar '=' :: x := by
        rw [List.mem_cons, not_or]
        exact ⟨by decide, hx.not_mem (by decide)⟩
      exact Text.cut_append_left hnot t
    rw [hcut t hx, hcut u hy]
    exact ⟨.secret hx hy ih.1, ih.2⟩

/-- What stands in front of the first question mark is the same, and what stands behind it is veiled. -/
theorem cut_mark (h : Veiled false t u) :
    (Text.cut '?' t).1 = (Text.cut '?' u).1 ∧ Veiled true ((Text.cut '?' t).2.getD []) ((Text.cut '?' u).2.getD []) := by
  rcases h.front with rfl | ⟨x, v, w, hx, rfl, rfl, hvw⟩
  · exact ⟨rfl, refl _ _⟩
  · rw [Text.cut_append hx, Text.cut_append hx]
    exact ⟨rfl, hvw⟩

/-- As far as something that ends at a question mark goes both are the same. -/
theorem takeWhile_eq {p : CodePoint → Bool} (hp : p '?' = false) (h : Veiled false t u) :
    t.takeWhile p = u.takeWhile p ∧ Veiled false (t.dropWhile p) (u.dropWhile p) := by
  rcases h.front with rfl | ⟨x, v, w, -, rfl, rfl, hvw⟩
  · exact ⟨rfl, refl _ _⟩
  · rw [takeWhile_append_stop hp, takeWhile_append_stop hp, dropWhile_append_stop hp, dropWhile_append_stop hp]
    exact ⟨rfl, hvw.mark _⟩

/-- Nothing of a secret is taken for a blank or a control in front. -/
theorem dropWhile_blank (h : Veiled b t u) :
    Veiled b (t.dropWhile fun c => c.val ≤ 0x20) (u.dropWhile fun c => c.val ≤ 0x20) := by
  induction h with
  | nil => exact .nil
  | @char b c t u h ih =>
    rw [List.dropWhile_cons, List.dropWhile_cons]
    split
    · rename_i hc
      rw [decide_eq_true_eq] at hc
      have hne : c ≠ '?' ∧ c ≠ '#' := ⟨fun he => by rw [he] at hc; exact absurd hc (by decide),
        fun he => by rw [he] at hc; exact absurd hc (by decide)⟩
      rw [behind_eq hne.1 hne.2] at ih
      exact ih
    · exact .char c h
  | secret hx hy h _ => exact .secret hx hy h

theorem filter_ignored (h : Veiled b t u) :
    Veiled b (t.filter fun c => !isIgnored c) (u.filter fun c => !isIgnored c) := by
  induction h with
  | nil => exact .nil
  | @char b c t u h ih =>
    rw [List.filter_cons, List.filter_cons]
    split
    · exact .char c ih
    · rename_i hc
      have hne : c ≠ '?' ∧ c ≠ '#' := ⟨fun he => by rw [he] at hc; exact absurd hc (by decide),
        fun he => by rw [he] at hc; exact absurd hc (by decide)⟩
      rw [behind_eq hne.1 hne.2] at ih
      exact ih
  | @secret x y t u hx hy h ih =>
    have hfilter : ∀ {x : Text} (t : Text), IsSecret x →
        (CodePoint.ofChar '=' :: (x ++ t)).filter (fun c => !isIgnored c) =
          CodePoint.ofChar '=' :: (x ++ t.filter fun c => !isIgnored c) := by
      intro x t hx
      have hkeep : x.filter (fun c => !isIgnored c) = x := by
        refine List.filter_eq_self.2 fun c hc => ?_
        have := (of_isSecretChar (hx.chars c hc)).2.1
        simp only [isIgnored, Bool.not_eq_true', Bool.or_eq_false_iff, decide_eq_false_iff_not]
        omega
      rw [List.filter_cons_of_pos (by decide), List.filter_append, hkeep]
    rw [hfilter t hx, hfilter u hy]
    exact .secret hx hy ih

end Veiled

end RemoteTree.Url
