import RemoteTree.Text.Utf8

/-!
# Cutting texts, and numbers in decimal

* `Text.cut_append`, `Text.cutLast_append`: where a text is cut whose marks are known.
* `Text.mem_pieces`, `Text.mem_join`, `Text.join_cons`, `Text.pieces_join`: what the pieces of a text hold, and
  how they are put together and taken apart again.
* `Text.join_induction`: what holds of the members of a row holds of the row.
* `Text.foldl_ofNat`: a number in decimal is read as the number.
-/

namespace RemoteTree

/-- A code point is that of its number. -/
theorem CodePoint.ofNat_val (c : CodePoint) : CodePoint.ofNat c.val = c := dif_pos c.lt

namespace Text

/-! ## Cutting -/

/-- A text is cut at the first mark. -/
theorem cut_append {c : CodePoint} {t : Text} (h : c ∉ t) (rest : Text) :
    cut c (t ++ c :: rest) = (t, some rest) := by
  induction t with
  | nil => simp [cut]
  | cons x t ih =>
    rw [List.mem_cons, not_or] at h
    simp [cut, ih h.2, Ne.symm h.1]

/-- What has no mark stands in front of where a text is cut. -/
theorem cut_append_left {c : CodePoint} {x : Text} (h : c ∉ x) (y : Text) :
    cut c (x ++ y) = (x ++ (cut c y).1, (cut c y).2) := by
  induction x with
  | nil => rfl
  | cons a x ih =>
    rw [List.mem_cons, not_or] at h
    simp [cut, ih h.2, Ne.symm h.1]

theorem cut_of_not_mem {c : CodePoint} {t : Text} (h : c ∉ t) : cut c t = (t, none) := by
  induction t with
  | nil => rfl
  | cons x t ih =>
    rw [List.mem_cons, not_or] at h
    simp [cut, ih h.2, Ne.symm h.1]

/-- What has no mark is not cut off from what stands in front of it. -/
theorem cut_append_right {c : CodePoint} {y : Text} (h : c ∉ y) (x : Text) :
    cut c (x ++ y) =
      match cut c x with
      | (a, some b) => (a, some (b ++ y))
      | (a, none) => (a ++ y, none) := by
  induction x with
  | nil => simp [cut, cut_of_not_mem h]
  | cons a x ih =>
    by_cases ha : a = c
    · simp [cut, ha]
    · simp only [List.cons_append, cut, ha, if_false, ih]
      rcases cut c x with ⟨_, _ | _⟩ <;> rfl

theorem mem_of_mem_cut {m c : CodePoint} {t : Text} (h : c ∈ (cut m t).1) : c ∈ t := by
  cases hr : (cut m t).2 with
  | none => rwa [cut_fst_eq hr] at h
  | some rest =>
    rw [← append_cut hr]
    exact List.mem_append_left _ h

theorem cutLast_of_not_mem {c : CodePoint} {t : Text} (h : c ∉ t) : cutLast c t = (none, t) := by
  induction t with
  | nil => rfl
  | cons x t ih =>
    rw [List.mem_cons, not_or] at h
    simp [cutLast, ih h.2, Ne.symm h.1]

/-- A text is cut at the last mark. -/
theorem cutLast_append {c : CodePoint} {t : Text} (h : c ∉ t) (front : Text) :
    cutLast c (front ++ c :: t) = (some front, t) := by
  induction front with
  | nil => simp [cutLast, cutLast_of_not_mem h]
  | cons x front ih => simp [cutLast, ih]

/-- What is cut at the last mark has none behind it, and only what was there before. -/
theorem cutLast_snd {c x : CodePoint} {t : Text} (h : x ∈ (cutLast c t).2) : x ∈ t ∧ x ≠ c := by
  induction t with
  | nil => simp [cutLast] at h
  | cons y t ih =>
    unfold cutLast at h
    split at h
    · rename_i a b hb
      rw [hb] at ih
      exact ⟨List.mem_cons_of_mem _ (ih h).1, (ih h).2⟩
    · rename_i b hb
      rw [hb] at ih
      split at h
      · exact ⟨List.mem_cons_of_mem _ (ih h).1, (ih h).2⟩
      · rename_i hy
        rcases List.mem_cons.1 h with rfl | h
        · exact ⟨List.mem_cons_self, hy⟩
        · exact ⟨List.mem_cons_of_mem _ (ih h).1, (ih h).2⟩

/-- A character of a text is a mark or stands in one of the pieces between marks. -/
theorem mem_pieces {c x : CodePoint} {t : Text} (h : x ∈ t) : x = c ∨ ∃ p ∈ pieces c t, x ∈ p := by
  induction t with
  | nil => cases h
  | cons y t ih =>
    have hne := pieces_ne_nil c t
    unfold pieces
    split
    · rename_i hy
      rcases List.mem_cons.1 h with rfl | h
      · exact .inl hy
      · obtain rfl | ⟨p, hp, hx⟩ := ih h
        · exact .inl rfl
        · exact .inr ⟨p, List.mem_cons_of_mem _ hp, hx⟩
    · cases hp : pieces c t with
      | nil => exact absurd hp hne
      | cons q qs =>
        rw [hp] at ih
        rcases List.mem_cons.1 h with rfl | h
        · exact .inr ⟨x :: q, List.mem_cons_self, List.mem_cons_self⟩
        rcases ih h with rfl | ⟨p, hmem, hx⟩
        · exact .inl rfl
        rcases List.mem_cons.1 hmem with rfl | hmem
        · exact .inr ⟨y :: p, List.mem_cons_self, List.mem_cons_of_mem _ hx⟩
        · exact .inr ⟨p, List.mem_cons_of_mem _ hmem, hx⟩

/-- **What holds of texts and of the mark between them** holds of them in a row, if it is kept where texts are put
together. -/
theorem join_induction {P : Text → Prop} {sep : Text} {ts : List Text} (hnil : P [])
    (happend : ∀ {s t}, P s → P t → P (s ++ t)) (hsep : P sep) (h : ∀ t ∈ ts, P t) : P (join sep ts) := by
  induction ts with
  | nil => exact hnil
  | cons t ts ih =>
    rw [List.forall_mem_cons] at h
    cases ts with
    | nil => exact h.1
    | cons u us => exact happend (happend h.1 hsep) (ih h.2)

/-- Texts in a row with a mark between them: each but the first one has the mark in front of it. -/
theorem join_cons (c : CodePoint) (p : Text) (ps : List Text) :
    join [c] (p :: ps) = p ++ ps.flatMap (c :: ·) := by
  induction ps generalizing p with
  | nil => simp [join]
  | cons q ps ih => simp [join, ih]

/-- A character of texts in a row is the mark or stands in one of them. -/
theorem mem_join {c x : CodePoint} {ps : List Text} (h : x ∈ join [c] ps) : x = c ∨ ∃ p ∈ ps, x ∈ p := by
  cases ps with
  | nil => cases h
  | cons p ps =>
    rw [join_cons, List.mem_append] at h
    rcases h with h | h
    · exact .inr ⟨p, List.mem_cons_self, h⟩
    · obtain ⟨q, hq, hx⟩ := List.mem_flatMap.1 h
      rcases List.mem_cons.1 hx with rfl | hx
      · exact .inl rfl
      · exact .inr ⟨q, List.mem_cons_of_mem _ hq, hx⟩

/-- What holds of the mark and of every character of some texts holds of them in a row. -/
theorem forall_mem_join {c : CodePoint} {ps : List Text} {P : CodePoint → Prop} (hc : P c) :
    (∀ x ∈ join [c] ps, P x) ↔ ∀ p ∈ ps, ∀ x ∈ p, P x := by
  constructor
  · intro h p hp x hx
    refine h x ?_
    cases ps with
    | nil => cases hp
    | cons q qs =>
      rw [join_cons, List.mem_append]
      rcases List.mem_cons.1 hp with rfl | hp
      · exact .inl hx
      · exact .inr (List.mem_flatMap.2 ⟨p, hp, List.mem_cons_of_mem _ hx⟩)
  · intro h x hx
    rcases mem_join hx with rfl | ⟨p, hp, hx⟩
    · exact hc
    · exact h p hp x hx

/-- A piece of a text has only characters of the text, and no mark. -/
theorem mem_of_mem_pieces {c x : CodePoint} {t p : Text} (hp : p ∈ pieces c t) (hx : x ∈ p) : x ∈ t ∧ x ≠ c := by
  induction t generalizing p with
  | nil =>
    obtain rfl := List.mem_singleton.1 hp
    cases hx
  | cons y t ih =>
    unfold pieces at hp
    split at hp
    · rcases List.mem_cons.1 hp with rfl | hp
      · cases hx
      · exact ⟨List.mem_cons_of_mem _ (ih hp hx).1, (ih hp hx).2⟩
    · rename_i hy
      split at hp
      · rename_i hnil
        exact absurd hnil (pieces_ne_nil c t)
      · rename_i q qs hpieces
        rw [hpieces] at ih
        rcases List.mem_cons.1 hp with rfl | hp
        · rcases List.mem_cons.1 hx with rfl | hx
          · exact ⟨List.mem_cons_self, hy⟩
          · exact ⟨List.mem_cons_of_mem _ (ih List.mem_cons_self hx).1, (ih List.mem_cons_self hx).2⟩
        · have hmem := ih (List.mem_cons_of_mem _ hp) hx
          exact ⟨List.mem_cons_of_mem _ hmem.1, hmem.2⟩

/-- A text without the mark is a single piece. -/
theorem pieces_of_not_mem {c : CodePoint} {t : Text} (h : c ∉ t) : pieces c t = [t] := by
  induction t with
  | nil => rfl
  | cons x t ih =>
    rw [List.mem_cons, not_or] at h
    simp [pieces, ih h.2, Ne.symm h.1]

/-- **The pieces of two texts** with a mark between them are those of both. -/
theorem pieces_append (c : CodePoint) (t u : Text) : pieces c (t ++ c :: u) = pieces c t ++ pieces c u := by
  induction t with
  | nil => simp [pieces]
  | cons x t ih =>
    obtain ⟨p, ps, hp⟩ := List.exists_cons_of_ne_nil (pieces_ne_nil c t)
    rw [hp] at ih
    by_cases hx : x = c <;> simp [pieces, hx, ih, hp]

/-- **Texts in a row with a mark between them are its pieces**, if none of them has the mark. -/
theorem pieces_join {c : CodePoint} {ts : List Text} (hne : ts ≠ []) (h : ∀ t ∈ ts, c ∉ t) :
    pieces c (join [c] ts) = ts := by
  induction ts with
  | nil => exact absurd rfl hne
  | cons t ts ih =>
    have ht := h t List.mem_cons_self
    cases ts with
    | nil => exact pieces_of_not_mem ht
    | cons u us =>
      have hrest := ih (List.cons_ne_nil u us) fun x hx => h x (List.mem_cons_of_mem _ hx)
      rw [join, List.append_assoc, List.singleton_append, pieces_append, pieces_of_not_mem ht, hrest]
      rfl

/-! ## Numbers in decimal -/

theorem isDigit_of_mem_ofNat {n : Nat} {c : CodePoint} (h : c ∈ ofNat n) : c.isDigit = true := by
  unfold ofNat ofString at h
  rw [Nat.toList_repr] at h
  obtain ⟨d, hd, rfl⟩ := List.mem_map.1 h
  have hdigit : d.isDigit = true := Nat.isDigit_of_mem_toDigits (by decide) (by decide) hd
  rw [Char.isDigit_iff_toNat] at hdigit
  unfold CodePoint.isDigit CodePoint.within
  rw [Bool.and_eq_true]
  exact ⟨decide_eq_true hdigit.1, decide_eq_true hdigit.2⟩

/-- A row of digits is read one by one. -/
theorem foldl_digits {l : List Char} (hl : ∀ c ∈ l, c.isDigit = true) (k : Nat) :
    (l.map CodePoint.ofChar).foldl (fun (n : Int) c => n * 10 + (c.val - 0x30)) k =
      Nat.ofDigitChars 10 l k := by
  induction l generalizing k with
  | nil => simp
  | cons d l ih =>
    have hd := hl d List.mem_cons_self
    rw [Char.isDigit_iff_toNat, show '0'.toNat = 0x30 from rfl] at hd
    have hstep : (k : Int) * 10 + ((CodePoint.ofChar d).val - 0x30) =
        ((10 * k + (d.toNat - '0'.toNat) : Nat) : Int) := by
      rw [show '0'.toNat = 0x30 from rfl, show (CodePoint.ofChar d).val = d.toNat from rfl]
      omega
    rw [List.map_cons, List.foldl_cons, hstep, ih fun c hc => hl c (List.mem_cons_of_mem _ hc),
      Nat.ofDigitChars_cons]

/-- A number in decimal is read as the number. -/
theorem foldl_ofNat (n : Nat) :
    (ofNat n).foldl (fun (k : Int) c => k * 10 + (c.val - 0x30)) 0 = n := by
  unfold ofNat ofString
  rw [Nat.toList_repr]
  have h := foldl_digits (l := Nat.toDigits 10 n)
    (fun c hc => Nat.isDigit_of_mem_toDigits (by decide) (by decide) hc) 0
  rwa [Nat.ofDigitChars_ten_toDigits] at h

theorem length_ofNat_le {n k : Nat} (hk : 0 < k) : (ofNat n).length ≤ k ↔ n < Nat.pow 10 k := by
  unfold ofNat ofString
  rw [List.length_map, Nat.toList_repr]
  exact Nat.length_toDigits_le_iff (by decide) hk

end Text

end RemoteTree
