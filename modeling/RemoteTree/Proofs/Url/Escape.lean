import RemoteTree.Proofs.Url.Host

/-!
# Escapes, one after the other

Undoing escapes takes a text apart at its percent signs, all at once. Here it is read from left to right, and
what it makes of a text in parts is made of each part.

* `unescape_cons`, `unescape_sign`, `unescape_escape`: undoing escapes from left to right.
* `unescape_append`: undoing escapes on both sides of a mark.
* `Escaped`: the texts in which every percent sign begins an escape; their escapes can be undone.
* `escaped_component`: **a part of a url comes out as such a text.**
-/

namespace RemoteTree.Url.Escape

/-! ## From left to right -/

/-- Whether a text begins with two letters or digits of some script, so that a percent sign in front of it
looks like that of an escape. -/
def looksEscaped : Text → Bool
  | a :: b :: _ => a.isAlphanumeric && b.isAlphanumeric
  | _ => false

theorem ne_sign_of_alphanumeric {c : CodePoint} (h : c.isAlphanumeric = true) : c ≠ '%' := by
  rintro rfl
  exact absurd h (by decide)

theorem pieces_cons {c m : CodePoint} (h : c ≠ m) (t : Text) :
    ∃ p ps, Text.pieces m t = p :: ps ∧ Text.pieces m (c :: t) = (c :: p) :: ps := by
  cases hp : Text.pieces m t with
  | nil => exact absurd hp (Text.pieces_ne_nil m t)
  | cons p ps => exact ⟨p, ps, rfl, by simp [Text.pieces, h, hp]⟩

/-- What the first piece begins with the text begins with. -/
theorem pieces_eq_cons {m a : CodePoint} {t p : Text} {ps : List Text} (h : Text.pieces m t = (a :: p) :: ps) :
    ∃ rest, t = a :: rest ∧ Text.pieces m rest = p :: ps := by
  cases t with
  | nil => cases h
  | cons c t =>
    by_cases hc : c = m
    · simp [Text.pieces, hc] at h
    · obtain ⟨q, qs, ht, hct⟩ := pieces_cons hc t
      obtain ⟨hp, rfl⟩ := List.cons.inj (hct.symm.trans h)
      obtain ⟨rfl, rfl⟩ := List.cons.inj hp
      exact ⟨t, rfl, ht⟩

/-- A character that is no percent sign is kept. -/
theorem unescape_cons {c : CodePoint} (h : c ≠ '%') (t : Text) :
    unescapeUnreserved (c :: t) = (unescapeUnreserved t).map (c :: ·) := by
  obtain ⟨p, ps, ht, hct⟩ := pieces_cons h t
  simp only [unescapeUnreserved, ht, hct]
  cases ps.mapM unescapePiece <;> rfl

/-- Undoing escapes behind a percent sign. -/
theorem unescape_pieces {t p : Text} {ps : List Text} (h : Text.pieces '%' t = p :: ps) :
    unescapeUnreserved (CodePoint.ofChar '%' :: t) =
      (unescapePiece p).bind fun out => (ps.mapM unescapePiece).map fun outs => out ++ outs.flatten := by
  simp only [unescapeUnreserved, Text.pieces, if_true, h, List.mapM_cons]
  cases unescapePiece p with
  | none => rfl
  | some out => cases ps.mapM unescapePiece <;> rfl

/-- A percent sign that does not look like that of an escape is kept. -/
theorem unescape_sign {t : Text} (h : looksEscaped t = false) :
    unescapeUnreserved (CodePoint.ofChar '%' :: t) =
      (unescapeUnreserved t).map (CodePoint.ofChar '%' :: ·) := by
  -- the piece behind the sign begins as the text does, and does not look like an escape either
  have hkept : ∀ p ps, Text.pieces '%' t = p :: ps → unescapePiece p = some (CodePoint.ofChar '%' :: p) := by
    intro p ps hp
    unfold unescapePiece
    split
    · rename_i a b rest
      obtain ⟨_, rfl, hb⟩ := pieces_eq_cons hp
      obtain ⟨_, rfl, -⟩ := pieces_eq_cons hb
      have hab : ¬ (a.isAlphanumeric && b.isAlphanumeric) = true := Bool.eq_false_iff.1 h
      exact if_neg hab
    · rfl
  cases hp : Text.pieces '%' t with
  | nil => exact absurd hp (Text.pieces_ne_nil _ t)
  | cons p ps =>
    rw [unescape_pieces hp, hkept p ps hp]
    simp only [unescapeUnreserved, hp]
    cases ps.mapM unescapePiece <;> rfl

/-- Two letters or digits behind a percent sign are an escape if both are digits to base 16, and then it is
undone if it is that of an unreserved character. -/
theorem unescape_escape {a b : CodePoint} (ha : a.isAlphanumeric = true) (hb : b.isAlphanumeric = true)
    (t : Text) :
    unescapeUnreserved (CodePoint.ofChar '%' :: a :: b :: t) =
      match digitValue? a, digitValue? b with
      | some m, some n => (unescapeUnreserved t).map fun u =>
          if isUnreserved (CodePoint.ofNat (m * 16 + n)) then CodePoint.ofNat (m * 16 + n) :: u
          else CodePoint.ofChar '%' :: a :: b :: u
      | _, _ => none := by
  obtain ⟨p, ps, ht, hbt⟩ := pieces_cons (ne_sign_of_alphanumeric hb) t
  obtain ⟨p', ps', hbt', habt⟩ := pieces_cons (ne_sign_of_alphanumeric ha) (b :: t)
  obtain ⟨rfl, rfl⟩ := List.cons.inj (hbt'.symm.trans hbt)
  rw [unescape_pieces habt]
  simp only [unescapePiece, ha, hb, Bool.and_self, if_true, unescapeUnreserved, ht]
  cases digitValue? a with
  | none => rfl
  | some m =>
    cases digitValue? b with
    | none => rfl
    | some n =>
      dsimp only [Option.bind_some]
      cases ps'.mapM unescapePiece with
      | none => rfl
      | some outs => split <;> rfl

/-- Induction over a text from left to right, where two letters or digits behind a percent sign are taken at
once. -/
theorem unescape_induction {motive : Text → Prop} (nil : motive [])
    (char : ∀ (c : CodePoint) t, c ≠ '%' → motive t → motive (c :: t))
    (sign : ∀ t, looksEscaped t = false → motive t → motive (CodePoint.ofChar '%' :: t))
    (escape : ∀ a b t, a.isAlphanumeric = true → b.isAlphanumeric = true → motive t →
      motive (CodePoint.ofChar '%' :: a :: b :: t)) (t : Text) : motive t := by
  induction hn : t.length using Nat.strongRecOn generalizing t with
  | ind n ih =>
    match t with
    | [] => exact nil
    | c :: t =>
      have ht := ih t.length (by rw [← hn]; simp) t rfl
      by_cases hc : c = '%'
      · subst hc
        cases hl : looksEscaped t with
        | false => exact sign t hl ht
        | true =>
          match t, hl with
          | a :: b :: t, hl =>
            obtain ⟨ha, hb⟩ : a.isAlphanumeric = true ∧ b.isAlphanumeric = true := by
              simpa [looksEscaped] using hl
            exact escape a b t ha hb (ih t.length (by simp only [List.length_cons] at hn; omega) t rfl)
      · exact char c t hc ht

/-- **Undoing escapes on both sides of a mark** does not touch it. -/
theorem unescape_append {m : CodePoint} (hm : isMark m = true) (x y : Text) :
    unescapeUnreserved (x ++ m :: y) =
      (unescapeUnreserved x).bind fun x' => (unescapeUnreserved y).map fun y' => x' ++ m :: y' := by
  have halnum : m.isAlphanumeric = false := by
    cases ha : m.isAlphanumeric with
    | false => rfl
    | true => rw [not_mark_of_alphanumeric ha] at hm; cases hm
  have hsign : m ≠ '%' := by
    rintro rfl
    exact absurd hm (by decide)
  -- an escape in front of the mark ends before it
  have hlooks : ∀ x : Text, looksEscaped (x ++ m :: y) = looksEscaped x := by
    intro x
    match x with
    | [] => cases y <;> simp [looksEscaped, halnum]
    | [a] => simp [looksEscaped, halnum]
    | a :: b :: x => rfl
  induction x using unescape_induction with
  | nil =>
    rw [List.nil_append, unescape_cons hsign]
    rfl
  | char c x hc ih =>
    rw [List.cons_append, unescape_cons hc, unescape_cons hc, ih]
    cases unescapeUnreserved x <;> cases unescapeUnreserved y <;> rfl
  | sign x hl ih =>
    rw [List.cons_append, unescape_sign hl, unescape_sign ((hlooks x).trans hl), ih]
    cases unescapeUnreserved x <;> cases unescapeUnreserved y <;> rfl
  | escape a b x ha hb ih =>
    rw [List.cons_append, List.cons_append, List.cons_append, unescape_escape ha hb, unescape_escape ha hb, ih]
    cases digitValue? a <;> cases digitValue? b <;> try rfl
    cases unescapeUnreserved x <;> cases unescapeUnreserved y <;> try rfl
    dsimp only [Option.map_some, Option.bind_some]
    split <;> rfl

/-- Undoing escapes gives unreserved characters and those that were there before. -/
theorem mem_unescape {t u : Text} (h : unescapeUnreserved t = some u) {c : CodePoint} (hc : c ∈ u) :
    c ∈ t ∨ isUnreserved c = true := by
  induction t using unescape_induction generalizing u with
  | nil =>
    obtain rfl := Option.some.inj h
    cases hc
  | char x t hx ih =>
    rw [unescape_cons hx] at h
    obtain ⟨v, hv, rfl⟩ := Option.map_eq_some_iff.1 h
    rcases List.mem_cons.1 hc with rfl | hc
    · exact .inl List.mem_cons_self
    · exact (ih hv hc).imp_left (List.mem_cons_of_mem _)
  | sign t hl ih =>
    rw [unescape_sign hl] at h
    obtain ⟨v, hv, rfl⟩ := Option.map_eq_some_iff.1 h
    rcases List.mem_cons.1 hc with rfl | hc
    · exact .inl List.mem_cons_self
    · exact (ih hv hc).imp_left (List.mem_cons_of_mem _)
  | escape a b t ha hb ih =>
    rw [unescape_escape ha hb] at h
    split at h
    · obtain ⟨v, hv, rfl⟩ := Option.map_eq_some_iff.1 h
      have htail : c ∈ v → c ∈ CodePoint.ofChar '%' :: a :: b :: t ∨ isUnreserved c = true := fun hc =>
        (ih hv hc).imp_left fun hc =>
          List.mem_cons_of_mem _ (List.mem_cons_of_mem _ (List.mem_cons_of_mem _ hc))
      split at hc
      · rename_i hun
        rcases List.mem_cons.1 hc with rfl | hc
        · exact .inr hun
        · exact htail hc
      · simp only [List.mem_cons] at hc
        rcases hc with rfl | rfl | rfl | hc
        · exact .inl List.mem_cons_self
        · exact .inl (by simp)
        · exact .inl (by simp)
        · exact htail hc
    · cases h

/-! ## Texts with escapes -/

/-- A text in which every percent sign begins an escape. -/
inductive Escaped : Text → Prop where
  | nil : Escaped []
  | char {c : CodePoint} {t : Text} (hc : c ≠ '%') (h : Escaped t) : Escaped (c :: t)
  | escape {d e : CodePoint} {t : Text} (hd : Address.isHexDigit d = true)
    (he : Address.isHexDigit e = true) (h : Escaped t) : Escaped (CodePoint.ofChar '%' :: d :: e :: t)

theorem isUnreserved_of_isHexDigit {c : CodePoint} (h : Address.isHexDigit c = true) :
    isUnreserved c = true := by
  simp [isUnreserved, letterOrDigit_of_hexDigit h]

theorem digit_of_isHexDigit {c : CodePoint} (h : Address.isHexDigit c = true) :
    c.isAlphanumeric = true ∧ ∃ n, digitValue? c = some n := by
  -- such a digit is of ASCII
  have hsmall : ∀ n < 0x80, Address.isHexDigit (CodePoint.ofNat n) = true →
      (CodePoint.ofNat n).isAlphanumeric = true ∧ (digitValue? (CodePoint.ofNat n)).isSome = true := by
    decide +kernel
  have hc := hsmall c.val (lt_of_unreserved (isUnreserved_of_isHexDigit h))
  rw [CodePoint.ofNat_val] at hc
  exact ⟨(hc h).1, Option.isSome_iff_exists.1 (hc h).2⟩

namespace Escaped

variable {t u : Text}

theorem of_not_mem (h : CodePoint.ofChar '%' ∉ t) : Escaped t := by
  induction t with
  | nil => exact .nil
  | cons c t ih =>
    rw [List.mem_cons, not_or] at h
    exact .char (Ne.symm h.1) (ih h.2)

theorem append (h : Escaped t) (g : Escaped u) : Escaped (t ++ u) := by
  induction h with
  | nil => exact g
  | char hc _ ih => exact .char hc ih
  | escape hd he _ ih => exact .escape hd he ih

/-- The escapes of such a text can be undone. -/
theorem unescape (h : Escaped t) : ∃ u, unescapeUnreserved t = some u := by
  induction h with
  | nil => exact ⟨[], rfl⟩
  | char hc _ ih =>
    obtain ⟨u, hu⟩ := ih
    rw [unescape_cons hc, hu]
    exact ⟨_, rfl⟩
  | escape hd he _ ih =>
    obtain ⟨u, hu⟩ := ih
    obtain ⟨had, m, hm⟩ := digit_of_isHexDigit hd
    obtain ⟨hae, n, hn⟩ := digit_of_isHexDigit he
    rw [unescape_escape had hae, hm, hn, hu]
    exact ⟨_, rfl⟩

end Escaped

/-! ## Letters of escapes in upper case -/

/-- Whether a text begins with two digits to base 16. -/
def beginsHex : Text → Bool
  | d :: e :: _ => Address.isHexDigit d && Address.isHexDigit e
  | _ => false

theorem upperEscapes_cons {c : CodePoint} (h : c ≠ '%') (t : Text) :
    upperEscapes (c :: t) = (c :: (upperEscapes t).1, (upperEscapes t).2.1, (upperEscapes t).2.2) := by
  match t with
  | [] => simp [upperEscapes, h]
  | [d] => simp [upperEscapes, h]
  | d :: e :: t => simp [upperEscapes, h]

theorem upperEscapes_escape {d e : CodePoint} (hd : Address.isHexDigit d = true)
    (he : Address.isHexDigit e = true) (t : Text) :
    upperEscapes (CodePoint.ofChar '%' :: d :: e :: t) =
      (CodePoint.ofChar '%' :: d.toUpper :: e.toUpper :: (upperEscapes t).1,
        (upperEscapes t).2.1 + 1, (upperEscapes t).2.2 + 1) := by
  simp [upperEscapes, hd, he]

theorem upperEscapes_sign {t : Text} (h : beginsHex t = false) :
    upperEscapes (CodePoint.ofChar '%' :: t) =
      (CodePoint.ofChar '%' :: (upperEscapes t).1, (upperEscapes t).2.1, (upperEscapes t).2.2 + 1) := by
  match t with
  | [] => simp [upperEscapes]
  | [d] =>
    simp only [upperEscapes, if_true]
    rw [Nat.add_comm]
  | d :: e :: t =>
    have hde : ¬ (Address.isHexDigit d = true ∧ Address.isHexDigit e = true) := by
      simpa [beginsHex] using h
    simp [upperEscapes, hde]

theorem isHexDigit_toUpper {c : CodePoint} (h : Address.isHexDigit c = true) :
    Address.isHexDigit c.toUpper = true := by
  unfold CodePoint.toUpper
  split
  · rename_i hl
    simp only [CodePoint.isLower, Address.isHexDigit, CodePoint.isDigit, CodePoint.within, Bool.or_eq_true,
      Bool.and_eq_true, decide_eq_true_eq] at h hl ⊢
    rw [CodePoint.val_ofNat (by omega)]
    omega
  · exact h

/-- Induction over a text from left to right, where an escape is taken at once. -/
theorem escapes_induction {motive : Text → Prop} (nil : motive [])
    (char : ∀ (c : CodePoint) t, c ≠ '%' → motive t → motive (c :: t))
    (sign : ∀ t, beginsHex t = false → motive t → motive (CodePoint.ofChar '%' :: t))
    (escape : ∀ d e t, Address.isHexDigit d = true → Address.isHexDigit e = true → motive t →
      motive (CodePoint.ofChar '%' :: d :: e :: t)) (t : Text) : motive t := by
  induction hn : t.length using Nat.strongRecOn generalizing t with
  | ind n ih =>
    match t with
    | [] => exact nil
    | c :: t =>
      have ht := ih t.length (by rw [← hn]; simp) t rfl
      by_cases hc : c = '%'
      · subst hc
        cases hb : beginsHex t with
        | false => exact sign t hb ht
        | true =>
          match t, hb with
          | d :: e :: t, hb =>
            obtain ⟨hd, he⟩ : Address.isHexDigit d = true ∧ Address.isHexDigit e = true := by
              simpa [beginsHex] using hb
            exact escape d e t hd he (ih t.length (by simp only [List.length_cons] at hn; omega) t rfl)
      · exact char c t hc ht

/-- There are as many percent signs as escapes only if every one of them begins an escape. -/
theorem escaped_upperEscapes (t : Text) :
    (upperEscapes t).2.1 ≤ (upperEscapes t).2.2 ∧
      ((upperEscapes t).2.1 = (upperEscapes t).2.2 → Escaped (upperEscapes t).1) := by
  induction t using escapes_induction with
  | nil => exact ⟨Nat.le_refl _, fun _ => .nil⟩
  | char c t hc ih =>
    rw [upperEscapes_cons hc]
    exact ⟨ih.1, fun heq => .char hc (ih.2 heq)⟩
  | sign t hb ih =>
    rw [upperEscapes_sign hb]
    exact ⟨Nat.le_succ_of_le ih.1, fun heq => absurd heq (Nat.ne_of_lt (Nat.lt_succ_of_le ih.1))⟩
  | escape d e t hd he ih =>
    rw [upperEscapes_escape hd he]
    exact ⟨Nat.succ_le_succ ih.1, fun heq => .escape (isHexDigit_toUpper hd) (isHexDigit_toUpper he)
      (ih.2 (Nat.succ.inj heq))⟩

/-! ## Parts of urls -/

theorem escaped_ofByte (b : UInt8) : Escaped (ofByte b) := by
  obtain ⟨m, hm, n, hn, -, hb⟩ := ofByte_eq b
  rw [hb]
  exact .escape (upperDigit_digit hm).1 (upperDigit_digit hn).1 .nil

theorem unitsOf_cons (c : CodePoint) (t : Text) : Utf8.unitsOf (c :: t) = Utf8.units c ++ Utf8.unitsOf t :=
  rfl

theorem encode_append (kept : CodePoint → Bool) (bs cs : Bytes) :
    encode kept (bs ++ cs) = encode kept bs ++ encode kept cs :=
  List.flatMap_append

/-- A character of ASCII that is kept stays as it is. -/
theorem encode_kept {kept : CodePoint → Bool} {c : CodePoint} (hc : c.val < 0x80) (hk : kept c = true)
    (t : Text) : encode kept (Utf8.unitsOf (c :: t)) = c :: encode kept (Utf8.unitsOf t) := by
  have hn : (UInt8.ofNat c.val).toNat = c.val := by
    rw [UInt8.toNat_ofNat']
    omega
  have hu : Utf8.units c = [UInt8.ofNat c.val] := if_pos hc
  have hascii : c.isAscii = true := decide_eq_true hc
  rw [unitsOf_cons, encode_append, hu, encode_cons, hn, CodePoint.ofNat_val, hascii, hk]
  rfl

/-- Bytes come out with escapes unless a percent sign is kept. -/
theorem escaped_encode_bytes {kept : CodePoint → Bool} {bs : Bytes}
    (h : ∀ b ∈ bs, kept '%' = true → b.toNat ≠ 0x25) : Escaped (encode kept bs) := by
  induction bs with
  | nil => exact .nil
  | cons b bs ih =>
    have htail := ih fun x hx => h x (List.mem_cons_of_mem _ hx)
    rw [encode_cons]
    refine Escaped.append ?_ htail
    split
    · rename_i hk
      rw [Bool.and_eq_true] at hk
      refine .char (fun he => ?_) .nil
      have hval : b.toNat = 0x25 := by
        have := congrArg CodePoint.val he
        rwa [CodePoint.val_ofNat (Nat.lt_trans b.toNat_lt (by decide))] at this
      exact h b List.mem_cons_self (he ▸ hk.2) hval
    · exact escaped_ofByte b

/-- A text with escapes comes out with escapes if they are kept. -/
theorem Escaped.encode {kept : CodePoint → Bool} {t : Text} (h : Escaped t)
    (hdigits : ∀ c, Address.isHexDigit c = true → kept c = true) (hsign : kept '%' = true) :
    Escaped (encode kept (Utf8.unitsOf t)) := by
  have hascii : ∀ c, Address.isHexDigit c = true → c.val < 0x80 := fun c hc =>
    lt_of_unreserved (isUnreserved_of_isHexDigit hc)
  induction h with
  | nil => exact .nil
  | @char c t hc _ ih =>
    rw [unitsOf_cons, encode_append]
    refine Escaped.append (escaped_encode_bytes fun b hb _ hval => ?_) ih
    by_cases hlt : c.val < 0x80
    · have hu : Utf8.units c = [UInt8.ofNat c.val] := if_pos hlt
      rw [hu, List.mem_singleton] at hb
      rw [hb, UInt8.toNat_ofNat'] at hval
      have hval : c.val = 0x25 := by omega
      obtain ⟨n, hn⟩ := c
      subst hval
      exact hc rfl
    · have := le_of_mem_units (by omega) hb
      omega
  | escape hd he _ ih =>
    rw [encode_kept (by decide) hsign, encode_kept (hascii _ hd) (hdigits _ hd),
      encode_kept (hascii _ he) (hdigits _ he)]
    exact .escape hd he ih

/-- **A part of a url comes out with escapes**: its own, or those of all its percent signs. -/
theorem escaped_component {allowed : CodePoint → Bool} (hsign : allowed '%' = false)
    (hunreserved : ∀ c, isUnreserved c = true → allowed c = true) (t : Text) :
    Escaped (component allowed t) := by
  obtain ⟨-, hesc⟩ := escaped_upperEscapes t
  unfold component
  dsimp only
  by_cases heq : (upperEscapes t).2.1 = (upperEscapes t).2.2
  · -- percent signs are kept if each of them begins an escape
    refine (hesc heq).encode (fun c hc => ?_) (by simp [heq])
    rw [hunreserved c (isUnreserved_of_isHexDigit hc), Bool.true_or]
  · refine escaped_encode_bytes fun b _ hk => ?_
    rw [hsign, Bool.false_or, Bool.and_eq_true, beq_iff_eq] at hk
    exact absurd hk.1 heq

end RemoteTree.Url.Escape
