import RemoteTree.Proofs.Text.Basic
import RemoteTree.Url.Escape

/-!
# What requoting leaves alone

Requoting undoes and makes escapes, character by character, but it leaves the marks between the parts of a
url where they are, and every stretch in which each character may stand in a url.

* `Alike`: two texts with the same marks, and the same stretches of such characters.
* `Requoted`: what undoing escapes and making escapes, one after the other, make of a text.
* `Requoted.split`: a text that is requoted keeps its marks, and what is around them is requoted.
* `Escape.requoted_of_requote`: **a url that is requoted keeps its marks**.
-/

namespace RemoteTree.Url

/-- The marks between the parts of a url, and between those of an authority. -/
def isMark (c : CodePoint) : Bool := (Text.ofString ":/?#[]@").contains c

/-- What holds of the marks holds of each of them. -/
theorem forall_mark {p : CodePoint → Bool} {m : CodePoint} (hm : isMark m = true)
    (h : (Text.ofString ":/?#[]@").all p = true) : p m = true :=
  List.all_eq_true.1 h m (List.contains_iff_mem.1 hm)

theorem isUrlChar_of_mark {m : CodePoint} (hm : isMark m = true) : Escape.isUrlChar m = true :=
  forall_mark hm (by decide)

/-- A text in which stretches without marks have been replaced by others, each of them with a character
that may not stand in a url. -/
inductive Alike : Text → Text → Prop where
  | nil : Alike [] []
  | same (c : CodePoint) {t u : Text} (h : Alike t u) : Alike (c :: t) (c :: u)
  | swap {x y t u : Text} (hx : ∀ c ∈ x, isMark c = false)
    (hs : ∃ c ∈ x, Escape.isUrlChar c = false) (hy : ∀ c ∈ y, isMark c = false) (h : Alike t u) :
    Alike (x ++ t) (y ++ u)

namespace Alike

theorem refl (t : Text) : Alike t t := by
  induction t with
  | nil => exact .nil
  | cons c t ih => exact .same c ih

theorem append {s s' t t' : Text} (hs : Alike s s') (ht : Alike t t') : Alike (s ++ t) (s' ++ t') := by
  induction hs with
  | nil => exact ht
  | same c _ ih => exact .same c ih
  | swap hx hs hy _ ih =>
    rw [List.append_assoc, List.append_assoc]
    exact .swap hx hs hy ih

/-- Alike texts have the same marks. -/
theorem not_mem {t u : Text} (h : Alike t u) {m : CodePoint} (hm : isMark m = true) (ht : m ∉ t) :
    m ∉ u := by
  induction h with
  | nil => exact ht
  | same c _ ih =>
    rw [List.mem_cons, not_or] at ht ⊢
    exact ⟨ht.1, ih ht.2⟩
  | swap _ _ hy _ ih =>
    rw [List.mem_append, not_or] at ht ⊢
    refine ⟨fun hmem => ?_, ih ht.2⟩
    rw [hy m hmem] at hm
    cases hm

/-- A text of characters that may stand in a url is alike to itself alone. -/
theorem eq_of_urlChars {t u : Text} (h : Alike t u) (ht : ∀ c ∈ t, Escape.isUrlChar c = true) :
    u = t := by
  induction h with
  | nil => rfl
  | same c _ ih => rw [ih fun x hx => ht x (List.mem_cons_of_mem _ hx)]
  | swap _ hs _ _ _ =>
    obtain ⟨c, hc, hn⟩ := hs
    rw [ht c (List.mem_append_left _ hc)] at hn
    cases hn

/-- **A mark is where it was**, with alike texts in front of it and behind. -/
theorem split {m : CodePoint} (hm : isMark m = true) {x y u : Text} (h : Alike (x ++ m :: y) u) :
    ∃ x' y', u = x' ++ m :: y' ∧ Alike x x' ∧ Alike y y' := by
  generalize ht : x ++ m :: y = t at h
  induction h generalizing x with
  | nil => simp at ht
  | @same c t u h ih =>
    cases x with
    | nil =>
      obtain ⟨rfl, rfl⟩ := List.cons.inj ht
      exact ⟨[], u, rfl, .nil, h⟩
    | cons c' x =>
      obtain ⟨rfl, hxt⟩ := List.cons.inj ht
      obtain ⟨x', y', rfl, hx, hy⟩ := ih hxt
      exact ⟨c' :: x', y', rfl, .same c' hx, hy⟩
  | @swap p q t u hp hs hq h ih =>
    -- the mark is not in the stretch that has been replaced, so that one lies in front of it
    obtain ⟨z, rfl, hz⟩ | ⟨z, hpz, hz⟩ := List.append_eq_append_iff.1 ht
    · cases z with
      | nil =>
        obtain ⟨x', y', rfl, hx, hy⟩ := ih (x := []) hz
        refine ⟨q ++ x', y', by rw [List.append_assoc], ?_, hy⟩
        simpa using Alike.swap hp hs hq hx
      | cons c z =>
        obtain ⟨rfl, -⟩ := List.cons.inj hz
        rw [hp m (by simp)] at hm
        cases hm
    · obtain ⟨x', y', rfl, hx, hy⟩ := ih hz.symm
      refine ⟨q ++ x', y', by rw [List.append_assoc], ?_, hy⟩
      rw [hpz]
      exact .swap hp hs hq hx

end Alike

/-- A text and what has become of it in two steps. -/
def Requoted (t u : Text) : Prop := ∃ s, Alike t s ∧ Alike s u

namespace Requoted

variable {t u : Text}

theorem not_mem (h : Requoted t u) {m : CodePoint} (hm : isMark m = true) (ht : m ∉ t) : m ∉ u := by
  obtain ⟨s, hts, hsu⟩ := h
  exact hsu.not_mem hm (hts.not_mem hm ht)

theorem eq_of_urlChars (h : Requoted t u) (ht : ∀ c ∈ t, Escape.isUrlChar c = true) : u = t := by
  obtain ⟨s, hts, hsu⟩ := h
  obtain rfl := hts.eq_of_urlChars ht
  exact hsu.eq_of_urlChars ht

theorem split {m : CodePoint} (hm : isMark m = true) {x y : Text} (h : Requoted (x ++ m :: y) u) :
    ∃ x' y', u = x' ++ m :: y' ∧ Requoted x x' ∧ Requoted y y' := by
  obtain ⟨s, hts, hsu⟩ := h
  obtain ⟨x', y', rfl, hx, hy⟩ := hts.split hm
  obtain ⟨x'', y'', rfl, hx', hy'⟩ := hsu.split hm
  exact ⟨x'', y'', rfl, ⟨x', hx, hx'⟩, y', hy, hy'⟩

/-- Where nothing in front of a mark can be requoted, it is as it was. -/
theorem split_of_urlChars {m : CodePoint} (hm : isMark m = true) {x y : Text}
    (hx : ∀ c ∈ x, Escape.isUrlChar c = true) (h : Requoted (x ++ m :: y) u) :
    ∃ y', u = x ++ m :: y' ∧ Requoted y y' := by
  obtain ⟨x', y', rfl, hxx, hyy⟩ := h.split hm
  rw [hxx.eq_of_urlChars hx]
  exact ⟨y', rfl, hyy⟩

end Requoted

namespace Escape

theorem not_mark_of_unreserved {c : CodePoint} (h : isUnreserved c = true) : isMark c = false := by
  cases hm : isMark c with
  | false => rfl
  | true =>
    have := forall_mark (p := fun m => !isUnreserved m) hm (by decide)
    simp [h] at this

theorem not_mark_of_alphanumeric {c : CodePoint} (h : c.isAlphanumeric = true) : isMark c = false := by
  cases hm : isMark c with
  | false => rfl
  | true =>
    have := forall_mark (p := fun m => !m.isAlphanumeric) hm (by decide)
    simp [h] at this

/-! ## Undoing escapes -/

theorem alike_unescapePiece {piece out : Text} (h : unescapePiece piece = some out) :
    Alike ('%' :: piece) out := by
  unfold unescapePiece at h
  split at h
  · rename_i a b rest
    split at h
    · rename_i hab
      rw [Bool.and_eq_true] at hab
      split at h
      · obtain rfl := Option.some.inj h
        split
        · rename_i hu
          -- the sign and two digits have become one character
          refine Alike.swap (x := ['%', a, b]) (y := [_]) ?_ ⟨'%', List.mem_cons_self, by decide⟩ ?_
            (Alike.refl rest)
          · intro c hc
            simp only [List.mem_cons, List.not_mem_nil, or_false] at hc
            rcases hc with rfl | rfl | rfl
            · decide
            · exact not_mark_of_alphanumeric hab.1
            · exact not_mark_of_alphanumeric hab.2
          · intro c hc
            rw [List.mem_singleton.1 hc]
            exact not_mark_of_unreserved hu
        · exact Alike.refl _
      · cases h
    · obtain rfl := Option.some.inj h
      exact Alike.refl _
  · obtain rfl := Option.some.inj h
    exact Alike.refl _

theorem alike_unescapePieces {rest ps : List Text} (h : rest.mapM unescapePiece = some ps) :
    Alike (rest.flatMap ((CodePoint.ofChar '%') :: ·)) ps.flatten := by
  induction rest generalizing ps with
  | nil =>
    obtain rfl := Option.some.inj h
    exact .nil
  | cons piece rest ih =>
    rw [List.mapM_cons] at h
    obtain ⟨out, ho, h⟩ := Option.bind_eq_some_iff.1 h
    obtain ⟨outs, hos, h⟩ := Option.bind_eq_some_iff.1 h
    obtain rfl := Option.some.inj h
    exact (alike_unescapePiece ho).append (ih hos)

/-- Undoing escapes of unreserved characters gives an alike text. -/
theorem alike_unescapeUnreserved {t u : Text} (h : unescapeUnreserved t = some u) : Alike t u := by
  unfold unescapeUnreserved at h
  have hj := Text.join_pieces '%' t
  cases hp : Text.pieces '%' t with
  | nil => exact absurd hp (Text.pieces_ne_nil _ _)
  | cons first rest =>
    simp only [hp] at h hj
    obtain ⟨ps, hps, rfl⟩ := Option.map_eq_some_iff.1 h
    rw [Text.join_cons] at hj
    rw [← hj]
    exact (Alike.refl first).append (alike_unescapePieces hps)

/-! ## Making escapes -/

/-- The digits of an escape are in upper case, and are read as their values. -/
theorem upperDigit_digit {n : Nat} (h : n < 16) :
    Address.isHexDigit (upperDigit n) = true ∧ (upperDigit n).toUpper = upperDigit n ∧
      digitValue? (upperDigit n) = some n := by
  have hall : ∀ n < 16, Address.isHexDigit (upperDigit n) = true ∧
      (upperDigit n).toUpper = upperDigit n ∧ digitValue? (upperDigit n) = some n := by decide
  exact hall n h

/-- An escape is a percent sign and two such digits. -/
theorem ofByte_eq (b : UInt8) :
    ∃ m < 16, ∃ n < 16, m * 16 + n = b.toNat ∧
      ofByte b = [CodePoint.ofChar '%', upperDigit m, upperDigit n] := by
  have hb := b.toNat_lt
  exact ⟨b.toNat / 16, by omega, b.toNat % 16, by omega, by omega, rfl⟩

/-- What holds of percent signs and of the digits of escapes holds of every character of an escape. -/
theorem forall_mem_ofByte {p : CodePoint → Prop} (hsign : p '%') (hdigits : ∀ n < 16, p (upperDigit n))
    {b : UInt8} {c : CodePoint} (h : c ∈ ofByte b) : p c := by
  obtain ⟨m, hm, n, hn, -, hb⟩ := ofByte_eq b
  rw [hb] at h
  simp only [List.mem_cons, List.not_mem_nil, or_false] at h
  rcases h with rfl | rfl | rfl
  · exact hsign
  · exact hdigits m hm
  · exact hdigits n hn

theorem not_mark_of_mem_ofByte {b : UInt8} {c : CodePoint} (h : c ∈ ofByte b) : isMark c = false := by
  have hdigits : ∀ n < 16, isMark (upperDigit n) = false := by decide
  exact forall_mem_ofByte (p := fun c => isMark c = false) (by decide) hdigits h

theorem encode_cons (kept : CodePoint → Bool) (b : UInt8) (bs : Bytes) :
    encode kept (b :: bs) =
      (if (CodePoint.ofNat b.toNat).isAscii && kept (CodePoint.ofNat b.toNat) then
        [CodePoint.ofNat b.toNat] else ofByte b) ++ encode kept bs :=
  rfl

/-- What comes out for a byte is kept, or belongs to an escape. -/
theorem mem_encode {kept : CodePoint → Bool} {bs : Bytes} {c : CodePoint} (h : c ∈ encode kept bs) :
    kept c = true ∨ ∃ b, c ∈ ofByte b := by
  unfold encode at h
  obtain ⟨b, -, hc⟩ := List.mem_flatMap.1 h
  dsimp only at hc
  split at hc
  · rename_i hk
    rw [Bool.and_eq_true] at hk
    rw [List.mem_singleton.1 hc]
    exact .inl hk.2
  · exact .inr ⟨b, hc⟩

/-- The bytes of a character beyond ASCII are beyond ASCII. -/
theorem le_of_mem_units {c : CodePoint} (hc : 0x80 ≤ c.val) {b : UInt8} (hb : b ∈ Utf8.units c) :
    0x80 ≤ b.toNat := by
  have hlt := c.lt
  unfold Utf8.units at hb
  dsimp only at hb
  rw [if_neg (by omega)] at hb
  split at hb
  · simp only [List.mem_cons, List.not_mem_nil, or_false] at hb
    rcases hb with rfl | rfl <;> simp only [UInt8.toNat_ofNat'] <;> omega
  split at hb
  · simp only [List.mem_cons, List.not_mem_nil, or_false] at hb
    rcases hb with rfl | rfl | rfl <;> simp only [UInt8.toNat_ofNat'] <;> omega
  · simp only [List.mem_cons, List.not_mem_nil, or_false] at hb
    rcases hb with rfl | rfl | rfl | rfl <;> simp only [UInt8.toNat_ofNat'] <;> omega

theorem isUrlChar_of_unreserved {c : CodePoint} (h : isUnreserved c = true) : isUrlChar c = true := by
  simp [isUrlChar, h]

/-- What may stand in a url is of ASCII, and no blank or control. -/
theorem within_of_urlChar {c : CodePoint} (h : isUrlChar c = true) : 0x20 < c.val ∧ c.val < 0x80 := by
  have hmarks : ∀ m ∈ Text.ofString "!#$&'()*+,/:;=?@[]", 0x20 < m.val ∧ m.val < 0x80 := by decide
  unfold isUrlChar isUnreserved at h
  simp only [Bool.or_eq_true, beq_iff_eq] at h
  rcases h with ((((h | rfl) | rfl) | rfl) | rfl) | h
  · simp only [CodePoint.isLetterOrDigit, CodePoint.isLetter, CodePoint.isUpper, CodePoint.isLower,
      CodePoint.isDigit, CodePoint.within, Bool.or_eq_true, Bool.and_eq_true, decide_eq_true_eq] at h
    omega
  · decide
  · decide
  · decide
  · decide
  · exact hmarks c (List.contains_iff_mem.1 h)

theorem lt_of_unreserved {c : CodePoint} (h : isUnreserved c = true) : c.val < 0x80 :=
  (within_of_urlChar (isUrlChar_of_unreserved h)).2

/-- The escapes of one character, if it needs any, are alike to it. -/
theorem alike_encode_units {kept : CodePoint → Bool} (hk : ∀ c, isUrlChar c = true → kept c = true)
    (c : CodePoint) : Alike [c] (encode kept (Utf8.units c)) := by
  by_cases hc : c.val < 0x80
  · have hn : (UInt8.ofNat c.val).toNat = c.val := by
      rw [UInt8.toNat_ofNat']
      omega
    have hu : Utf8.units c = [UInt8.ofNat c.val] := if_pos hc
    rw [hu, encode_cons, hn, CodePoint.ofNat_val]
    split
    · exact .same c .nil
    · rename_i hkept
      have hurl : isUrlChar c = false := by
        cases hu : isUrlChar c with
        | false => rfl
        | true => exact absurd (by simp [CodePoint.isAscii, hc, hk c hu]) hkept
      refine Alike.swap (x := [c]) (t := []) (fun x hx => ?_) ⟨c, List.mem_cons_self, hurl⟩
        (fun x hx => not_mark_of_mem_ofByte hx) .nil
      rw [List.mem_singleton.1 hx]
      cases hm : isMark c with
      | false => rfl
      | true => rw [isUrlChar_of_mark hm] at hurl; cases hurl
  · have hurl : isUrlChar c = false := by
      cases hu : isUrlChar c with
      | false => rfl
      | true => exact absurd (within_of_urlChar hu).2 hc
    have h := Alike.swap (x := [c]) (y := encode kept (Utf8.units c)) (fun x hx => ?_)
      ⟨c, List.mem_cons_self, hurl⟩ (fun x hx => ?_) .nil
    · simpa using h
    · rw [List.mem_singleton.1 hx]
      cases hm : isMark c with
      | false => rfl
      | true => rw [isUrlChar_of_mark hm] at hurl; cases hurl
    · -- none of the bytes is kept
      unfold encode at hx
      obtain ⟨b, hb, hx⟩ := List.mem_flatMap.1 hx
      have hb' := le_of_mem_units (by omega) hb
      have hlt := b.toNat_lt
      have hascii : (CodePoint.ofNat b.toNat).isAscii = false := by
        unfold CodePoint.isAscii
        rw [CodePoint.val_ofNat (by omega)]
        exact decide_eq_false (by omega)
      simp only [hascii, Bool.false_and, Bool.false_eq_true, if_false] at hx
      exact not_mark_of_mem_ofByte hx

/-- Making escapes gives an alike text if what may stand in a url is kept. -/
theorem alike_encode {kept : CodePoint → Bool} (hk : ∀ c, isUrlChar c = true → kept c = true)
    (t : Text) : Alike t (encode kept (Utf8.unitsOf t)) := by
  induction t with
  | nil => exact .nil
  | cons c t ih =>
    have h := (alike_encode_units hk c).append ih
    unfold encode at h ⊢
    rwa [← List.flatMap_append] at h

/-! ## Both -/

/-- A text that is written with escapes is written byte by byte. -/
theorem encode_of_written {kept : CodePoint → Bool} {t u : Text}
    (h : (Utf8.encode t).map (encode kept) = .ok u) : encode kept (Utf8.unitsOf t) = u := by
  unfold Utf8.encode at h
  split at h
  · cases h
  · exact Except.ok.inj h

/-- **A url that is requoted keeps its marks**, and has no other characters than those that may stand in
a url, and those of escapes. -/
theorem requoted_of_requote {t u : Text} (h : requote t = .ok u) :
    Requoted t u ∧ ∀ c ∈ u, isUrlChar c = true ∨ ∃ b, c ∈ ofByte b := by
  unfold requote at h
  split at h
  · rename_i s hs
    obtain rfl := encode_of_written h
    refine ⟨⟨s, alike_unescapeUnreserved hs, alike_encode (fun c hc => by simp [hc]) s⟩, fun c hc => ?_⟩
    rcases mem_encode hc with hc | hc
    · rw [Bool.or_eq_true, beq_iff_eq] at hc
      refine hc.imp id fun hp => ?_
      rw [hp]
      exact ⟨0, List.mem_cons_self⟩
    · exact .inr hc
  · obtain rfl := encode_of_written h
    refine ⟨⟨t, Alike.refl t, alike_encode (fun c hc => hc) t⟩, fun c hc => ?_⟩
    exact mem_encode hc

end Escape

end RemoteTree.Url
