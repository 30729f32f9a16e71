import RemoteTree.Proofs.Text.Utf8
import RemoteTree.Proofs.Url.Zone

/-!
# What a path stands for

A path is sent with its escapes in upper case and with escapes for what may not stand in a path. Who reads it
takes every escape for its byte. If some percent sign of the path begins no escape then all of them are sent as
escapes, and the path stands for itself but for the letters of its escapes. If every percent sign begins one,
it stands for what its escapes stand for.

* `Escape.meant`: the text that a path stands for.
* `Escape.decode_component`: **what is sent is read as that text**.
* `Escape.meant_eq_iff`: the paths that stand for themselves; any other path with escapes alone stands for a
  shorter text.
-/

namespace RemoteTree

/-- Bytes are read as at most so many characters. -/
theorem Utf8.length_scanFrom_le (surrogates : Bool) (pos skip : Nat) (bs : Bytes) :
    (scanFrom surrogates pos skip bs).length ≤ bs.length := by
  induction bs generalizing pos skip with
  | nil => cases skip <;> exact Nat.le_refl _
  | cons b bs ih =>
    cases skip with
    | succ skip => exact Nat.le_succ_of_le (ih _ _)
    | zero =>
      unfold scanFrom
      split <;> exact Nat.succ_le_succ (ih _ _)

theorem Utf8.length_decodeLossy_le (bs : Bytes) : (decodeLossy bs).length ≤ bs.length := by
  unfold decodeLossy
  rw [List.length_map]
  exact length_scanFrom_le false 0 0 bs

/-- The bytes of a text are read as the text, also by a reader that puts up with anything. -/
theorem Utf8.decodeLossy_unitsOf {t : Text} (h : writable t = true) : decodeLossy (unitsOf t) = t := by
  unfold decodeLossy scan
  rw [scanFrom_unitsOf h, List.map_map]
  exact List.map_id t

/-- Such a reader reads ASCII character by character, and then what comes behind it. -/
theorem Utf8.decodeLossy_append_ascii {x : Text} (h : ∀ c ∈ x, c.val < 0x80) (bs : Bytes) :
    decodeLossy (x.map (fun c => UInt8.ofNat c.val) ++ bs) = x ++ decodeLossy bs := by
  -- where a byte stands does not matter for what is read
  have hpos : ∀ (bs : Bytes) (pos pos' skip : Nat) (f : Except DecodeFault CodePoint → CodePoint),
      (∀ e e', f (.error e) = f (.error e')) →
        (scanFrom false pos skip bs).map f = (scanFrom false pos' skip bs).map f := by
    intro bs
    induction bs with
    | nil => intro pos pos' skip f _; cases skip <;> rfl
    | cons b bs ih =>
      intro pos pos' skip f hf
      cases skip with
      | succ skip => exact ih _ _ skip f hf
      | zero =>
        simp only [scanFrom]
        split
        · rw [List.map_cons, List.map_cons, ih (pos + 1) (pos' + 1) _ f hf]
        · rw [List.map_cons, List.map_cons, ih (pos + 1) (pos' + 1) _ f hf, hf]
  induction x with
  | nil => rfl
  | cons c x ih =>
    rw [List.forall_mem_cons] at h
    have hbyte : (UInt8.ofNat c.val).toNat = c.val := by
      rw [UInt8.toNat_ofNat']
      omega
    have hhead : ∀ rest, head false (UInt8.ofNat c.val) rest = .char c 0 := by
      intro rest
      unfold head
      dsimp only
      rw [hbyte, if_pos h.1, CodePoint.ofNat_val]
    rw [List.cons_append, ← ih h.2]
    unfold decodeLossy scan
    simp only [List.map_cons, List.cons_append, scanFrom, hhead]
    exact congrArg _ (hpos _ _ _ _ _ fun _ _ => rfl)

namespace Url.Escape

/-! ## The bytes of a text with escapes -/

theorem bytes_cons {c : CodePoint} (h : c ≠ '%') (t : Text) : bytes (c :: t) = UInt8.ofNat c.val :: bytes t := by
  match t with
  | [] => rfl
  | [d] => rfl
  | d :: e :: t =>
    rw [bytes]
    split
    · rename_i hsign _ _
      exact absurd (beq_iff_eq.1 hsign) h
    · rfl

theorem bytes_escape {d e : CodePoint} {m n : Nat} (hd : digitValue? d = some m) (he : digitValue? e = some n)
    (t : Text) : bytes (CodePoint.ofChar '%' :: d :: e :: t) = UInt8.ofNat (m * 16 + n) :: bytes t := by
  rw [bytes]
  simp [hd, he]

/-- Nothing in front of the first percent sign is an escape. -/
theorem bytes_append_of_not_mem {x : Text} (h : CodePoint.ofChar '%' ∉ x) (y : Text) :
    bytes (x ++ y) = x.map (fun c => UInt8.ofNat c.val) ++ bytes y := by
  induction x with
  | nil => rfl
  | cons c x ih =>
    rw [List.mem_cons, not_or] at h
    rw [List.cons_append, bytes_cons (Ne.symm h.1), ih h.2]
    rfl

/-- What stands in front of the first percent sign is read as it is. -/
theorem decode_append_of_not_mem {x : Text} (h : CodePoint.ofChar '%' ∉ x) (hascii : ∀ c ∈ x, c.val < 0x80)
    (y : Text) : decode (x ++ y) = x ++ decode y := by
  unfold decode
  rw [bytes_append_of_not_mem h, Utf8.decodeLossy_append_ascii hascii]

theorem length_bytes_le (t : Text) : (bytes t).length ≤ t.length := by
  fun_induction bytes t <;> simp only [List.length_cons, List.length_nil] at * <;> omega

/-- A text in which every percent sign begins an escape has fewer bytes than characters, if it has an escape. -/
theorem Escaped.length_bytes_lt {t : Text} (h : Escaped t) (hsign : CodePoint.ofChar '%' ∈ t) :
    (bytes t).length < t.length := by
  induction h with
  | nil => cases hsign
  | @char c t hc _ ih =>
    rw [bytes_cons hc, List.length_cons, List.length_cons]
    refine Nat.succ_lt_succ (ih ?_)
    rcases List.mem_cons.1 hsign with he | ht
    · exact absurd he.symm hc
    · exact ht
  | @escape d e t hd he _ _ =>
    obtain ⟨-, m, hm⟩ := digit_of_isHexDigit hd
    obtain ⟨-, n, hn⟩ := digit_of_isHexDigit he
    rw [bytes_escape hm hn]
    have := length_bytes_le t
    simp only [List.length_cons]
    omega

theorem val_ofByte (b : UInt8) : (CodePoint.ofNat b.toNat).val = b.toNat :=
  CodePoint.val_ofNat (Nat.lt_trans b.toNat_lt (by decide))

/-- The escape of a byte is read as the byte, whatever stands behind it. -/
theorem bytes_ofByte (b : UInt8) (t : Text) : bytes (ofByte b ++ t) = b :: bytes t := by
  obtain ⟨m, hm, n, hn, hmn, hb⟩ := ofByte_eq b
  rw [hb]
  show bytes (CodePoint.ofChar '%' :: upperDigit m :: upperDigit n :: t) = _
  rw [bytes_escape (upperDigit_digit hm).2.2 (upperDigit_digit hn).2.2, hmn, UInt8.ofNat_toNat]

/-- **Bytes that are written with escapes are read as they were**, if percent signs have escapes. -/
theorem bytes_encode {kept : CodePoint → Bool} (h : kept '%' = false) (bs : Bytes) :
    bytes (encode kept bs) = bs := by
  induction bs with
  | nil => rfl
  | cons b bs ih =>
    rw [encode_cons]
    split
    · rename_i hk
      rw [Bool.and_eq_true] at hk
      have hsign : CodePoint.ofNat b.toNat ≠ '%' := by
        intro he
        rw [he, h] at hk
        cases hk.2
      rw [List.singleton_append, bytes_cons hsign, ih, val_ofByte, UInt8.ofNat_toNat]
    · rw [bytes_ofByte, ih]

/-! ## Undoing escapes of unreserved characters -/

/-- The escape of a byte stays unless it is that of an unreserved character. -/
theorem unescape_ofByte {b : UInt8} (h : isUnreserved (CodePoint.ofNat b.toNat) = false) (t : Text) :
    unescapeUnreserved (ofByte b ++ t) = (unescapeUnreserved t).map (ofByte b ++ ·) := by
  obtain ⟨m, hm, n, hn, hmn, hb⟩ := ofByte_eq b
  obtain ⟨hhex, -, hval⟩ := upperDigit_digit hm
  obtain ⟨hhex', -, hval'⟩ := upperDigit_digit hn
  rw [hb]
  show unescapeUnreserved (CodePoint.ofChar '%' :: upperDigit m :: upperDigit n :: t) = _
  rw [unescape_escape (digit_of_isHexDigit hhex).1 (digit_of_isHexDigit hhex').1, hval, hval']
  dsimp only
  rw [hmn, h]
  rfl

section

variable {allowed : CodePoint → Bool} (hunreserved : ∀ c, isUnreserved c = true → allowed c = true)

include hunreserved

/-- A byte that is not kept is none of an unreserved character. -/
theorem not_unreserved_of_not_kept {b : UInt8}
    (h : ((CodePoint.ofNat b.toNat).isAscii && allowed (CodePoint.ofNat b.toNat)) = false) :
    isUnreserved (CodePoint.ofNat b.toNat) = false := by
  refine Bool.eq_false_iff.2 fun hu => ?_
  have hascii : (CodePoint.ofNat b.toNat).isAscii = true := decide_eq_true (lt_of_unreserved hu)
  rw [hascii, hunreserved _ hu] at h
  cases h

/-- Where percent signs have escapes, no escape is undone. -/
theorem unescape_encode (hsign : allowed '%' = false) (bs : Bytes) :
    unescapeUnreserved (encode allowed bs) = some (encode allowed bs) := by
  induction bs with
  | nil => rfl
  | cons b bs ih =>
    rw [encode_cons]
    split
    · rename_i hk
      rw [Bool.and_eq_true] at hk
      have hne : CodePoint.ofNat b.toNat ≠ '%' := by
        intro he
        rw [he, hsign] at hk
        cases hk.2
      rw [List.singleton_append, unescape_cons hne, ih]
      rfl
    · rename_i hk
      rw [unescape_ofByte (not_unreserved_of_not_kept hunreserved (Bool.eq_false_iff.2 hk)), ih]
      rfl

/-- Where percent signs are kept, the escapes that are undone are read as their bytes all the same. -/
theorem Escaped.bytes_unescape {t : Text} (h : Escaped t) (hascii : ∀ c ∈ t, c.val < 0x80) :
    ∃ u, unescapeUnreserved (Escape.encode (fun c => allowed c || c == '%') (Utf8.unitsOf t)) = some u ∧
      bytes u = bytes t := by
  have hsign : ((fun c => allowed c || c == '%') (CodePoint.ofChar '%') : Bool) = true := by simp
  induction h with
  | nil => exact ⟨[], rfl, rfl⟩
  | @char c t hc _ ih =>
    obtain ⟨u, hu, hbytes⟩ := ih fun x hx => hascii x (List.mem_cons_of_mem _ hx)
    have hlt := hascii c List.mem_cons_self
    cases hk : allowed c with
    | true =>
      rw [encode_kept hlt (by simp [hk]), unescape_cons hc, hu]
      exact ⟨_, rfl, by rw [bytes_cons hc, bytes_cons hc, hbytes]⟩
    | false =>
      -- the character gets an escape, which is not undone
      have hbyte : (UInt8.ofNat c.val).toNat = c.val := by
        rw [UInt8.toNat_ofNat']
        omega
      have hunits : Utf8.units c = [UInt8.ofNat c.val] := if_pos hlt
      have hnot : isUnreserved (CodePoint.ofNat (UInt8.ofNat c.val).toNat) = false := by
        rw [hbyte, CodePoint.ofNat_val]
        exact Bool.eq_false_iff.2 fun he => by rw [hunreserved c he] at hk; cases hk
      have hescape : Escape.encode (fun c => allowed c || c == '%') (Utf8.unitsOf (c :: t)) =
          ofByte (UInt8.ofNat c.val) ++ Escape.encode (fun c => allowed c || c == '%') (Utf8.unitsOf t) := by
        rw [unitsOf_cons, encode_append, hunits, encode_cons, hbyte, CodePoint.ofNat_val, hk]
        simp [hc, Escape.encode]
      rw [hescape, unescape_ofByte hnot, hu]
      exact ⟨_, rfl, by rw [bytes_ofByte, bytes_cons hc, hbytes]⟩
  | @escape d e t hd he _ ih =>
    obtain ⟨u, hu, hbytes⟩ := ih fun x hx =>
      hascii x (List.mem_cons_of_mem _ (List.mem_cons_of_mem _ (List.mem_cons_of_mem _ hx)))
    have hkeep : ∀ {c : CodePoint}, Address.isHexDigit c = true → c.val < 0x80 ∧
        (allowed c || c == '%') = true := fun hc =>
      ⟨lt_of_unreserved (isUnreserved_of_isHexDigit hc),
        by rw [hunreserved _ (isUnreserved_of_isHexDigit hc), Bool.true_or]⟩
    obtain ⟨halnum, m, hm⟩ := digit_of_isHexDigit hd
    obtain ⟨halnum', n, hn⟩ := digit_of_isHexDigit he
    rw [encode_kept (by decide) hsign, encode_kept (hkeep hd).1 (hkeep hd).2,
      encode_kept (hkeep he).1 (hkeep he).2, unescape_escape halnum halnum', hm, hn, hu]
    refine ⟨_, rfl, ?_⟩
    rw [bytes_escape hm hn]
    dsimp only
    split
    · rename_i hun
      have hval : (CodePoint.ofNat (m * 16 + n)).val = m * 16 + n := by
        by_cases hlt : m * 16 + n < 0x110000
        · exact CodePoint.val_ofNat hlt
        · -- beyond the last plane there is no unreserved character
          have hbeyond : CodePoint.ofNat (m * 16 + n) = ⟨0xFFFD, by decide⟩ := dif_neg hlt
          rw [hbeyond] at hun
          exact absurd (lt_of_unreserved hun) (by decide)
      rw [bytes_cons (ne_sign_of_unreserved hun), hval, hbytes]
    · rw [bytes_escape hm hn, hbytes]

end

/-! ## Paths -/

/-- Escapes in upper case are as long as before. -/
theorem length_upperEscapes (t : Text) : (upperEscapes t).1.length = t.length := by
  induction t using escapes_induction with
  | nil => rfl
  | char c t hc ih => simp [upperEscapes_cons hc, ih]
  | sign t hb ih => simp [upperEscapes_sign hb, ih]
  | escape d e t hd he ih => simp [upperEscapes_escape hd he, ih]

/-- A text without percent signs is left alone. -/
theorem upperEscapes_of_not_mem {t : Text} (h : CodePoint.ofChar '%' ∉ t) : upperEscapes t = (t, 0, 0) := by
  induction t with
  | nil => rfl
  | cons c t ih =>
    rw [List.mem_cons, not_or] at h
    rw [upperEscapes_cons (Ne.symm h.1), ih h.2]

/-- Where there are percent signs there are some with the escapes in upper case, and they are counted. -/
theorem sign_mem_upperEscapes {t : Text} (h : CodePoint.ofChar '%' ∈ t) :
    CodePoint.ofChar '%' ∈ (upperEscapes t).1 ∧ (upperEscapes t).2.2 ≠ 0 := by
  induction t using escapes_induction with
  | nil => cases h
  | char c t hc ih =>
    obtain ⟨hmem, hsigns⟩ := ih ((List.mem_cons.1 h).resolve_left (Ne.symm hc))
    rw [upperEscapes_cons hc]
    exact ⟨List.mem_cons_of_mem _ hmem, hsigns⟩
  | sign t hb ih =>
    rw [upperEscapes_sign hb]
    exact ⟨List.mem_cons_self, Nat.succ_ne_zero _⟩
  | escape d e t hd he ih =>
    rw [upperEscapes_escape hd he]
    exact ⟨List.mem_cons_self, Nat.succ_ne_zero _⟩

theorem ascii_upperEscapes {t : Text} (h : ∀ c ∈ t, c.val < 0x80) : ∀ c ∈ (upperEscapes t).1, c.val < 0x80 := by
  induction t using escapes_induction with
  | nil => exact h
  | char c t hc ih =>
    rw [List.forall_mem_cons] at h
    rw [upperEscapes_cons hc]
    exact List.forall_mem_cons.2 ⟨h.1, ih h.2⟩
  | sign t hb ih =>
    rw [List.forall_mem_cons] at h
    rw [upperEscapes_sign hb]
    exact List.forall_mem_cons.2 ⟨h.1, ih h.2⟩
  | escape d e t hd he ih =>
    simp only [List.forall_mem_cons] at h
    have hdigit : ∀ {c : CodePoint}, Address.isHexDigit c = true → c.toUpper.val < 0x80 := fun hc =>
      lt_of_unreserved (isUnreserved_of_isHexDigit (isHexDigit_toUpper hc))
    rw [upperEscapes_escape hd he]
    simp only [List.forall_mem_cons]
    exact ⟨h.1, hdigit hd, hdigit he, ih h.2.2.2⟩

/-- The text that a path stands for when it is sent: its own escapes count as such only if every percent sign
begins one. -/
def meant (t : Text) : Text :=
  if (upperEscapes t).2.1 = (upperEscapes t).2.2 then decode (upperEscapes t).1 else (upperEscapes t).1

/-- Whether a path stands for itself: it has no percent sign, or some sign begins no escape, and no escape has
a letter in lower case. -/
def isItself (t : Text) : Bool :=
  (upperEscapes t).1 == t && ((upperEscapes t).2.2 == 0 || (upperEscapes t).2.1 != (upperEscapes t).2.2)

/-- What has no percent sign does not count in front of a text. -/
theorem upperEscapes_append_left {x : Text} (h : CodePoint.ofChar '%' ∉ x) (y : Text) :
    upperEscapes (x ++ y) = (x ++ (upperEscapes y).1, (upperEscapes y).2) := by
  induction x with
  | nil => rfl
  | cons c x ih =>
    rw [List.mem_cons, not_or] at h
    rw [List.cons_append, upperEscapes_cons (Ne.symm h.1), ih h.2]
    rfl

/-- What has no percent sign does not count behind a mark. -/
theorem upperEscapes_append_right {m : CodePoint} (hm : Address.isHexDigit m = false) {y : Text}
    (h : CodePoint.ofChar '%' ∉ m :: y) (x : Text) :
    upperEscapes (x ++ m :: y) = ((upperEscapes x).1 ++ m :: y, (upperEscapes x).2) := by
  have hbegins : ∀ x : Text, beginsHex x = false → beginsHex (x ++ m :: y) = false := by
    intro x hx
    match x with
    | [] => cases y <;> simp [beginsHex, hm]
    | [d] => simp [beginsHex, hm]
    | d :: e :: x => exact hx
  induction x using escapes_induction with
  | nil => rw [List.nil_append, upperEscapes_of_not_mem h]; rfl
  | char c x hc ih => rw [List.cons_append, upperEscapes_cons hc, upperEscapes_cons hc, ih]; rfl
  | sign x hb ih => rw [List.cons_append, upperEscapes_sign hb, upperEscapes_sign (hbegins x hb), ih]; rfl
  | escape d e x hd he ih =>
    rw [List.cons_append, List.cons_append, List.cons_append, upperEscapes_escape hd he,
      upperEscapes_escape hd he, ih]
    rfl

/-- Only the part of a text with its percent signs decides whether it stands for itself. -/
theorem isItself_append {x y : Text} {m : CodePoint} (hx : CodePoint.ofChar '%' ∉ x)
    (hm : Address.isHexDigit m = false) (hy : CodePoint.ofChar '%' ∉ m :: y) (t : Text) :
    isItself (x ++ (t ++ m :: y)) = isItself t := by
  unfold isItself
  rw [upperEscapes_append_left hx, upperEscapes_append_right hm hy]
  simp [Bool.beq_eq_decide_eq]

/-- **A path is read as what it stands for**, once it has got its escapes and those of unreserved characters
have been undone. -/
theorem decode_component {allowed : CodePoint → Bool} (hunreserved : ∀ c, isUnreserved c = true → allowed c = true)
    (hsign : allowed '%' = false) {t : Text} (h : ∀ c ∈ t, c.val < 0x80) :
    ∃ u, unescapeUnreserved (component allowed t) = some u ∧ decode u = meant t := by
  obtain ⟨-, hescaped⟩ := escaped_upperEscapes t
  unfold component meant
  by_cases heq : (upperEscapes t).2.1 = (upperEscapes t).2.2
  · -- every percent sign begins an escape
    obtain ⟨u, hu, hbytes⟩ := (hescaped heq).bytes_unescape hunreserved (ascii_upperEscapes h)
    refine ⟨u, ?_, ?_⟩
    · simpa [heq] using hu
    · rw [if_pos heq]
      unfold decode
      rw [hbytes]
  · have hkept : (fun c => allowed c || ((upperEscapes t).2.1 == (upperEscapes t).2.2 && c == '%')) = allowed := by
      funext c
      simp [heq]
    dsimp only
    rw [hkept]
    refine ⟨_, unescape_encode hunreserved hsign _, ?_⟩
    rw [if_neg heq]
    unfold decode
    rw [bytes_encode hsign, Utf8.decodeLossy_unitsOf (Utf8.writable_of_ascii (ascii_upperEscapes h))]

theorem length_decode_le (t : Text) : (decode t).length ≤ t.length :=
  (Utf8.length_decodeLossy_le _).trans (length_bytes_le t)

/-- A path stands for no more characters than it has. -/
theorem length_meant_le (t : Text) : (meant t).length ≤ t.length := by
  have hlength := length_upperEscapes t
  unfold meant
  split
  · exact hlength ▸ length_decode_le _
  · exact Nat.le_of_eq hlength

/-- **The paths that stand for themselves.** -/
theorem meant_eq_iff {t : Text} (h : ∀ c ∈ t, c.val < 0x80) : meant t = t ↔ isItself t = true := by
  obtain ⟨-, hescaped⟩ := escaped_upperEscapes t
  have hlength := length_upperEscapes t
  unfold meant isItself
  by_cases hsign : CodePoint.ofChar '%' ∈ t
  · obtain ⟨hmem, hsigns⟩ := sign_mem_upperEscapes hsign
    by_cases heq : (upperEscapes t).2.1 = (upperEscapes t).2.2
    · -- what stands for its escapes is shorter
      have hlt := (hescaped heq).length_bytes_lt hmem
      have hle := Utf8.length_decodeLossy_le (bytes (upperEscapes t).1)
      have hne : decode (upperEscapes t).1 ≠ t := by
        intro he
        have := congrArg List.length he
        unfold decode at this
        omega
      simp [heq, hne, hsigns]
    · simp [heq]
  · have hself : decode t = t := by
      have hall := decode_append_of_not_mem hsign h []
      rwa [List.append_nil, show decode [] = [] from rfl, List.append_nil] at hall
    simp [upperEscapes_of_not_mem hsign, hself]

end Url.Escape

end RemoteTree
