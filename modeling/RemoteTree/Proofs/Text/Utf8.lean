import Mathlib.Data.List.TakeWhile
import RemoteTree.Proofs.Text.Basic

/-!
# Text that is written can be read

* `Utf8.writable`: the texts that can be written, those without surrogates.
* `Utf8.head_units`: the bytes of a code point are read as the code point, whatever comes behind them.
* `Utf8.decode_unitsOf`: **the bytes of a text are read as the text**, by induction on its code points.
* `Utf8.encode_of_ascii`, `Utf8.decode_ofAscii`: a text in ASCII has one byte for each character.
-/

namespace RemoteTree.Utf8

/-- Whether a text can be written: it has no surrogates. -/
def writable (t : Text) : Bool := t.all fun c => !c.isSurrogate

theorem writable_cons {c : CodePoint} {t : Text} (h : writable (c :: t) = true) :
    c.isSurrogate = false ∧ writable t = true := by
  simpa [writable] using h

theorem writable_of_ascii {t : Text} (h : ∀ c ∈ t, c.val < 0x80) : writable t = true := by
  refine List.all_eq_true.2 fun c hc => ?_
  have hlt := h c hc
  simp only [CodePoint.isSurrogate, CodePoint.within, Bool.not_eq_true', Bool.and_eq_false_iff,
    decide_eq_false_iff_not]
  omega

/-- A text without surrogates is written byte by byte. -/
theorem encode_of_writable {t : Text} (h : writable t = true) : encode t = .ok (unitsOf t) := by
  have hdrop : t.dropWhile (fun c => !c.isSurrogate) = [] := by
    rw [List.dropWhile_eq_nil_iff]
    exact List.all_eq_true.1 h
  simp only [encode, Text.firstFault, hdrop]

/-- A text with surrogates is not written. -/
theorem encode_of_not_writable {t : Text} (h : writable t = false) : ∃ fault, encode t = .error fault := by
  cases hdrop : t.dropWhile (fun c => !c.isSurrogate) with
  | nil =>
    rw [List.dropWhile_eq_nil_iff] at hdrop
    rw [writable, List.all_eq_true.2 hdrop] at h
    cases h
  | cons c rest =>
    simp only [encode, Text.firstFault, hdrop]
    exact ⟨_, rfl⟩

/-! ## One code point -/

theorem isTail_ofNat {n : Nat} (h : n < 64) : isTail (UInt8.ofNat (0x80 + n)) = true := by
  simp only [isTail, UInt8.toNat_ofNat', Bool.and_eq_true, decide_eq_true_eq]
  omega

theorem low_ofNat {n : Nat} (h : n < 64) : low (UInt8.ofNat (0x80 + n)) = n := by
  simp only [low, UInt8.toNat_ofNat']
  omega

/-- **The bytes of a code point are read as the code point**, whatever comes behind them. -/
theorem head_units {c : CodePoint} (hc : c.isSurrogate = false) (rest : Bytes) :
    ∃ b bs, units c = b :: bs ∧ head false b (bs ++ rest) = .char c bs.length := by
  have hlt := c.lt
  have hbyte : ∀ n < 256, (UInt8.ofNat n).toNat = n := fun _ hn => UInt8.toNat_ofNat_of_lt' hn
  have hval : ∀ n, n = c.val → CodePoint.ofNat n = c := by
    rintro _ rfl
    exact CodePoint.ofNat_val c
  have hsurrogate : ¬ (0xD800 ≤ c.val ∧ c.val ≤ 0xDFFF) := by
    simpa [CodePoint.isSurrogate, CodePoint.within] using hc
  -- the lengths of a code point are those of its number
  by_cases h1 : c.val < 0x80
  · refine ⟨UInt8.ofNat c.val, [], by simp [units, h1], ?_⟩
    simp only [head, hbyte c.val (by omega), if_pos h1]
    rw [hval _ rfl]
    rfl
  by_cases h2 : c.val < 0x800
  · refine ⟨UInt8.ofNat (0xC0 + c.val / 64), [UInt8.ofNat (0x80 + c.val % 64)],
      by simp [units, h1, h2], ?_⟩
    have hmod : c.val % 64 < 64 := Nat.mod_lt _ (by decide)
    have hfirst : (UInt8.ofNat (0xC0 + c.val / 64)).toNat = 0xC0 + c.val / 64 := hbyte _ (by omega)
    simp only [head, hfirst, List.cons_append, List.nil_append, isTail_ofNat hmod, low_ofNat hmod]
    rw [if_neg (by omega), if_neg (by omega), if_pos (by omega), hval _ (by omega)]
    rfl
  by_cases h3 : c.val < 0x10000
  · refine ⟨UInt8.ofNat (0xE0 + c.val / 4096),
      [UInt8.ofNat (0x80 + c.val / 64 % 64), UInt8.ofNat (0x80 + c.val % 64)],
      by simp [units, h1, h2, h3], ?_⟩
    have hmid : c.val / 64 % 64 < 64 := Nat.mod_lt _ (by decide)
    have hmod : c.val % 64 < 64 := Nat.mod_lt _ (by decide)
    have hfirst : (UInt8.ofNat (0xE0 + c.val / 4096)).toNat = 0xE0 + c.val / 4096 := hbyte _ (by omega)
    have hsecond : (UInt8.ofNat (0x80 + c.val / 64 % 64)).toNat = 0x80 + c.val / 64 % 64 :=
      hbyte _ (by omega)
    simp only [head, hfirst, hsecond, List.cons_append, List.nil_append, isTail_ofNat hmid,
      isTail_ofNat hmod, low_ofNat hmid, low_ofNat hmod]
    rw [if_neg (by omega), if_neg (by omega), if_neg (by omega), if_pos (by omega)]
    -- neither could be written shorter, nor is it a surrogate
    have hshort : ¬ (0xE0 + c.val / 4096 = 0xE0 ∧ 0x80 + c.val / 64 % 64 < 0xA0) := by omega
    have hpair : ¬ (0xE0 + c.val / 4096 = 0xED ∧ 0xA0 ≤ 0x80 + c.val / 64 % 64) := by omega
    rw [if_neg (by simpa using hshort), if_neg (by simpa using hpair), if_pos trivial, hval _ (by omega)]
    rfl
  · refine ⟨UInt8.ofNat (0xF0 + c.val / 262144),
      [UInt8.ofNat (0x80 + c.val / 4096 % 64), UInt8.ofNat (0x80 + c.val / 64 % 64),
        UInt8.ofNat (0x80 + c.val % 64)], by simp [units, h1, h2, h3], ?_⟩
    have hupper : c.val / 4096 % 64 < 64 := Nat.mod_lt _ (by decide)
    have hmid : c.val / 64 % 64 < 64 := Nat.mod_lt _ (by decide)
    have hmod : c.val % 64 < 64 := Nat.mod_lt _ (by decide)
    have hfirst : (UInt8.ofNat (0xF0 + c.val / 262144)).toNat = 0xF0 + c.val / 262144 :=
      hbyte _ (by omega)
    have hsecond : (UInt8.ofNat (0x80 + c.val / 4096 % 64)).toNat = 0x80 + c.val / 4096 % 64 :=
      hbyte _ (by omega)
    simp only [head, hfirst, hsecond, List.cons_append, List.nil_append, isTail_ofNat hupper,
      isTail_ofNat hmid, isTail_ofNat hmod, low_ofNat hupper, low_ofNat hmid, low_ofNat hmod]
    rw [if_neg (by omega), if_neg (by omega), if_neg (by omega), if_neg (by omega), if_pos (by omega)]
    -- neither could it be written shorter, nor does it lie beyond the last plane
    have hbounds : ¬ ((0xF0 + c.val / 262144 = 0xF0 ∧ 0x80 + c.val / 4096 % 64 < 0x90) ∨
        (0xF0 + c.val / 262144 = 0xF4 ∧ 0x90 ≤ 0x80 + c.val / 4096 % 64)) := by omega
    simp only [Bool.not_true, Bool.false_or, Bool.or_eq_true, Bool.and_eq_true, decide_eq_true_eq]
    rw [if_neg hbounds, if_neg Bool.false_ne_true, if_pos trivial, hval _ (by omega)]
    rfl

/-! ## Texts -/

/-- The bytes that belong to what came before are passed over. -/
theorem scanFrom_skip (surrogates : Bool) (pos : Nat) (bs rest : Bytes) :
    scanFrom surrogates pos bs.length (bs ++ rest) = scanFrom surrogates (pos + bs.length) 0 rest := by
  induction bs generalizing pos with
  | nil => rfl
  | cons b bs ih =>
    rw [List.cons_append, List.length_cons, scanFrom, ih]
    congr 1
    omega

/-- What is found in the bytes of a text are its code points. -/
theorem scanFrom_unitsOf {t : Text} (h : writable t = true) (pos : Nat) :
    scanFrom false pos 0 (unitsOf t) = t.map .ok := by
  induction t generalizing pos with
  | nil => rfl
  | cons c t ih =>
    obtain ⟨hc, ht⟩ := writable_cons h
    obtain ⟨b, bs, hunits, hhead⟩ := head_units hc (unitsOf t)
    have hbytes : unitsOf (c :: t) = b :: (bs ++ unitsOf t) := by
      simp [unitsOf, hunits]
    rw [hbytes, scanFrom, hhead]
    simp only [scanFrom_skip, ih ht, List.map_cons]

/-- Code points without a fault between them are a text. -/
theorem decode_of_scan {surrogates : Bool} {bs : Bytes} {t : Text} (h : scan surrogates bs = t.map .ok) :
    decode surrogates bs = .ok t := by
  unfold decode
  rw [h]
  clear h
  induction t with
  | nil => rfl
  | cons c t ih =>
    rw [List.map_cons, List.mapM_cons, ih]
    rfl

/-- **The bytes of a text are read as the text.** -/
theorem decode_unitsOf {t : Text} (h : writable t = true) : decode false (unitsOf t) = .ok t :=
  decode_of_scan (scanFrom_unitsOf h 0)

/-! ## Texts in ASCII -/

variable {t : Text}

theorem unitsOf_of_ascii (h : ∀ c ∈ t, c.val < 0x80) : unitsOf t = Bytes.ofAscii t := by
  induction t with
  | nil => rfl
  | cons c t ih =>
    have hunits : units c = [UInt8.ofNat c.val] := if_pos (h c List.mem_cons_self)
    have hrest := ih fun d hd => h d (List.mem_cons_of_mem _ hd)
    show units c ++ unitsOf t = UInt8.ofNat c.val :: Bytes.ofAscii t
    rw [hunits, hrest]
    rfl

/-- **A text in ASCII** is written with one byte for each character. -/
theorem encode_of_ascii (h : ∀ c ∈ t, c.val < 0x80) : encode t = .ok (Bytes.ofAscii t) := by
  rw [encode_of_writable (writable_of_ascii h), unitsOf_of_ascii h]

/-- It is read in the same way, whether surrogates are taken or not. -/
theorem decode_ofAscii (surrogates : Bool) (h : ∀ c ∈ t, c.val < 0x80) :
    decode surrogates (Bytes.ofAscii t) = .ok t := by
  have hscan : ∀ pos, scanFrom surrogates pos 0 (Bytes.ofAscii t) = t.map .ok := by
    induction t with
    | nil => exact fun pos => rfl
    | cons c t ih =>
      intro pos
      have hlt : c.val < 0x80 := h c List.mem_cons_self
      have hbyte : (UInt8.ofNat c.val).toNat = c.val := UInt8.toNat_ofNat_of_lt' (by simp only [UInt8.size]; omega)
      have hhead : head surrogates (UInt8.ofNat c.val) (Bytes.ofAscii t) = .char c 0 := by
        simp only [head, hbyte, if_pos hlt, CodePoint.ofNat_val]
      show scanFrom surrogates pos 0 (UInt8.ofNat c.val :: Bytes.ofAscii t) = _
      rw [scanFrom, hhead]
      exact congrArg (Except.ok c :: ·) (ih (fun d hd => h d (List.mem_cons_of_mem _ hd)) (pos + 1))
  exact decode_of_scan (hscan 0)

end RemoteTree.Utf8
