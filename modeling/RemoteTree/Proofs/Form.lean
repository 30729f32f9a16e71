import RemoteTree.Form
import RemoteTree.Proofs.Text.Utf8
import RemoteTree.Proofs.Url.Requote
import RemoteTree.Url.Target

/-!
# Forms can be read

A form is read without a look at how it was written: it is cut at every `&`, each piece at its first `=`, and
names and values are read byte by byte.

* `Form.read`: the names and values of a form.
* `Form.IsForm`: the texts that forms are.
* `Form.bytes?_encodeBytes`: bytes that are encoded are read as they were, by induction on the bytes.
* `Form.read_joinPairs`: **what is written into a form is what is read from it**.
-/

namespace RemoteTree.Form

/-! ## The reader -/

/-- The bytes that a name or a value stands for. -/
def bytes? : Text → Option Bytes
  | [] => some []
  | c :: rest =>
    if c = '%' then
      match rest with
      | d :: e :: rest => do return UInt8.ofNat (← Url.escaped? d e) :: (← bytes? rest)
      | _ => none
    else if c = '+' then (bytes? rest).map (0x20 :: ·)
    else if c.isAscii then (bytes? rest).map (UInt8.ofNat c.val :: ·)
    else none

/-- The text that a name or a value stands for. -/
def text? (t : Text) : Option Text := (bytes? t).bind fun bs => (Utf8.decode false bs).toOption

/-- A name and its value. -/
def pair? (t : Text) : Option (Text × Text) :=
  match t.cut '=' with
  | (name, some value) => do return (← text? name, ← text? value)
  | (_, none) => none

/-- The names and values of a form; `none` if the text is no form. -/
def read (t : Text) : Option (List (Text × Text)) :=
  if t = [] then some [] else (t.pieces '&').mapM pair?

/-! ## Encoded bytes -/

/-- What may stand in a form: ASCII letters and digits, and `_.-~+%&=`. -/
def isFormChar (c : CodePoint) : Bool :=
  c.isLetterOrDigit || (Text.ofString "_.-~+%&=").contains c

/-- Encoded bytes in a row, and the marks between names and values. -/
inductive IsForm : Text → Prop where
  | nil : IsForm []
  | mark {c : CodePoint} {t : Text} (hc : c = '&' ∨ c = '=') (h : IsForm t) : IsForm (c :: t)
  | byte (b : UInt8) {t : Text} (h : IsForm t) : IsForm (encodeByte b ++ t)

/-- A byte is encoded as a plus sign, as itself or as an escape. -/
theorem encodeByte_cases (b : UInt8) :
    (b = 0x20 ∧ encodeByte b = [CodePoint.ofChar '+']) ∨
      (∃ c : CodePoint, c.val = b.toNat ∧ c.val < 0x80 ∧ Url.Escape.isUnreserved c = true ∧
        encodeByte b = [c]) ∨
      (encodeByte b = Url.Escape.ofByte b ∧
        Url.Escape.isUnreserved (CodePoint.ofNat b.toNat) = false) := by
  have hval : (CodePoint.ofNat b.toNat).val = b.toNat :=
    CodePoint.val_ofNat (Nat.lt_trans b.toNat_lt (by decide))
  unfold encodeByte
  split
  · exact .inl ⟨‹_›, rfl⟩
  split
  · rename_i h
    rw [Bool.and_eq_true, decide_eq_true_eq] at h
    exact .inr (.inl ⟨_, hval, by omega, h.2, rfl⟩)
  · rename_i h
    refine .inr (.inr ⟨rfl, Bool.eq_false_iff.2 fun hu => h ?_⟩)
    have hlt := Url.Escape.lt_of_unreserved hu
    rw [hval] at hlt
    rw [hu, Bool.and_true, decide_eq_true hlt]

theorem not_reserved {c m : CodePoint} (hc : Url.Escape.isUnreserved c = true)
    (hm : Url.Escape.isUnreserved m = false) : c ≠ m := by
  rintro rfl
  rw [hc] at hm
  cases hm

/-- The two digits of an escape are read as its byte. -/
theorem escaped?_upperDigit {m n : Nat} (hm : m < 16) (hn : n < 16) :
    Url.escaped? (Url.Escape.upperDigit m) (Url.Escape.upperDigit n) = some (m * 16 + n) := by
  obtain ⟨hhi, -, hhv⟩ := Url.Escape.upperDigit_digit hm
  obtain ⟨hlo, -, hlv⟩ := Url.Escape.upperDigit_digit hn
  simp only [Url.escaped?, hhi, hlo, hhv, hlv]
  rfl

theorem bytes?_cons {c : CodePoint} (h : c ≠ '%') (t : Text) :
    bytes? (c :: t) =
      if c = '+' then (bytes? t).map (0x20 :: ·)
      else if c.isAscii then (bytes? t).map (UInt8.ofNat c.val :: ·)
      else none := by
  rw [bytes?.eq_def]
  exact if_neg h

/-- An encoded byte is read as the byte. -/
theorem bytes?_encodeByte (b : UInt8) (t : Text) :
    bytes? (encodeByte b ++ t) = (bytes? t).map (b :: ·) := by
  rcases encodeByte_cases b with ⟨rfl, h⟩ | ⟨c, hc, hlt, hu, h⟩ | ⟨h, -⟩
  · rw [h, List.singleton_append, bytes?_cons (by decide), if_pos rfl]
  · rw [h, List.singleton_append, bytes?_cons (not_reserved hu (by decide)),
      if_neg (not_reserved hu (by decide)), if_pos (show c.isAscii = true from decide_eq_true hlt), hc,
      UInt8.ofNat_toNat]
  · obtain ⟨m, hm, n, hn, hmn, hb⟩ := Url.Escape.ofByte_eq b
    rw [h, hb]
    show (do return UInt8.ofNat (← Url.escaped? _ _) :: (← bytes? t)) = _
    rw [escaped?_upperDigit hm hn, hmn]
    cases bytes? t <;> simp [UInt8.ofNat_toNat]

/-- **Bytes that are encoded are read as they were.** -/
theorem bytes?_encodeBytes (bs : Bytes) : bytes? (encodeBytes bs) = some bs := by
  induction bs with
  | nil => rfl
  | cons b bs ih =>
    show bytes? (encodeByte b ++ encodeBytes bs) = _
    rw [bytes?_encodeByte, ih]
    rfl

theorem isFormChar_of_unreserved {c : CodePoint} (h : Url.Escape.isUnreserved c = true) :
    isFormChar c = true := by
  unfold Url.Escape.isUnreserved at h
  simp only [Bool.or_eq_true, beq_iff_eq] at h
  rcases h with (((h | rfl) | rfl) | rfl) | rfl
  · simp [isFormChar, h]
  all_goals decide

theorem mem_encodeByte {b : UInt8} {c : CodePoint} (h : c ∈ encodeByte b) :
    Url.Escape.isUnreserved c = true ∨ c = '+' ∨ c = '%' := by
  have hdigits : ∀ n < 16, Url.Escape.isUnreserved (Url.Escape.upperDigit n) = true := by decide
  rcases encodeByte_cases b with ⟨-, he⟩ | ⟨x, -, -, hu, he⟩ | ⟨he, -⟩
  · rw [he, List.mem_singleton] at h
    exact .inr (.inl h)
  · rw [he, List.mem_singleton] at h
    exact .inl (h ▸ hu)
  · rw [he] at h
    exact Url.Escape.forall_mem_ofByte
      (p := fun c => Url.Escape.isUnreserved c = true ∨ c = '+' ∨ c = '%') (.inr (.inr rfl)) (fun n hn => .inl (hdigits n hn)) h

/-- The marks of a form are not in what is encoded. -/
theorem not_mem_encodeBytes {m : CodePoint} (hm : m = '&' ∨ m = '=') (bs : Bytes) : m ∉ encodeBytes bs := by
  intro hmem
  obtain ⟨b, -, hc⟩ := List.mem_flatMap.1 hmem
  rcases mem_encodeByte hc with hu | rfl | rfl
  · rcases hm with rfl | rfl <;> exact absurd hu (by decide)
  · rcases hm with hm | hm <;> exact absurd hm (by decide)
  · rcases hm with hm | hm <;> exact absurd hm (by decide)

/-- A text that is encoded is read as it was. -/
theorem text?_encode {t : Text} (h : Utf8.writable t = true) :
    text? (encodeBytes (Utf8.unitsOf t)) = some t := by
  unfold text?
  rw [bytes?_encodeBytes, Option.bind_some, Utf8.decode_unitsOf h]
  rfl

/-! ## Forms -/

/-- A name and a value as they stand in a form. -/
def encodePair (p : Text × Text) : Text × Text :=
  (encodeBytes (Utf8.unitsOf p.1), encodeBytes (Utf8.unitsOf p.2))

/-- A name and a value with the mark between them. -/
def pairText (p : Text × Text) : Text := (encodePair p).1 ++ CodePoint.ofChar '=' :: (encodePair p).2

theorem joinPairs_eq (ps : List (Text × Text)) :
    joinPairs (ps.map encodePair) = Text.join [CodePoint.ofChar '&'] (ps.map pairText) := by
  unfold joinPairs
  rw [List.map_map]
  congr 1
  refine List.map_congr_left fun p _ => ?_
  show (encodePair p).1 ++ [CodePoint.ofChar '='] ++ (encodePair p).2 = _
  rw [List.append_assoc]
  rfl

theorem not_mem_pairText (p : Text × Text) : CodePoint.ofChar '&' ∉ pairText p := by
  intro hmem
  rcases List.mem_append.1 hmem with hmem | hmem
  · exact not_mem_encodeBytes (.inl rfl) _ hmem
  rcases List.mem_cons.1 hmem with heq | hmem
  · exact absurd heq (by decide)
  · exact not_mem_encodeBytes (.inl rfl) _ hmem

theorem pair?_pairText {p : Text × Text} (hn : Utf8.writable p.1 = true) (hv : Utf8.writable p.2 = true) :
    pair? (pairText p) = some p := by
  have hcut : Text.cut '=' (pairText p) = ((encodePair p).1, some (encodePair p).2) :=
    Text.cut_append (not_mem_encodeBytes (.inr rfl) _) _
  have hname : text? (encodePair p).1 = some p.1 := text?_encode hn
  have hvalue : text? (encodePair p).2 = some p.2 := text?_encode hv
  simp [pair?, hcut, hname, hvalue]

theorem joinPairs_eq_nil {ps : List (Text × Text)} : joinPairs (ps.map encodePair) = [] ↔ ps = [] := by
  rw [joinPairs_eq]
  cases ps with
  | nil => simp [Text.join]
  | cons p ps =>
    rw [List.map_cons, Text.join_cons]
    simp [pairText]

/-- **What is written into a form is what is read from it**, names and values in their order. -/
theorem read_joinPairs {ps : List (Text × Text)}
    (h : ∀ p ∈ ps, Utf8.writable p.1 = true ∧ Utf8.writable p.2 = true) :
    read (joinPairs (ps.map encodePair)) = some ps := by
  unfold read
  split
  · rename_i hnil
    rw [joinPairs_eq_nil.1 hnil]
  rename_i hne
  have hps : ps ≠ [] := fun he => hne (joinPairs_eq_nil.2 he)
  -- no pair has the mark between pairs in it, so that the pieces are the pairs
  have hpieces : (joinPairs (ps.map encodePair)).pieces '&' = ps.map pairText := by
    rw [joinPairs_eq]
    refine Text.pieces_join (by simpa using hps) fun t ht => ?_
    obtain ⟨p, -, rfl⟩ := List.mem_map.1 ht
    exact not_mem_pairText p
  rw [hpieces]
  clear hpieces hps hne
  induction ps with
  | nil => rfl
  | cons p ps ih =>
    obtain ⟨hn, hv⟩ := h p List.mem_cons_self
    rw [List.map_cons, List.mapM_cons, pair?_pairText hn hv, ih fun x hx => h x (List.mem_cons_of_mem _ hx)]
    rfl

namespace IsForm

theorem append {t u : Text} (h : IsForm t) (g : IsForm u) : IsForm (t ++ u) := by
  induction h with
  | nil => exact g
  | mark hc _ ih => exact .mark hc ih
  | byte b _ ih =>
    rw [List.append_assoc]
    exact .byte b ih

theorem encodeBytes (bs : Bytes) : IsForm (encodeBytes bs) := by
  induction bs with
  | nil => exact .nil
  | cons b bs ih => exact .byte b ih

/-- Names and values that are forms make one. -/
theorem joinPairs_of {ps : List (Text × Text)} (h : ∀ p ∈ ps, IsForm p.1 ∧ IsForm p.2) : IsForm (joinPairs ps) := by
  have hpair : ∀ p ∈ ps, IsForm (p.1 ++ "=" ++ p.2) := fun p hp => by
    rw [List.append_assoc]
    exact (h p hp).1.append (.mark (.inr rfl) (h p hp).2)
  unfold Form.joinPairs
  cases ps with
  | nil => exact .nil
  | cons p ps =>
    rw [List.forall_mem_cons] at hpair
    rw [List.map_cons, show Text.ofString "&" = [CodePoint.ofChar '&'] from rfl, Text.join_cons]
    refine hpair.1.append ?_
    replace hpair := hpair.2
    clear h
    induction ps with
    | nil => exact .nil
    | cons q ps ih =>
      rw [List.forall_mem_cons] at hpair
      exact (IsForm.mark (.inl rfl) hpair.1).append (ih hpair.2)

theorem joinPairs (ps : List (Text × Text)) : IsForm (joinPairs (ps.map encodePair)) := by
  refine joinPairs_of fun p hp => ?_
  obtain ⟨q, -, rfl⟩ := List.mem_map.1 hp
  exact ⟨encodeBytes _, encodeBytes _⟩

/-- Only characters of forms stand in a form. -/
theorem isFormChar {t : Text} (h : IsForm t) {c : CodePoint} (hc : c ∈ t) : isFormChar c = true := by
  induction h with
  | nil => cases hc
  | mark hm _ ih =>
    rcases List.mem_cons.1 hc with rfl | hc
    · rcases hm with rfl | rfl <;> decide
    · exact ih hc
  | byte b _ ih =>
    rcases List.mem_append.1 hc with hc | hc
    · rcases mem_encodeByte hc with hu | rfl | rfl
      · exact isFormChar_of_unreserved hu
      · decide
      · decide
    · exact ih hc

end IsForm

end RemoteTree.Form
