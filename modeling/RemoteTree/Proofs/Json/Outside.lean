import RemoteTree.Proofs.Json.Conformity

/-!
# What stands outside of strings

No letter of a JSON text outside of its strings is an `N` or an `I`, and the words for not-a-number and for the
infinities have one. So a text with such a word in the place of a value is not JSON, whatever stands around it.

* `Json.Place`, `Json.bare`: a text is gone through from left to right, and what stands outside of strings is kept.
* `Json.Closes`: a text that leaves no string open; what is kept of two such texts in a row is kept of each
  (`bare_append`).
* `Json.IsTame`: no such letter stands outside of strings. `IsValue.isTame`: **JSON is tame.**
* `Json.isJson_iff`: **the bytes of a value are JSON exactly if all floats in it are finite.**
-/

namespace RemoteTree

open CodePoint

namespace Json

/-- Where a character of a text stands: outside of strings, inside of one, or behind a backslash there. -/
inductive Place where
  | outside | inside | escaped
deriving DecidableEq

namespace Place

/-- The place behind a character. -/
def next : Place → CodePoint → Place
  | .outside, c => if c = .doubleQuote then .inside else .outside
  | .inside, c => if c = .doubleQuote then .outside else if c = .backslash then .escaped else .inside
  | .escaped, _ => .inside

/-- The place behind a text. -/
def after (p : Place) (t : Text) : Place := t.foldl next p

end Place

/-- What stands outside of the strings of a text, without their quotes. -/
def bare : Place → Text → Text
  | _, [] => []
  | p, c :: t => if p = .outside ∧ c ≠ .doubleQuote then c :: bare (p.next c) t else bare (p.next c) t

/-- A text that leaves no string open. -/
def Closes (t : Text) : Prop := Place.outside.after t = .outside

instance (t : Text) : Decidable (Closes t) := inferInstanceAs (Decidable (_ = _))

variable {c : CodePoint} {s t : Text} {ts : List Text} {v : Value}

theorem after_append (p : Place) (s t : Text) : p.after (s ++ t) = (p.after s).after t := List.foldl_append

theorem bare_append (p : Place) (s t : Text) : bare p (s ++ t) = bare p s ++ bare (p.after s) t := by
  induction s generalizing p with
  | nil => rfl
  | cons c s ih =>
    rw [List.cons_append, bare, bare, Place.after, List.foldl_cons, ← Place.after, ih]
    split <;> rfl

theorem Closes.append (hs : Closes s) (ht : Closes t) : Closes (s ++ t) := by
  rw [Closes, after_append, hs, ht]

/-- A text without quotes stands outside as a whole. -/
theorem closes_of_no_quote (h : ∀ c ∈ t, c ≠ .doubleQuote) : Closes t ∧ bare .outside t = t := by
  induction t with
  | nil => exact ⟨rfl, rfl⟩
  | cons c t ih =>
    rw [List.forall_mem_cons] at h
    have hnext : Place.outside.next c = .outside := if_neg h.1
    obtain ⟨hcloses, hbare⟩ := ih h.2
    refine ⟨?_, ?_⟩
    · rw [Closes, Place.after, List.foldl_cons, hnext]
      exact hcloses
    · rw [bare, if_pos ⟨rfl, h.1⟩, hnext, hbare]

theorem closes_join (h : ∀ t ∈ ts, Closes t) : Closes (Text.join ", " ts) :=
  Text.join_induction rfl Closes.append (by decide) h

/-! ## Tame texts -/

/-- Whether a character begins none of the words for not-a-number and for the infinities. -/
def isTameLetter (c : CodePoint) : Bool := c != ofChar 'N' && c != ofChar 'I'

/-- A text that leaves no string open, and has tame letters outside of its strings. -/
structure IsTame (t : Text) : Prop where
  closes : Closes t
  letters : ∀ c ∈ bare .outside t, isTameLetter c = true

instance (t : Text) : Decidable (IsTame t) :=
  decidable_of_iff (Closes t ∧ ∀ c ∈ bare .outside t, isTameLetter c = true)
    ⟨fun h => ⟨h.1, h.2⟩, fun h => ⟨h.closes, h.letters⟩⟩

theorem IsTame.append (hs : IsTame s) (ht : IsTame t) : IsTame (s ++ t) := by
  refine ⟨hs.closes.append ht.closes, ?_⟩
  rw [bare_append, hs.closes]
  exact List.forall_mem_append.2 ⟨hs.letters, ht.letters⟩

/-- The two parts of a tame text are tame, if no string is open between them. -/
theorem IsTame.of_append (hs : Closes s) (h : IsTame (s ++ t)) : IsTame s ∧ IsTame t := by
  obtain ⟨hcloses, hletters⟩ := h
  rw [Closes, after_append, hs] at hcloses
  rw [bare_append, hs, List.forall_mem_append] at hletters
  exact ⟨⟨hs, hletters.1⟩, hcloses, hletters.2⟩

/-- Tame letters without quotes are tame. -/
theorem isTame_of_letters (h : ∀ c ∈ t, c ≠ .doubleQuote ∧ isTameLetter c = true) : IsTame t := by
  obtain ⟨hcloses, hbare⟩ := closes_of_no_quote fun c hc => (h c hc).1
  refine ⟨hcloses, ?_⟩
  rw [hbare]
  exact fun c hc => (h c hc).2

theorem isTame_join {sep : Text} (hsep : IsTame sep) (h : ∀ t ∈ ts, IsTame t) : IsTame (Text.join sep ts) :=
  Text.join_induction ⟨rfl, List.forall_mem_nil _⟩ IsTame.append hsep h

/-- The members of a tame row are tame. -/
theorem isTame_of_join (hcloses : ∀ t ∈ ts, Closes t) (h : IsTame (Text.join ", " ts)) : ∀ t ∈ ts, IsTame t := by
  induction ts with
  | nil => exact List.forall_mem_nil _
  | cons t ts ih =>
    rw [List.forall_mem_cons] at hcloses ⊢
    cases ts with
    | nil => exact ⟨h, List.forall_mem_nil _⟩
    | cons u us =>
      have hcomma : Closes ", " := by decide
      rw [Text.join, List.append_assoc] at h
      obtain ⟨ht, hrest⟩ := IsTame.of_append hcloses.1 h
      exact ⟨ht, ih hcloses.2 (IsTame.of_append hcomma hrest).2⟩

/-! ## JSON is tame -/

theorem isTame_of_blank (h : IsBlank t) : IsTame t := by
  refine isTame_of_letters fun c hc => ?_
  have hval := h c hc
  simp only [List.mem_cons, List.not_mem_nil, or_false] at hval
  rw [← ofNat_val c]
  rcases hval with hval | hval | hval | hval <;> rw [hval] <;> decide

theorem tame_of_isDigit (h : c.isDigit = true) : c ≠ .doubleQuote ∧ isTameLetter c = true := by
  simp only [CodePoint.isDigit, within, Bool.and_eq_true, decide_eq_true_eq] at h
  simp only [isTameLetter, Bool.and_eq_true, bne_iff_ne]
  refine ⟨?_, ?_, ?_⟩ <;> rintro rfl <;> exact absurd h (by decide)

theorem isTame_of_digits (h : IsDigits t) : IsTame t := isTame_of_letters fun c hc => tame_of_isDigit (h.2 c hc)

theorem isTame_of_number (h : IsNumber t) : IsTame t := by
  cases h with
  | mk hs hw hf he =>
    refine IsTame.append (IsTame.append (IsTame.append ?_ ?_) ?_) ?_
    · rcases hs with rfl | rfl <;> decide
    · cases hw with
      | zero => decide
      | digits h => exact isTame_of_digits h
    · cases hf with
      | absent => decide
      | digits h => exact IsTame.append (by decide) (isTame_of_digits h)
    · cases he with
      | absent => decide
      | digits hm hs h =>
        refine IsTame.append (IsTame.append ?_ ?_) (isTame_of_digits h)
        · rcases hm with rfl | rfl <;> decide
        · rcases hs with rfl | rfl | rfl <;> decide

/-- Characters of a string do not leave it. -/
theorem inside_of_chars (h : IsChars t) : Place.inside.after t = .inside ∧ bare .inside t = [] := by
  have hkept : ∀ {c : CodePoint} (t : Text), c ≠ .doubleQuote → c ≠ .backslash →
      Place.inside.after (c :: t) = Place.inside.after t ∧ bare .inside (c :: t) = bare .inside t := by
    intro c t hq hb
    simp [Place.after, Place.next, bare, hq, hb]
  have hescape : ∀ (c : CodePoint) (t : Text), Place.inside.after (.backslash :: c :: t) = Place.inside.after t ∧
      bare .inside (.backslash :: c :: t) = bare .inside t := by
    intro c t
    have hmark : CodePoint.backslash ≠ .doubleQuote := by decide
    simp [Place.after, Place.next, bare, hmark]
  have hhex : ∀ {c : CodePoint}, IsHexDigit c → c ≠ .doubleQuote ∧ c ≠ .backslash := by
    intro c hc
    refine ⟨?_, ?_⟩ <;> rintro rfl <;> exact absurd hc (by unfold IsHexDigit; decide)
  induction h with
  | nil => exact ⟨rfl, rfl⟩
  | @cons s t hs ht ih =>
    cases hs with
    | itself _ hq hb =>
      obtain ⟨hafter, hbare⟩ := hkept t hq hb
      exact ⟨hafter.trans ih.1, hbare.trans ih.2⟩
    | @letter c _ =>
      obtain ⟨hafter, hbare⟩ := hescape c t
      exact ⟨hafter.trans ih.1, hbare.trans ih.2⟩
    | @digits a b c d h =>
      simp only [List.forall_mem_cons] at h
      obtain ⟨ha, hb, hc, hd, -⟩ := h
      have hu := hescape (ofChar 'u') ([a, b, c, d] ++ t)
      have h1 := hkept (b :: c :: d :: t) (hhex ha).1 (hhex ha).2
      have h2 := hkept (c :: d :: t) (hhex hb).1 (hhex hb).2
      have h3 := hkept (d :: t) (hhex hc).1 (hhex hc).2
      have h4 := hkept t (hhex hd).1 (hhex hd).2
      exact ⟨(hu.1.trans (h1.1.trans (h2.1.trans (h3.1.trans h4.1)))).trans ih.1,
        (hu.2.trans (h1.2.trans (h2.2.trans (h3.2.trans h4.2)))).trans ih.2⟩

theorem isTame_of_string (h : IsString t) : IsTame t := by
  cases h with
  | @mk t h =>
    obtain ⟨hafter, hbare⟩ := inside_of_chars h
    have hopen : ∀ s : Text, Place.outside.after (.doubleQuote :: s) = Place.inside.after s ∧
        bare .outside (.doubleQuote :: s) = bare .inside s := fun s => ⟨rfl, rfl⟩
    refine ⟨?_, ?_⟩
    · rw [Closes, List.cons_append, (hopen _).1, after_append, hafter]
      rfl
    · rw [List.cons_append, (hopen _).2, bare_append, hbare, hafter]
      exact fun c hc => nomatch hc

/-- A text with blanks around it is tame if it is without them. -/
theorem isTame_padded {p : Padded} (h : IsTame p.core) : IsTame p.text :=
  ((isTame_of_blank p.before_blank).append h).append (isTame_of_blank p.after_blank)

/-- **JSON is tame.** -/
theorem IsValue.isTame (h : IsValue t) : IsTame t := by
  have hbrackets : IsTame "[" ∧ IsTame "]" := by decide
  have hbraces : IsTame "\x7b" ∧ IsTame "\x7d" := by decide
  induction h with
  | null | true | false => decide
  | number h => exact isTame_of_number h
  | string h => exact isTame_of_string h
  | emptyArray h => exact (hbrackets.1.append (isTame_of_blank h)).append hbrackets.2
  | array _ _ ih =>
    refine (hbrackets.1.append (isTame_join (by decide) ?_)).append hbrackets.2
    exact List.forall_mem_map.2 fun p hp => isTame_padded (ih p hp)
  | emptyObject h => exact (hbraces.1.append (isTame_of_blank h)).append hbraces.2
  | object _ hk _ ih =>
    refine (hbraces.1.append (isTame_join (by decide) ?_)).append hbraces.2
    refine List.forall_mem_map.2 fun m hm => ?_
    exact ((isTame_padded (isTame_of_string (hk m hm))).append (by decide)).append (isTame_padded (ih m hm))

theorem IsText.isTame (h : IsText t) : IsTame t := by
  obtain ⟨p, hp, rfl⟩ := h
  exact isTame_padded hp.isTame

/-! ## What is written -/

/-- A double is written without quotes, and in tame letters only if it is finite. -/
theorem closes_writeDouble (x : Double) : Closes (writeDouble x) ∧ (IsTame (writeDouble x) → x.IsFinite) := by
  cases x with
  | nan => exact ⟨by decide, fun h => absurd h (by decide)⟩
  | infinite negative => cases negative <;> exact ⟨by decide, fun h => absurd h (by decide)⟩
  | finite negative m e =>
    refine ⟨Closes.append ?_ ?_, fun _ => trivial⟩
    · cases negative <;> decide
    · refine (closes_of_no_quote fun c hc => ?_).1
      have hdecimal := Double.isDecimalChar_of_mem hc
      rintro rfl
      exact absurd hdecimal (by decide)

/-- A row between two marks leaves no string open if none of its members does, and these are tame if it is. -/
theorem isTame_of_row (front back : Text) (hf : Closes front) (hb : Closes back) (h : ∀ t ∈ ts, Closes t) :
    Closes (front ++ Text.join ", " ts ++ back) ∧
      (IsTame (front ++ Text.join ", " ts ++ back) → ∀ t ∈ ts, IsTame t) := by
  have hjoin := closes_join h
  refine ⟨(hf.append hjoin).append hb, fun htame => ?_⟩
  have hfront := (IsTame.of_append (hf.append hjoin) htame).1
  exact isTame_of_join h (IsTame.of_append hf hfront).2

/-- An entry leaves no string open if its value does not, and the value is tame if the entry is. -/
theorem isTame_of_entry (key : Text) {value : Text} (h : Closes value) :
    Closes (writeText key ++ ": " ++ value) ∧ (IsTame (writeText key ++ ": " ++ value) → IsTame value) := by
  have hcolon : Closes ": " := by decide
  have hkey := (isTame_of_string (isString_writeText key)).closes.append hcolon
  exact ⟨hkey.append h, fun htame => (IsTame.of_append hkey htame).2⟩

/-- **What is written leaves no string open**, and it is tame only if all floats in the value are finite. -/
theorem finite_of_isTame (h : write v = .ok t) : Closes t ∧ (IsTame t → v.EachFloat Double.IsFinite) := by
  induction v using Value.induction generalizing t with
  | step v ih =>
    have hleaf : v.inner = [] → (∀ x, v = .float x → x.IsFinite) → v.EachFloat Double.IsFinite :=
      fun hinner hv => Value.everywhere_of_empty hv hinner
    have hlist : ∀ items, v.inner = items → (∀ x, v ≠ .float x) → write (.list items) = .ok t →
        Closes t ∧ (IsTame t → v.EachFloat Double.IsFinite) := by
      rintro items rfl hv h
      obtain ⟨ts, hts, rfl⟩ := write_list_eq_ok.1 h
      have hcloses : ∀ u ∈ ts, Closes u := by
        intro u hu
        obtain ⟨w, hw, hwrite⟩ := of_mem_mapM (mapM_eq_ok.2 hts) u hu
        exact (ih w hw hwrite).1
      obtain ⟨hrow, htame⟩ := isTame_of_row "[" "]" (by decide) (by decide) hcloses
      refine ⟨hrow, fun h => Value.everywhere_iff.2 ⟨fun x hx => absurd hx (hv x), fun w hw => ?_⟩⟩
      obtain ⟨u, hu, hwrite⟩ := exists_of_mem_row hts hw
      exact (ih w hw hwrite).2 (htame h u hu)
    cases v with
    | none =>
      obtain rfl := Except.ok.inj h
      exact ⟨by decide, fun _ => hleaf rfl fun x hx => nomatch hx⟩
    | bool b =>
      obtain rfl := Except.ok.inj h
      exact ⟨by cases b <;> decide, fun _ => hleaf rfl fun x hx => nomatch hx⟩
    | int n =>
      obtain ⟨-, rfl⟩ := writeInt_eq_ok h
      exact ⟨(isTame_of_number (isNumber_ofInt n)).closes, fun _ => hleaf rfl fun x hx => nomatch hx⟩
    | float x =>
      obtain rfl := Except.ok.inj h
      obtain ⟨hcloses, hfinite⟩ := closes_writeDouble x
      exact ⟨hcloses, fun h => hleaf rfl fun y hy => Value.float.inj hy ▸ hfinite h⟩
    | text s =>
      obtain rfl := Except.ok.inj h
      exact ⟨(isTame_of_string (isString_writeText s)).closes, fun _ => hleaf rfl fun x hx => nomatch hx⟩
    | list items => exact hlist items rfl (fun x hx => nomatch hx) h
    | tuple items => exact hlist items rfl (fun x hx => nomatch hx) (write_tuple items ▸ h)
    | dict entries =>
      obtain ⟨ts, hts, rfl⟩ := write_dict_eq_ok.1 h
      have hentry : ∀ e ∈ entries, ∀ u, writeEntry e = .ok u →
          Closes u ∧ (IsTame u → e.2.EachFloat Double.IsFinite) := by
        intro e he u hu
        obtain ⟨key, value, -, hvalue, rfl⟩ := writeEntry_eq_ok.1 hu
        obtain ⟨hcloses, hfinite⟩ := ih e.2 (List.mem_map_of_mem he) hvalue
        obtain ⟨hwhole, htame⟩ := isTame_of_entry key hcloses
        exact ⟨hwhole, fun h => hfinite (htame h)⟩
      have hcloses : ∀ u ∈ ts, Closes u := by
        intro u hu
        obtain ⟨e, he, hwrite⟩ := of_mem_mapM (mapM_eq_ok.2 hts) u hu
        exact (hentry e he u hwrite).1
      obtain ⟨hrow, htame⟩ := isTame_of_row "\x7b" "\x7d" (by decide) (by decide) hcloses
      refine ⟨hrow, fun h => Value.everywhere_iff.2 ⟨fun x hx => (nomatch hx), ?_⟩⟩
      refine List.forall_mem_map.2 fun e he => ?_
      obtain ⟨u, hu, hwrite⟩ := exists_of_mem_row hts he
      exact (hentry e he u hwrite).2 (htame h u hu)
    | bytes | set | object | again => cases h

/-- **The bytes of a value are JSON** exactly if all floats in it are finite. -/
theorem isJson_iff (hdouble : v.EachFloat Double.IsBinary64) {bs : Bytes} (h : encode v = .ok bs) :
    IsJson bs ↔ v.EachFloat Double.IsFinite := by
  obtain ⟨t, ht, rfl⟩ := encode_eq_ok.1 h
  have hdecode := Utf8.decode_ofAscii false (visible_of_write v ht).lt
  constructor
  · rintro ⟨u, hu, htext⟩
    rw [hdecode] at hu
    obtain rfl := Except.ok.inj hu
    exact (finite_of_isTame ht).2 htext.isTame
  · intro hfinite
    exact ⟨t, hdecode, (isValue_of_write hdouble hfinite ht).isText⟩

end Json

end RemoteTree
