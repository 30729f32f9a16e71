import Mathlib.Data.List.DropRight
import RemoteTree.Number.Reader
import RemoteTree.Proofs.Text.Lowercase

/-!
# Texts that write not-a-number

A decimal never writes it: only its word does, in either case, with a sign or none and with blanks around. Underscores
are dropped between digits alone, so none can stand in the word, and what stands for a digit or a blank of ASCII is no
letter.

* `Double.WritesNan`: the texts.
* `Double.ofAscii?_eq_nan_iff`, `Double.ofText?_eq_nan_iff`: **no other text is read as not-a-number.**
-/

namespace RemoteTree

namespace Text

variable {p : CodePoint → Bool}

/-- What stays of a text has blanks around it, and nothing else is taken off. -/
theorem exists_trim (p : CodePoint → Bool) (t : Text) :
    ∃ a b : Text, (∀ c ∈ a, p c = true) ∧ (∀ c ∈ b, p c = true) ∧ t = a ++ (trim p t ++ b) := by
  refine ⟨t.takeWhile p, (t.dropWhile p).rtakeWhile p, fun c hc => List.mem_takeWhile_imp hc,
    fun c hc => List.mem_rtakeWhile_imp hc, ?_⟩
  have hback : trim p t ++ (t.dropWhile p).rtakeWhile p = t.dropWhile p := List.rdropWhile_append_rtakeWhile
  rw [hback, List.takeWhile_append_dropWhile]

theorem dropWhile_of_forall {t : Text} (h : ∀ c ∈ t, p c = false) : t.dropWhile p = t := by
  cases t with
  | nil => rfl
  | cons c t => rw [List.dropWhile_cons, h c List.mem_cons_self, if_neg Bool.false_ne_true]

/-- What has no blank in it stays whatever blanks are put around it. -/
theorem trim_append {a b core : Text} (ha : ∀ c ∈ a, p c = true) (hb : ∀ c ∈ b, p c = true)
    (hcore : ∀ c ∈ core, p c = false) : trim p (a ++ (core ++ b)) = core := by
  have hfront : (core ++ b).dropWhile p = core ++ b ∨ core = [] := by
    cases core with
    | nil => exact .inr rfl
    | cons c t => exact .inl (by rw [List.cons_append, List.dropWhile_cons, hcore c List.mem_cons_self]; rfl)
  unfold trim dropTrailing
  rw [List.dropWhile_append_of_pos ha]
  rcases hfront with hfront | rfl
  · rw [hfront, List.reverse_append, List.dropWhile_append_of_pos fun c hc => hb c (List.mem_reverse.1 hc),
      dropWhile_of_forall fun c hc => hcore c (List.mem_reverse.1 hc), List.reverse_reverse]
  · rw [List.nil_append, List.dropWhile_eq_nil_iff.2 hb]
    rfl

/-- Taking off more blanks takes off no more if none of these is left. -/
theorem trim_of_le {q : CodePoint → Bool} (hpq : ∀ c, p c = true → q c = true) {t : Text}
    (h : ∀ c ∈ trim p t, q c = false) : trim q t = trim p t := by
  obtain ⟨a, b, ha, hb, ht⟩ := exists_trim p t
  calc trim q t = trim q (a ++ (trim p t ++ b)) := by rw [← ht]
    _ = trim p t := trim_append (fun c hc => hpq c (ha c hc)) (fun c hc => hpq c (hb c hc)) h

theorem trim_map (p : CodePoint → Bool) (f : CodePoint → CodePoint) (t : Text) :
    trim p (t.map f) = (trim (p ∘ f) t).map f := by
  simp only [trim, dropTrailing, List.dropWhile_map, ← List.map_reverse]

end Text

/-- A digit of any script is one of ten. -/
theorem CodePoint.digit?_le {c : CodePoint} {d : Nat} (h : c.digit? = some d) : d ≤ 9 := by
  unfold digit? at h
  split_ifs at h with hascii hdigit
  · unfold isDigit within at hdigit
    rw [Bool.and_eq_true, decide_eq_true_iff, decide_eq_true_iff] at hdigit
    obtain rfl := Option.some.inj h
    omega
  · obtain ⟨z, hz, rfl⟩ := Option.map_eq_some_iff.1 h
    have hwithin := List.find?_some hz
    unfold within at hwithin
    rw [Bool.and_eq_true, decide_eq_true_iff, decide_eq_true_iff] at hwithin
    omega

namespace Double

/-- The word for not-a-number, with a sign or none. -/
def nanWords : List Text := ["nan", "+nan", "-nan"]

/-- A text that writes not-a-number: without the blanks around it and in lower case, it is the word for that. -/
def WritesNan (blank : CodePoint → Bool) (t : Text) : Prop := (t.trim blank).lowerAscii ∈ nanWords

/-- What stands around a number in any text: the blanks of ASCII, and beyond ASCII all white space. -/
def isOuterBlank (c : CodePoint) : Bool := if c.isAscii then c.isAsciiBlank else c.isBlank

/-! ## Numbers -/

theorem ofRatio_ne_nan (negative : Bool) (num den : Nat) : ofRatio negative num den ≠ .nan := by
  unfold ofRatio
  split
  · nofun
  · extract_lets scaled least e m
    split
    split <;> nofun

theorem ofInt?_ne_nan (n : Int) : ofInt? n ≠ some .nan := by
  unfold ofInt?
  split <;> nofun

theorem ofDecimal_ne_nan (negative : Bool) (n : Nat) (exponent : Int) : ofDecimal negative n exponent ≠ .nan := by
  unfold ofDecimal
  dsimp only
  split_ifs
  · nofun
  · nofun
  · nofun
  · exact ofRatio_ne_nan _ _ _
  · exact ofRatio_ne_nan _ _ _

theorem readDecimal_ne_nan (negative : Bool) (t : Text) : readDecimal negative t ≠ some .nan := by
  unfold readDecimal
  extract_lets whole rest
  split
  split
  · nofun
  · rw [Ne, Option.map_eq_some_iff]
    rintro ⟨exponent, -, h⟩
    exact ofDecimal_ne_nan _ _ _ h

/-! ## Underscores -/

/-- A text without underscores keeps all it has. -/
theorem dropUnderscores_of_not_mem {t : Text} (h : CodePoint.ofChar '_' ∉ t) (previous : Option CodePoint) :
    dropUnderscores previous t = some t := by
  induction t generalizing previous with
  | nil => rfl
  | cons c t ih =>
    rw [List.mem_cons, not_or] at h
    unfold dropUnderscores
    rw [if_neg (Ne.symm h.1), ih h.2]
    rfl

/-- A digit at the head stays there. -/
theorem mem_of_dropUnderscores {d : CodePoint} {t w : Text} {previous : Option CodePoint}
    (h : dropUnderscores previous (d :: t) = some w) (hd : d.isDigit = true) : d ∈ w := by
  have hmark : d ≠ CodePoint.ofChar '_' := by
    rintro rfl
    exact absurd hd (by decide)
  unfold dropUnderscores at h
  rw [if_neg hmark] at h
  obtain ⟨u, -, rfl⟩ := Option.map_eq_some_iff.1 h
  exact List.mem_cons_self

/-- **Without digits there are no underscores to drop.** -/
theorem eq_of_dropUnderscores {t w : Text} {previous : Option CodePoint} (h : dropUnderscores previous t = some w)
    (hw : ∀ c ∈ w, c.isDigit = false) : t = w := by
  induction t generalizing previous w with
  | nil => exact Option.some.inj h
  | cons c t ih =>
    unfold dropUnderscores at h
    split at h
    · split at h
      · split at h
        · -- a digit stands behind an underscore that is dropped
          rename_i hdigits
          rw [Bool.and_eq_true] at hdigits
          have hdigit := hw _ (mem_of_dropUnderscores h hdigits.2)
          rw [hdigits.2] at hdigit
          cases hdigit
        · cases h
      · cases h
    · obtain ⟨u, hu, rfl⟩ := Option.map_eq_some_iff.1 h
      rw [ih hu fun d hd => hw d (List.mem_cons_of_mem _ hd)]

/-! ## The word -/

/-- The word has no digit, no underscore and no blank in it. -/
theorem plain_of_mem_nanWords {t : Text} (h : t.lowerAscii ∈ nanWords) {c : CodePoint} (hc : c ∈ t) :
    c.isDigit = false ∧ c ≠ CodePoint.ofChar '_' ∧ c.isBlank = false := by
  have hwords : ∀ w ∈ nanWords, ∀ x ∈ w,
      x.isDigit = false ∧ x ≠ CodePoint.ofChar '_' ∧ x.isBlank = false := by decide
  cases hupper : c.isUpper with
  | false => exact hwords _ h _ (List.mem_map.2 ⟨c, hc, CodePoint.toLower_of_not_isUpper hupper⟩)
  | true =>
    unfold CodePoint.isUpper CodePoint.within at hupper
    simp only [Bool.and_eq_true, decide_eq_true_eq] at hupper
    refine ⟨?_, ?_, ?_⟩
    · unfold CodePoint.isDigit CodePoint.within
      simp only [Bool.and_eq_false_iff, decide_eq_false_iff_not]
      omega
    · rintro rfl
      exact absurd hupper (by decide)
    · refine Bool.eq_false_iff.2 fun hblank => ?_
      simp only [CodePoint.isBlank, CodePoint.within, blankRanges, List.any_cons, List.any_nil, Bool.or_eq_true,
        Bool.and_eq_true, decide_eq_true_eq, Bool.false_eq_true, or_false] at hblank
      omega

/-- The word may have a sign in front of it. -/
theorem lowerAscii_takeSign (t : Text) :
    (takeSign t).2.lowerAscii = Text.ofString "nan" ↔ t.lowerAscii ∈ nanWords := by
  cases t with
  | nil => decide
  | cons c t =>
    have hsigned : Text.lowerAscii (c :: t) ∈ nanWords ↔ Text.lowerAscii (c :: t) = Text.ofString "nan" ∨
        (c.toLower = '+' ∨ c.toLower = '-') ∧ Text.lowerAscii t = Text.ofString "nan" := by
      simp only [nanWords, List.mem_cons, List.not_mem_nil, or_false, or_and_right]
      exact or_congr_right (or_congr List.cons_eq_cons List.cons_eq_cons)
    have hhead : Text.lowerAscii (c :: t) = Text.ofString "nan" → c.toLower = 'n' := fun h => (List.cons.inj h).1
    have hplus := CodePoint.eq_of_toLower_eq (c := c) (x := '+') (by decide)
    have hminus := CodePoint.eq_of_toLower_eq (c := c) (x := '-') (by decide)
    rw [hsigned]
    unfold takeSign
    dsimp only
    split_ifs with h h'
    · subst h
      exact ⟨fun h => .inr ⟨.inr rfl, h⟩, fun h => h.elim (fun hn => absurd (hhead hn) (by decide)) And.right⟩
    · subst h'
      exact ⟨fun h => .inr ⟨.inl rfl, h⟩, fun h => h.elim (fun hn => absurd (hhead hn) (by decide)) And.right⟩
    · exact ⟨.inl, fun hc => hc.resolve_right fun hs => hs.1.elim (fun g => h' (hplus g)) fun g => h (hminus g)⟩

/-- **Only its word is read as not-a-number**, in ASCII. -/
theorem ofAscii?_eq_nan_iff (t : Text) : ofAscii? t = some .nan ↔ WritesNan CodePoint.isAsciiBlank t := by
  unfold ofAscii? WritesNan
  generalize t.trim CodePoint.isAsciiBlank = core
  rw [Option.bind_eq_some_iff]
  constructor
  · rintro ⟨w, hw, h⟩
    dsimp only at h
    split_ifs at h with hinf hnan
    · cases h
    · have hword := (lowerAscii_takeSign w).1 hnan
      rwa [eq_of_dropUnderscores hw fun c hc => (plain_of_mem_nanWords hword hc).1]
    · exact absurd h (readDecimal_ne_nan _ _)
  · intro h
    refine ⟨core, dropUnderscores_of_not_mem (fun hmem => (plain_of_mem_nanWords h hmem).2.1 rfl) _, ?_⟩
    dsimp only
    rw [(lowerAscii_takeSign core).2 h, if_neg (by decide), if_pos rfl]

/-! ## Any text -/

/-- What a code point stands for in a number: a digit or a blank for that of ASCII. -/
def standing (c : CodePoint) : CodePoint :=
  if c.isAscii then c
  else if c.isBlank then ' '
  else match c.digit? with
    | some d => CodePoint.ofNat (0x30 + d)
    | none => '?'

/-- What stands for something of ASCII beyond it is a blank exactly if it is white space, and no letter or sign. -/
theorem standing_of_not_isAscii {c : CodePoint} (h : c.isAscii = false) :
    (standing c).isAsciiBlank = c.isBlank ∧ ∀ w ∈ nanWords, (standing c).toLower ∉ w := by
  have hdigits : ∀ d ≤ 9, (CodePoint.ofNat (0x30 + d)).isAsciiBlank = false ∧
      ∀ w ∈ nanWords, (CodePoint.ofNat (0x30 + d)).toLower ∉ w := by decide
  unfold standing
  rw [h, if_neg (by decide)]
  split_ifs with hblank
  · rw [hblank]
    decide
  · rw [Bool.eq_false_iff.2 hblank]
    split
    · rename_i d hd
      exact hdigits d (CodePoint.digit?_le hd)
    · decide

/-- **Only its word is read as not-a-number**, in any text. -/
theorem ofText?_eq_nan_iff (t : Text) : ofText? t = some .nan ↔ WritesNan isOuterBlank t := by
  have hblank : CodePoint.isAsciiBlank ∘ standing = isOuterBlank := by
    funext c
    unfold isOuterBlank Function.comp
    cases h : c.isAscii with
    | true => simp [standing, h]
    | false => simpa using (standing_of_not_isAscii h).1
  show ofAscii? (t.map standing) = some .nan ↔ _
  rw [ofAscii?_eq_nan_iff, WritesNan, Text.trim_map, hblank]
  unfold WritesNan
  generalize t.trim isOuterBlank = core
  by_cases hascii : ∀ c ∈ core, c.isAscii = true
  · have hsame : core.map standing = core := by
      refine (List.map_congr_left fun c hc => ?_).trans (List.map_id core)
      exact if_pos (hascii c hc)
    rw [hsame]
  · -- what stands beyond ASCII is in no word, for itself or for something of ASCII
    simp only [not_forall, Bool.not_eq_true] at hascii
    obtain ⟨c, hc, hbeyond⟩ := hascii
    have hwords : ∀ w ∈ nanWords, ∀ x ∈ w, x.isAscii = true := by decide
    refine iff_of_false (fun h => ?_) fun h => ?_
    · exact (standing_of_not_isAscii hbeyond).2 _ h (List.mem_map_of_mem (List.mem_map_of_mem hc))
    · have hx := hwords _ h _ (List.mem_map_of_mem hc)
      rw [CodePoint.toLower_of_not_isAscii hbeyond, hbeyond] at hx
      cases hx

/-- Without the white space around it, a text that writes not-a-number is the word as well. -/
theorem WritesNan.trim_isBlank {t : Text} (h : WritesNan isOuterBlank t) :
    (t.trim CodePoint.isBlank).lowerAscii ∈ nanWords := by
  have hle : ∀ c, isOuterBlank c = true → c.isBlank = true := by
    intro c hc
    unfold isOuterBlank at hc
    split at hc
    · exact CodePoint.isBlank_of_isAsciiBlank hc
    · exact hc
  rwa [Text.trim_of_le hle fun c hc => (plain_of_mem_nanWords h hc).2.2]

end Double

end RemoteTree
