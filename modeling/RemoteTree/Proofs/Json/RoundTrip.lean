import RemoteTree.Proofs.Json.Strings
import RemoteTree.Proofs.Value.Paired

/-!
# Decoding undoes encoding

What is written of a value is read back piece by piece: each piece is read as what it was written for, and the
reader stops right behind it. Only the texts are not always what they were, for the two halves of a surrogate
pair come back as one character.

* `Json.readNumber_ofInt`: an integer is read as it was.
* `Json.ReadsAs`: a text that is read as a value, whatever comes behind it.
* `Json.readItems_join`, `Json.readEntries_join`: **texts in a row** are read one after the other.
* `Json.readsAs_of_write`: **what is written of a plain value is read as the value with its pairs joined.**
* `decode_encode_iff`: **decoding gives the value back exactly if none of its texts has a surrogate pair.**
-/

namespace RemoteTree

open CodePoint

namespace Json

variable {fuel : Nat} {t u rest : Text} {v : Value}

/-! ## Numbers -/

/-- What may stand right behind a number: nothing that would go on with it. -/
def EndsNumber (t : Text) : Prop :=
  ∀ c u, t = c :: u → c.isDigit = false ∧ c ≠ ofChar '.' ∧ c ≠ ofChar 'e' ∧ c ≠ ofChar 'E'

theorem endsNumber_nil : EndsNumber [] := fun _ _ h => nomatch h

theorem endsNumber_cons {c : CodePoint}
    (h : c.isDigit = false ∧ c ≠ ofChar '.' ∧ c ≠ ofChar 'e' ∧ c ≠ ofChar 'E') : EndsNumber (c :: t) := by
  rintro d u heq
  obtain ⟨rfl, -⟩ := List.cons.inj heq
  exact h

theorem takeFraction_eq_none (h : EndsNumber rest) : takeFraction rest = none := by
  unfold takeFraction
  split
  · rename_i p d u
    exact if_neg fun hp => (h p _ rfl).2.1 hp.1
  · rfl

theorem takeExponent_eq_none (h : EndsNumber rest) : takeExponent rest = none := by
  unfold takeExponent
  split
  · rename_i c u
    obtain ⟨-, -, he, hE⟩ := h c u rfl
    exact if_neg fun hc => hc.elim he hE
  · rfl

/-- The digits of a number are taken as they are. -/
theorem takeWhole_ofNat (n : Nat) (h : EndsNumber rest) :
    takeWhole (Text.ofNat n ++ rest) = some (Text.ofNat n, rest) := by
  by_cases hn : n = 0
  · subst hn
    rfl
  · have hdigits : ∀ c ∈ Text.ofNat n, c.isDigit = true := fun c hc => Text.isDigit_of_mem_ofNat hc
    have hrest : rest.takeWhile CodePoint.isDigit = [] ∧ rest.dropWhile CodePoint.isDigit = rest := by
      cases rest with
      | nil => exact ⟨rfl, rfl⟩
      | cons c rest => simp [(h c rest rfl).1]
    have htake : (Text.ofNat n ++ rest).takeWhile CodePoint.isDigit = Text.ofNat n := by
      rw [List.takeWhile_append_of_pos hdigits, hrest.1, List.append_nil]
    have hdrop : (Text.ofNat n ++ rest).dropWhile CodePoint.isDigit = rest := by
      rw [List.dropWhile_append_of_pos hdigits, hrest.2]
    obtain ⟨c, ds, hds, hc⟩ := Text.ofNat_eq_cons hn
    rw [hds] at hdigits htake hdrop ⊢
    rw [List.cons_append] at htake hdrop ⊢
    rw [takeWhole, if_neg hc, if_pos (hdigits c List.mem_cons_self), htake, hdrop]

/-- How the text of an integer begins: with a digit, or with a sign and a digit. -/
inductive BeginsNumber : Text → Prop
  | digit {c : CodePoint} {u : Text} (h : c.isDigit = true) : BeginsNumber (c :: u)
  | sign {c : CodePoint} {u : Text} (h : c.isDigit = true) : BeginsNumber (ofChar '-' :: c :: u)

theorem beginsNumber_ofInt (n : Int) (rest : Text) : BeginsNumber (Text.ofInt n ++ rest) := by
  obtain ⟨c, u, hdigits⟩ := List.exists_cons_of_ne_nil (Text.ofNat_ne_nil n.natAbs)
  have hc : c.isDigit = true := Text.isDigit_of_mem_ofNat (hdigits ▸ List.mem_cons_self)
  unfold Text.ofInt
  rw [hdigits]
  split
  · exact .sign hc
  · exact .digit hc

/-- The words for values begin with letters, but for one that has a letter behind its sign. -/
theorem takeConstant_eq_none (h : BeginsNumber t) : takeConstant t = none := by
  have hwords : ∀ c ∈ constants, ∃ a b w, c.1 = a :: b :: w ∧ a.isDigit = false ∧
      (a = ofChar '-' → b.isDigit = false) := by
    intro c hc
    simp only [constants, List.mem_cons, List.not_mem_nil, or_false] at hc
    rcases hc with rfl | rfl | rfl | rfl | rfl | rfl <;> exact ⟨_, _, _, rfl, by decide, by decide⟩
  have hnone : constants.find? (fun c => c.1.isPrefixOf t) = none := by
    refine List.find?_eq_none.2 fun c hc => ?_
    obtain ⟨a, b, w, hw, ha, hb⟩ := hwords c hc
    rw [hw]
    cases h with
    | @digit d u hd =>
      have hne : a ≠ d := by
        rintro rfl
        rw [ha] at hd
        cases hd
      simp [List.isPrefixOf, hne]
    | @sign d u hd =>
      simp only [List.isPrefixOf, Bool.and_eq_true, beq_iff_eq, not_and]
      rintro hsign rfl
      rw [hb hsign] at hd
      cases hd
  rw [takeConstant, hnone]
  rfl

theorem ofDigits?_ofNat {n : Int} (hn : Integer.isWritten n = true) :
    Integer.ofDigits? (decide (n < 0)) (Text.ofNat n.natAbs) = .ok n := by
  have hlength : (Text.ofNat n.natAbs).length ≤ digitLimit :=
    (Text.length_ofNat_le (by decide)).2 (of_decide_eq_true hn)
  rw [Integer.ofDigits?, if_pos hlength, Text.foldl_ofNat]
  by_cases hneg : n < 0
  · simp only [hneg, decide_true, if_true]
    rw [Int.ofNat_natAbs_of_nonpos hneg.le, neg_neg]
  · simp only [hneg, decide_false, Bool.false_eq_true, if_false]
    rw [Int.natAbs_of_nonneg (not_lt.1 hneg)]

/-- **An integer is read as it was.** -/
theorem readNumber_ofInt {n : Int} (hn : Integer.isWritten n = true) (h : EndsNumber rest) :
    readNumber (Text.ofInt n ++ rest) = .ok (.int n, rest) := by
  have hwhole := takeWhole_ofNat n.natAbs h
  have hfraction := takeFraction_eq_none h
  have hexponent := takeExponent_eq_none h
  have hvalue := ofDigits?_ofNat hn
  by_cases hneg : n < 0
  · have htext : Text.ofInt n ++ rest = ofChar '-' :: (Text.ofNat n.natAbs ++ rest) := by
      rw [Text.ofInt, if_pos hneg]
      rfl
    rw [decide_eq_true hneg] at hvalue
    rw [htext, readNumber]
    simp only [if_true, hwhole, hfraction, hexponent, Option.elim_none, hvalue]
  · have htext : Text.ofInt n ++ rest = Text.ofNat n.natAbs ++ rest := by
      rw [Text.ofInt, if_neg hneg, List.nil_append]
    obtain ⟨c, ds, hdigits⟩ := List.exists_cons_of_ne_nil (Text.ofNat_ne_nil n.natAbs)
    have hsign : c ≠ ofChar '-' := by
      rintro rfl
      have hdigit : (ofChar '-').isDigit = true := Text.isDigit_of_mem_ofNat (hdigits ▸ List.mem_cons_self)
      exact absurd hdigit (by decide)
    rw [decide_eq_false hneg] at hvalue
    rw [hdigits] at hwhole hvalue
    rw [List.cons_append] at hwhole
    rw [htext, hdigits, List.cons_append, readNumber]
    simp only [if_neg hsign, hwhole, hfraction, hexponent, Option.elim_none, hvalue]

/-! ## One step of the reader -/

/-- How a value begins: with no blank, and with nothing that ends a list. -/
def Begins (t : Text) : Prop := ∃ c u, t = c :: u ∧ isSpace c = false ∧ c.val ≠ 0x5D

theorem BeginsNumber.begins (h : BeginsNumber t) : Begins t := by
  cases h with
  | @digit c u hc =>
    simp only [CodePoint.isDigit, within, Bool.and_eq_true, decide_eq_true_eq] at hc
    refine ⟨c, u, rfl, ?_, by omega⟩
    simp only [isSpace, Bool.or_eq_false_iff, decide_eq_false_iff_not]
    omega
  | sign => exact ⟨_, _, rfl, by decide, by decide⟩

theorem Begins.append (h : Begins t) (u : Text) : Begins (t ++ u) := by
  obtain ⟨c, w, rfl, hc⟩ := h
  exact ⟨c, w ++ u, rfl, hc⟩

theorem skipSpace_of_begins (h : Begins t) : skipSpace t = t := by
  obtain ⟨c, u, rfl, hc, -⟩ := h
  rw [skipSpace, List.dropWhile_cons, hc]
  rfl

/-- The blank behind a comma or a colon. -/
theorem skipSpace_blank (h : Begins t) : skipSpace (ofChar ' ' :: t) = t := skipSpace_of_begins h

theorem readValue_text (s rest : Text) :
    readValue (fuel + 1) (writeText s ++ rest) = .ok (.text (Utf16.pair s), rest) := by
  have htext : writeText s ++ rest = .doubleQuote :: (s.flatMap escaped ++ .doubleQuote :: rest) := by
    simp [writeText]
  rw [htext, readValue, if_pos rfl, readString_escaped]
  rfl

theorem readValue_number (h : BeginsNumber t) : readValue (fuel + 1) t = readNumber t := by
  have hnone := takeConstant_eq_none h
  have hhead : ∃ c u, t = c :: u ∧ c ≠ .doubleQuote ∧ c.val ≠ 0x7B ∧ c.val ≠ 0x5B := by
    cases h with
    | @digit c u hc =>
      simp only [CodePoint.isDigit, within, Bool.and_eq_true, decide_eq_true_eq] at hc
      refine ⟨c, u, rfl, ?_, by omega, by omega⟩
      rintro rfl
      exact absurd hc (by decide)
    | sign => exact ⟨_, _, rfl, by decide, by decide, by decide⟩
  obtain ⟨c, u, rfl, hquote, hbrace, hbracket⟩ := hhead
  rw [readValue, if_neg hquote, if_neg hbrace, if_neg hbracket, hnone]

theorem readValue_list (h : Begins t) :
    readValue (fuel + 1) (ofChar '[' :: t) = (readItems fuel t).map fun (vs, rest) => (.list vs, rest) := by
  have hskip := skipSpace_of_begins h
  obtain ⟨c, u, rfl, -, hc⟩ := h
  rw [readValue, if_neg (by decide), if_neg (by decide), if_pos (by decide), hskip]
  simp only [if_neg hc]

theorem readValue_dict (h : t.head? = some .doubleQuote) :
    readValue (fuel + 1) (ofChar '\x7b' :: t) =
      (readEntries fuel t).map fun (es, rest) => (.dict (Value.entriesOf es), rest) := by
  obtain ⟨u, rfl⟩ := List.head?_eq_some_iff.1 h
  have hskip : skipSpace (.doubleQuote :: u) = .doubleQuote :: u := rfl
  rw [readValue, if_neg (by decide), if_pos (by decide), hskip]
  simp only [if_neg (show CodePoint.doubleQuote.val ≠ 0x7D by decide)]

theorem readItems_last (h : readValue fuel t = .ok (v, ofChar ']' :: rest)) :
    readItems (fuel + 1) t = .ok ([v], rest) := by
  rw [readItems, h]
  rfl

theorem readItems_next {vs : List Value} (h : readValue fuel t = .ok (v, ofChar ',' :: ofChar ' ' :: u))
    (hu : Begins u) (hrest : readItems fuel u = .ok (vs, rest)) :
    readItems (fuel + 1) t = .ok (v :: vs, rest) := by
  have hskip := skipSpace_blank hu
  rw [readItems, h]
  change (do let (vs, rest) ← readItems fuel (skipSpace (ofChar ' ' :: u)); Except.ok (v :: vs, rest)) = _
  rw [hskip, hrest]
  rfl

theorem readEntries_last {key : Text}
    (hkey : readString (t.length + 1) t = .ok (key, ofChar ':' :: ofChar ' ' :: u)) (hu : Begins u)
    (h : readValue fuel u = .ok (v, ofChar '\x7d' :: rest)) :
    readEntries (fuel + 1) (.doubleQuote :: t) = .ok ([(.text key, v)], rest) := by
  have hskip := skipSpace_blank hu
  have hcolon : skipSpace (ofChar ':' :: ofChar ' ' :: u) = ofChar ':' :: ofChar ' ' :: u := rfl
  have hclose : skipSpace (ofChar '\x7d' :: rest) = ofChar '\x7d' :: rest := rfl
  have hbrace : (ofChar '\x7d').val = 0x7D := rfl
  simp [readEntries, hkey, hcolon, hskip, h, hclose, hbrace, bind, Except.bind]

theorem readEntries_next {key : Text} {es : List (Value × Value)} {w : Text}
    (hkey : readString (t.length + 1) t = .ok (key, ofChar ':' :: ofChar ' ' :: u))
    (hu : Begins u) (h : readValue fuel u = .ok (v, ofChar ',' :: ofChar ' ' :: w))
    (hw : Begins w) (hrest : readEntries fuel w = .ok (es, rest)) :
    readEntries (fuel + 1) (.doubleQuote :: t) = .ok ((.text key, v) :: es, rest) := by
  have hskip := skipSpace_blank hu
  have hskip' := skipSpace_blank hw
  have hcolon : skipSpace (ofChar ':' :: ofChar ' ' :: u) = ofChar ':' :: ofChar ' ' :: u := rfl
  have hcomma : skipSpace (ofChar ',' :: ofChar ' ' :: w) = ofChar ',' :: ofChar ' ' :: w := rfl
  have hbrace : (ofChar ',').val ≠ 0x7D := by decide
  simp [readEntries, hkey, hcolon, hskip, h, hcomma, hbrace, hskip', hrest, bind, Except.bind]

/-! ## Texts in a row -/

/-- A text that is read as a value, whatever comes behind it. A call for a value takes a character, and at most one
call for a row goes with it, so two calls for each character are enough. -/
structure ReadsAs (t : Text) (v : Value) : Prop where
  begins : Begins t
  read : ∀ fuel rest, 2 * t.length ≤ fuel → EndsNumber rest → readValue fuel (t ++ rest) = .ok (v, rest)

/-- The text of an entry that is read as an entry. -/
def ReadsAsEntry (t : Text) (e : Value × Value) : Prop :=
  ∃ key value w, t = writeText key ++ ": " ++ value ∧ ReadsAs value w ∧ e = (.text (Utf16.pair key), w)

/-- A row begins as its first text does. -/
theorem head?_join {c : CodePoint} {ts : List Text} (h : t.head? = some c) (w : Text) :
    (Text.join ", " (t :: ts) ++ w).head? = some c := by
  cases ts with
  | nil => simp [Text.join, h]
  | cons u us => simp [Text.join, h]

theorem begins_join {ts : List Text} (h : Begins t) (w : Text) : Begins (Text.join ", " (t :: ts) ++ w) := by
  obtain ⟨c, u, ht, hc⟩ := h
  have hhead : t.head? = some c := by rw [ht]; rfl
  obtain ⟨v, hv⟩ := List.head?_eq_some_iff.1 (head?_join hhead w)
  exact ⟨c, v, hv, hc⟩

theorem head?_entry {e : Value × Value} (h : ReadsAsEntry t e) : t.head? = some .doubleQuote := by
  obtain ⟨key, value, w, rfl, -, -⟩ := h
  rfl

theorem begins_entry {e : Value × Value} (h : ReadsAsEntry t e) : Begins t := by
  obtain ⟨u, rfl⟩ := List.head?_eq_some_iff.1 (head?_entry h)
  exact ⟨.doubleQuote, u, rfl, by decide, by decide⟩

/-- The first text of a row, the comma and the blank behind it, and the other texts. -/
theorem join_append (t u : Text) (ts : List Text) (w : Text) :
    Text.join ", " (t :: u :: ts) ++ w = t ++ ofChar ',' :: ofChar ' ' :: (Text.join ", " (u :: ts) ++ w) := by
  simp [Text.join, Text.ofString]

theorem length_join (t u : Text) (ts : List Text) :
    (Text.join ", " (t :: u :: ts)).length = t.length + (Text.join ", " (u :: ts)).length + 2 := by
  simp [Text.join, Text.ofString]
  omega

/-- A mark that separates the members of a container or ends it ends a number as well. -/
theorem endsNumber_mark {c : CodePoint} (h : c = ofChar ',' ∨ c = ofChar ']' ∨ c = ofChar '\x7d') (t : Text) :
    EndsNumber (c :: t) := by
  refine endsNumber_cons ?_
  rcases h with rfl | rfl | rfl <;> decide

/-- **Items in a row** are read one after the other. -/
theorem readItems_join {ws : List Value} {ts : List Text} (h : List.Forall₂ (fun w t => ReadsAs t w) ws ts)
    (hne : ts ≠ []) (hfuel : 2 * (Text.join ", " ts).length + 1 ≤ fuel) (rest : Text) :
    readItems fuel (Text.join ", " ts ++ ofChar ']' :: rest) = .ok (ws, rest) := by
  induction h generalizing fuel with
  | nil => exact absurd rfl hne
  | @cons w t ws ts hw hrow ih =>
    obtain ⟨fuel, rfl⟩ : ∃ n, fuel = n + 1 := ⟨fuel - 1, by omega⟩
    cases hrow with
    | nil =>
      rw [Text.join] at hfuel
      exact readItems_last (hw.read fuel _ (by omega) (endsNumber_mark (by simp) rest))
    | cons hu hrow =>
      rw [length_join] at hfuel
      rw [join_append]
      exact readItems_next (hw.read fuel _ (by omega) (endsNumber_mark (by simp) _))
        (begins_join hu.begins _) (ih (List.cons_ne_nil _ _) (by omega))

/-- **Entries in a row** are read one after the other. -/
theorem readEntries_join {es : List (Value × Value)} {ts : List Text}
    (h : List.Forall₂ (fun e t => ReadsAsEntry t e) es ts) (hne : ts ≠ [])
    (hfuel : 2 * (Text.join ", " ts).length + 1 ≤ fuel) (rest : Text) :
    readEntries fuel (Text.join ", " ts ++ ofChar '\x7d' :: rest) = .ok (es, rest) := by
  -- what stands between the quote and the value of an entry
  have hentry : ∀ key value z : Text, writeText key ++ ": " ++ value ++ z =
      .doubleQuote :: (key.flatMap escaped ++ .doubleQuote :: ofChar ':' :: ofChar ' ' :: (value ++ z)) := by
    intro key value z
    simp [writeText, Text.ofString]
  induction h generalizing fuel with
  | nil => exact absurd rfl hne
  | @cons e t es ts he hrow ih =>
    obtain ⟨fuel, rfl⟩ : ∃ n, fuel = n + 1 := ⟨fuel - 1, by omega⟩
    obtain ⟨key, value, w, rfl, hw, rfl⟩ := he
    have hlength : value.length ≤ (writeText key ++ Text.ofString ": " ++ value).length := by
      rw [List.length_append]
      omega
    cases hrow with
    | nil =>
      rw [Text.join] at hfuel ⊢
      rw [hentry]
      exact readEntries_last (readString_escaped _ key _) (hw.begins.append _)
        (hw.read fuel _ (by omega) (endsNumber_mark (by simp) rest))
    | cons hu hrow =>
      rw [length_join] at hfuel
      rw [join_append, hentry]
      exact readEntries_next (readString_escaped _ key _) (hw.begins.append _)
        (hw.read fuel _ (by omega) (endsNumber_mark (by simp) _))
        (begins_join (begins_entry hu) _) (ih (List.cons_ne_nil _ _) (by omega))

/-! ## Values -/

/-- A text that is not empty is read with one call at least. -/
theorem readsAs_of_step (hbegins : Begins t)
    (h : ∀ fuel rest, 2 * t.length ≤ fuel + 1 → EndsNumber rest →
      readValue (fuel + 1) (t ++ rest) = .ok (v, rest)) :
    ReadsAs t v := by
  refine ⟨hbegins, fun fuel rest hfuel hrest => ?_⟩
  obtain ⟨c, u, rfl, -⟩ := hbegins
  rw [List.length_cons] at hfuel
  obtain ⟨fuel, rfl⟩ : ∃ n, fuel = n + 1 := ⟨fuel - 1, by omega⟩
  exact h fuel rest hfuel hrest

/-- A word for a value is read as the value. -/
theorem readsAs_word {w : Value} (h : (t, w) ∈ [(Text.ofString "null", Value.none),
    (Text.ofString "true", .bool true), (Text.ofString "false", .bool false)]) : ReadsAs t w := by
  simp only [List.mem_cons, Prod.mk.injEq, List.not_mem_nil, or_false] at h
  rcases h with ⟨rfl, rfl⟩ | ⟨rfl, rfl⟩ | ⟨rfl, rfl⟩ <;>
    exact readsAs_of_step ⟨_, _, rfl, by decide, by decide⟩ fun _ _ _ _ => rfl

theorem readsAs_int {n : Int} (hn : Integer.isWritten n = true) : ReadsAs (Text.ofInt n) (.int n) := by
  have hbegins := beginsNumber_ofInt n
  have hself := hbegins []
  rw [List.append_nil] at hself
  refine readsAs_of_step hself.begins fun fuel rest _ hrest => ?_
  rw [readValue_number (hbegins rest), readNumber_ofInt hn hrest]

theorem readsAs_text (s : Text) : ReadsAs (writeText s) (.text (Utf16.pair s)) :=
  readsAs_of_step ⟨.doubleQuote, _, rfl, by decide, by decide⟩ fun _ rest _ _ => readValue_text s rest

/-- Items in a row between brackets are read as their list. -/
theorem readsAs_list {ws : List Value} {ts : List Text} (h : List.Forall₂ (fun w t => ReadsAs t w) ws ts) :
    ReadsAs ("[" ++ Text.join ", " ts ++ "]") (.list ws) := by
  refine readsAs_of_step ⟨_, _, rfl, by decide, by decide⟩ fun fuel rest hfuel hrest => ?_
  cases h with
  | nil => rfl
  | @cons w t ws ts hw hrow =>
    have htext : Text.ofString "[" ++ Text.join ", " (t :: ts) ++ "]" ++ rest =
        ofChar '[' :: (Text.join ", " (t :: ts) ++ ofChar ']' :: rest) := by simp [Text.ofString]
    have hlength : (Text.ofString "[" ++ Text.join ", " (t :: ts) ++ "]").length =
        (Text.join ", " (t :: ts)).length + 2 := by simp [Text.ofString]
    rw [htext, readValue_list (begins_join hw.begins _),
      readItems_join (.cons hw hrow) (List.cons_ne_nil _ _) (by omega)]
    rfl

/-- Entries in a row between braces are read as their dictionary. -/
theorem readsAs_dict {es : List (Value × Value)} {ts : List Text}
    (h : List.Forall₂ (fun e t => ReadsAsEntry t e) es ts) :
    ReadsAs ("\x7b" ++ Text.join ", " ts ++ "\x7d") (.dict (Value.entriesOf es)) := by
  refine readsAs_of_step ⟨_, _, rfl, by decide, by decide⟩ fun fuel rest hfuel hrest => ?_
  cases h with
  | nil => rfl
  | @cons e t es ts he hrow =>
    have htext : Text.ofString "\x7b" ++ Text.join ", " (t :: ts) ++ "\x7d" ++ rest =
        ofChar '\x7b' :: (Text.join ", " (t :: ts) ++ ofChar '\x7d' :: rest) := by simp [Text.ofString]
    have hlength : (Text.ofString "\x7b" ++ Text.join ", " (t :: ts) ++ "\x7d").length =
        (Text.join ", " (t :: ts)).length + 2 := by simp [Text.ofString]
    rw [htext, readValue_dict (head?_join (head?_entry he) _),
      readEntries_join (.cons he hrow) (List.cons_ne_nil _ _) (by omega)]
    rfl

/-- **What is written of a plain value** is read as the value with its pairs joined. -/
theorem readsAs_of_write {v : Value} {t : Text} (hv : v.Everywhere Value.Plain) (h : write v = .ok t) :
    ReadsAs t v.paired := by
  induction v using Value.induction generalizing t with
  | step v ih =>
    obtain ⟨hplain, hinner⟩ := Value.everywhere_iff.1 hv
    have hinside : ∀ w ∈ v.inner, ∀ t, write w = .ok t → ReadsAs t w.paired :=
      fun w hw t ht => ih w hw (hinner w hw) ht
    cases v with
    | none =>
      obtain rfl := Except.ok.inj h
      exact readsAs_word (by simp [Value.paired])
    | bool b =>
      obtain rfl := Except.ok.inj h
      cases b <;> exact readsAs_word (by simp [Value.paired, writeBool])
    | int n =>
      obtain ⟨hn, rfl⟩ := writeInt_eq_ok h
      exact readsAs_int hn
    | text s =>
      obtain rfl := Except.ok.inj h
      exact readsAs_text s
    | list items =>
      obtain ⟨ts, hts, rfl⟩ := write_list_eq_ok.1 h
      have hrow : List.Forall₂ (fun w t => ReadsAs t w) (items.map Value.paired) ts := row_of_mem hinside hts
      rw [Value.paired_list]
      exact readsAs_list hrow
    | dict entries =>
      obtain ⟨ts, hts, rfl⟩ := write_dict_eq_ok.1 h
      -- the keys are read by the reader of strings, so they are no case of the induction
      have hentry : ∀ e ∈ entries, ∀ t, writeEntry e = .ok t → ReadsAsEntry t (e.1.paired, e.2.paired) := by
        intro e he t ht
        obtain ⟨s, hs⟩ := hplain.key e he
        obtain ⟨key, value, hkey, hvalue, rfl⟩ := writeEntry_eq_ok.1 ht
        rw [hs] at hkey ⊢
        obtain rfl := Except.ok.inj hkey
        exact ⟨s, value, _, rfl, hinside e.2 (List.mem_map_of_mem he) value hvalue, rfl⟩
      have hrow : List.Forall₂ (fun e t => ReadsAsEntry t e) (entries.map fun e => (e.1.paired, e.2.paired)) ts :=
        row_of_mem hentry hts
      rw [Value.paired_dict]
      exact readsAs_dict hrow
    | again => cases h
    | float | bytes | tuple | set | object => exact hplain.elim

/-! ## Bytes -/

/-- Bytes of ASCII show no other encoding than the usual one, if none of them is zero. -/
theorem decodeDetected_eq {bs : Bytes} (h : ∀ b ∈ bs, b.toNat < 0x80 ∧ b ≠ 0) :
    decodeDetected bs = Utf8.decode true bs := by
  have hunmarked : decodeUnmarked bs = Utf8.decode true bs := by
    unfold decodeUnmarked
    split
    · simp only [List.forall_mem_cons] at h
      rw [if_neg h.1.2, if_neg h.2.1.2]
    · simp only [List.forall_mem_cons] at h
      rw [if_neg h.1.2, if_neg h.2.1.2]
    · rfl
  -- every mark has a byte that is zero or beyond ASCII
  have hmarks : ∀ m ∈ byteOrderMarks, ∃ b ∈ m.1, ¬(b.toNat < 0x80 ∧ b ≠ 0) := by
    simp only [byteOrderMarks, List.forall_mem_cons]
    decide
  have hnone : byteOrderMarks.find? (fun m => m.1.isPrefixOf bs) = none := by
    refine List.find?_eq_none.2 fun m hm hprefix => ?_
    obtain ⟨b, hb, hmark⟩ := hmarks m hm
    exact hmark (h b ((List.isPrefixOf_iff_prefix.1 hprefix).subset hb))
  rw [decodeDetected, hnone]
  exact hunmarked

/-- The bytes of a visible text are read as the text. -/
theorem decodeDetected_ofAscii (h : IsVisible t) : decodeDetected (Bytes.ofAscii t) = .ok t := by
  rw [decodeDetected_eq, Utf8.decode_ofAscii true h.lt]
  intro b hb
  obtain ⟨c, hc, rfl⟩ := List.mem_map.1 hb
  have hv := h c hc
  simp only [isVisible, within, Bool.and_eq_true, decide_eq_true_eq] at hv
  have hbyte : (UInt8.ofNat c.val).toNat = c.val := UInt8.toNat_ofNat_of_lt' (by simp only [UInt8.size]; omega)
  refine ⟨by omega, fun hzero => ?_⟩
  rw [hzero] at hbyte
  have hval : c.val = 0 := hbyte.symm
  omega

/-- **What is decoded of an encoded value** is the value with its pairs joined. -/
theorem decode_encode {v : Value} (hv : v.Everywhere Value.Plain) {bs : Bytes} (h : encode v = .ok bs) :
    decode (.bytes bs) none = .ok v.paired := by
  obtain ⟨t, ht, rfl⟩ := encode_eq_ok.1 h
  have hreads := readsAs_of_write hv ht
  have hvalue : readValue (2 * t.length + 2) t = .ok (v.paired, []) := by
    have hread := hreads.read (2 * t.length + 2) [] (by omega) endsNumber_nil
    rwa [List.append_nil] at hread
  have hwhole : readWhole t = .ok v.paired := by
    rw [readWhole, skipSpace_of_begins hreads.begins, hvalue]
    rfl
  rw [decode, read, readBytes, decodeDetected_ofAscii (visible_of_write v ht)]
  simp only [readDecoded, hwhole]

/-- **Decoding undoes encoding**, for plain values, exactly if no text in the value has a surrogate pair. -/
theorem decode_encode_iff (v : Value) (hv : v.Everywhere Value.Plain) {bs : Bytes} (h : encode v = .ok bs) :
    decode (.bytes bs) none = .ok v ↔ ¬∃ t, v.Mentions (.text t) ∧ t.HasPair := by
  rw [decode_encode hv h, ← Value.paired_eq_self_iff hv]
  exact ⟨Except.ok.inj, congrArg Except.ok⟩

/-- Surrogates that stand the other way round come back as they were, and those of a pair do not. -/
theorem decode_encode_iff_halves :
    let key : Text := [ofNat 0xDE00, ofNat 0xD83D, ofChar 'é', ofChar '😀']
    let apart : Value := .dict [(.text key, .list [.int (-20), .text "\"\n"])]
    let side : Value := .text [ofNat 0xD83D, ofNat 0xDE00]
    (apart.Everywhere Value.Plain ∧ ∃ bs, encode apart = .ok bs ∧ decode (.bytes bs) none = .ok apart) ∧
      side.Everywhere Value.Plain ∧ ∃ bs, encode side = .ok bs ∧ decode (.bytes bs) none ≠ .ok side := by
  intro key apart side
  have hplain : apart.Everywhere Value.Plain := by
    refine Value.everywhere_iff.2 ⟨⟨[key], by simp, rfl⟩, List.forall_mem_singleton.2 ?_⟩
    exact Value.everywhere_iff.2 ⟨trivial, List.forall_mem_cons.2 ⟨Value.everywhere_of_empty trivial rfl,
      List.forall_mem_singleton.2 (Value.everywhere_of_empty trivial rfl)⟩⟩
  have hunpaired : apart.Everywhere Value.Unpaired := by
    have hkey : ¬key.HasPair := Utf16.pair_eq_self_iff.1 (by decide)
    have htext : ¬Text.HasPair "\"\n" := Utf16.pair_eq_self_iff.1 (by decide)
    refine Value.everywhere_iff.2 ⟨List.forall_mem_singleton.2 fun t ht => Value.text.inj ht ▸ hkey,
      List.forall_mem_singleton.2 ?_⟩
    exact Value.everywhere_iff.2 ⟨trivial, List.forall_mem_cons.2 ⟨Value.everywhere_of_empty trivial rfl,
      List.forall_mem_singleton.2 (Value.everywhere_of_empty htext rfl)⟩⟩
  have hwrite : write apart = .ok "\x7b\"\\ude00\\ud83d\\u00e9\\ud83d\\ude00\": [-20, \"\\\"\\n\"]\x7d" := by
    decide +kernel
  have hside : side.Everywhere Value.Plain := Value.everywhere_of_empty trivial rfl
  have hbs := encode_eq_ok.2 ⟨_, hwrite, rfl⟩
  refine ⟨⟨hplain, _, hbs, ?_⟩, hside, _, rfl, ?_⟩
  · exact (decode_encode_iff apart hplain hbs).2 (Value.everywhere_unpaired_iff.1 hunpaired)
  · refine fun h => (decode_encode_iff side hside rfl).1 h ⟨_, .inl ⟨0, .self side⟩, ?_⟩
    exact ⟨[], [], _, _, rfl, by decide, by decide⟩

end Json

end RemoteTree
