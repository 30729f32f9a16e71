import RemoteTree.Proofs.Json.Numbers
import RemoteTree.Proofs.Json.Strings

/-!
# What is written is JSON

A value is written member by member, with a comma and a blank between two of them, and each kind of value has its
form in the grammar. Only the words for not-a-number and for the infinities have none.

* `Json.isString_writeText`: texts are written as strings.
* `Json.isValue_list`, `Json.isValue_dict`: values in a row, with a blank behind each comma and each colon.
* `Json.isValue_of_write`: **what is written of a value with finite floats is JSON.**
-/

namespace RemoteTree

open CodePoint

namespace Json

variable {c : CodePoint} {t : Text} {v : Value}

/-! ## Strings -/

theorem isHexDigit_hexDigit {n : Nat} (h : n < 16) : IsHexDigit (Text.hexDigit n) := by
  have hall : ∀ n < 16, (Text.hexDigit n).isDigit = true ∨ (Text.hexDigit n).within 0x41 0x46 = true ∨
      (Text.hexDigit n).within 0x61 0x66 = true := by decide
  exact hall n h

theorem isChar_escapedUnit (n : Nat) : IsChar (Text.escapedUnit n) := by
  have hdigit : ∀ k, IsHexDigit (Text.hexDigit (k % 16)) := fun k => isHexDigit_hexDigit (Nat.mod_lt k (by decide))
  refine IsChar.digits (a := Text.hexDigit (n / 16 / 16 / 16 % 16)) (b := Text.hexDigit (n / 16 / 16 % 16))
    (c := Text.hexDigit (n / 16 % 16)) (d := Text.hexDigit (n % 16)) ?_
  simp [hdigit]

theorem mem_letters_of_unescape? {e : CodePoint} (h : unescape? e = some c) : e ∈ Text.ofString "\"\\/bfnrt" := by
  unfold unescape? at h
  split_ifs at h with hmark hb hf hn hr ht
  · rcases hmark with rfl | rfl | rfl <;> decide
  all_goals
    subst e
    decide

theorem isChars_escaped (c : CodePoint) : IsChars (escaped c) := by
  have hshape := shape_escaped c
  generalize escaped c = s at hshape ⊢
  cases hshape with
  | itself hv hq hb =>
    simp only [isVisible, within, Bool.and_eq_true, decide_eq_true_eq] at hv
    exact (IsChar.itself hv.1 hq hb).isChars
  | letter he => exact (IsChar.letter (mem_letters_of_unescape? he)).isChars
  | unit => exact (isChar_escapedUnit _).isChars
  | halves => exact .cons (isChar_escapedUnit _) (isChar_escapedUnit _).isChars

/-- Texts are written as strings. -/
theorem isString_writeText (t : Text) : IsString (writeText t) := by
  have hchars : IsChars (t.flatMap escaped) := by
    induction t with
    | nil => exact .nil
    | cons c t ih =>
      rw [List.flatMap_cons]
      exact (isChars_escaped c).append ih
  exact .mk hchars

/-! ## Values in a row -/

/-- A text with nothing around it. -/
def Padded.plain (t : Text) : Padded := ⟨[], t, [], isBlank_nil, isBlank_nil⟩

/-- A text with a blank in front of it. -/
def Padded.spaced (t : Text) : Padded := ⟨" ", t, [], isBlank_space, isBlank_nil⟩

theorem join_append_head (sep s u : Text) (ts : List Text) :
    Text.join sep ((s ++ u) :: ts) = s ++ Text.join sep (u :: ts) := by
  cases ts with
  | nil => rfl
  | cons w ts => simp [Text.join]

/-- The blank behind a comma belongs to what comes after it. -/
theorem join_blank (t : Text) (ts : List Text) :
    Text.join ", " (t :: ts) = Text.join "," (t :: ts.map (Text.ofString " " ++ ·)) := by
  induction ts generalizing t with
  | nil => rfl
  | cons u us ih =>
    rw [Text.join, ih u, List.map_cons, Text.join, join_append_head]
    simp [Text.ofString]

theorem isValue_list {ts : List Text} (h : ∀ t ∈ ts, IsValue t) : IsValue ("[" ++ Text.join ", " ts ++ "]") := by
  cases ts with
  | nil => exact .emptyArray isBlank_nil
  | cons t ts =>
    rw [List.forall_mem_cons] at h
    have hcores : ∀ p ∈ Padded.plain t :: ts.map Padded.spaced, IsValue p.core :=
      List.forall_mem_cons.2 ⟨h.1, List.forall_mem_map.2 h.2⟩
    have hvalue := IsValue.array (List.cons_ne_nil _ _) hcores
    have htext : (Padded.plain t :: ts.map .spaced).map Padded.text = t :: ts.map (Text.ofString " " ++ ·) := by
      simp [Padded.text, Padded.plain, Padded.spaced]
    rwa [htext, ← join_blank] at hvalue

/-- A key and a value, as they are written. -/
def entryText (e : Text × Text) : Text := e.1 ++ Text.ofString ": " ++ e.2

/-- Keys and values in a row. -/
theorem isValue_dict {es : List (Text × Text)} (hk : ∀ e ∈ es, IsString e.1) (hv : ∀ e ∈ es, IsValue e.2) :
    IsValue ("\x7b" ++ Text.join ", " (es.map entryText) ++ "\x7d") := by
  cases es with
  | nil => exact .emptyObject isBlank_nil
  | cons e es =>
    rw [List.forall_mem_cons] at hk hv
    let rest : List (Padded × Padded) := es.map fun e => (.spaced e.1, .spaced e.2)
    have hkeys : ∀ m ∈ (Padded.plain e.1, Padded.spaced e.2) :: rest, IsString m.1.core :=
      List.forall_mem_cons.2 ⟨hk.1, List.forall_mem_map.2 hk.2⟩
    have hvalues : ∀ m ∈ (Padded.plain e.1, Padded.spaced e.2) :: rest, IsValue m.2.core :=
      List.forall_mem_cons.2 ⟨hv.1, List.forall_mem_map.2 hv.2⟩
    have hvalue := IsValue.object (List.cons_ne_nil _ _) hkeys hvalues
    have hmember : ∀ e : Text × Text, (Padded.plain e.1).text ++ Text.ofString ":" ++ (Padded.spaced e.2).text =
        entryText e := by
      intro e
      simp [Padded.text, Padded.plain, Padded.spaced, entryText, Text.ofString]
    have hspaced : ∀ t : Text, (Padded.spaced t).text = Text.ofString " " ++ (Padded.plain t).text := by
      intro t
      simp [Padded.text, Padded.plain, Padded.spaced]
    rw [List.map_cons, List.map_map, hmember] at hvalue
    rw [List.map_cons, join_blank, List.map_map]
    have hrest : (fun m : Padded × Padded => m.1.text ++ Text.ofString ":" ++ m.2.text) ∘
        (fun e : Text × Text => (Padded.spaced e.1, Padded.spaced e.2)) =
          (Text.ofString " " ++ ·) ∘ entryText := by
      funext e
      simp only [Function.comp_apply, ← hmember, hspaced, List.append_assoc]
    rwa [hrest] at hvalue

/-- The entries of a dictionary are written as keys and values. -/
theorem exists_entries {entries : List (Value × Value)} {ts : List Text}
    (h : List.Forall₂ (fun e t => writeEntry e = .ok t) entries ts) :
    ∃ es : List (Text × Text), ts = es.map entryText ∧ (∀ e ∈ es, ∃ key, e.1 = writeText key) ∧
      ∀ e ∈ es, ∃ f ∈ entries, write f.2 = .ok e.2 := by
  induction h with
  | nil => exact ⟨[], rfl, List.forall_mem_nil _, List.forall_mem_nil _⟩
  | @cons f t entries ts ht _ ih =>
    obtain ⟨key, value, -, hvalue, rfl⟩ := writeEntry_eq_ok.1 ht
    obtain ⟨es, rfl, hkeys, hvalues⟩ := ih
    refine ⟨(writeText key, value) :: es, rfl, List.forall_mem_cons.2 ⟨⟨key, rfl⟩, hkeys⟩,
      List.forall_mem_cons.2 ⟨⟨f, List.mem_cons_self, hvalue⟩, fun e he => ?_⟩⟩
    obtain ⟨g, hg, hwrite⟩ := hvalues e he
    exact ⟨g, List.mem_cons_of_mem f hg, hwrite⟩

/-! ## Values -/

/-- **What is written of a value with finite floats is JSON.** -/
theorem isValue_of_write (hdouble : v.EachFloat Double.IsBinary64) (hfinite : v.EachFloat Double.IsFinite)
    (h : write v = .ok t) : IsValue t := by
  induction v using Value.induction generalizing t with
  | step v ih =>
    obtain ⟨hd, hdinner⟩ := Value.everywhere_iff.1 hdouble
    obtain ⟨hf, hfinner⟩ := Value.everywhere_iff.1 hfinite
    have hinside : ∀ w ∈ v.inner, ∀ t, write w = .ok t → IsValue t :=
      fun w hw t ht => ih w hw (hdinner w hw) (hfinner w hw) ht
    have hlist : ∀ items, (∀ w ∈ items, w ∈ v.inner) → write (.list items) = .ok t → IsValue t := by
      intro items hitems h
      obtain ⟨ts, hts, rfl⟩ := write_list_eq_ok.1 h
      refine isValue_list fun u hu => ?_
      obtain ⟨w, hw, hwrite⟩ := of_mem_mapM (mapM_eq_ok.2 hts) u hu
      exact hinside w (hitems w hw) u hwrite
    cases v with
    | none =>
      obtain rfl := Except.ok.inj h
      exact .null
    | bool b =>
      obtain rfl := Except.ok.inj h
      cases b
      · exact .false
      · exact .true
    | int n =>
      obtain ⟨-, rfl⟩ := writeInt_eq_ok h
      exact .number (isNumber_ofInt n)
    | float x =>
      obtain rfl := Except.ok.inj h
      exact .number (isNumber_writeDouble (hd x rfl) (hf x rfl))
    | text s =>
      obtain rfl := Except.ok.inj h
      exact .string (isString_writeText s)
    | list items => exact hlist items (fun _ hw => hw) h
    | tuple items => exact hlist items (fun _ hw => hw) (write_tuple items ▸ h)
    | dict entries =>
      obtain ⟨ts, hts, rfl⟩ := write_dict_eq_ok.1 h
      obtain ⟨es, rfl, hkeys, hvalues⟩ := exists_entries hts
      refine isValue_dict (fun e he => ?_) fun e he => ?_
      · obtain ⟨key, hkey⟩ := hkeys e he
        rw [hkey]
        exact isString_writeText key
      · obtain ⟨f, hf, hwrite⟩ := hvalues e he
        exact hinside f.2 (List.mem_map_of_mem hf) e.2 hwrite
    | bytes | set | object | again => cases h

end Json

end RemoteTree
