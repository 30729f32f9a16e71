import Mathlib.Data.List.Forall2
import RemoteTree.Json.Conversion
import RemoteTree.Proofs.Number.Decimal
import RemoteTree.Proofs.Results
import RemoteTree.Proofs.Text.Utf8
import RemoteTree.Proofs.Value.Parts

/-!
# Values that are written

What is written for a container are the texts of what it holds, in a row, and all of it is ASCII.

* `Json.writeEntry`: the text of an entry; `writeItems_eq`, `writeEntries_eq` say that a container is written
  member by member.
* `Json.write_list_eq_ok`, `Json.write_tuple_eq_ok`, `Json.write_dict_eq_ok`: the text of a container.
* `Json.Fit`: what a value must be itself to be written; `isOk_write_iff`: **a value is written exactly if it and
  all values inside it are fit.**
* `Json.visible_of_write`: **what is written is visible ASCII**, and `encode_eq_ok` says that its bytes are those
  of the text.
-/

namespace RemoteTree

/-! ## Rows -/

theorem mapM_eq_ok {ε α β : Type} {f : α → Except ε β} {l : List α} {bs : List β} :
    l.mapM f = .ok bs ↔ List.Forall₂ (fun a b => f a = .ok b) l bs := by
  induction l generalizing bs with
  | nil =>
    rw [List.forall₂_nil_left_iff]
    exact ⟨fun h => (Except.ok.inj h).symm, fun h => by rw [h]; rfl⟩
  | cons a l ih =>
    rw [List.mapM_cons, bind_eq_ok, List.forall₂_cons_left_iff]
    constructor
    · rintro ⟨b, hb, h⟩
      obtain ⟨bs', hbs', h⟩ := bind_eq_ok.1 h
      obtain rfl := Except.ok.inj h
      exact ⟨b, bs', hb, ih.1 hbs', rfl⟩
    · rintro ⟨b, bs', hb, hbs', rfl⟩
      refine ⟨b, hb, ?_⟩
      rw [ih.2 hbs']
      rfl

theorem exists_of_mem_row {α β : Type} {R : α → β → Prop} {l : List α} {bs : List β} (h : List.Forall₂ R l bs)
    {a : α} (ha : a ∈ l) : ∃ b ∈ bs, R a b := by
  induction h with
  | nil => cases ha
  | @cons a' b l bs hab _ ih =>
    rcases List.mem_cons.1 ha with rfl | ha
    · exact ⟨b, List.mem_cons_self, hab⟩
    · obtain ⟨c, hc, hac⟩ := ih ha
      exact ⟨c, List.mem_cons_of_mem b hc, hac⟩

/-- What holds of every member and what it is paired with holds along the row. -/
theorem row_of_mem {α β γ : Type} {R : α → β → Prop} {S : γ → β → Prop} {f : α → γ} {l : List α} {bs : List β}
    (hf : ∀ a ∈ l, ∀ b, R a b → S (f a) b) (h : List.Forall₂ R l bs) : List.Forall₂ S (l.map f) bs := by
  have hboth := (List.forall₂_and_left _ _).2 ⟨hf, h⟩
  exact List.forall₂_map_left_iff.2 (hboth.imp fun a b hab => hab.1 b hab.2)

/-- A row is there exactly if every member of it is. -/
theorem isOk_mapM_iff {ε α β : Type} {f : α → Except ε β} {l : List α} :
    (∃ bs, l.mapM f = .ok bs) ↔ ∀ a ∈ l, ∃ b, f a = .ok b := by
  induction l with
  | nil => exact ⟨fun _ a ha => (nomatch ha), fun _ => ⟨[], rfl⟩⟩
  | cons a l ih =>
    rw [List.forall_mem_cons, ← ih]
    constructor
    · rintro ⟨bs, hbs⟩
      obtain ⟨b, bs', hb, hbs', -⟩ := List.forall₂_cons_left_iff.1 (mapM_eq_ok.1 hbs)
      exact ⟨⟨b, hb⟩, bs', mapM_eq_ok.2 hbs'⟩
    · rintro ⟨⟨b, hb⟩, bs, hbs⟩
      exact ⟨b :: bs, mapM_eq_ok.2 (.cons hb (mapM_eq_ok.1 hbs))⟩

namespace Json

/-! ## Containers -/

/-- The text of an entry. -/
def writeEntry (e : Value × Value) : Except WriteFault Text := do
  let key ← keyText e.1
  let value ← write e.2
  return writeText key ++ ": " ++ value

theorem writeItems_eq (items : List Value) : writeItems items = items.mapM write := by
  induction items with
  | nil => rfl
  | cons v rest ih => rw [writeItems, ih, List.mapM_cons]

theorem writeEntries_eq (entries : List (Value × Value)) : writeEntries entries = entries.mapM writeEntry := by
  induction entries with
  | nil => rfl
  | cons e rest ih =>
    obtain ⟨k, v⟩ := e
    rw [writeEntries, ih, List.mapM_cons]
    unfold writeEntry
    simp only [bind_assoc, pure_bind]

theorem writeEntry_eq_ok {e : Value × Value} {t : Text} :
    writeEntry e = .ok t ↔ ∃ key value, keyText e.1 = .ok key ∧ write e.2 = .ok value ∧
      t = writeText key ++ ": " ++ value := by
  unfold writeEntry
  constructor
  · intro h
    obtain ⟨key, hkey, h⟩ := bind_eq_ok.1 h
    obtain ⟨value, hvalue, h⟩ := bind_eq_ok.1 h
    exact ⟨key, value, hkey, hvalue, (Except.ok.inj h).symm⟩
  · rintro ⟨key, value, hkey, hvalue, rfl⟩
    rw [hkey, hvalue]
    rfl

/-- A list is written with its items in a row. -/
theorem write_list_eq_ok {items : List Value} {t : Text} :
    write (.list items) = .ok t ↔ ∃ ts, List.Forall₂ (fun v u => write v = .ok u) items ts ∧
      t = "[" ++ Text.join ", " ts ++ "]" := by
  rw [write, writeItems_eq]
  constructor
  · intro h
    obtain ⟨ts, hts, h⟩ := bind_eq_ok.1 h
    exact ⟨ts, mapM_eq_ok.1 hts, (Except.ok.inj h).symm⟩
  · rintro ⟨ts, hts, rfl⟩
    rw [mapM_eq_ok.2 hts]
    rfl

/-- A tuple is written as a list. -/
theorem write_tuple (items : List Value) : write (.tuple items) = write (.list items) := by
  rw [write, write]

/-- A dictionary is written with its entries in a row. -/
theorem write_dict_eq_ok {entries : List (Value × Value)} {t : Text} :
    write (.dict entries) = .ok t ↔ ∃ ts, List.Forall₂ (fun e u => writeEntry e = .ok u) entries ts ∧
      t = "\x7b" ++ Text.join ", " ts ++ "\x7d" := by
  rw [write, writeEntries_eq]
  constructor
  · intro h
    obtain ⟨ts, hts, h⟩ := bind_eq_ok.1 h
    exact ⟨ts, mapM_eq_ok.1 hts, (Except.ok.inj h).symm⟩
  · rintro ⟨ts, hts, rfl⟩
    rw [mapM_eq_ok.2 hts]
    rfl

/-! ## What is written -/

/-- What a value must be itself to be written. -/
def Fit : Value → Prop
  | .none | .bool _ | .float _ | .text _ | .list _ | .tuple _ => True
  | .int n => Integer.isWritten n = true
  | .dict entries => ∀ e ∈ entries, ∃ key, keyText e.1 = .ok key
  | .bytes _ | .set _ | .object | .again _ => False

theorem isOk_writeInt_iff {n : Int} : (∃ t, writeInt n = .ok t) ↔ Integer.isWritten n = true := by
  unfold writeInt Integer.text?
  by_cases hn : Integer.isWritten n = true
  · simp [hn]
  · simp [hn]

theorem isOk_writeEntry_iff {e : Value × Value} :
    (∃ t, writeEntry e = .ok t) ↔ (∃ key, keyText e.1 = .ok key) ∧ ∃ t, write e.2 = .ok t := by
  constructor
  · rintro ⟨t, ht⟩
    obtain ⟨key, value, hkey, hvalue, -⟩ := writeEntry_eq_ok.1 ht
    exact ⟨⟨key, hkey⟩, value, hvalue⟩
  · rintro ⟨⟨key, hkey⟩, value, hvalue⟩
    exact ⟨_, writeEntry_eq_ok.2 ⟨key, value, hkey, hvalue, rfl⟩⟩

theorem isOk_write_list_iff {items : List Value} :
    (∃ t, write (.list items) = .ok t) ↔ ∀ v ∈ items, ∃ t, write v = .ok t := by
  rw [← isOk_mapM_iff]
  constructor
  · rintro ⟨t, ht⟩
    obtain ⟨ts, hts, -⟩ := write_list_eq_ok.1 ht
    exact ⟨ts, mapM_eq_ok.2 hts⟩
  · rintro ⟨ts, hts⟩
    exact ⟨_, write_list_eq_ok.2 ⟨ts, mapM_eq_ok.1 hts, rfl⟩⟩

theorem isOk_write_dict_iff {entries : List (Value × Value)} :
    (∃ t, write (.dict entries) = .ok t) ↔
      ∀ e ∈ entries, (∃ key, keyText e.1 = .ok key) ∧ ∃ t, write e.2 = .ok t := by
  have hrow : (∃ t, write (.dict entries) = .ok t) ↔ ∃ ts, entries.mapM writeEntry = .ok ts := by
    constructor
    · rintro ⟨t, ht⟩
      obtain ⟨ts, hts, -⟩ := write_dict_eq_ok.1 ht
      exact ⟨ts, mapM_eq_ok.2 hts⟩
    · rintro ⟨ts, hts⟩
      exact ⟨_, write_dict_eq_ok.2 ⟨ts, mapM_eq_ok.1 hts, rfl⟩⟩
  rw [hrow, isOk_mapM_iff]
  simp only [isOk_writeEntry_iff]

/-- **A value is written exactly if it and all values inside it are fit.** -/
theorem isOk_write_iff (v : Value) : (∃ t, write v = .ok t) ↔ v.Everywhere Fit := by
  induction v using Value.induction with
  | step v ih =>
    rw [Value.everywhere_iff]
    -- what stands directly inside is written exactly if it is fit
    have hinner : (∀ w ∈ v.inner, w.Everywhere Fit) ↔ ∀ w ∈ v.inner, ∃ t, write w = .ok t :=
      forall₂_congr fun w hw => (ih w hw).symm
    rw [hinner]
    cases v with
    | none | bool | float | text => simp [write, Fit, Value.inner]
    | int n =>
      rw [write, isOk_writeInt_iff]
      simp [Fit, Value.inner]
    | list items =>
      rw [isOk_write_list_iff]
      simp [Fit, Value.inner]
    | tuple items =>
      rw [write_tuple, isOk_write_list_iff]
      simp [Fit, Value.inner]
    | dict entries =>
      rw [isOk_write_dict_iff]
      simp only [Fit, Value.inner, List.forall_mem_map]
      exact forall₂_and
    | bytes | set | object | again => simp [write, Fit]

/-! ## Visible characters -/

/-- Whether a character can be seen, or is a blank, in ASCII. -/
def isVisible (c : CodePoint) : Bool := c.within 0x20 0x7E

/-- A text of nothing but visible characters. -/
def IsVisible (t : Text) : Prop := ∀ c ∈ t, isVisible c = true

instance (t : Text) : Decidable (IsVisible t) := inferInstanceAs (Decidable (∀ c ∈ t, isVisible c = true))

theorem IsVisible.append {s t : Text} (hs : IsVisible s) (ht : IsVisible t) : IsVisible (s ++ t) :=
  List.forall_mem_append.2 ⟨hs, ht⟩

theorem IsVisible.lt {t : Text} (h : IsVisible t) : ∀ c ∈ t, c.val < 0x80 := by
  intro c hc
  have := h c hc
  simp only [isVisible, CodePoint.within, Bool.and_eq_true, decide_eq_true_eq] at this
  omega

theorem isVisible_of_isDecimalChar {c : CodePoint} (h : Double.isDecimalChar c = true) : isVisible c = true := by
  simp only [Double.isDecimalChar, Bool.or_eq_true, beq_iff_eq] at h
  rcases h with (((h | rfl) | rfl) | rfl) | rfl
  · simp only [CodePoint.isDigit, isVisible, CodePoint.within, Bool.and_eq_true, decide_eq_true_eq] at h ⊢
    omega
  all_goals decide

theorem isVisible_hexDigit {n : Nat} (h : n < 16) : isVisible (Text.hexDigit n) = true := by
  have hall : ∀ n < 16, isVisible (Text.hexDigit n) = true := by decide
  exact hall n h

theorem isVisible_hex (width n : Nat) : IsVisible (Text.hex width n) := by
  induction width generalizing n with
  | zero => exact fun c hc => nomatch hc
  | succ width ih =>
    refine (ih (n / 16)).append fun c hc => ?_
    rw [List.mem_singleton.1 hc]
    exact isVisible_hexDigit (Nat.mod_lt n (by decide))

theorem isVisible_escapedUnit (n : Nat) : IsVisible (Text.escapedUnit n) :=
  IsVisible.append (by decide) (isVisible_hex 4 n)

theorem isVisible_escaped (c : CodePoint) : IsVisible (escaped c) := by
  unfold escaped
  split_ifs with h
  · rcases h with rfl | rfl <;> decide
  · intro d hd
    rwa [List.mem_singleton.1 hd]
  · decide
  · decide
  · decide
  · decide
  · decide
  · exact isVisible_escapedUnit _
  · exact (isVisible_escapedUnit _).append (isVisible_escapedUnit _)

theorem isVisible_writeText (t : Text) : IsVisible (writeText t) := by
  have hquote : IsVisible [.doubleQuote] := by decide
  refine IsVisible.append (IsVisible.append hquote ?_) hquote
  intro c hc
  obtain ⟨d, -, hd⟩ := List.mem_flatMap.1 hc
  exact isVisible_escaped d c hd

theorem isVisible_writeDouble (x : Double) : IsVisible (writeDouble x) := by
  have hnan : IsVisible "NaN" := by decide
  have hinfinity : IsVisible "Infinity" := by decide
  have hsign : ∀ negative : Bool, IsVisible (if negative then Text.ofString "-" else []) := by
    decide
  unfold writeDouble Double.textWith
  cases x with
  | nan => exact hnan
  | infinite negative => exact (hsign negative).append hinfinity
  | finite negative m e =>
    exact (hsign negative).append fun c hc => isVisible_of_isDecimalChar (Double.isDecimalChar_of_mem hc)

theorem isVisible_ofInt (n : Int) : IsVisible (Text.ofInt n) := by
  refine IsVisible.append ?_ fun c hc =>
    isVisible_of_isDecimalChar (Double.isDecimalChar_of_isDigit (Text.isDigit_of_mem_ofNat hc))
  split <;> decide

theorem writeInt_eq_ok {n : Int} {t : Text} (h : writeInt n = .ok t) :
    Integer.isWritten n = true ∧ t = Text.ofInt n := by
  unfold writeInt Integer.text? at h
  by_cases hn : Integer.isWritten n = true
  · rw [if_pos hn] at h
    exact ⟨hn, (Except.ok.inj h).symm⟩
  · rw [if_neg hn] at h
    cases h

theorem isVisible_writeBool (b : Bool) : IsVisible (writeBool b) := by
  cases b <;> decide

theorem isVisible_row {front back : Text} (hf : IsVisible front) (hb : IsVisible back) {ts : List Text}
    (h : ∀ t ∈ ts, IsVisible t) : IsVisible (front ++ Text.join ", " ts ++ back) := by
  have hnil : IsVisible [] := List.forall_mem_nil _
  exact (hf.append (Text.join_induction hnil IsVisible.append (by decide) h)).append hb

/-- **What is written is visible.** -/
theorem visible_of_write (v : Value) {t : Text} (h : write v = .ok t) : IsVisible t := by
  induction v using Value.induction generalizing t with
  | step v ih =>
    have hlist : ∀ items, (∀ w ∈ items, w ∈ v.inner) → write (.list items) = .ok t → IsVisible t := by
      intro items hitems h
      obtain ⟨ts, hts, rfl⟩ := write_list_eq_ok.1 h
      refine isVisible_row (by decide) (by decide) fun u hu => ?_
      obtain ⟨w, hw, hwrite⟩ := of_mem_mapM (mapM_eq_ok.2 hts) u hu
      exact ih w (hitems w hw) hwrite
    cases v with
    | none =>
      obtain rfl := Except.ok.inj h
      decide
    | bool b =>
      obtain rfl := Except.ok.inj h
      exact isVisible_writeBool b
    | int n =>
      obtain ⟨-, rfl⟩ := writeInt_eq_ok h
      exact isVisible_ofInt n
    | float x =>
      obtain rfl := Except.ok.inj h
      exact isVisible_writeDouble x
    | text u =>
      obtain rfl := Except.ok.inj h
      exact isVisible_writeText u
    | list items => exact hlist items (fun _ hw => hw) h
    | tuple items => exact hlist items (fun _ hw => hw) (write_tuple items ▸ h)
    | dict entries =>
      obtain ⟨ts, hts, rfl⟩ := write_dict_eq_ok.1 h
      refine isVisible_row (by decide) (by decide) fun u hu => ?_
      obtain ⟨e, he, hentry⟩ := of_mem_mapM (mapM_eq_ok.2 hts) u hu
      obtain ⟨key, value, -, hvalue, rfl⟩ := writeEntry_eq_ok.1 hentry
      have hcolon : IsVisible ": " := by decide
      exact ((isVisible_writeText key).append hcolon).append (ih e.2 (List.mem_map_of_mem he) hvalue)
    | bytes | set | object | again => cases h

/-- **The bytes of a value** are those of the text that is written for it. -/
theorem encode_eq_ok {v : Value} {bs : Bytes} :
    encode v = .ok bs ↔ ∃ t, write v = .ok t ∧ bs = Bytes.ofAscii t := by
  unfold encode
  cases write v with
  | error why => simp
  | ok t => simp [eq_comm]

end Json

end RemoteTree
