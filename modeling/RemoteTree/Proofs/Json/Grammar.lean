import RemoteTree.Proofs.Text.Basic
import RemoteTree.Text.Quoted

/-!
# The grammar of JSON

Which texts are JSON, by the grammar of the format alone: how a program reads or writes them has no part in it.

* `Json.IsNumber`, `Json.IsString`: numbers, and texts between quotes.
* `Json.Padded`: a text with blanks around it.
* `Json.IsValue`, `Json.IsText`: values, and a value with blanks around it.
* `Json.IsJson`: the bytes of such a text in UTF-8.
-/

namespace RemoteTree

open CodePoint

namespace Json

/-! ## Numbers -/

/-- Digits, at least one of them. -/
def IsDigits (t : Text) : Prop := t ≠ [] ∧ ∀ c ∈ t, c.isDigit = true

/-- The whole part of a number: a zero alone, or digits that begin with another one. -/
inductive IsWhole : Text → Prop
  | zero : IsWhole "0"
  | digits {c : CodePoint} {t : Text} (h : IsDigits (c :: t)) (hc : c ≠ ofChar '0') : IsWhole (c :: t)

/-- The fraction of a number, if it has one. -/
inductive IsFraction : Text → Prop
  | absent : IsFraction []
  | digits {t : Text} (h : IsDigits t) : IsFraction ("." ++ t)

/-- The exponent of a number, if it has one. -/
inductive IsExponent : Text → Prop
  | absent : IsExponent []
  | digits {mark sign t : Text} (hm : mark = Text.ofString "e" ∨ mark = Text.ofString "E")
      (hs : sign = [] ∨ sign = Text.ofString "+" ∨ sign = Text.ofString "-") (h : IsDigits t) :
      IsExponent (mark ++ sign ++ t)

/-- A number. -/
inductive IsNumber : Text → Prop
  | mk {sign whole fraction exponent : Text} (hs : sign = [] ∨ sign = Text.ofString "-") (hw : IsWhole whole)
      (hf : IsFraction fraction) (he : IsExponent exponent) : IsNumber (sign ++ whole ++ fraction ++ exponent)

/-! ## Texts between quotes -/

/-- A digit to base 16, in lower or upper case. -/
def IsHexDigit (c : CodePoint) : Prop :=
  c.isDigit = true ∨ c.within 0x41 0x46 = true ∨ c.within 0x61 0x66 = true

/-- A character between quotes: itself, or an escape of one letter or of four digits. -/
inductive IsChar : Text → Prop
  | itself {c : CodePoint} (h : 0x20 ≤ c.val) (hq : c ≠ .doubleQuote) (hb : c ≠ .backslash) : IsChar [c]
  | letter {c : CodePoint} (h : c ∈ Text.ofString "\"\\/bfnrt") : IsChar [.backslash, c]
  | digits {a b c d : CodePoint} (h : ∀ x ∈ [a, b, c, d], IsHexDigit x) :
      IsChar [.backslash, ofChar 'u', a, b, c, d]

/-- Characters between quotes, in a row. -/
inductive IsChars : Text → Prop
  | nil : IsChars []
  | cons {s t : Text} (hs : IsChar s) (ht : IsChars t) : IsChars (s ++ t)

/-- A text between quotes. -/
inductive IsString : Text → Prop
  | mk {t : Text} (h : IsChars t) : IsString (.doubleQuote :: t ++ [.doubleQuote])

/-! ## Values -/

/-- Nothing but blanks, the four of the format. -/
def IsBlank (t : Text) : Prop := ∀ c ∈ t, c.val ∈ [0x20, 0x09, 0x0A, 0x0D]

/-- A text with blanks around it. -/
structure Padded where
  before : Text
  core : Text
  after : Text
  before_blank : IsBlank before
  after_blank : IsBlank after

/-- The text with its blanks. -/
def Padded.text (p : Padded) : Text := p.before ++ p.core ++ p.after

/-- A value. The values of an array stand between commas, as do the members of an object, and there are blanks
around all of these and around the keys. -/
inductive IsValue : Text → Prop
  | null : IsValue "null"
  | true : IsValue "true"
  | false : IsValue "false"
  | number {t : Text} (h : IsNumber t) : IsValue t
  | string {t : Text} (h : IsString t) : IsValue t
  | emptyArray {t : Text} (h : IsBlank t) : IsValue ("[" ++ t ++ "]")
  | array {ps : List Padded} (hne : ps ≠ []) (h : ∀ p ∈ ps, IsValue p.core) :
      IsValue ("[" ++ Text.join "," (ps.map Padded.text) ++ "]")
  | emptyObject {t : Text} (h : IsBlank t) : IsValue ("\x7b" ++ t ++ "\x7d")
  | object {ms : List (Padded × Padded)} (hne : ms ≠ []) (hk : ∀ m ∈ ms, IsString m.1.core)
      (hv : ∀ m ∈ ms, IsValue m.2.core) :
      IsValue ("\x7b" ++ Text.join "," (ms.map fun m => m.1.text ++ ":" ++ m.2.text) ++ "\x7d")

/-- A text that is JSON: a value with blanks around it. -/
def IsText (t : Text) : Prop := ∃ p : Padded, IsValue p.core ∧ t = p.text

/-- Bytes that are JSON: those of such a text in UTF-8. -/
def IsJson (bs : Bytes) : Prop := ∃ t, Utf8.decode false bs = .ok t ∧ IsText t

/-! ## First facts -/

theorem isBlank_nil : IsBlank [] := fun _ hc => nomatch hc

theorem isBlank_space : IsBlank " " := by
  intro c hc
  obtain rfl := List.mem_singleton.1 hc
  decide

/-- A value is JSON. -/
theorem IsValue.isText {t : Text} (h : IsValue t) : IsText t :=
  ⟨⟨[], t, [], isBlank_nil, isBlank_nil⟩, h, by simp [Padded.text]⟩

theorem IsChars.append {s t : Text} (hs : IsChars s) (ht : IsChars t) : IsChars (s ++ t) := by
  induction hs with
  | nil => exact ht
  | cons hc _ ih =>
    rw [List.append_assoc]
    exact .cons hc ih

theorem IsChar.isChars {t : Text} (h : IsChar t) : IsChars t := by
  have hcons := IsChars.cons h .nil
  rwa [List.append_nil] at hcons

end Json

end RemoteTree
