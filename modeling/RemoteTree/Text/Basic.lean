/-!
# Text as code points

A text is a list of code points. Surrogates are code points like any other, because the
texts that a caller hands in and the texts that a decoder yields may hold them alone.

* `CodePoint`: a number below `0x110000`.
* `Text.cut`, `Text.cutLast`, `Text.pieces`: the three ways of taking a text apart at a mark;
  `Text.append_cut` and `Text.join_pieces` put it together again.
* `Text.trim`, `Text.dropTrailing`: taking characters off the ends.
-/

namespace RemoteTree

/-- A code point: a number below `0x110000`, surrogates included. -/
structure CodePoint where
  /-- The number. -/
  val : Nat
  /-- Every code point lies in the seventeen planes. -/
  lt : val < 0x110000
deriving DecidableEq

namespace CodePoint

/-- The code point of a scalar value. -/
def ofChar (c : Char) : CodePoint :=
  ⟨c.toNat, by
    have h := c.valid
    simp only [Char.toNat, UInt32.isValidChar, Nat.isValidChar] at *
    omega⟩

instance : Coe Char CodePoint := ⟨ofChar⟩

/-- The code point with number `n`, or the replacement character beyond the last plane. -/
def ofNat (n : Nat) : CodePoint :=
  if h : n < 0x110000 then ⟨n, h⟩ else ⟨0xFFFD, by decide⟩

theorem val_ofNat {n : Nat} (h : n < 0x110000) : (ofNat n).val = n := by simp [ofNat, h]

instance : Inhabited CodePoint := ⟨ofNat 0⟩

/-- Code points are ordered by number. -/
instance : LE CodePoint := ⟨fun a b => a.val ≤ b.val⟩

instance (a b : CodePoint) : Decidable (a ≤ b) := inferInstanceAs (Decidable (a.val ≤ b.val))

instance : LT CodePoint := ⟨fun a b => a.val < b.val⟩

instance (a b : CodePoint) : Decidable (a < b) := inferInstanceAs (Decidable (a.val < b.val))

/-- Whether the code point lies between two others, ends included. -/
def within (c : CodePoint) (lo hi : Nat) : Bool := lo ≤ c.val && c.val ≤ hi

/-- Below 128. -/
def isAscii (c : CodePoint) : Bool := c.val < 0x80

/-- The first half of a surrogate pair. -/
def isHigh (c : CodePoint) : Bool := c.within 0xD800 0xDBFF

/-- The second half of a surrogate pair. -/
def isLow (c : CodePoint) : Bool := c.within 0xDC00 0xDFFF

/-- Either half of a surrogate pair. -/
def isSurrogate (c : CodePoint) : Bool := c.within 0xD800 0xDFFF

/-- `0` to `9`. -/
def isDigit (c : CodePoint) : Bool := c.within 0x30 0x39

/-- `A` to `Z`. -/
def isUpper (c : CodePoint) : Bool := c.within 0x41 0x5A

/-- `a` to `z`. -/
def isLower (c : CodePoint) : Bool := c.within 0x61 0x7A

/-- An ASCII letter. -/
def isLetter (c : CodePoint) : Bool := c.isUpper || c.isLower

/-- An ASCII letter or digit. -/
def isLetterOrDigit (c : CodePoint) : Bool := c.isLetter || c.isDigit

/-- The lower case form of an ASCII letter; every other code point is kept. -/
def toLower (c : CodePoint) : CodePoint := if c.isUpper then ofNat (c.val + 32) else c

/-- The upper case form of an ASCII letter; every other code point is kept. -/
def toUpper (c : CodePoint) : CodePoint := if c.isLower then ofNat (c.val - 32) else c

end CodePoint

/-- A text: its code points in order. -/
abbrev Text := List CodePoint

namespace Text

/-- The text of a string. -/
def ofString (s : String) : Text := s.toList.map CodePoint.ofChar

instance : Coe String Text := ⟨ofString⟩

/-- Whether every code point is ASCII. -/
def isAscii (t : Text) : Bool := t.all CodePoint.isAscii

/-- The text with its ASCII letters in lower case. -/
def lowerAscii (t : Text) : Text := t.map CodePoint.toLower

/-- The text without the longest tail whose code points all satisfy `p`. -/
def dropTrailing (p : CodePoint → Bool) (t : Text) : Text := (t.reverse.dropWhile p).reverse

/-- The text without the longest head and the longest tail whose code points satisfy `p`. -/
def trim (p : CodePoint → Bool) (t : Text) : Text := dropTrailing p (t.dropWhile p)

/-- The text before the first `c`, and the text after it if there is one. -/
def cut (c : CodePoint) : Text → Text × Option Text
  | [] => ([], none)
  | x :: t => if x = c then ([], some t) else ((x :: (cut c t).1), (cut c t).2)

/-- What is cut at the first `c` has none in front of it. -/
theorem not_mem_cut (c : CodePoint) (t : Text) : c ∉ (cut c t).1 := by
  induction t with
  | nil => simp [cut]
  | cons x t ih =>
    by_cases h : x = c
    · simp [cut, h]
    · simp [cut, h, ih, Ne.symm h]

/-- Nothing is lost where a text is cut. -/
theorem append_cut {c : CodePoint} {t rest : Text} (h : (cut c t).2 = some rest) :
    (cut c t).1 ++ c :: rest = t := by
  induction t with
  | nil => simp [cut] at h
  | cons x t ih =>
    by_cases hx : x = c
    · simp_all [cut]
    · simp only [cut, hx, ite_false, List.cons_append, List.cons.injEq, true_and] at h ⊢
      exact ih h

/-- A text without the mark is not cut. -/
theorem cut_fst_eq {c : CodePoint} {t : Text} (h : (cut c t).2 = none) : (cut c t).1 = t := by
  induction t with
  | nil => rfl
  | cons x t ih =>
    by_cases hx : x = c
    · simp [cut, hx] at h
    · simp only [cut, hx, ite_false, List.cons.injEq, true_and] at h ⊢
      exact ih h

/-- The text before the last `c` if there is one, and the text after it. -/
def cutLast (c : CodePoint) : Text → Option Text × Text
  | [] => (none, [])
  | x :: t =>
    match cutLast c t with
    | (some a, b) => (some (x :: a), b)
    | (none, b) => if x = c then (some [], b) else (none, x :: b)

/-- The pieces between the marks `c`: one more than there are marks. -/
def pieces (c : CodePoint) : Text → List Text
  | [] => [[]]
  | x :: t =>
    if x = c then [] :: pieces c t
    else match pieces c t with
      | [] => [[x]]
      | p :: ps => (x :: p) :: ps

/-- The texts in a row, a separator between every two of them. -/
def join (sep : Text) : List Text → Text
  | [] => []
  | [t] => t
  | t :: u :: ts => t ++ sep ++ join sep (u :: ts)

theorem pieces_ne_nil (c : CodePoint) (t : Text) : pieces c t ≠ [] := by
  cases t with
  | nil => simp [pieces]
  | cons x t =>
    simp only [pieces]
    split
    · simp
    · split <;> simp

/-- The pieces of a text with the mark between them are the text. -/
theorem join_pieces (c : CodePoint) (t : Text) : join [c] (pieces c t) = t := by
  induction t with
  | nil => rfl
  | cons x t ih =>
    have hne := pieces_ne_nil c t
    simp only [pieces]
    cases hp : pieces c t with
    | nil => exact absurd hp hne
    | cons p ps =>
      rw [hp] at ih
      by_cases hx : x = c
      · simp [hx, join, ih]
      · cases ps with
        | nil => simp_all [join]
        | cons q qs => simp_all [join]

/-- The text, or nothing. -/
def when (b : Bool) (t : Text) : Text := if b then t else []

/-- Whether some code point is `c`. -/
def has (c : CodePoint) (t : Text) : Bool := t.any (· == c)

/-- Code point order: the first difference decides, and a proper head comes first. -/
def before : Text → Text → Bool
  | [], [] => false
  | [], _ :: _ => true
  | _ :: _, [] => false
  | a :: s, b :: t => if a = b then before s t else a.val < b.val

end Text

end RemoteTree
