import RemoteTree.Number.Integer
import RemoteTree.Number.Reader
import RemoteTree.Text.Quoted
import RemoteTree.Text.Wide
import RemoteTree.Value.Basic

/-!
# Reading JSON

The value of a JSON text, or the first fault with the place where it stands. Not-a-number and
the infinities are read as well. Of several entries with one key the last value counts, in the
place of the first.

* `Json.read`: the value of a text.
* `Json.readBytes`: the value of a byte string in the encoding that its first bytes show.
* `Json.ReadFault`: what is wrong and where.

The reader keeps the text that remains, so that a place is the number of code points before it.
A faulty place is handed on as the number of code points from there to the end.
-/

namespace RemoteTree.Json

/-- What is missing or wrong in a text. -/
inductive Flaw where
  | expectedValue
  | expectedName
  | expectedColon
  | expectedComma
  | extraData
  | unterminated
  | controlCharacter
  | badEscape
  | badUnicodeEscape
  | byteOrderMark
deriving DecidableEq

/-- The wording of a flaw. -/
def Flaw.words : Flaw → String
  | .expectedValue => "Expecting value"
  | .expectedName => "Expecting property name enclosed in double quotes"
  | .expectedColon => "Expecting ':' delimiter"
  | .expectedComma => "Expecting ',' delimiter"
  | .extraData => "Extra data"
  | .unterminated => "Unterminated string starting at"
  | .controlCharacter => "Invalid control character at"
  | .badEscape => "Invalid \\escape"
  | .badUnicodeEscape => "Invalid \\uXXXX escape"
  | .byteOrderMark => "Unexpected UTF-8 BOM (decode using utf-8-sig)"

/-- Why a text is not read: a flaw with what remains from its place on, or a number that is too
long. -/
inductive Stop where
  | flaw (what : Flaw) (remaining : Nat)
  | digits (fault : DigitFault)

/-- Why bytes or a text give no value. -/
inductive ReadFault where
  /-- A flaw at the given line, column and place. -/
  | flaw (what : Flaw) (line column place : Nat)
  | digits (fault : DigitFault)
  | encoding (fault : DecodeFault)
  /-- Neither bytes nor text. -/
  | notText (typeName : String)
deriving DecidableEq

/-- The wording of a fault. -/
def ReadFault.message : ReadFault → Text
  | .flaw what line column place =>
    Text.ofString what.words ++ ": line " ++ Text.ofNat line ++ " column " ++ Text.ofNat column ++
      " (char " ++ Text.ofNat place ++ ")"
  | .digits f => f.message
  | .encoding f => f.message
  | .notText type =>
    "the JSON object must be str, bytes or bytearray, not " ++ Text.ofString type

/-- The four blanks of the format. -/
def isSpace (c : CodePoint) : Bool :=
  c.val = 0x20 || c.val = 0x09 || c.val = 0x0A || c.val = 0x0D

/-- The text after its blanks. -/
def skipSpace (t : Text) : Text := t.dropWhile isSpace

/-- The value of a digit to base 16. -/
def hexValue? (c : CodePoint) : Option Nat :=
  if c.isDigit then some (c.val - 0x30)
  else if c.within 0x41 0x46 then some (c.val - 0x37)
  else if c.within 0x61 0x66 then some (c.val - 0x57)
  else none

/-- The number of four digits to base 16. -/
def hex4? (a b c d : CodePoint) : Option Nat := do
  return (((← hexValue? a) * 16 + (← hexValue? b)) * 16 + (← hexValue? c)) * 16 + (← hexValue? d)

/-- The code point of an escape of one letter. -/
def unescape? (c : CodePoint) : Option CodePoint :=
  if c = .doubleQuote ∨ c = .backslash ∨ c = '/' then some c
  else if c = 'b' then some (CodePoint.ofNat 0x08)
  else if c = 'f' then some (CodePoint.ofNat 0x0C)
  else if c = 'n' then some (CodePoint.ofNat 0x0A)
  else if c = 'r' then some (CodePoint.ofNat 0x0D)
  else if c = 't' then some (CodePoint.ofNat 0x09)
  else none

/-- Puts a code point in front of what is read. -/
def prepend (c : CodePoint) (r : Except Stop (Text × Text)) : Except Stop (Text × Text) :=
  r.map fun (s, rest) => (c :: s, rest)

/-- The second half of a surrogate pair at the head of a text, `y` being what comes before its
digits and the rest being what comes after them: `none` if no escape of four digits with something
after it is there, and a flaw if its digits are none. -/
def takeSecond : Text → Except Stop (Option (CodePoint × Text))
  | b :: y :: g1 :: g2 :: g3 :: g4 :: z :: w =>
    if b = .backslash ∧ y = 'u' then
      match hex4? g1 g2 g3 g4 with
      | some n => .ok (some (CodePoint.ofNat n, z :: w))
      | none => .error (.flaw .badUnicodeEscape (y :: g1 :: g2 :: g3 :: g4 :: z :: w).length)
    else .ok none
  | _ => .ok none

/-- The code point that begins with an escape for `first`, and the rest: a high surrogate takes
the escape of a low one right after it as its second half. -/
def completePair (first : CodePoint) (t : Text) : Except Stop (CodePoint × Text) :=
  if first.isHigh then
    match takeSecond t with
    | .error stop => .error stop
    | .ok none => .ok (first, t)
    | .ok (some (second, rest)) =>
      if second.isLow then .ok (Utf16.joined first second, rest) else .ok (first, t)
  else .ok (first, t)

/-- The code point of an escape whose backslash has been read, and the rest. `start` code points
remained at the opening quote. An escape of four digits needs something after it, and so does
the second one of a surrogate pair, which is otherwise read on its own. -/
def readEscape (start : Nat) : Text → Except Stop (CodePoint × Text)
  | [] => .error (.flaw .unterminated start)
  | e :: u =>
    if e ≠ 'u' then
      match unescape? e with
      | some x => .ok (x, u)
      | none => .error (.flaw .badEscape (u.length + 2))
    else match u with
      | h1 :: h2 :: h3 :: h4 :: x :: v =>
        match hex4? h1 h2 h3 h4 with
        | none => .error (.flaw .badUnicodeEscape (e :: u).length)
        | some n => completePair (CodePoint.ofNat n) (x :: v)
      | u => .error (.flaw .badUnicodeEscape (e :: u).length)

theorem length_of_takeSecond {t w : Text} {c : CodePoint} (h : takeSecond t = .ok (some (c, w))) :
    w.length < t.length := by
  unfold takeSecond at h
  grind

theorem length_of_completePair {first c : CodePoint} {t w : Text}
    (h : completePair first t = .ok (c, w)) : w.length ≤ t.length := by
  unfold completePair at h
  grind [→ length_of_takeSecond]

/-- An escape takes at least one code point. -/
theorem length_of_readEscape {start : Nat} {t w : Text} {c : CodePoint}
    (h : readEscape start t = .ok (c, w)) : w.length < t.length := by
  unfold readEscape at h
  grind [→ length_of_completePair]

/-- The text up to the closing quote, and what follows the quote. `start` code points remained
at the opening quote. -/
def readString (start : Nat) : Text → Except Stop (Text × Text)
  | [] => .error (.flaw .unterminated start)
  | c :: t =>
    if c = .doubleQuote then .ok ([], t)
    else if c ≠ .backslash then
      if c.val < 0x20 then .error (.flaw .controlCharacter (c :: t).length)
      else prepend c (readString start t)
    else match h : readEscape start t with
      | .error stop => .error stop
      | .ok (x, rest) =>
        have := length_of_readEscape h
        prepend x (readString start rest)
termination_by t => t.length
decreasing_by all_goals simp only [List.length_cons]; omega

/-- The exponent at the head of a text, if a whole one is there: its value and the rest. -/
def takeExponent (t : Text) : Option (Int × Text) :=
  match t with
  | c :: u =>
    if c = 'e' ∨ c = 'E' then
      let (negative, v) := Double.takeSign u
      let ds := v.takeWhile CodePoint.isDigit
      if ds.isEmpty then none
      else
        let n : Int := Text.digitsValue ds
        some (if negative then -n else n, v.dropWhile CodePoint.isDigit)
    else none
  | [] => none

/-- The fraction at the head of a text, its digits and the rest; a point alone is none. -/
def takeFraction (t : Text) : Option (Text × Text) :=
  match t with
  | p :: d :: u =>
    if p = '.' ∧ d.isDigit then
      some ((d :: u).takeWhile CodePoint.isDigit, (d :: u).dropWhile CodePoint.isDigit)
    else none
  | _ => none

/-- The whole digits at the head of a text and the rest: a zero stands alone. -/
def takeWhole (t : Text) : Option (Text × Text) :=
  match t with
  | c :: u =>
    if c = '0' then some ([c], u)
    else if c.isDigit then
      some ((c :: u).takeWhile CodePoint.isDigit, (c :: u).dropWhile CodePoint.isDigit)
    else none
  | [] => none

/-- The number at the head of a text and the rest. -/
def readNumber (t : Text) : Except Stop (Value × Text) :=
  let (negative, u) := match t with
    | c :: u => if c = '-' then (true, u) else (false, t)
    | [] => (false, t)
  match takeWhole u with
  | none => .error (.flaw .expectedValue t.length)
  | some (whole, u) =>
    match takeFraction u, takeExponent ((takeFraction u).elim u Prod.snd) with
    | none, none =>
      match Integer.ofDigits? negative whole with
      | .ok n => .ok (.int n, u)
      | .error f => .error (.digits f)
    | fraction, exponent =>
      let (ds, u) := fraction.getD ([], u)
      let (e, u) := exponent.getD (0, u)
      .ok (.float (Double.ofDecimal negative (Text.digitsValue (whole ++ ds)) (e - ds.length)), u)

/-- The words that stand for values. -/
def constants : List (Text × Value) :=
  [ ("null", .none), ("true", .bool true), ("false", .bool false), ("NaN", .float .nan),
    ("Infinity", .float (.infinite false)), ("-Infinity", .float (.infinite true)) ]

/-- The word at the head of a text and the rest. -/
def takeConstant (t : Text) : Option (Value × Text) :=
  (constants.find? fun c => c.1.isPrefixOf t).map fun c => (c.2, t.drop c.1.length)

mutual

/-- The value at the head of a text, which has no blanks in front, and the rest. -/
def readValue : (fuel : Nat) → Text → Except Stop (Value × Text)
  | 0, t => .error (.flaw .expectedValue t.length)
  | fuel + 1, t =>
    match t with
    | [] => .error (.flaw .expectedValue 0)
    | c :: u =>
      if c = .doubleQuote then (readString t.length u).map fun (s, rest) => (.text s, rest)
      else if c.val = 0x7B then
        match skipSpace u with
        | [] => .error (.flaw .expectedName 0)
        | d :: v =>
          if d.val = 0x7D then .ok (.dict [], v)
          else (readEntries fuel (d :: v)).map fun (es, rest) => (.dict (Value.entriesOf es), rest)
      else if c.val = 0x5B then
        match skipSpace u with
        | [] => .error (.flaw .expectedValue 0)
        | d :: v =>
          if d.val = 0x5D then .ok (.list [], v)
          else (readItems fuel (d :: v)).map fun (vs, rest) => (.list vs, rest)
      else match takeConstant t with
        | some r => .ok r
        | none => readNumber t

/-- The items of a list from the first one on, and what follows the closing bracket. -/
def readItems : (fuel : Nat) → Text → Except Stop (List Value × Text)
  | 0, t => .error (.flaw .expectedValue t.length)
  | fuel + 1, t => do
    let (v, rest) ← readValue fuel t
    match skipSpace rest with
    | [] => .error (.flaw .expectedComma 0)
    | c :: u =>
      if c.val = 0x5D then .ok ([v], u)
      else if c = ',' then
        let (vs, rest) ← readItems fuel (skipSpace u)
        .ok (v :: vs, rest)
      else .error (.flaw .expectedComma (c :: u).length)

/-- The entries of a dictionary from the first one on, and what follows the closing brace. -/
def readEntries : (fuel : Nat) → Text → Except Stop (List (Value × Value) × Text)
  | 0, t => .error (.flaw .expectedValue t.length)
  | fuel + 1, t =>
    match t with
    | [] => .error (.flaw .expectedName 0)
    | q :: u => do
      if q ≠ .doubleQuote then .error (.flaw .expectedName t.length)
      let (key, rest) ← readString t.length u
      match skipSpace rest with
      | [] => .error (.flaw .expectedColon 0)
      | c :: u =>
        if c ≠ ':' then .error (.flaw .expectedColon (c :: u).length)
        let (v, rest) ← readValue fuel (skipSpace u)
        match skipSpace rest with
        | [] => .error (.flaw .expectedComma 0)
        | c :: u =>
          if c.val = 0x7D then .ok ([(.text key, v)], u)
          else if c = ',' then
            let (es, rest) ← readEntries fuel (skipSpace u)
            .ok ((.text key, v) :: es, rest)
          else .error (.flaw .expectedComma (c :: u).length)

end

/-- The value of a text, with blanks around it. Every call of the reader but the calls for the
first item, entry and value of a container comes after a code point, so that twice the length
bounds their depth. -/
def readWhole (t : Text) : Except Stop Value := do
  let (v, rest) ← readValue (2 * t.length + 2) (skipSpace t)
  match skipSpace rest with
  | [] => .ok v
  | extra => .error (.flaw .extraData extra.length)

/-- A place as line, column and number of code points before it. Lines and columns count from one,
and a line feed ends a line. -/
def placeOf (t : Text) (remaining : Nat) : Nat × Nat × Nat :=
  let done := t.take (t.length - remaining)
  let column := (done.reverse.takeWhile fun c => c.val ≠ 0x0A).length + 1
  ((done.filter fun c => c.val = 0x0A).length + 1, column, done.length)

/-- The value of a decoded text. -/
def readDecoded (t : Text) : Except ReadFault Value :=
  match readWhole t with
  | .ok v => .ok v
  | .error (.digits f) => .error (.digits f)
  | .error (.flaw what remaining) =>
    let (line, column, place) := placeOf t remaining
    .error (.flaw what line column place)

/-- The value of a text, which has no byte order mark. -/
def readText (t : Text) : Except ReadFault Value :=
  match t with
  | c :: _ => if c.val = 0xFEFF then .error (.flaw .byteOrderMark 1 1 0) else readDecoded t
  | [] => readDecoded t

/-- The byte order marks, each with what reads the bytes behind it. -/
def byteOrderMarks : List (Bytes × (Bytes → Except DecodeFault Text)) :=
  [([0x00, 0x00, 0xFE, 0xFF], Utf32.decode true 4),
   ([0xFF, 0xFE, 0x00, 0x00], Utf32.decode false 4),
   ([0xFE, 0xFF], Utf16.decode true 2),
   ([0xFF, 0xFE], Utf16.decode false 2),
   ([0xEF, 0xBB, 0xBF], Utf8.decode true)]

/-- The text of a byte string without a mark in the encoding that the zeros among its first bytes show. -/
def decodeUnmarked (bs : Bytes) : Except DecodeFault Text :=
  match bs with
  | a :: b :: c :: d :: _ =>
    if a = 0 then if b = 0 then Utf32.decode true 0 bs else Utf16.decode true 0 bs
    else if b = 0 then if c = 0 && d = 0 then Utf32.decode false 0 bs else Utf16.decode false 0 bs
    else Utf8.decode true bs
  | [a, b] =>
    if a = 0 then Utf16.decode true 0 bs
    else if b = 0 then Utf16.decode false 0 bs
    else Utf8.decode true bs
  | _ => Utf8.decode true bs

/-- The text of a byte string in the encoding that a byte order mark or the zeros among its first
bytes show. -/
def decodeDetected (bs : Bytes) : Except DecodeFault Text :=
  match byteOrderMarks.find? fun m => m.1.isPrefixOf bs with
  | some (mark, decode) => decode (bs.drop mark.length)
  | none => decodeUnmarked bs

/-- The value of a byte string. -/
def readBytes (bs : Bytes) : Except ReadFault Value :=
  match decodeDetected bs with
  | .ok t => readDecoded t
  | .error f => .error (.encoding f)

/-- The value that bytes or a text write; nothing else writes one. -/
def read : Value → Except ReadFault Value
  | .bytes bs => readBytes bs
  | .text t => readText t
  | v => .error (.notText v.typeName)

end RemoteTree.Json
