import RemoteTree.Text.Basic

/-!
# UTF-8

Code points to bytes and back. Surrogates have three bytes each, which a strict writer and a
strict reader refuse.

* `Utf8.units`: the one to four bytes of a code point, surrogates included.
* `Utf8.encode`: the bytes of a text without surrogates, or the first run of surrogates.
* `Utf8.scan`: what stands at each place of a byte string, a code point or a fault, so that the
  readers differ only in what they do with the faults.
* `Utf8.decode`, `Utf8.decodeLossy`: the reader that stops at the first fault, and the one that
  puts a replacement character in its place.
-/

namespace RemoteTree

/-- A byte string. -/
abbrev Bytes := List UInt8

/-- The bytes of a text in ASCII, and garbage for any other text. -/
def Bytes.ofAscii (t : Text) : Bytes := t.map fun c => UInt8.ofNat c.val

/-- The ways of writing text as bytes that are in use. -/
inductive Encoding where
  | utf8 | utf16le | utf16be | utf32le | utf32be | latin1
deriving DecidableEq

/-- The name of an encoding. -/
def Encoding.name : Encoding → String
  | .utf8 => "utf-8"
  | .utf16le => "utf-16-le"
  | .utf16be => "utf-16-be"
  | .utf32le => "utf-32-le"
  | .utf32be => "utf-32-be"
  | .latin1 => "latin-1"

/-- A number in decimal. -/
def Text.ofNat (n : Nat) : Text := Text.ofString (Nat.repr n)

/-- The digit of a number below 16, in lower case. -/
def Text.hexDigit (n : Nat) : CodePoint :=
  CodePoint.ofNat (if n < 10 then 0x30 + n else 0x57 + n)

/-- The last `width` digits of a number to base 16, in lower case. -/
def Text.hex : (width : Nat) → Nat → Text
  | 0, _ => []
  | k + 1, n => hex k (n / 16) ++ [hexDigit (n % 16)]

/-- A stretch of bytes that is not text: where it starts and stops, its first byte, and why. -/
structure DecodeFault where
  encoding : Encoding
  start : Nat
  stop : Nat
  byte : UInt8
  reason : String
deriving DecidableEq

/-- The wording of a fault: one byte is shown, of several bytes only where they stand. -/
def DecodeFault.message (f : DecodeFault) : Text :=
  "'" ++ Text.ofString f.encoding.name ++ "' codec can't decode " ++
    (if f.stop = f.start + 1 then
      "byte 0x" ++ Text.hex 2 f.byte.toNat ++ " in position " ++ Text.ofNat f.start
    else "bytes in position " ++ Text.ofNat f.start ++ "-" ++ Text.ofNat (f.stop - 1)) ++
    ": " ++ Text.ofString f.reason

/-- A stretch of code points that an encoding cannot write. -/
structure EncodeFault where
  encoding : Encoding
  start : Nat
  stop : Nat
  first : CodePoint
  reason : String
deriving DecidableEq

/-- A code point by its number: `\x`, `\u` or `\U` with two, four or eight digits. -/
def CodePoint.escaped (c : CodePoint) : Text :=
  if c.val < 0x100 then "\\x" ++ Text.hex 2 c.val
  else if c.val < 0x10000 then "\\u" ++ Text.hex 4 c.val
  else "\\U" ++ Text.hex 8 c.val

/-- The wording of a fault: one code point is shown, of several only where they stand. -/
def EncodeFault.message (f : EncodeFault) : Text :=
  "'" ++ Text.ofString f.encoding.name ++ "' codec can't encode " ++
    (if f.stop = f.start + 1 then
      "character '" ++ f.first.escaped ++ "' in position " ++ Text.ofNat f.start
    else "characters in position " ++ Text.ofNat f.start ++ "-" ++ Text.ofNat (f.stop - 1)) ++
    ": " ++ Text.ofString f.reason

/-- The first run of code points for which `bad` holds, as a fault of the encoding. -/
def Text.firstFault (e : Encoding) (reason : String) (bad : CodePoint → Bool) (t : Text) :
    Option EncodeFault :=
  let start := (t.takeWhile fun c => !bad c).length
  match t.dropWhile fun c => !bad c with
  | [] => none
  | c :: rest => some ⟨e, start, start + ((c :: rest).takeWhile bad).length, c, reason⟩

namespace Utf8

/-- The bytes of a code point, three for a surrogate. -/
def units (c : CodePoint) : Bytes :=
  let n := c.val
  if n < 0x80 then [UInt8.ofNat n]
  else if n < 0x800 then [UInt8.ofNat (0xC0 + n / 64), UInt8.ofNat (0x80 + n % 64)]
  else if n < 0x10000 then
    [UInt8.ofNat (0xE0 + n / 4096), UInt8.ofNat (0x80 + n / 64 % 64), UInt8.ofNat (0x80 + n % 64)]
  else
    [UInt8.ofNat (0xF0 + n / 262144), UInt8.ofNat (0x80 + n / 4096 % 64),
      UInt8.ofNat (0x80 + n / 64 % 64), UInt8.ofNat (0x80 + n % 64)]

/-- The bytes of a text, surrogates included. -/
def unitsOf (t : Text) : Bytes := t.flatMap units

/-- The bytes of a text; surrogates are refused. -/
def encode (t : Text) : Except EncodeFault Bytes :=
  match t.firstFault .utf8 "surrogates not allowed" CodePoint.isSurrogate with
  | some f => .error f
  | none => .ok (unitsOf t)

/-- Whether the byte continues a code point. -/
def isTail (b : UInt8) : Bool := 0x80 ≤ b.toNat && b.toNat ≤ 0xBF

/-- The value of a continuing byte. -/
def low (b : UInt8) : Nat := b.toNat % 64

/-- What stands at the head of a byte string. -/
inductive Head where
  /-- A code point that takes `more` further bytes. -/
  | char (c : CodePoint) (more : Nat)
  /-- A fault that takes `more` further bytes. -/
  | fault (more : Nat) (reason : String)

/-- A byte that starts no code point. -/
def badStart : Head := .fault 0 "invalid start byte"

/-- The bytes end inside a code point, after `more` bytes that continue it. -/
def cutShort (more : Nat) : Head := .fault more "unexpected end of data"

/-- A byte does not continue the code point, after `more` bytes that do. -/
def badTail (more : Nat) : Head := .fault more "invalid continuation byte"

/-- The code point or fault at `b :: rest`. Surrogates count as code points iff `surrogates`. -/
def head (surrogates : Bool) (b : UInt8) (rest : Bytes) : Head :=
  let n := b.toNat
  if n < 0x80 then .char (CodePoint.ofNat n) 0
  else if n < 0xC2 then badStart
  else if n < 0xE0 then
    match rest with
    | [] => cutShort 0
    | c :: _ =>
      if isTail c then .char (CodePoint.ofNat ((n - 0xC0) * 64 + low c)) 1 else badTail 0
  else if n < 0xF0 then
    match rest with
    | [] => cutShort 0
    | c :: rest =>
      if !isTail c || (n = 0xE0 && c.toNat < 0xA0) then badTail 0
      else if n = 0xED && 0xA0 ≤ c.toNat && !surrogates then badTail 0
      else match rest with
        | [] => if n = 0xED && 0xA0 ≤ c.toNat then badTail 0 else cutShort 1
        | d :: _ =>
          if isTail d then
            .char (CodePoint.ofNat ((n - 0xE0) * 4096 + low c * 64 + low d)) 2
          else if n = 0xED && 0xA0 ≤ c.toNat then badTail 0
          else badTail 1
  else if n < 0xF5 then
    match rest with
    | [] => cutShort 0
    | c :: rest =>
      if !isTail c || (n = 0xF0 && c.toNat < 0x90) || (n = 0xF4 && 0x90 ≤ c.toNat) then badTail 0
      else match rest with
        | [] => cutShort 1
        | d :: rest =>
          if !isTail d then badTail 1
          else match rest with
            | [] => cutShort 2
            | e :: _ =>
              if isTail e then
                .char (CodePoint.ofNat
                  ((n - 0xF0) * 262144 + low c * 4096 + low d * 64 + low e)) 3
              else badTail 2
  else badStart

/-- The code points and faults of a byte string in order. The first `skip` bytes belong to what
came before, and the next byte stands at `pos`. -/
def scanFrom (surrogates : Bool) : (pos skip : Nat) → Bytes → List (Except DecodeFault CodePoint)
  | _, _, [] => []
  | pos, skip + 1, _ :: rest => scanFrom surrogates (pos + 1) skip rest
  | pos, 0, b :: rest =>
    match head surrogates b rest with
    | .char c more => .ok c :: scanFrom surrogates (pos + 1) more rest
    | .fault more reason =>
      .error ⟨.utf8, pos, pos + 1 + more, b, reason⟩ :: scanFrom surrogates (pos + 1) more rest

/-- The code points and faults of a byte string in order. -/
def scan (surrogates : Bool) (bs : Bytes) : List (Except DecodeFault CodePoint) :=
  scanFrom surrogates 0 0 bs

/-- The text of a byte string, or its first fault. -/
def decode (surrogates : Bool) (bs : Bytes) : Except DecodeFault Text :=
  (scan surrogates bs).mapM id

/-- The text of a byte string with a replacement character in the place of each fault. -/
def decodeLossy (bs : Bytes) : Text :=
  (scan false bs).map fun
    | .ok c => c
    | .error _ => CodePoint.ofNat 0xFFFD

end Utf8

namespace Latin1

/-- The bytes of a text whose code points are all below 256. -/
def encode (t : Text) : Except EncodeFault Bytes :=
  match t.firstFault .latin1 "ordinal not in range(256)" fun c => 0x100 ≤ c.val with
  | some f => .error f
  | none => .ok (t.map fun c => UInt8.ofNat c.val)

end Latin1

end RemoteTree
