import RemoteTree.Failure.Graph

/-!
# Failures made from arguments

A class of failures takes the arguments that it is called with. Most classes keep them as they are.
Those of the operating system, of text codecs, of flaws in a program and of groups have words of
their own for some of them, and may refuse others: what arises then is another failure, which says
so.

* `Failure.raised`: the failure of a class of the run-time system with arguments.
* `systemClasses`, `classOfNumber?`: the classes of the operating system and their error numbers.
* `Codec`: the classes of text codecs.
* `flawClasses`, `groupClasses`: the classes of flaws in a program, and of groups of failures.
* `Node.bare`: the failure of a class with arguments that the class has not been called with.
-/

namespace RemoteTree.Failure

/-- A failure of the run-time system that says why an argument is refused. -/
def refusal (name : String) (said : Text) : Failure := .simple ⟨.system, name⟩ [.text said]

/-- The failure of a class with arguments for which it has words of its own. -/
def worded (name : String) (args : List Value) (words : Option Text) : Failure :=
  ⟨[⟨⟨.system, name⟩, args.map .value, none, none, none, words⟩], 0⟩

/-- A value in the place of an integer. -/
def notInteger (v : Value) : Failure :=
  refusal "TypeError"
    ("'" ++ Text.ofString v.typeName ++ "' object cannot be interpreted as an integer")

/-- Whether an integer is one of 64 bits. -/
def fitsWord (n : Int) : Bool := -9223372036854775808 ≤ n && n ≤ 9223372036854775807

/-! ## The operating system -/

/-- The classes of the operating system, each with the numbers of its errors. The first class is the
one of all errors. -/
def systemClasses : List (String × List Int) :=
  [("OSError", []), ("ConnectionError", []), ("BlockingIOError", [11, 114, 115]),
    ("BrokenPipeError", [32, 108]), ("ChildProcessError", [10]), ("ConnectionAbortedError", [103]),
    ("ConnectionRefusedError", [111]), ("ConnectionResetError", [104]), ("FileExistsError", [17]),
    ("FileNotFoundError", [2]), ("InterruptedError", [4]), ("IsADirectoryError", [21]),
    ("NotADirectoryError", [20]), ("PermissionError", [1, 13]), ("ProcessLookupError", [3]),
    ("TimeoutError", [110])]

/-- The class of the errors with a number, if they have one of their own. -/
def classOfNumber? : Value → Option String
  | .float _ => none
  | v => do
    let n ← v.toInt?
    let (name, _) ← systemClasses.find? fun e => e.2.contains n
    return name

/-- The files that an error is about: the one after the wording, and the one at the end. Between
them stands a number that is not shown. -/
def filesOf : List Value → List Value
  | [] | .none :: _ => []
  | [file, _, .none] => [file]
  | [file, _, other] => [file, other]
  | file :: _ => [file]

/-- The words for an error of the operating system: its number, its wording and the files. -/
def systemWords (number wording : Value) (files : List Value) : Except DigitFault Text := do
  let shown ← files.mapM Value.literal
  return "[Errno " ++ (← number.plain) ++ "] " ++ (← wording.plain) ++
    Text.when (!shown.isEmpty) (": " ++ Text.join " -> " shown)

/-- Of a call that would have blocked, a number after the wording says how much was written. It must
be an integer. -/
def writtenCount? : List Value → Option (Except Failure Unit)
  | .float x :: _ => some (.error (notInteger (.float x)))
  | v :: _ =>
    v.toInt?.map fun n =>
      if fitsWord n then .ok ()
      else .error (refusal "ValueError" "cannot fit 'int' into an index-sized integer")
  | [] => none

/-- The failure of a class of the operating system. Two to five arguments are a number, a wording
and what comes after it; a number may stand for a narrower class. -/
def ofSystem (name : String) (args : List Value) : Failure :=
  match args with
  | number :: wording :: rest =>
    if rest.length > 3 then worded name args none
    else
      let name := if name = "OSError" then (classOfNumber? number).getD name else name
      let count := if name = "BlockingIOError" then writtenCount? rest else none
      match count with
      | some (.error f) => f
      | some (.ok ()) => worded name args (systemWords number wording []).toOption
      | none => worded name args (systemWords number wording (filesOf rest)).toOption
  | _ => worded name args none

/-! ## Text codecs -/

/-- The classes of text codecs. -/
inductive Codec where
  | decoding | encoding | translating
deriving DecidableEq

/-- The class with a name. -/
def Codec.ofName? : String → Option Codec
  | "UnicodeDecodeError" => some .decoding
  | "UnicodeEncodeError" => some .encoding
  | "UnicodeTranslateError" => some .translating
  | _ => none

/-- The name of a class. -/
def Codec.name : Codec → String
  | .decoding => "UnicodeDecodeError"
  | .encoding => "UnicodeEncodeError"
  | .translating => "UnicodeTranslateError"

/-- What an argument is to be. -/
inductive Slot where
  | text | integer | any

/-- What a class takes: the name of a codec unless it translates, what could not be turned, where
the trouble starts and stops, and why. -/
def Codec.slots : Codec → List Slot
  | .decoding => [.text, .any, .integer, .integer, .text]
  | .encoding => [.text, .text, .integer, .integer, .text]
  | .translating => [.text, .integer, .integer, .text]

/-- Why an argument is refused, if it is. Arguments are counted from one. -/
def Slot.refuses (position : Nat) : Slot → Value → Option Failure
  | .any, _ | .text, .text _ => none
  | .text, v =>
    let type := match v with
      | .none => "None"
      | v => v.typeName
    some (refusal "TypeError"
      ("argument " ++ Text.ofNat position ++ " must be str, not " ++ Text.ofString type))
  | .integer, .float x => some (notInteger (.float x))
  | .integer, v =>
    match v.toInt? with
    | none => some (notInteger v)
    | some n =>
      if fitsWord n then none
      else some (refusal "OverflowError" "Python int too large to convert to C ssize_t")

/-- The words for a stretch: a single thing is shown, of several only where they stand. The place
before the least one is the greatest. -/
def stretchWords (noun : Text) (single : Option Text) (start stop : Int) : Text :=
  match single with
  | some shown => noun ++ " " ++ shown ++ " in position " ++ Text.ofInt start
  | none => noun ++ "s in position " ++ Text.ofInt start ++ "-" ++
      Text.ofInt ((stop - 1).bmod 18446744073709551616)

/-- The item of a stretch that has no other. -/
def single? {α : Type} (items : List α) (start stop : Int) : Option α :=
  if 0 ≤ start ∧ stop = start + 1 then items[start.toNat]? else none

/-- The words for bytes that are no text. -/
def decodingWords (codec : Text) (bs : Bytes) (start stop : Int) (reason : Text) : Text :=
  let shown := (single? bs start stop).map fun b => Text.ofString "0x" ++ Text.hex 2 b.toNat
  "'" ++ codec ++ "' codec can't decode " ++ stretchWords "byte" shown start stop ++ ": " ++ reason

/-- The words for characters that cannot be turned. -/
def turningWords (verb t : Text) (start stop : Int) (reason : Text) : Text :=
  let shown := (single? t start stop).map fun x => Text.ofString "'" ++ x.escaped ++ "'"
  "can't " ++ verb ++ " " ++ stretchWords "character" shown start stop ++ ": " ++ reason

/-- The failure of a class of text codecs. -/
def ofCodec (c : Codec) (args : List Value) : Failure :=
  let slots := c.slots
  if args.length ≠ slots.length then
    refusal "TypeError" ("function takes exactly " ++ Text.ofNat slots.length ++ " arguments (" ++
      Text.ofNat args.length ++ " given)")
  else
    match (slots.zip args).zipIdx.findSome? fun e => e.1.1.refuses (e.2 + 1) e.1.2 with
    | some f => f
    | none =>
      let place (i : Nat) : Int := (args.getD i .none).toInt?.getD 0
      match c, args with
      | .decoding, [.text codec, .bytes bs, _, _, .text reason] =>
        worded c.name args (some (decodingWords codec bs (place 2) (place 3) reason))
      | .encoding, [.text codec, .text t, _, _, .text reason] =>
        worded c.name args
          (some ("'" ++ codec ++ "' codec " ++ turningWords "encode" t (place 2) (place 3) reason))
      | .translating, [.text t, _, _, .text reason] =>
        worded c.name args (some (turningWords "translate" t (place 1) (place 2) reason))
      | _, args =>
        refusal "TypeError" ("a bytes-like object is required, not '" ++
          Text.ofString ((args.getD 1 .none).typeName) ++ "'")

/-! ## Flaws in a program -/

/-- The classes of flaws in the text of a program. -/
def flawClasses : List String := ["SyntaxError", "IndentationError", "TabError"]

/-- The items of a value that has some, in a row. -/
def itemsOf? : Value → Option (List Value)
  | .list xs | .tuple xs | .set xs => some xs
  | .dict entries => some (entries.map Prod.fst)
  | .text t => some (t.map fun c => .text [c])
  | .bytes bs => some (bs.map fun b => .int b.toNat)
  | _ => none

/-- The words for the place of a flaw: a file without its directories, and a line. A number of more
than 64 bits is shown as the one before zero. -/
def placeWords (file line : Value) : Text :=
  let file? := match file with
    | .text t => some (t.cutLast '/').2
    | _ => none
  let line? := match line with
    | .int n => some ("line " ++ Text.ofInt (if fitsWord n then n else -1))
    | _ => none
  match file?, line? with
  | none, none => []
  | some words, none | none, some words => " (" ++ words ++ ")"
  | some file, some line => " (" ++ file ++ ", " ++ line ++ ")"

/-- The place that the details of a flaw tell: file, line, column and text, and possibly the line
and the column of its end. -/
def readDetails : List Value → Except Failure Text
  | [file, line, _, _] | [file, line, _, _, _, _] => .ok (placeWords file line)
  | [_, _, _, _, _] =>
    .error (refusal "TypeError" "end_offset must be provided when end_lineno is provided")
  | details =>
    let bound : Text := if details.length < 4 then "at least 4" else "at most 6"
    .error (refusal "TypeError"
      ("function takes " ++ bound ++ " arguments (" ++ Text.ofNat details.length ++ " given)"))

/-- The failure of a class of flaws. The first argument is its wording, and of two the second one
tells where it is. -/
def ofFlaw (name : String) (args : List Value) : Failure :=
  let wording := args.headD .none
  let place := match args with
    | [_, details] =>
      match itemsOf? details with
      | some items => readDetails items
      | none =>
        .error (refusal "TypeError"
          ("'" ++ Text.ofString details.typeName ++ "' object is not iterable"))
    | _ => .ok []
  match place with
  | .ok place => worded name args ((wording.plain.map fun t => t ++ place).toOption)
  | .error f => f

/-! ## Groups of failures -/

/-- The classes of groups of failures. -/
def groupClasses : List String := ["BaseExceptionGroup", "ExceptionGroup"]

/-- Why the members of a group are refused: a value is no failure. -/
def refuseMembers (members : Value) : Failure :=
  let items? := match members with
    | .dict _ | .set _ => none
    | v => itemsOf? v
  match items? with
  | none => refusal "TypeError" "second argument (exceptions) must be a sequence"
  | some [] => refusal "ValueError" "second argument (exceptions) must be a non-empty sequence"
  | some _ =>
    refusal "ValueError" "Item 0 of second argument (exceptions) is not an exception"

/-- What arises from a class of groups that is called with values. -/
def ofGroup (args : List Value) : Failure :=
  let maker : Text := "BaseExceptionGroup.__new__() "
  match args with
  | [.text _, members] => refuseMembers members
  | [message, _] =>
    let type := match message with
      | .none => "None"
      | v => v.typeName
    refusal "TypeError" (maker ++ "argument 1 must be str, not " ++ Text.ofString type)
  | args =>
    refusal "TypeError"
      (maker ++ "takes exactly 2 arguments (" ++ Text.ofNat args.length ++ " given)")

/-! ## All classes -/

/-- The failure of a class of the run-time system that is called with arguments. -/
def raised (name : String) (args : List Value) : Failure :=
  if systemClasses.any fun e => e.1 == name then ofSystem name args
  else if flawClasses.contains name then ofFlaw name args
  else if groupClasses.contains name then ofGroup args
  else
    match Codec.ofName? name with
    | some c => ofCodec c args
    | none => .simple ⟨.system, name⟩ args

/-- The words of a failure whose class was not called with its arguments, if those do not say what
the class tells of: a codec has nothing to say, and a flaw no wording. -/
def bareWords? (k : Kind) : Option Text :=
  if k.origin ≠ .system then none
  else if (Codec.ofName? k.name).isSome then some []
  else if flawClasses.contains k.name then some "None"
  else none

/-- A failure that has arguments although its class was not called with them. -/
def Node.bare (kind : Kind) (args : List Arg) (reason : Option Arg) (cause context : Option Nat) :
    Node :=
  ⟨kind, args, reason, cause, context, bareWords? kind⟩

end RemoteTree.Failure
