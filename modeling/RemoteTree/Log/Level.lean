import RemoteTree.Text.Quoted
import RemoteTree.Value.Print

/-!
# Levels of log lines

A level is a number, and some levels have names. A logger with level zero has none of its own and
takes the one of the root.

* `Level.name`: the name of a level, or its number.
* `Level.ofValue`: the level that a value means.
* `Level.admits`: whether a logger takes lines of a level.
-/

namespace RemoteTree.Log

/-- The name of a level that has one, each name that counts as its first coming first. -/
def names : List (String × Int) :=
  [("CRITICAL", 50), ("ERROR", 40), ("WARNING", 30), ("INFO", 20), ("DEBUG", 10), ("NOTSET", 0),
    ("FATAL", 50), ("WARN", 30)]

/-- The level of lines that tell what goes over the wire. -/
def debugLevel : Int := 10

/-- The level of lines that tell what has been done. -/
def infoLevel : Int := 20

/-- The level of lines that tell what has gone wrong. -/
def errorLevel : Int := 40

/-- The level of the root. -/
def rootLevel : Int := 30

/-- The name of a level, or its number. -/
def levelName (n : Int) : Text :=
  match names.find? fun e => e.2 == n with
  | some (name, _) => name
  | none => "Level " ++ Text.ofInt n

/-- Whether a logger of a level takes lines of another. Lines whose level is not positive are never
taken. -/
def admits (own line : Int) : Bool := 0 < line && (if own = 0 then rootLevel else own) ≤ line

/-- Why a value means no level. -/
inductive LevelFault where
  /-- The text is the name of no level. -/
  | unknown (name : Text)
  /-- The value is neither an integer nor a text. -/
  | notLevel (shown : Text)
  | digits (fault : DigitFault)

/-- The wording of a fault. -/
def LevelFault.message : LevelFault → Text
  | .unknown name => "Unknown level: " ++ name.quoted
  | .notLevel shown => "Level not an integer or a valid string: " ++ shown
  | .digits f => f.message

/-- The level of a name. -/
def levelOfName? (t : Text) : Option Int :=
  (names.find? fun e => Text.ofString e.1 == t).map Prod.snd

/-- The level that a value means: an integer or a truth value as it is, a name by its level. -/
def levelOf : Value → Except LevelFault Value
  | .int n => .ok (.int n)
  | .bool b => .ok (.bool b)
  | .text t =>
    match levelOfName? t with
    | some n => .ok (.int n)
    | none => .error (.unknown t)
  | v =>
    match v.literal with
    | .ok shown => .error (.notLevel shown)
    | .error f => .error (.digits f)

end RemoteTree.Log
