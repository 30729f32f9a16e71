import RemoteTree.Log.Level

/-!
# Loggers

A logger takes records of high enough levels and hands each to all its handlers, which write it
as one line: the time, the level, the logger, the place in the program, and the message.

* `Logger.configure`: gives a logger a level and one handler more.
* `Logger.output`: what the handlers write for a row of records.
-/

namespace RemoteTree.Log

/-- Something that happened at a place in a program. -/
structure Record where
  time : Text
  level : Int
  path : Text
  line : Int
  message : Text

/-- A logger: its level is an integer or a truth value, which counts as one or zero. -/
structure Logger where
  name : Text
  level : Value
  handlers : Nat

/-- A logger that nobody has configured. -/
def Logger.plain (name : Text) : Logger := ⟨name, .int 0, 0⟩

/-- The logger with a level and one handler more. -/
def Logger.configure (l : Logger) (level : Value) : Except LevelFault Logger := do
  return { l with level := ← levelOf level, handlers := l.handlers + 1 }

/-- The logger configured several times in the same way. -/
def Logger.configureTimes (l : Logger) (level : Value) : Nat → Except LevelFault Logger
  | 0 => .ok l
  | n + 1 => do (← l.configureTimes level n).configure level

/-- Fills a text up with spaces in front. -/
def padLeft (width : Nat) (t : Text) : Text :=
  List.replicate (width - t.length) (CodePoint.ofChar ' ') ++ t

/-- Fills a text up with spaces behind. -/
def padRight (width : Nat) (t : Text) : Text :=
  t ++ List.replicate (width - t.length) (CodePoint.ofChar ' ')

/-- The last part of a path. -/
def fileName (path : Text) : Text := (path.cutLast '/').2

/-- The line of a record. -/
def Logger.format (l : Logger) (r : Record) : Text :=
  "[" ++ r.time ++ "] - " ++ padLeft 8 (levelName r.level) ++ " - " ++ padLeft 14 l.name ++ " - " ++
    padLeft 16 (fileName r.path) ++ ":" ++ padRight 4 (Text.ofInt r.line) ++ " - " ++ r.message ++
    [CodePoint.ofNat 0x0A]

/-- What the handlers write for a record. -/
def Logger.write (l : Logger) (r : Record) : Text :=
  if admits (l.level.toInt?.getD 0) r.level then
    (List.replicate l.handlers (l.format r)).flatten
  else []

/-- What the handlers write for a row of records. -/
def Logger.output (l : Logger) (rs : List Record) : Text := rs.flatMap l.write

end RemoteTree.Log
