import RemoteTree.Error

/-!
# The default timeout

* `Timeout.ofConfigured`: the timeout that a configured value means: none for none, an empty text
  and the word for it, else a number of seconds that is not negative.
* `Timeout.Settings`: where the value comes from.
-/

namespace RemoteTree.Timeout

/-- The value that applies where nothing is configured. -/
def shipped : Value := .int 30

/-- Whether a text means no timeout. -/
def meansNone (t : Text) : Bool :=
  let word := (Text.trim CodePoint.isBlank t).lowerAscii
  word.isEmpty || word == Text.ofString "none"

/-- The number that a value is or writes, or the kind of error it makes. -/
def seconds? : Value → Except (Option Failure.Kind) Double
  | .bool b => .ok (Double.ofRatio false (if b then 1 else 0) 1)
  | .int n => ((Double.ofInt? n).map .ok).getD (.error none)
  | .float x => .ok x
  | .text t => ((Double.ofText? t).map .ok).getD (.error (some Error.valueError))
  | .bytes bs =>
    ((Double.ofAscii? (bs.map fun b => CodePoint.ofNat b.toNat)).map .ok).getD
      (.error (some Error.valueError))
  | _ => .error (some Error.typeError)

/-- The timeout that a configured value means. -/
def ofConfigured (v : Value) : Except Error Value :=
  let number : Except Error Value :=
    match seconds? v with
    | .ok x => if x.isNegative then .error (.timeoutNegative x) else .ok (.float x)
    | .error none => .error .hugeNumber
    | .error (some cause) =>
      match v.literal with
      | .ok shown => .error (.timeoutNotNumber shown cause)
      | .error f => .error (.digits f)
  match v with
  | .none => .ok .none
  | .text t => if meansNone t then .ok .none else number
  | _ => number

/-- What is configured for the timeout: by the configuration, or by the environment as a text. -/
structure Settings where
  configured : Option Value
  environment : Option Text

/-- The value that applies. -/
def Settings.value (s : Settings) : Value :=
  match s.configured, s.environment with
  | some v, _ => v
  | none, some t => .text t
  | none, none => shipped

/-- The timeout of a reference that is given none. -/
def Settings.default (s : Settings) : Except Error Value := ofConfigured s.value

end RemoteTree.Timeout
