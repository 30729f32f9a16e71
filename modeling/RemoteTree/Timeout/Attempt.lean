import RemoteTree.Http.NoResponse

/-!
# The time that one attempt gets

* `Timeout.attempt`: the seconds that an attempt gets, if they are a number. No time at all is a
  timeout before anything is sent.
-/

namespace RemoteTree.Timeout

/-- The failure of an attempt that has no time. -/
def expired (seconds : Text) : Failure :=
  .simple ⟨.system, "TimeoutError"⟩
    [.text ("no time to connect with a timeout of " ++ seconds ++ "s")]

/-- The stop of an attempt that has no time. -/
def expiredStop (seconds : Value) : Stop :=
  match seconds.plain with
  | .error f => .error (.digits f)
  | .ok shown =>
    match NoResponse.make .timeout (expired shown) with
    | .ok n => .noResponse n
    | .error e => .error e

/-- The seconds that one attempt gets for the connection and the headers of the response together,
`none` for as long as it takes. -/
def attempt (seconds : Value) : Except Stop (Option Value) :=
  match seconds with
  | .none => .ok none
  | .bool false => .error (expiredStop seconds)
  | .bool true => .error (.error .booleanTimeout)
  | .int n =>
    if n ≤ 0 then .error (expiredStop seconds)
    else if (Double.ofInt? n).isNone then .error (.error .hugeNumber)
    else .ok (some seconds)
  | .float x => if x.atMostZero then .error (expiredStop seconds) else .ok (some seconds)
  | v => .error (.error (.incomparable v.typeName))

end RemoteTree.Timeout
