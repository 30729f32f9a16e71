import RemoteTree.Session.Operation

/-!
# Steps of a session

* `Session.act`: what an action of a reference does.
* `Session.perform`: what a step does. Steps that run while a request waits for its reply are
  performed in the same way, up to the first that fails; its error then ends the request as well.
* `Session.observe`: a step together with what is seen of it.
-/

namespace RemoteTree

/-- What a step yields. -/
inductive Result where
  | value (v : Value)
  | response (headers : Headers) (body : Bytes)

/-- What becomes of a session, and what a step yields or why it does not. -/
abbrev Performed := Session × Except Error Result

namespace Session

/-- A step that yields nothing. -/
def done (s : Session) : Performed := (s, .ok (.value .none))

/-- A step that yields a value and leaves the session as it is. -/
def yields (s : Session) (v : Value) : Performed := (s, .ok (.value v))

/-- A step that ends in an error and leaves the session as it is. -/
def fails (s : Session) (e : Error) : Performed := (s, .error e)

/-- The session with a reference changed. -/
def configure (s : Session) (place : Nat) (f : Reference → Reference) : Session :=
  { s with references := s.references.modify place f }

/-- The session with a new reference under a name. -/
def introduce (s : Session) (name : Text) (r : Reference) : Session :=
  { s with references := s.references.insert name r }

/-- An operation whose answer does not matter. -/
def write (meanwhile : Meanwhile) (s : Session) (r : Reference) (m : Method) (payload : Body) :
    Performed :=
  match s.operate meanwhile r m payload [] with
  | (s, .error e) => s.fails e
  | (s, .ok _) => s.done

/-- An operation that sends a value. -/
def writeValue (meanwhile : Meanwhile) (s : Session) (r : Reference) (m : Method) (v : Value) :
    Performed :=
  match Json.encode v with
  | .error e => s.fails e
  | .ok bs => s.write meanwhile r m (.bytes bs)

/-- The name that the answer to a creation gives to the new child. -/
def childName? : Value → Option Text
  | .dict entries =>
    match Value.lookup (.text "name") entries with
    | some (.text (c :: t)) => some (c :: t)
    | _ => none
  | _ => none

/-- How much of an answer is shown if it names no child. -/
def shownBytes : Nat := 200

/-- Creates a child of the reference at a place with a value, under a name that the database
chooses, and names a reference to it. The reference is read again after the answer. -/
def push (meanwhile : Meanwhile) (s : Session) (place : Nat) (r : Reference) (v : Value)
    (name : Text) : Performed :=
  match Json.encode v with
  | .error e => s.fails e
  | .ok bs =>
    match s.operate meanwhile r .post (.bytes bs) [] with
    | (s, .error e) => s.fails e
    | (s, .ok answer) =>
      let r := (s.references.get? place).getD r
      match Json.decode (.bytes answer.body) none with
      | .error e => s.fails e
      | .ok response =>
        match childName? response with
        | none => s.fails (.nameless r.url (Bytes.quoted (answer.body.take shownBytes)))
        | some child =>
          let c := r.named child
          ((s.note Log.infoLevel .client ("created " ++ c.url)).introduce name c).done

/-- Binds the reference at a place to the store of a name, or to none. -/
def bindStore (s : Session) (place : Nat) : Option Text → Performed
  | none => (s.configure place fun r => { r with store := none }).done
  | some name =>
    match s.stores.place? name with
    | none => s.fails (.unknown name)
    | some store => (s.configure place fun r => { r with store := some store }).done

/-- The names of the store that a reference is bound to. -/
def storeNames (s : Session) (r : Reference) : List Text :=
  match r.store with
  | none => []
  | some store => s.stores.namesOf store

/-- How often closing a channel closes its way of sending, which serves both schemes. -/
def closingsPerChannel : Nat := 2

/-- What an action of the reference at a place does. `r` is that reference. -/
def act (meanwhile : Meanwhile) (s : Session) (place : Nat) (r : Reference) : Action → Performed
  | .derive d name =>
    match r.derive d with
    | .error e => s.fails e
    | .ok c => (s.introduce name c).done
  | .push v name => s.push meanwhile place r v name
  | .setUrl url =>
    match url.asText .startsWith with
    | .error e => s.fails e
    | .ok t => (s.configure place fun r => { r with url := Url.base t }).done
  | .setTimeout seconds => (s.configure place fun r => { r with timeout := seconds }).done
  | .auth token => (s.configure place fun r => r.withParameter .auth token).done
  | .unauth => (s.configure place fun r => r.withoutParameter .auth).done
  | .shallow on => (s.configure place fun r => r.withShallow on).done
  | .includePriority on => (s.configure place fun r => r.withPriority on).done
  | .bind store => s.bindStore place store
  | .url => s.yields (.text r.url)
  | .timeout => s.yields r.timeout
  | .resolve =>
    match s.resolve r with
    | .error e => s.fails e
    | .ok t => s.yields (.text t)
  | .literal => s.yields (.text r.literal)
  | .storeNames => s.yields (.list ((s.storeNames r).map .text))
  | .sharesChannel other =>
    match s.references.find? other with
    | none => s.fails (.unknown other)
    | some (_, o) => s.yields (.bool (r.channel == o.channel))
  | .request m payload headers =>
    match s.operate meanwhile r m payload headers with
    | (s, .error e) => s.fails e
    | (s, .ok answer) => (s, .ok (.response answer.headers answer.body))
  | .set v => s.writeValue meanwhile r .put v
  | .update v => s.writeValue meanwhile r .patch v
  | .remove => s.write meanwhile r .delete .none
  | .value into =>
    match s.operate meanwhile r .get .none [] with
    | (s, .error e) => s.fails e
    | (s, .ok answer) =>
      match Json.decode (.bytes answer.body) into with
      | .error e => s.fails e
      | .ok v => s.yields v

/-- Closes the shared channel. -/
def close (s : Session) : Performed :=
  let s := { s with closings := s.closings + closingsPerChannel }
  s.yields (.int s.closings)

/-- Makes a reference under a name. -/
def refer (s : Session) (name : Text) (url : Value) (timeout : Option Value) (own : Bool) :
    Performed :=
  let made := do
    let t ← url.asText .startsWith
    let seconds ← match timeout with
      | some seconds => .ok seconds
      | none => s.timeouts.default
    return Reference.make t (if own then s.channels else 0) seconds
  match made with
  | .error e => s.fails e
  | .ok r =>
    ({ s with channels := if own then s.channels + 1 else s.channels }.introduce name r).done

/-- Does something with the store of a name. -/
def withStore (s : Session) (name : Text) (f : Nat → Value → Performed) : Performed :=
  match s.stores.find? name with
  | none => s.fails (.unknown name)
  | some (place, token) => f place token

/-- The text of a store inside a message. It never shows the token. -/
def storeLiteral : Text := "AuthTokenStore(***)"

/-- What a step does while `meanwhile` says what steps in between do. -/
def step (meanwhile : Meanwhile) (s : Session) : Step → Performed
  | .reference name url timeout own => s.refer name url timeout own
  | .store name token => { s with stores := s.stores.insert name token }.done
  | .setToken name token => s.withStore name fun place _ =>
    { s with stores := s.stores.modify place fun _ => token }.done
  | .token name => s.withStore name fun _ token => s.yields token
  | .storeLiteral name => s.withStore name fun _ _ => s.yields (.text storeLiteral)
  | .close => s.close
  | .act name a =>
    match s.references.find? name with
    | none => s.fails (.unknown name)
    | some (place, r) => s.act meanwhile place r a

/-- Performs steps in a row until one fails. -/
def inRow (act : Session → Step → Performed) (s : Session) :
    List Step → Session × Except Error Unit
  | [] => (s, .ok ())
  | t :: rest =>
    match act s t with
    | (s, .error e) => (s, .error e)
    | (s, .ok _) => inRow act s rest

/-- What steps in between do if those may again have steps in between, and so on `depth` times.
Steps that go deeper find no end. -/
def between : (depth : Nat) → Meanwhile
  | 0, steps, s => inRow (fun s _ => s.fails .endlessChain) s steps
  | depth + 1, steps, s => inRow (step (between depth)) s steps

/-- How deep steps in between may go after each reply of the script has been taken once. -/
def nesting : Nat := 64

/-- What a step does. Each level of steps in between takes a reply of its own from the script. -/
def perform (s : Session) (t : Step) : Performed :=
  step (between (s.script.length + nesting)) s t

end Session

/-- What is seen of a step: what it yields, the requests and the lines of the log that it added,
and the session afterwards. -/
structure Observation where
  result : Except Error Result
  sent : List Sent
  log : List LogLine
  after : Session

namespace Session

/-- A step together with what is seen of it. -/
def observe (s : Session) (t : Step) : Observation :=
  let (after, result) := s.perform t
  ⟨result, after.sent.drop s.sent.length, after.log.drop s.log.length, after⟩

/-- What is seen of steps in a row. -/
def observeAll (s : Session) : List Step → List Observation
  | [] => []
  | t :: rest =>
    let o := s.observe t
    o :: o.after.observeAll rest

/-- The session after steps in a row. -/
def run (s : Session) (steps : List Step) : Session := steps.foldl (fun s t => (s.perform t).1) s

end Session

end RemoteTree
