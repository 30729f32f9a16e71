import RemoteTree.Error
import RemoteTree.Form

/-!
# Query parameters

What goes with every request of a reference after the question mark of its url.

* `Parameter`: the parameters that the database understands.
* `Parameters`: at most one value for each; `set` and `clear` change one of them.
* `Parameters.query`: the query, the parameters in the order of their names.
-/

namespace RemoteTree

/-- A parameter that the database understands. -/
inductive Parameter where
  /-- The token that a request is authorized by. -/
  | auth
  | endAt
  | equalTo
  /-- Whether priorities come along with the data. -/
  | format
  | limitToFirst
  | limitToLast
  | orderBy
  /-- Whether values are cut off below the first level. -/
  | shallow
  | startAt
deriving DecidableEq

namespace Parameter

/-- The name of a parameter in a query. -/
def name : Parameter → String
  | .auth => "auth"
  | .endAt => "endAt"
  | .equalTo => "equalTo"
  | .format => "format"
  | .limitToFirst => "limitToFirst"
  | .limitToLast => "limitToLast"
  | .orderBy => "orderBy"
  | .shallow => "shallow"
  | .startAt => "startAt"

/-- All parameters in the order of their names. -/
def all : List Parameter :=
  [.auth, .endAt, .equalTo, .format, .limitToFirst, .limitToLast, .orderBy, .shallow, .startAt]

theorem mem_all (p : Parameter) : p ∈ all := by cases p <;> decide

end Parameter

/-- At most one value for each parameter. -/
structure Parameters where
  get? : Parameter → Option Value

namespace Parameters

/-- No parameters. -/
def empty : Parameters := ⟨fun _ => none⟩

/-- The parameters with a value for one of them. -/
def set (ps : Parameters) (p : Parameter) (v : Value) : Parameters :=
  ⟨fun q => if q = p then some v else ps.get? q⟩

/-- The parameters without one of them. -/
def clear (ps : Parameters) (p : Parameter) : Parameters :=
  ⟨fun q => if q = p then none else ps.get? q⟩

@[simp] theorem get?_empty (q : Parameter) : empty.get? q = none := rfl

@[simp] theorem get?_set (ps : Parameters) (p q : Parameter) (v : Value) :
    (ps.set p v).get? q = if q = p then some v else ps.get? q := rfl

@[simp] theorem get?_clear (ps : Parameters) (p q : Parameter) :
    (ps.clear p).get? q = if q = p then none else ps.get? q := rfl

/-- The parameters that have a value, in the order of their names. -/
def entries (ps : Parameters) : List (Parameter × Value) :=
  Parameter.all.filterMap fun p => (ps.get? p).map fun v => (p, v)

/-- A value as it stands in a query: bytes as they are, anything else by its text. -/
def encodeValue : Value → Except Error Text
  | .bytes bs => .ok (Form.encodeBytes bs)
  | v =>
    match v.plain with
    | .error f => .error (.digits f)
    | .ok t => (Form.encodeText t).mapError Error.encoding

/-- A parameter and its value as they stand in a query. -/
def encodeEntry (e : Parameter × Value) : Except Error (Text × Text) := do
  return (e.1.name, ← encodeValue e.2)

/-- The query with its question mark; nothing without parameters. -/
def query (ps : Parameters) : Except Error Text := do
  match ← ps.entries.mapM encodeEntry with
  | [] => return []
  | pairs => return "?" ++ Form.joinPairs pairs

end Parameters

end RemoteTree
