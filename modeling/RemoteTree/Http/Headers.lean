import RemoteTree.Text.Lowercase
import RemoteTree.Value.Basic

/-!
# Header maps

Headers in the order in which they were first set. Names are one whatever the case of their
letters; setting a header that is there replaces its value and the spelling of its name.

* `Headers.get?`, `Headers.set`, `Headers.erase`: the map; `Headers.get?_set` and
  `Headers.get?_set_of_not_sameName` say what a setting changes.
* `Headers.ofList`: the map of a row of settings.
* `Headers.sorted`: the headers in the order of their names.
-/

namespace RemoteTree

/-- A header map: names as they are spelled, with their values. -/
abbrev Headers := List (Text × Value)

namespace Headers

/-- Whether two spellings are of one name. -/
def sameName (a b : Text) : Bool := a.lower == b.lower

theorem sameName_refl (name : Text) : sameName name name = true := by simp [sameName]

/-- The value of a header. -/
def get? (h : Headers) (name : Text) : Option Value :=
  (h.find? fun e => sameName e.1 name).map Prod.snd

/-- Whether a header is there. -/
def has (h : Headers) (name : Text) : Bool := h.any fun e => sameName e.1 name

/-- The headers with one set: in its place if it is there, else at the end. -/
def set (h : Headers) (name : Text) (value : Value) : Headers :=
  match h with
  | [] => [(name, value)]
  | e :: rest => if sameName e.1 name then (name, value) :: rest else e :: set rest name value

/-- A header that is set has the value. -/
theorem get?_set (h : Headers) (name : Text) (v : Value) : (h.set name v).get? name = some v := by
  induction h with
  | nil => simp [set, get?, sameName_refl]
  | cons e rest ih =>
    by_cases he : sameName e.1 name
    · simp [set, get?, he, sameName_refl]
    · simp_all [set, get?]

/-- Setting a header leaves the others as they are. -/
theorem get?_set_of_not_sameName {name other : Text} (h : Headers) (v : Value)
    (hn : sameName name other = false) : (h.set name v).get? other = h.get? other := by
  induction h with
  | nil => simp [set, get?, hn]
  | cons e rest ih =>
    by_cases he : sameName e.1 name
    · have : sameName e.1 other = false := by simp_all [sameName]
      simp [set, get?, he, hn, this]
    · by_cases ho : sameName e.1 other <;> simp_all [set, get?]

/-- The headers without one. -/
def erase (h : Headers) (name : Text) : Headers := h.filter fun e => !sameName e.1 name

/-- The headers without several. -/
def eraseAll (h : Headers) (names : List Text) : Headers := names.foldl erase h

/-- The headers with several set, one after the other. -/
def setAll (h : Headers) (settings : List (Text × Value)) : Headers :=
  settings.foldl (fun h e => h.set e.1 e.2) h

/-- The headers of a row of settings. -/
def ofList (settings : List (Text × Value)) : Headers := setAll [] settings

/-- The headers in the order of their names in lower case. -/
def sorted (h : Headers) : Headers := h.mergeSort fun a b => !Text.before b.1.lower a.1.lower

end Headers

end RemoteTree
