import RemoteTree.Text.Basic

/-!
# Things with names

Things are kept in the order in which they were made, and a name says which of them it stands for.
A name can be given to another thing; the thing that had it stays where it is.

* `Registry.insert`: a new thing under a name.
* `Registry.place?`, `Registry.get?`, `Registry.modify`: things by name and by place.
* `Registry.namesOf`: the names of the thing at a place.
-/

namespace RemoteTree

/-- Things, and the names of some of them. -/
structure Registry (α : Type) where
  items : List α
  places : List (Text × Nat)

namespace Registry

variable {α : Type}

/-- Nothing has been made. -/
def empty : Registry α := ⟨[], []⟩

/-- The place of the thing that a name stands for. -/
def place? (r : Registry α) (name : Text) : Option Nat :=
  (r.places.find? fun e => e.1 == name).map Prod.snd

/-- The thing at a place. -/
def get? (r : Registry α) (place : Nat) : Option α := r.items[place]?

/-- The thing that a name stands for, with its place. -/
def find? (r : Registry α) (name : Text) : Option (Nat × α) := do
  let place ← r.place? name
  return (place, ← r.get? place)

/-- A new thing under a name. -/
def insert (r : Registry α) (name : Text) (a : α) : Registry α :=
  ⟨r.items ++ [a], (name, r.items.length) :: r.places.filter fun e => e.1 != name⟩

theorem place?_insert (r : Registry α) (name : Text) (a : α) :
    (r.insert name a).place? name = some r.items.length := by
  simp [insert, place?]

/-- A new thing changes what no other name stands for. -/
theorem place?_insert_of_ne {name other : Text} (r : Registry α) (a : α) (h : other ≠ name) :
    (r.insert name a).place? other = r.place? other := by
  simp only [insert, place?, List.find?_cons]
  have : (name == other) = false := by simpa using Ne.symm h
  rw [this]
  congr 1
  induction r.places with
  | nil => rfl
  | cons e rest ih =>
    by_cases he : e.1 = name
    · have : e.1 ≠ other := fun heq => h (heq.symm.trans he)
      simp_all
    · by_cases ho : e.1 = other <;> simp_all

/-- Changes the thing at a place. -/
def modify (r : Registry α) (place : Nat) (f : α → α) : Registry α :=
  { r with items := r.items.modify place f }

/-- Names with what they stand for, in the order of the names. -/
def entries (r : Registry α) : List (Text × α) :=
  (r.places.filterMap fun e => (r.get? e.2).map fun a => (e.1, a)).mergeSort
    fun a b => !Text.before b.1 a.1

/-- The names of the thing at a place, in order. -/
def namesOf (r : Registry α) (place : Nat) : List Text :=
  ((r.places.filter fun e => e.2 == place).map Prod.fst).mergeSort fun a b => !Text.before b a

end Registry

end RemoteTree
