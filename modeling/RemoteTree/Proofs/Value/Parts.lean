import Mathlib.Tactic.ByContra
import RemoteTree.Value.Basic

/-!
# The parts of a value

A value is a tree of containers. What is said of all values inside it is said with the number of containers
around them, by which a container that holds itself is known.

* `Value.inner`: what a container directly holds; `Value.induction` follows it.
* `Value.Holds`: a value stands inside another one, so many containers deep.
* `Value.Everywhere`: a property of a value and of all values inside it; `everywhere_iff` takes one step.
* `Value.EachFloat`: a property of the floats in a value.
* `Value.Mentions`: a value stands inside another one, or is a key there.
* `Value.HoldsItself`, `Value.Closed`: a container inside itself, and a value in which every such occurrence
  stands for one of the containers around it; `not_holdsItself_iff` says that there is none if nothing
  stands for a container.
-/

namespace RemoteTree.Value

/-- What a container directly holds. Keys of a dictionary are names of what it holds. -/
def inner : Value → List Value
  | .list items | .tuple items | .set items => items
  | .dict entries => entries.map Prod.snd
  | _ => []

theorem sizeOf_lt_of_mem_inner {v w : Value} (h : w ∈ v.inner) : sizeOf w < sizeOf v := by
  cases v with
  | list items | tuple items | set items =>
    have hw : sizeOf w < sizeOf items := List.sizeOf_lt_of_mem h
    simp only [list.sizeOf_spec, tuple.sizeOf_spec, set.sizeOf_spec]
    omega
  | dict entries =>
    obtain ⟨e, he, rfl⟩ := List.mem_map.1 h
    have hw := List.sizeOf_lt_of_mem he
    obtain ⟨k, w⟩ := e
    simp only [dict.sizeOf_spec, Prod.mk.sizeOf_spec] at hw ⊢
    omega
  | _ => cases h

/-- What holds of a value if it does of all that it directly holds holds of every value. -/
theorem induction {P : Value → Prop} (step : ∀ v, (∀ w ∈ v.inner, P w) → P v) (v : Value) : P v :=
  step v fun w _ => induction step w
termination_by sizeOf v
decreasing_by exact sizeOf_lt_of_mem_inner ‹_›

/-- One value stands inside another one, with so many containers around it. -/
inductive Holds : Value → Nat → Value → Prop
  | self (v : Value) : Holds v 0 v
  | inside {v w p : Value} {depth : Nat} (hw : w ∈ v.inner) (h : Holds w depth p) : Holds v (depth + 1) p

namespace Holds

variable {v w p : Value} {m n : Nat}

theorem trans (h : v.Holds m w) (g : w.Holds n p) : v.Holds (m + n) p := by
  induction h with
  | self v => rwa [Nat.zero_add]
  | inside hw _ ih =>
    rw [Nat.add_right_comm]
    exact .inside hw (ih g)

/-- What stands deep inside a value stands inside a container on the way there. -/
theorem split (h : v.Holds (m + n) p) : ∃ w, v.Holds m w ∧ w.Holds n p := by
  induction m generalizing v with
  | zero =>
    rw [Nat.zero_add] at h
    exact ⟨v, .self v, h⟩
  | succ m ih =>
    rw [Nat.add_right_comm] at h
    cases h with
    | inside hw h =>
      obtain ⟨u, hu, hp⟩ := ih h
      exact ⟨u, .inside hw hu, hp⟩

end Holds

/-- A property of a value and of all values inside it. -/
def Everywhere (P : Value → Prop) (v : Value) : Prop := ∀ depth p, v.Holds depth p → P p

/-- A property holds everywhere in a value if it holds of the value and everywhere in what it directly holds. -/
theorem everywhere_iff {P : Value → Prop} {v : Value} :
    v.Everywhere P ↔ P v ∧ ∀ w ∈ v.inner, w.Everywhere P := by
  constructor
  · intro h
    exact ⟨h 0 v (.self v), fun w hw depth p hp => h (depth + 1) p (.inside hw hp)⟩
  · rintro ⟨hv, hinner⟩ depth p hp
    cases hp with
    | self => exact hv
    | inside hw hp => exact hinner _ hw _ p hp

/-- A property of a value that holds nothing. -/
theorem everywhere_of_empty {P : Value → Prop} {v : Value} (h : P v) (hv : v.inner = []) : v.Everywhere P := by
  rw [everywhere_iff, hv]
  exact ⟨h, fun _ hw => nomatch hw⟩

theorem Everywhere.mono {P Q : Value → Prop} {v : Value} (h : v.Everywhere P) (hPQ : ∀ p, P p → Q p) :
    v.Everywhere Q := fun depth p hp => hPQ p (h depth p hp)

/-- What holds of every float that stands in a value, other than as a key. -/
def EachFloat (P : Double → Prop) (v : Value) : Prop := v.Everywhere fun p => ∀ x, p = .float x → P x

/-- A value stands inside another one, or it is a key of a dictionary there. -/
def Mentions (v p : Value) : Prop :=
  (∃ depth, v.Holds depth p) ∨ ∃ depth entries w, v.Holds depth (.dict entries) ∧ (p, w) ∈ entries

/-! ## Containers inside themselves -/

/-- A container that stands inside itself. -/
def HoldsItself (c : Value) : Prop := ∃ level, c.Holds (level + 1) (.again level)

/-- What stands for a container stands inside it. -/
def Closed (v : Value) : Prop := ∀ depth level, v.Holds depth (.again level) → level < depth

/-- No container of a closed value stands inside itself exactly if nothing in the value stands for one. -/
theorem not_holdsItself_iff {v : Value} (h : v.Closed) :
    v.Everywhere (fun c => ¬c.HoldsItself) ↔ v.Everywhere fun p => ∀ level, p ≠ .again level := by
  constructor
  · rintro hno depth _ hp level rfl
    have hlt : depth - (level + 1) + (level + 1) = depth := by
      have := h depth level hp
      omega
    rw [← hlt] at hp
    obtain ⟨c, hc, hagain⟩ := hp.split
    exact hno _ c hc ⟨level, hagain⟩
  · rintro hno depth c hc ⟨level, hagain⟩
    exact hno _ _ (hc.trans hagain) level rfl

end RemoteTree.Value
