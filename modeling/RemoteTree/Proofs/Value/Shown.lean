import RemoteTree.Proofs.Results
import RemoteTree.Value.Print

/-!
# What the text of a value shows

The text of a container shows all its parts, keys and members of keys included. There is one thing only that cannot be
shown, an integer with more digits than are written, and it is met in one way.

* `Value.Shows`: what stands in a value, keys included.
* `Value.IsTooLong`: a value that shows such an integer; `isTooLong_iff` takes one step.
* `Value.literal_eq_error_iff`: **the text of a value is missing exactly if the value is too long.**
-/

namespace RemoteTree.Value

/-- What the text of a container shows. -/
def shownParts : Value → List Value
  | .list items | .tuple items | .set items => items
  | .dict entries => entries.flatMap fun e => [e.1, e.2]
  | _ => []

/-- What stands in a value: the value itself, and what stands in its parts. -/
inductive Shows : Value → Value → Prop
  | self (v : Value) : Shows v v
  | part {v w p : Value} (hw : w ∈ v.shownParts) (h : Shows w p) : Shows v p

/-- A value in which an integer stands that has more digits than are written. -/
def IsTooLong (v : Value) : Prop := ∃ n, v.Shows (.int n) ∧ Integer.isWritten n = false

theorem isTooLong_iff {v : Value} :
    v.IsTooLong ↔ (∃ n, v = .int n ∧ Integer.isWritten n = false) ∨ ∃ w ∈ v.shownParts, w.IsTooLong := by
  constructor
  · rintro ⟨n, h, hn⟩
    cases h with
    | self => exact .inl ⟨n, rfl, hn⟩
    | part hw h => exact .inr ⟨_, hw, n, h, hn⟩
  · rintro (⟨n, rfl, hn⟩ | ⟨w, hw, n, h, hn⟩)
    · exact ⟨n, .self _, hn⟩
    · exact ⟨n, .part hw h, hn⟩

/-- A container is too long if a part of it is. -/
theorem isTooLong_of_parts {v : Value} (hv : ∀ n, v ≠ .int n) : v.IsTooLong ↔ ∃ w ∈ v.shownParts, w.IsTooLong := by
  rw [isTooLong_iff]
  exact or_iff_right fun ⟨n, h, _⟩ => hv n h

theorem not_isTooLong {v : Value} (hv : ∀ n, v ≠ .int n) (hparts : v.shownParts = []) : ¬v.IsTooLong := by
  rw [isTooLong_of_parts hv, hparts]
  exact fun ⟨_, hw, _⟩ => nomatch hw

theorem isTooLong_int {n : Int} : (Value.int n).IsTooLong ↔ Integer.isWritten n = false := by
  rw [isTooLong_iff]
  constructor
  · rintro (⟨m, hm, h⟩ | ⟨w, hw, -⟩)
    · exact Value.int.inj hm ▸ h
    · cases hw
  · exact fun h => .inl ⟨n, rfl, h⟩

/-- A dictionary shows the keys and the values of its entries. -/
theorem exists_shownParts_dict {entries : List (Value × Value)} {P : Value → Prop} :
    (∃ w ∈ (Value.dict entries).shownParts, P w) ↔ ∃ e ∈ entries, P e.1 ∨ P e.2 := by
  constructor
  · rintro ⟨w, hw, h⟩
    obtain ⟨e, he, hwe⟩ := List.mem_flatMap.1 hw
    rcases List.mem_cons.1 hwe with rfl | hwe
    · exact ⟨e, he, .inl h⟩
    · exact ⟨e, he, .inr (List.mem_singleton.1 hwe ▸ h)⟩
  · rintro ⟨e, he, h | h⟩
    · exact ⟨e.1, List.mem_flatMap.2 ⟨e, he, List.mem_cons_self⟩, h⟩
    · exact ⟨e.2, List.mem_flatMap.2 ⟨e, he, List.mem_cons_of_mem _ List.mem_cons_self⟩, h⟩

/-- A value without integers and parts is always shown. -/
theorem failsIff_of_atom {v : Value} {t : Text} (hv : ∀ n, v ≠ .int n) (hparts : v.shownParts = []) :
    FailsIff DigitFault.writing v.IsTooLong (.ok t : Except DigitFault Text) :=
  (FailsIff.ok t).congr (iff_of_false not_false (not_isTooLong hv hparts))

mutual

/-- The text of a value is missing exactly if the value is too long, whatever stands around it. -/
theorem failsIff_literalIn (outer : List Shape) : (v : Value) → FailsIff .writing v.IsTooLong (literalIn outer v)
  | .none | .bool true | .bool false | .float _ | .text _ | .bytes _ | .object | .again _ =>
    failsIff_of_atom nofun rfl
  | .int n => by
    refine FailsIff.congr ?_ isTooLong_int.symm
    unfold literalIn Integer.text?
    cases Integer.isWritten n with
    | true => exact (FailsIff.ok _).congr (by simp)
    | false => exact FailsIff.error rfl
  | .list items | .tuple items | .set items => by
    refine FailsIff.congr ?_ (isTooLong_of_parts ?_).symm
    · exact (failsIff_literalsIn _ items).map _
    · nofun
  | .dict entries => by
    refine FailsIff.congr ?_ (isTooLong_of_parts ?_).symm
    · exact ((failsIff_entryLiteralsIn _ entries).map _).congr exists_shownParts_dict.symm
    · nofun

theorem failsIff_literalsIn (outer : List Shape) :
    (vs : List Value) → FailsIff .writing (∃ v ∈ vs, v.IsTooLong) (literalsIn outer vs)
  | [] => (FailsIff.ok _).congr (by simp)
  | v :: vs => by
    unfold literalsIn
    have h := (failsIff_literalIn outer v).bind fun t =>
      (failsIff_literalsIn outer vs).bind fun ts => FailsIff.ok (t :: ts)
    exact h.congr (by simp)

theorem failsIff_entryLiteralsIn (outer : List Shape) : (es : List (Value × Value)) →
    FailsIff .writing (∃ e ∈ es, e.1.IsTooLong ∨ e.2.IsTooLong) (entryLiteralsIn outer es)
  | [] => (FailsIff.ok _).congr (by simp)
  | (k, v) :: es => by
    unfold entryLiteralsIn
    have h := (failsIff_literalIn outer k).bind fun key => (failsIff_literalIn outer v).bind fun value =>
      (failsIff_entryLiteralsIn outer es).bind fun ts => FailsIff.ok ((key ++ ": " ++ value) :: ts)
    exact h.congr (by simp [or_assoc])

end

/-- **The text of a value is missing exactly if the value is too long.** -/
theorem literal_eq_error_iff {v : Value} {f : DigitFault} : v.literal = .error f ↔ f = .writing ∧ v.IsTooLong :=
  failsIff_literalIn [] v f

end RemoteTree.Value
