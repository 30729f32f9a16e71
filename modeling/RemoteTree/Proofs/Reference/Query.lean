import RemoteTree.Proofs.Form
import RemoteTree.Proofs.Results
import RemoteTree.Reference.Basic

/-!
# The query of a reference

Where every parameter has a text for its value, the query is a form of names and values, and nothing but the
parameters decides what it is.

* `Parameters.ofTexts`, `Parameters.pairs`: parameters whose values are texts, and their names and values.
* `query_ofTexts`: **the query is the form of the names and values**, in the order of the names.
* `pairs_ascending`, `mem_pairs`: each name stands there once, with the value of its parameter.
* `eq_of_form_eq`: parameters with the same form are the same.
* `query_of_unwritable`: a token that cannot be written leaves no query.
-/

namespace RemoteTree

theorem Parameter.name_injective {p q : Parameter}
    (h : Text.ofString p.name = Text.ofString q.name) : p = q := by
  cases p <;> cases q <;> first | rfl | exact absurd h (by decide)

/-- The names of parameters stand in a form as they are. -/
theorem Parameter.encode_name (p : Parameter) :
    Utf8.writable p.name = true ∧ Form.encodeBytes (Utf8.unitsOf p.name) = Text.ofString p.name := by
  cases p <;> decide

namespace Parameters

/-- Parameters whose values are texts. -/
def ofTexts (f : Parameter → Option Text) : Parameters := ⟨fun p => (f p).map .text⟩

/-- The names and values of such parameters, in the order of the names. -/
def pairs (f : Parameter → Option Text) : List (Text × Text) :=
  Parameter.all.filterMap fun p => (f p).map fun t => (Text.ofString p.name, t)

/-- Such parameters as they stand in a query. -/
def form (f : Parameter → Option Text) : Text := Form.joinPairs ((pairs f).map Form.encodePair)

variable {f g : Parameter → Option Text}

theorem mem_pairs {p : Parameter} {t : Text} : (Text.ofString p.name, t) ∈ pairs f ↔ f p = some t := by
  unfold pairs
  simp only [List.mem_filterMap, Option.map_eq_some_iff, Prod.mk.injEq]
  constructor
  · rintro ⟨q, -, u, hu, hname, rfl⟩
    rw [← Parameter.name_injective hname]
    exact hu
  · exact fun h => ⟨p, p.mem_all, t, h, rfl, rfl⟩

/-- **Each name stands there once**, and the names ascend. -/
theorem pairs_ascending (f : Parameter → Option Text) :
    (pairs f).Pairwise fun a b => Text.before a.1 b.1 = true := by
  have hall : Parameter.all.Pairwise fun p q => Text.before p.name q.name = true := by decide
  refine List.Pairwise.filterMap _ (fun p q hpq a ha b hb => ?_) hall
  obtain ⟨t, -, rfl⟩ := Option.map_eq_some_iff.1 ha
  obtain ⟨u, -, rfl⟩ := Option.map_eq_some_iff.1 hb
  exact hpq

theorem pairs_eq_nil : pairs f = [] ↔ ∀ p, f p = none := by
  constructor
  · intro h p
    cases hp : f p with
    | none => rfl
    | some t =>
      have := mem_pairs.2 hp
      rw [h] at this
      cases this
  · intro h
    unfold pairs
    simp [h]

theorem form_eq_nil : form f = [] ↔ ∀ p, f p = none :=
  Form.joinPairs_eq_nil.trans pairs_eq_nil

theorem eq_of_pairs_eq (h : pairs f = pairs g) : f = g := by
  funext p
  refine Option.ext fun t => ?_
  rw [← mem_pairs, h, mem_pairs]

section

variable (hf : ∀ p t, f p = some t → Utf8.writable t = true)

include hf

theorem writable_pairs : ∀ e ∈ pairs f, Utf8.writable e.1 = true ∧ Utf8.writable e.2 = true := by
  intro e he
  obtain ⟨p, -, hp⟩ := List.mem_filterMap.1 he
  obtain ⟨t, ht, rfl⟩ := Option.map_eq_some_iff.1 hp
  exact ⟨p.encode_name.1, hf p t ht⟩

/-- **The form is read as the names and values.** -/
theorem read_form : Form.read (form f) = some (pairs f) := Form.read_joinPairs (writable_pairs hf)

/-- **The query is the form of the names and values**, behind a question mark unless there are none. -/
theorem query_ofTexts :
    (ofTexts f).query = .ok (Text.when (!(form f).isEmpty) (CodePoint.ofChar '?' :: form f)) := by
  have hentry : ∀ p t, f p = some t → encodeEntry (p, .text t) =
      .ok (Form.encodePair (Text.ofString p.name, t)) := by
    intro p t ht
    unfold encodeEntry encodeValue Form.encodeText
    rw [Form.encodePair, (p.encode_name).2]
    simp only [Value.plain, Utf8.encode_of_writable (hf p t ht)]
    rfl
  -- entries and pairs are both read off the names in their order
  have hentries : (ofTexts f).entries.mapM encodeEntry = .ok ((pairs f).map Form.encodePair) := by
    unfold entries pairs ofTexts
    induction Parameter.all with
    | nil => rfl
    | cons p ps ih =>
      cases hp : f p with
      | none => simpa [hp] using ih
      | some t =>
        simp only [List.filterMap_cons, hp, Option.map_some, List.mapM_cons, List.map_cons, hentry p t hp]
        rw [ih]
        rfl
  unfold query
  rw [hentries]
  cases hps : (pairs f).map Form.encodePair with
  | nil =>
    rw [form, hps]
    rfl
  | cons e es =>
    have hne : form f ≠ [] := fun he => by
      rw [form, Form.joinPairs_eq_nil] at he
      rw [he] at hps
      cases hps
    have hwhen : Text.when (!(form f).isEmpty) (CodePoint.ofChar '?' :: form f) =
        CodePoint.ofChar '?' :: form f := by
      simp [Text.when, hne]
    rw [hwhen, form, hps]
    rfl

end

/-- Parameters with the same form are the same. -/
theorem eq_of_form_eq (hf : ∀ p t, f p = some t → Utf8.writable t = true)
    (hg : ∀ p t, g p = some t → Utf8.writable t = true) (h : form f = form g) : f = g := by
  have hread := read_form hf
  rw [h, read_form hg] at hread
  exact (eq_of_pairs_eq (Option.some.inj hread)).symm

/-- **A token that cannot be written leaves no query**, for it comes first. -/
theorem query_of_unwritable {ps : Parameters} {t : Text} (h : ps.get? .auth = some (.text t))
    (ht : Utf8.writable t = false) : ∃ fault, ps.query = .error (.encoding fault) := by
  obtain ⟨fault, hfault⟩ := Utf8.encode_of_not_writable ht
  have hentry : encodeEntry (.auth, .text t) = .error (.encoding fault) := by
    unfold encodeEntry encodeValue Form.encodeText
    simp only [Value.plain, hfault]
    rfl
  -- no name comes before that of the token
  obtain ⟨rest, hrest⟩ : ∃ rest, ps.entries = (.auth, .text t) :: rest := by
    unfold entries Parameter.all
    rw [List.filterMap_cons, h]
    exact ⟨_, rfl⟩
  refine ⟨fault, ?_⟩
  unfold query
  rw [hrest, List.mapM_cons, hentry]
  rfl

end Parameters

end RemoteTree
