import Mathlib.Logic.Relation
import RemoteTree.Proofs.Reference.Child
import RemoteTree.Reference.Derivation

/-!
# Copies of a reference

A derivation that keeps the path gives a reference with the url of its source, put into the form of a base once
more. That changes nothing if something other than slashes stands behind the scheme. A url that is nothing but a
scheme and slashes loses the slashes of its scheme, and what is left of it is taken for a host the next time.

* `Url.base_eq_of_not_hasRoot`: what is left of a url without a root.
* `Reference.Copies`: one reference is derived from another one along the same path.
* `url_of_copies`: **every copy has the base of the url of its source, and that is the url of its source exactly
  if the text that this was made of has a root.**
-/

namespace RemoteTree

namespace Url

variable {t : Text}

theorem base_base_of_hasRoot (h : HasRoot t) : base (base t) = base t :=
  base_of_closed (isRooted_base h).isReachable (isClosed_base t)

/-- What is left of a scheme with nothing but slashes behind it. -/
theorem dropTrailing_reach {reach : Text} (h : IsReach reach) {rest : Text} (hrest : ∀ c ∈ rest, c = '/') :
    Text.dropTrailing (· == '/') (reach ++ rest) = reach.take (reach.length - 2) := by
  induction rest using List.reverseRecOn with
  | nil =>
    rw [List.append_nil]
    rcases h with rfl | rfl <;> rfl
  | append_singleton rest c ih =>
    have hc : (c == CodePoint.ofChar '/') = true := beq_iff_eq.2 (hrest c (by simp))
    rw [← List.append_assoc, dropTrailing_concat, if_pos hc]
    exact ih fun d hd => hrest d (List.mem_append_left _ hd)

/-- **The base of a text without a root** is its scheme without the slashes, and the base of that is a host of
the same name. -/
theorem base_eq_of_not_hasRoot (h : ¬HasRoot t) :
    base t = Text.ofString "http:" ∨ base t = Text.ofString "https:" := by
  obtain ⟨reach, hreach, hbare⟩ := bare_cases t
  have hslashes : ∀ c ∈ bare t, c = CodePoint.ofChar '/' := by
    intro c hc
    by_contra hne
    exact h ⟨c, hc, hne⟩
  unfold base
  rw [hbare, dropTrailing_reach hreach hslashes]
  rcases hreach with rfl | rfl
  · exact .inl rfl
  · exact .inr rfl

/-- A text has a root exactly if its base stays the same when it is put into the form of a base again. -/
theorem base_base_eq_iff : base (base t) = base t ↔ HasRoot t := by
  constructor
  · intro h
    by_contra hroot
    rcases base_eq_of_not_hasRoot hroot with hb | hb <;> rw [hb] at h <;> exact absurd h (by decide)
  · exact base_base_of_hasRoot

/-- Whatever a base is made of, it has a root itself. -/
theorem hasRoot_base (t : Text) : HasRoot (base t) := by
  by_cases h : HasRoot t
  · exact (isRooted_base h).hasRoot
  · rcases base_eq_of_not_hasRoot h with hb | hb <;> rw [hb] <;> decide

end Url

/-- Whether a derivation leads to the same path. -/
def Derivation.KeepsPath : Derivation → Prop
  | .child path => ∃ t, path = .text t ∧ ∀ c ∈ t, c = CodePoint.ofChar '/'
  | .root _ => False
  | .orderBy _ | .limitToFirst _ | .limitToLast _ | .startAt _ | .endAt _ | .equalTo _ => True

namespace Reference

variable {r c : Reference}

/-- One reference is derived from another one along the same path. -/
def Copies (r c : Reference) : Prop := ∃ d : Derivation, d.KeepsPath ∧ r.derive d = .ok c

/-- A path of nothing but slashes has no segments. -/
theorem segments_of_slashes {path : Text} (h : ∀ x ∈ path, x = CodePoint.ofChar '/') : segments path = [] := by
  refine List.eq_nil_iff_forall_not_mem.2 fun s hs => ?_
  obtain ⟨hne, hall⟩ := of_mem_segments hs
  obtain ⟨x, rest, rfl⟩ := List.exists_cons_of_ne_nil hne
  obtain ⟨hmem, hslash⟩ := hall x List.mem_cons_self
  exact hslash (h x hmem)

/-- **A copy has the base of the url** of its source. -/
theorem Copies.url_eq (h : r.Copies c) : c.url = Url.base r.url := by
  obtain ⟨d, hd, hderive⟩ := h
  have hrefine : ∀ (p : Parameter) (word : Except Error Text), r.refine p word = .ok c →
      c.url = Url.base r.url := by
    intro p word hword
    obtain ⟨w, -, rfl⟩ := map_eq_ok.1 hword
    rfl
  cases d with
  | root path => exact hd.elim
  | child path =>
    obtain ⟨t, rfl, ht⟩ := hd
    obtain rfl := Except.ok.inj hderive
    show below (Url.base r.url) (segments t) = Url.base r.url
    rw [segments_of_slashes ht]
    rfl
  | orderBy v | limitToFirst v | limitToLast v | startAt v | endAt v | equalTo v => exact hrefine _ _ hderive

/-- Copies of copies have the url of the first one, for the base of a url has a root. -/
theorem url_of_copies_of_base {url : Text} (hr : r.url = Url.base url) (h : Relation.TransGen Copies r c) :
    c.url = Url.base (Url.base url) := by
  induction h with
  | single h => rw [h.url_eq, hr]
  | tail _ h ih => rw [h.url_eq, ih, Url.base_base_of_hasRoot (Url.hasRoot_base url)]

/-- **Copies keep the url of their source if it has a root, and only then.** However many derivations along the
same path lead from a reference that is made of a text to another one, this one has the base of the source's url.
That is the url of the source, and the form of a base is stable, exactly if the text has something other than
slashes behind its scheme. -/
theorem url_of_copies (url : Text) (channel : Nat) (timeout : Value) :
    let r := make url channel timeout
    (Url.base (Url.base url) = Url.base url ↔ Url.HasRoot url) ∧
      ∀ c, Relation.TransGen Copies r c → c.url = Url.base r.url ∧ (c.url = r.url ↔ Url.HasRoot url) := by
  intro r
  refine ⟨Url.base_base_eq_iff, fun c hc => ?_⟩
  have hurl : c.url = Url.base (Url.base url) := url_of_copies_of_base rfl hc
  refine ⟨hurl, ?_⟩
  rw [hurl]
  exact Url.base_base_eq_iff

/-- A reference is copied by way of slashes, and the copy is put in an order. -/
theorem url_of_copies_ordered :
    let r := make "x.example.com/a/" 0 .none
    ∃ c, Relation.TransGen Copies r c ∧ c.url = r.url := by
  intro r
  let d : Reference := r.copy
  let c : Reference := d.copy.withParameter .orderBy (.text (Json.writeText "b"))
  have hd : r.Copies d := ⟨.child (.text "//"), ⟨_, rfl, by decide⟩, rfl⟩
  have hc : d.Copies c := ⟨.orderBy (.text "b"), trivial, rfl⟩
  have hcopies : Relation.TransGen Copies r c := .tail (.single hd) hc
  exact ⟨c, hcopies, ((url_of_copies "x.example.com/a/" 0 .none).2 c hcopies).2.2 (by decide)⟩

/-- A reference that is made of nothing has no url that stays: its copies are elsewhere. -/
theorem url_of_copies_astray :
    let r := make "" 0 .none
    Url.base (Url.base "") ≠ Url.base "" ∧ ∃ c, r.Copies c ∧ c.url ≠ r.url :=
  ⟨by decide, (make "" 0 .none).child "/", ⟨.child (.text "/"), ⟨_, rfl, by decide⟩, rfl⟩, by decide⟩

end Reference

end RemoteTree
