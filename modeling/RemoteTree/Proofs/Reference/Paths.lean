import RemoteTree.Proofs.Reference.Copies

/-!
# Paths below a reference

The child at a path is put together from the segments of the path alone, and the segments of two paths in a row are
those of the one and those of the other. So a path can be walked in parts: the url of a child is in the form of a
base already, and the copy that the next child begins with leaves it as it is.

* `Reference.segments_append`: the segments of two paths with a slash between them.
* `Reference.isRooted_child`, `Reference.isClosed_child`: the url of a child is in the form of a base, if that of
  its parent has a root.
* `Reference.child_child`: **the child of a child is the child at both paths.**
* `Reference.url_child_eq_iff`: **children have the same url exactly if their paths have the same segments.**
* `Url.IsKept`: what the url of a reference may be, whatever strings it is made of; it has a root.
-/

namespace RemoteTree

namespace Reference

variable {r c : Reference}

/-! ## Segments -/

/-- **The segments of two paths** with a slash between them are those of both. -/
theorem segments_append (a b : Text) : segments (a ++ "/" ++ b) = segments a ++ segments b := by
  have hslash : a ++ Text.ofString "/" ++ b = a ++ CodePoint.ofChar '/' :: b := by
    rw [List.append_assoc]
    rfl
  unfold segments
  rw [hslash, Text.pieces_append, List.filter_append]

theorem slash_not_mem_segments {path s : Text} (hs : s ∈ segments path) : CodePoint.ofChar '/' ∉ s :=
  fun hmem => ((of_mem_segments hs).2 _ hmem).2 rfl

/-- What is below a url has a slash in front of each segment. -/
theorem below_eq (url : Text) (path : List Text) : below url path = url ++ path.flatMap (CodePoint.ofChar '/' :: ·) := by
  unfold below
  cases path with
  | nil => exact (List.append_nil url).symm
  | cons s path =>
    rw [Url.flatMap_slash (List.cons_ne_nil s path), List.isEmpty_cons, if_neg Bool.false_ne_true, List.append_assoc]
    rfl

theorem below_below (url : Text) (p q : List Text) : below (below url p) q = below url (p ++ q) := by
  rw [below_eq, below_eq, below_eq, List.flatMap_append, List.append_assoc]

/-- Below one url, rows of segments lead to the same place only if they are the same. -/
theorem eq_of_below_eq {url : Text} {p q : List Text} (hp : ∀ s ∈ p, CodePoint.ofChar '/' ∉ s)
    (hq : ∀ s ∈ q, CodePoint.ofChar '/' ∉ s) (h : below url p = below url q) : p = q := by
  rw [below_eq, below_eq] at h
  have hflat := List.append_cancel_left h
  have hempty : ∀ {ps : List Text}, ps.flatMap (CodePoint.ofChar '/' :: ·) = [] → ps = [] := by
    intro ps hps
    refine List.eq_nil_iff_forall_not_mem.2 fun s hs => ?_
    exact List.cons_ne_nil _ _ (List.flatMap_eq_nil_iff.1 hps s hs)
  rcases eq_or_ne p [] with rfl | hpne
  · exact (hempty hflat.symm).symm
  rcases eq_or_ne q [] with rfl | hqne
  · exact hempty hflat
  rw [Url.flatMap_slash hpne, Url.flatMap_slash hqne] at hflat
  have hjoin : Text.join "/" p = Text.join "/" q := (List.cons.inj hflat).2
  calc p = Text.pieces '/' (Text.join "/" p) := (Text.pieces_join hpne hp).symm
    _ = Text.pieces '/' (Text.join "/" q) := by rw [hjoin]
    _ = q := Text.pieces_join hqne hq

/-! ## Children -/

theorem child_eq (r : Reference) (path : Text) :
    r.child path = { r with url := below (Url.base r.url) (segments path) } := rfl

/-- **Children have the same url** exactly if their paths have the same segments. -/
theorem url_child_eq_iff {q : Reference} (h : q.url = r.url) (a b : Text) :
    (q.child a).url = (r.child b).url ↔ segments a = segments b := by
  rw [child_eq, child_eq, h]
  constructor
  · exact eq_of_below_eq (fun s => slash_not_mem_segments) (fun s => slash_not_mem_segments)
  · intro hsegments
    rw [hsegments]

theorem isRooted_child (h : Url.HasRoot r.url) (path : Text) : Url.IsRooted (r.child path).url := by
  rw [child_eq, below_eq]
  exact (Url.isRooted_base h).append _

/-- No segment of a path has a slash, so there is none at the end of the url. -/
theorem isClosed_child (r : Reference) (path : Text) : Url.IsClosed (r.child path).url := by
  rw [child_eq]
  show Url.IsClosed (below (Url.base r.url) (segments path))
  unfold below
  split
  · exact Url.isClosed_base r.url
  · rename_i hne
    have hsegments : segments path ≠ [] := fun hnil => hne (by rw [hnil]; rfl)
    obtain ⟨hjoin, hclosed⟩ := Url.isClosed_join hsegments fun s hs =>
      ⟨(of_mem_segments hs).1, fun d hd => ((of_mem_segments hs).2 d hd).2⟩
    exact (Url.isClosed_append hjoin _).2 hclosed

/-- **The child of a child** is the child at both paths. -/
theorem child_child (h : Url.HasRoot r.url) (a b : Text) : (r.child a).child b = r.child (a ++ "/" ++ b) := by
  have hbase : Url.base (r.child a).url = (r.child a).url :=
    Url.base_of_closed (isRooted_child h a).isReachable (isClosed_child r a)
  have hurl : below (Url.base (r.child a).url) (segments b) =
      below (Url.base r.url) (segments (a ++ "/" ++ b)) := by
    rw [hbase, segments_append, ← below_below]
    rfl
  rw [child_eq, hurl]
  rfl

end Reference

/-! ## What references keep -/

/-- What the url of a reference may be: one with a root, or what is left of a scheme with nothing behind it. -/
def Url.IsKept (t : Text) : Prop := IsRooted t ∨ t = Text.ofString "http:" ∨ t = Text.ofString "https:"

namespace Url

variable {t : Text}

theorem IsKept.hasRoot (h : IsKept t) : HasRoot t := by
  rcases h with h | rfl | rfl
  · exact h.hasRoot
  · decide
  · decide

/-- Whatever a base is made of, a reference may keep it. -/
theorem isKept_base (t : Text) : IsKept (base t) := by
  by_cases h : HasRoot t
  · exact .inl (isRooted_base h)
  · exact .inr (base_eq_of_not_hasRoot h)

end Url

end RemoteTree
