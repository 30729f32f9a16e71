import RemoteTree.Proofs.Text.Basic
import RemoteTree.Url.Target

/-!
# Paths without dots

A segment of one dot or two is never sent: it goes, and two dots take the segment in front of them with them.

* `removeDots_of_no_dots`: a path without such segments is left alone.
* `length_rooted_lt`: **any other path gets shorter**, so that it is not the one that was asked for.
-/

namespace RemoteTree.Url

/-! ## Segments -/

/-- The number of characters of some segments, each with a slash in front of it. -/
def weight : List Text → Nat
  | [] => 0
  | s :: rest => s.length + 1 + weight rest

@[simp] theorem weight_nil : weight [] = 0 := rfl

@[simp] theorem weight_cons (s : Text) (rest : List Text) : weight (s :: rest) = s.length + 1 + weight rest := rfl

@[simp] theorem weight_append (a b : List Text) : weight (a ++ b) = weight a + weight b := by
  induction a with
  | nil => simp
  | cons s a ih => simp [ih, Nat.add_assoc]

theorem weight_reverse (a : List Text) : weight a.reverse = weight a := by
  induction a with
  | nil => rfl
  | cons s a ih => simp [ih, Nat.add_comm]

theorem length_join (ps : List Text) : (Text.join "/" ps).length = weight ps - 1 := by
  cases ps with
  | nil => rfl
  | cons p ps =>
    have hjoin : Text.join (Text.ofString "/") (p :: ps) = p ++ ps.flatMap (CodePoint.ofChar '/' :: ·) :=
      Text.join_cons _ p ps
    have hflat : ∀ ps : List Text, (ps.flatMap (CodePoint.ofChar '/' :: ·)).length = weight ps := by
      intro ps
      induction ps with
      | nil => rfl
      | cons q ps ih =>
        simp only [List.flatMap_cons, List.length_append, List.length_cons, ih, weight_cons]
    rw [hjoin, List.length_append, hflat, weight_cons]
    omega

theorem isDots_iff {s : Text} : isDots s = true ↔ s = Text.ofString "." ∨ s = Text.ofString ".." := by
  simp [isDots]

/-- Segments without dots are all kept. -/
theorem keepSegments_of_no_dots {done rest : List Text} (h : ∀ s ∈ rest, isDots s = false) :
    keepSegments done rest = done.reverse ++ rest := by
  induction rest generalizing done with
  | nil => simp [keepSegments]
  | cons s rest ih =>
    rw [List.forall_mem_cons] at h
    have hs : ¬ (s = Text.ofString "." ∨ s = Text.ofString "..") := by
      rw [← isDots_iff, h.1]
      exact Bool.false_ne_true
    rw [not_or] at hs
    rw [keepSegments, if_neg hs.1, if_neg hs.2, ih h.2]
    simp

theorem mem_keepSegments {done rest : List Text} {s : Text} (h : s ∈ keepSegments done rest) :
    s ∈ done ∨ s ∈ rest := by
  induction rest generalizing done with
  | nil => exact .inl (List.mem_reverse.1 h)
  | cons x rest ih =>
    rw [keepSegments] at h
    split at h
    · exact (ih h).imp_right (List.mem_cons_of_mem _)
    split at h
    · rcases ih h with hd | hr
      · exact .inl (List.mem_of_mem_tail hd)
      · exact .inr (List.mem_cons_of_mem _ hr)
    · rcases ih h with hd | hr
      · rcases List.mem_cons.1 hd with rfl | hd
        · exact .inr List.mem_cons_self
        · exact .inl hd
      · exact .inr (List.mem_cons_of_mem _ hr)

/-- Segments of dots go, with what they take away. -/
theorem weight_keepSegments (done rest : List Text) :
    weight (keepSegments done rest) + 2 * rest.countP isDots ≤ weight done + weight rest := by
  induction rest generalizing done with
  | nil => simp [keepSegments, weight_reverse]
  | cons s rest ih =>
    rw [keepSegments]
    split
    · rename_i hs
      have := ih done
      have hlength : s.length = 1 := by rw [hs]; rfl
      rw [List.countP_cons_of_pos (isDots_iff.2 (.inl hs)), weight_cons]
      omega
    split
    · rename_i hs
      have := ih done.tail
      have hlength : s.length = 2 := by rw [hs]; rfl
      have htail : weight done.tail ≤ weight done := by
        cases done with
        | nil => exact Nat.le_refl _
        | cons x done => exact Nat.le_add_left _ _
      rw [List.countP_cons_of_pos (isDots_iff.2 (.inr hs)), weight_cons]
      omega
    · rename_i hs hs'
      have := ih (s :: done)
      have hdots : ¬ isDots s = true := by rw [isDots_iff, not_or]; exact ⟨hs, hs'⟩
      rw [List.countP_cons_of_neg hdots, weight_cons]
      rw [weight_cons] at this
      omega

/-- If the empty segment in front is taken away, then by dots that count once more. -/
theorem keepSegments_rooted (done rest : List Text) (h : done.getLast? = some []) :
    (keepSegments done rest).head? = some [] ∨
      weight (keepSegments done rest) + 2 * rest.countP isDots + 2 ≤ weight done + weight rest := by
  induction rest generalizing done with
  | nil =>
    left
    rw [keepSegments, List.head?_reverse, h]
  | cons s rest ih =>
    rw [keepSegments]
    split
    · rename_i hs
      have hlength : s.length = 1 := by rw [hs]; rfl
      rw [List.countP_cons_of_pos (isDots_iff.2 (.inl hs)), weight_cons]
      refine (ih done h).imp_right fun hle => ?_
      omega
    split
    · rename_i hs
      have hlength : s.length = 2 := by rw [hs]; rfl
      rw [List.countP_cons_of_pos (isDots_iff.2 (.inr hs)), weight_cons]
      match done with
      | [] => cases h
      | [x] =>
        -- the segment in front goes
        obtain rfl : x = [] := by simpa using h
        have := weight_keepSegments [] rest
        right
        simp only [List.tail_cons, weight_cons, weight_nil, List.length_nil] at *
        omega
      | x :: y :: done =>
        refine (ih (y :: done) (by simpa using h)).imp_right fun hle => ?_
        simp only [List.tail_cons, weight_cons] at *
        omega
    · rename_i hs hs'
      have hdots : ¬ isDots s = true := by rw [isDots_iff, not_or]; exact ⟨hs, hs'⟩
      have hlast : (s :: done).getLast? = some [] := by
        cases done with
        | nil => cases h
        | cons x done => simpa using h
      rw [List.countP_cons_of_neg hdots, weight_cons]
      refine (ih (s :: done) hlast).imp_right fun hle => ?_
      rw [weight_cons] at hle
      omega

/-! ## Paths -/

/-- Whether the last of some segments is one of dots. -/
def endsInDots (segments : List Text) : Bool := (segments.getLast?.map isDots).getD false

/-- What remains of a path that begins with a slash: the segments that are kept, with an empty one in front
and, if the path ends in dots, behind. -/
theorem removeDots_eq (path : Text) :
    let segments := Text.pieces '/' path
    let kept := keepSegments [[]] segments
    removeDots (CodePoint.ofChar '/' :: path) =
      Text.join "/" ((if kept.head? = some [] then kept else [] :: kept) ++
        if endsInDots segments then [[]] else []) := by
  intro segments kept
  have hpieces : Text.pieces '/' (CodePoint.ofChar '/' :: path) = [] :: segments := if_pos rfl
  have hkept : keepSegments [] ([] :: segments) = kept := by
    have hfirst : ([] : Text) ≠ Text.ofString "." := by decide
    have hsecond : ([] : Text) ≠ Text.ofString ".." := by decide
    rw [keepSegments, if_neg hfirst, if_neg hsecond]
  obtain ⟨s, rest, hsegments⟩ := List.exists_cons_of_ne_nil (Text.pieces_ne_nil '/' path)
  have hlength : ([] :: segments).length ≥ 2 := by
    rw [show segments = s :: rest from hsegments]
    simp
  have hlast : ([] :: segments).getLast? = segments.getLast? := by
    rw [show segments = s :: rest from hsegments]
    rfl
  have hfront : (kept.head?.map fun s => !s.isEmpty).getD true = !decide (kept.head? = some []) := by
    cases kept with
    | nil => rfl
    | cons s rest => cases s <;> rfl
  unfold removeDots endsInDots
  simp only [hpieces, hkept, hlast, hfront, hlength, List.head?_cons, decide_true, Bool.true_and]
  by_cases hh : kept.head? = some [] <;> by_cases hd : (segments.getLast?.map isDots).getD false = true <;>
    simp [hh, hd]

/-- A path without dots is left alone. -/
theorem removeDots_of_no_dots {path : Text} (h : ∀ s ∈ Text.pieces '/' path, isDots s = false) :
    removeDots (CodePoint.ofChar '/' :: path) = CodePoint.ofChar '/' :: path := by
  have hpieces : Text.pieces '/' (CodePoint.ofChar '/' :: path) = [] :: Text.pieces '/' path := if_pos rfl
  have hends : endsInDots (Text.pieces '/' path) = false := by
    unfold endsInDots
    cases hl : (Text.pieces '/' path).getLast? with
    | none => rfl
    | some s => exact h s (List.mem_of_getLast? hl)
  rw [removeDots_eq, keepSegments_of_no_dots h, hends]
  simp only [List.reverse_singleton, List.singleton_append, List.head?_cons, if_true, Bool.false_eq_true,
    if_false, List.append_nil]
  rw [← hpieces]
  exact Text.join_pieces _ _

/-- The path that remains: if nothing does, a slash. -/
def rooted (path : Text) : Text := if removeDots path = [] then "/" else removeDots path

theorem head_rooted (path : Text) : (rooted (CodePoint.ofChar '/' :: path)).head? = some '/' := by
  unfold rooted
  split
  · rfl
  · rename_i hne
    rw [removeDots_eq] at hne ⊢
    generalize (if endsInDots (Text.pieces '/' path) then [[]] else []) = behind at *
    have hfront : ∃ rest, (if (keepSegments [[]] (Text.pieces '/' path)).head? = some [] then
        keepSegments [[]] (Text.pieces '/' path) else [] :: keepSegments [[]] (Text.pieces '/' path)) = [] :: rest := by
      split
      · rename_i hh
        exact List.head?_eq_some_iff.1 hh
      · exact ⟨_, rfl⟩
    obtain ⟨rest, hrest⟩ := hfront
    rw [hrest] at hne ⊢
    -- a single empty segment would be nothing
    cases hall : rest ++ behind with
    | nil =>
      rw [List.cons_append, hall] at hne
      exact absurd rfl hne
    | cons s more =>
      rw [List.cons_append, hall]
      rfl

/-- **A path with dots gets shorter.** -/
theorem length_rooted_lt {path : Text} (h : ∃ s ∈ Text.pieces '/' path, isDots s = true) :
    (rooted (CodePoint.ofChar '/' :: path)).length < path.length + 1 := by
  have hcount : 0 < (Text.pieces '/' path).countP isDots := List.countP_pos_iff.2 h
  have hlength : path.length = weight (Text.pieces '/' path) - 1 := by
    rw [← length_join]
    exact congrArg List.length (Text.join_pieces _ _).symm
  have hall := weight_keepSegments [[]] (Text.pieces '/' path)
  have hends : weight (if endsInDots (Text.pieces '/' path) then [[]] else []) ≤ 1 := by
    split <;> simp
  have hrooted := keepSegments_rooted [[]] (Text.pieces '/' path) rfl
  have hremoved : (removeDots (CodePoint.ofChar '/' :: path)).length < path.length + 1 := by
    rw [removeDots_eq, length_join, weight_append]
    simp only [weight_cons, weight_nil, List.length_nil] at hall hrooted
    split
    · omega
    · rename_i hh
      have := hrooted.resolve_left hh
      simp only [weight_cons, List.length_nil]
      omega
  unfold rooted
  split
  · -- a path with dots is not empty
    obtain ⟨s, hs, hdots⟩ := h
    cases path with
    | nil =>
      obtain rfl := List.mem_singleton.1 hs
      cases hdots
    | cons c path => exact Nat.succ_lt_succ (Nat.succ_pos _)
  · exact hremoved

/-- Only the characters of a path remain, and slashes. -/
theorem mem_rooted {path : Text} {c : CodePoint} (h : c ∈ rooted (CodePoint.ofChar '/' :: path)) :
    c = '/' ∨ c ∈ path := by
  unfold rooted at h
  split at h
  · exact .inl (List.mem_singleton.1 h)
  rw [removeDots_eq] at h
  rcases Text.mem_join h with he | ⟨s, hs, hc⟩
  · exact .inl he
  right
  -- a segment that is not empty is one of the path
  have hkept : s ∈ keepSegments [[]] (Text.pieces '/' path) := by
    rcases List.mem_append.1 hs with hs | hs
    · split at hs
      · exact hs
      · rcases List.mem_cons.1 hs with rfl | hs
        · cases hc
        · exact hs
    · split at hs
      · obtain rfl := List.mem_singleton.1 hs
        cases hc
      · cases hs
  rcases mem_keepSegments hkept with hs | hs
  · obtain rfl := List.mem_singleton.1 hs
    cases hc
  · exact (Text.mem_of_mem_pieces hs hc).1

theorem rooted_of_no_dots {path : Text} (h : ∀ s ∈ Text.pieces '/' path, isDots s = false) :
    rooted (CodePoint.ofChar '/' :: path) = CodePoint.ofChar '/' :: path := by
  unfold rooted
  rw [removeDots_of_no_dots h, if_neg (List.cons_ne_nil _ _)]

/-- No path gets longer, and only one without dots keeps its length. -/
theorem length_rooted (path : Text) :
    (∀ s ∈ Text.pieces '/' path, isDots s = false) ∨
      (rooted (CodePoint.ofChar '/' :: path)).length < path.length + 1 := by
  by_cases h : ∃ s ∈ Text.pieces '/' path, isDots s = true
  · exact .inr (length_rooted_lt h)
  · exact .inl fun s hs => Bool.eq_false_iff.2 fun hd => h ⟨s, hs, hd⟩

end RemoteTree.Url
