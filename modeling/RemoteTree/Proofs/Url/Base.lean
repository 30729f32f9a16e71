import Mathlib.Data.List.DropRight
import Mathlib.Data.List.TakeWhile
import RemoteTree.Url.Base

/-!
# The form in which a location is kept

A url that has something other than slashes behind its scheme is put into a form with a scheme in front and
without a slash at its end. Whatever is put behind that form keeps the scheme, and keeps the end open or closed
as it is itself.

* `Url.HasRoot`: a text that has something other than slashes behind its optional scheme.
* `Url.IsRooted`, `Url.IsClosed`: a url that has a scheme and a root behind it, and one without a slash at its
  end.
* `isRooted_base`, `isClosed_base`: **the base of a text with a root is rooted and closed.**
* `base_of_closed`: a url in the form of a base is its own base.
* `isClosed_iff`: a url is closed exactly if there is no double slash before what is put behind it.
-/

namespace RemoteTree.Url

/-! ## Slashes at the end -/

theorem dropTrailing_of_getLast? {p : CodePoint → Bool} {t : Text} (h : ∀ c, t.getLast? = some c → p c = false) :
    Text.dropTrailing p t = t := by
  unfold Text.dropTrailing
  cases hr : t.reverse with
  | nil =>
    rw [List.reverse_eq_nil_iff] at hr
    rw [hr]
    rfl
  | cons c r =>
    have hlast : t.getLast? = some c := by rw [← List.head?_reverse, hr]; rfl
    rw [List.dropWhile_cons, h c hlast, ← hr]
    exact List.reverse_reverse t

theorem getLast?_append {x y : Text} (h : y ≠ []) : (x ++ y).getLast? = y.getLast? := by
  rw [List.getLast?_append, List.getLast?_eq_some_getLast h]
  rfl

theorem dropTrailing_concat (p : CodePoint → Bool) (t : Text) (c : CodePoint) :
    Text.dropTrailing p (t ++ [c]) = if p c then Text.dropTrailing p t else t ++ [c] :=
  List.rdropWhile_concat p t c

/-- What is dropped at the end is dropped behind the last character that stays. -/
theorem dropTrailing_append {p : CodePoint → Bool} {y : Text} (h : ∃ c ∈ y, p c = false) (x : Text) :
    Text.dropTrailing p (x ++ y) = x ++ Text.dropTrailing p y := by
  induction y using List.reverseRecOn with
  | nil =>
    obtain ⟨c, hc, -⟩ := h
    cases hc
  | append_singleton y d ih =>
    rw [← List.append_assoc, dropTrailing_concat, dropTrailing_concat]
    by_cases hd : p d = true
    · obtain ⟨c, hc, hp⟩ := h
      have hmem : c ∈ y := by
        rcases List.mem_append.1 hc with hy | hone
        · exact hy
        · rw [List.mem_singleton.1 hone, hd] at hp
          cases hp
      rw [if_pos hd, if_pos hd]
      exact ih ⟨c, hmem, hp⟩
    · rw [if_neg hd, if_neg hd, List.append_assoc]

/-- A character that stays is left. -/
theorem mem_dropTrailing {p : CodePoint → Bool} {t : Text} {c : CodePoint} (hc : c ∈ t) (hp : p c = false) :
    c ∈ Text.dropTrailing p t := by
  obtain ⟨x, y, rfl⟩ := List.append_of_mem hc
  have hsplit : Text.dropTrailing p (x ++ c :: y) = x ++ Text.dropTrailing p (c :: y) :=
    dropTrailing_append ⟨c, List.mem_cons_self, hp⟩ x
  have hne : Text.dropTrailing p (c :: y) ≠ [] := by
    intro hnil
    have hall := List.rdropWhile_eq_nil_iff.1 hnil c List.mem_cons_self
    rw [hp] at hall
    cases hall
  -- what is left is a front of the text, and it is not empty
  obtain ⟨rest, hrest⟩ := List.rdropWhile_prefix p (c :: y)
  obtain ⟨d, front, hfront⟩ := List.exists_cons_of_ne_nil hne
  have hd : d = c := by
    have hcons : d :: (front ++ rest) = c :: y := by
      rw [← hrest]
      exact congrArg (· ++ rest) hfront.symm
    exact (List.cons.inj hcons).1
  rw [hsplit, hfront, hd]
  exact List.mem_append_right _ List.mem_cons_self

/-! ## Urls with a root -/

/-- A text without its scheme, if it has one of the two. -/
def bare (t : Text) : Text :=
  if (Text.ofString "https://").isPrefixOf t then t.drop 8
  else if (Text.ofString "http://").isPrefixOf t then t.drop 7
  else t

/-- A text that has something other than slashes behind its optional scheme. -/
def HasRoot (t : Text) : Prop := ∃ c ∈ bare t, c ≠ '/'

instance (t : Text) : Decidable (HasRoot t) := inferInstanceAs (Decidable (∃ c ∈ bare t, c ≠ '/'))

/-- The two ways of reaching a location, as they stand in front of it. -/
def IsReach (t : Text) : Prop := t = Text.ofString "http://" ∨ t = Text.ofString "https://"

/-- A url that begins with one of the two ways and has something other than slashes behind it. -/
def IsRooted (t : Text) : Prop :=
  ∃ reach rest : Text, IsReach reach ∧ t = reach ++ rest ∧ ∃ c ∈ rest, c ≠ '/'

/-- A url without a slash at its end. -/
def IsClosed (t : Text) : Prop := t.getLast? ≠ some '/'

instance (t : Text) : Decidable (IsClosed t) := inferInstanceAs (Decidable (t.getLast? ≠ some '/'))

/-- A text behind its scheme, which is `https://` if it has none. -/
theorem bare_cases (t : Text) :
    ∃ reach, IsReach reach ∧ (if isReachable t then t else "https://" ++ t) = reach ++ bare t := by
  unfold isReachable bare
  by_cases hs : (Text.ofString "https://").isPrefixOf t = true
  · obtain ⟨rest, rfl⟩ := List.isPrefixOf_iff_prefix.1 hs
    exact ⟨_, .inr rfl, by rw [if_pos hs, hs]; rfl⟩
  · by_cases hp : (Text.ofString "http://").isPrefixOf t = true
    · obtain ⟨rest, rfl⟩ := List.isPrefixOf_iff_prefix.1 hp
      exact ⟨_, .inl rfl, by rw [if_neg hs, if_pos hp, hp, Bool.or_true]; rfl⟩
    · rw [Bool.not_eq_true] at hs hp
      exact ⟨_, .inr rfl, by rw [hs, hp]; rfl⟩

theorem bare_reach {reach : Text} (h : IsReach reach) (rest : Text) : bare (reach ++ rest) = rest := by
  rcases h with rfl | rfl <;> rfl

/-- **The base of a text with a root** has the root behind its scheme, without the slashes at the end. -/
theorem base_of_hasRoot {t : Text} (h : HasRoot t) :
    ∃ reach, IsReach reach ∧ base t = reach ++ Text.dropTrailing (· == '/') (bare t) := by
  obtain ⟨reach, hreach, hbare⟩ := bare_cases t
  obtain ⟨c, hc, hne⟩ := h
  refine ⟨reach, hreach, ?_⟩
  unfold base
  rw [hbare]
  exact dropTrailing_append ⟨c, hc, by simpa using hne⟩ reach

/-- The base of a url that has a scheme and a root behind it has the same scheme. -/
theorem base_reach {reach rest : Text} (h : IsReach reach) (hroot : ∃ c ∈ rest, c ≠ '/') :
    base (reach ++ rest) = reach ++ Text.dropTrailing (· == '/') rest := by
  have hreach : isReachable (reach ++ rest) = true := by rcases h with rfl | rfl <;> rfl
  obtain ⟨c, hc, hne⟩ := hroot
  unfold base
  rw [if_pos hreach]
  exact dropTrailing_append ⟨c, hc, by simpa using hne⟩ reach

/-- A url in the form of a base is its own base. -/
theorem base_of_closed {t : Text} (hr : isReachable t = true) (hc : IsClosed t) : base t = t := by
  unfold base
  rw [if_pos hr]
  refine dropTrailing_of_getLast? fun c hlast => ?_
  rw [beq_eq_false_iff_ne]
  rintro rfl
  exact hc hlast

theorem isRooted_base {t : Text} (h : HasRoot t) : IsRooted (base t) := by
  obtain ⟨reach, hreach, hbase⟩ := base_of_hasRoot h
  obtain ⟨c, hc, hne⟩ := h
  exact ⟨reach, _, hreach, hbase, c, mem_dropTrailing hc (by simpa using hne), hne⟩

/-- No slash is left at the end where they are dropped. -/
theorem isClosed_dropTrailing (t : Text) : IsClosed (Text.dropTrailing (· == '/') t) := by
  intro hlast
  have hne : Text.dropTrailing (· == '/') t ≠ [] := by
    intro hnil
    rw [hnil] at hlast
    cases hlast
  rw [List.getLast?_eq_some_getLast hne] at hlast
  have hstays := List.rdropWhile_last_not (· == CodePoint.ofChar '/') t hne
  exact hstays (beq_iff_eq.2 (Option.some.inj hlast))

theorem isClosed_base (t : Text) : IsClosed (base t) := isClosed_dropTrailing _

/-- What is put behind a url decides whether it has a slash at its end. -/
theorem isClosed_append {y : Text} (hne : y ≠ []) (x : Text) : IsClosed (x ++ y) ↔ IsClosed y := by
  unfold IsClosed
  rw [getLast?_append hne]

/-- **A url is closed exactly if there is no double slash** before the name of the representation. -/
theorem isClosed_iff {t : Text} : IsClosed t ↔ ∀ front : Text, t ++ "/.json" ≠ front ++ "//.json" := by
  have hdouble : (Text.ofString "//.json") = Text.ofString "/" ++ Text.ofString "/.json" := rfl
  constructor
  · intro h front heq
    rw [hdouble, ← List.append_assoc] at heq
    obtain rfl := List.append_cancel_right heq
    exact h List.getLast?_concat
  · intro h hlast
    obtain ⟨front, rfl⟩ := List.getLast?_eq_some_iff.1 hlast
    refine h front ?_
    rw [hdouble, ← List.append_assoc]
    rfl

/-- Pieces without slashes in a row, a slash between every two of them, have none at the end. -/
theorem isClosed_join {ps : List Text} (hne : ps ≠ []) (h : ∀ p ∈ ps, p ≠ [] ∧ ∀ c ∈ p, c ≠ '/') :
    Text.join "/" ps ≠ [] ∧ IsClosed (Text.join "/" ps) := by
  have hclosed : ∀ p : Text, (∀ c ∈ p, c ≠ '/') → IsClosed p := fun p hp hlast =>
    hp _ (List.mem_of_getLast? hlast) rfl
  induction ps with
  | nil => exact absurd rfl hne
  | cons p ps ih =>
    have hp := h p List.mem_cons_self
    cases ps with
    | nil => exact ⟨hp.1, hclosed p hp.2⟩
    | cons q ps =>
      obtain ⟨hrest, hend⟩ := ih (List.cons_ne_nil q ps) fun x hx => h x (List.mem_cons_of_mem p hx)
      refine ⟨?_, (isClosed_append hrest _).2 hend⟩
      intro hnil
      exact hrest (List.append_eq_nil_iff.1 hnil).2

namespace IsRooted

variable {t : Text}

theorem isReachable (h : IsRooted t) : isReachable t = true := by
  obtain ⟨reach, rest, hreach, rfl, -⟩ := h
  rcases hreach with rfl | rfl <;> rfl

theorem hasRoot (h : IsRooted t) : HasRoot t := by
  obtain ⟨reach, rest, hreach, rfl, hroot⟩ := h
  unfold HasRoot
  rwa [bare_reach hreach]

theorem append (h : IsRooted t) (u : Text) : IsRooted (t ++ u) := by
  obtain ⟨reach, rest, hreach, rfl, c, hc, hne⟩ := h
  exact ⟨reach, rest ++ u, hreach, List.append_assoc _ _ _, c, List.mem_append_left _ hc, hne⟩

end IsRooted

end RemoteTree.Url
