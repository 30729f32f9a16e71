import RemoteTree.Proofs.Reference.Paths
import RemoteTree.Proofs.Url.Site

/-!
# Paths from the root of a database

A path from the root keeps scheme and authority of a url and nothing else of it. They are read off the new url again,
and so they are off the url of every child. So references that are reached from each other by such paths and by
children lead to the same places from the root.

* `Reference.fromRoot`: what a path adds to the root.
* `Reference.IsAt`: a reference with a rooted url at a site that has a scheme and an authority.
* `IsAt.derive_root`: **the reference at a path from the root, in closed form.**
* `IsAt.child`, `IsAt.root`: children and paths from the root stay at the site; `IsAt.of_moves` says so of any
  number of them.
* `Reference.isAt_or_unrooted`: a reference is at a site, or there are no paths from its root.
-/

namespace RemoteTree.Reference

variable {r c : Reference} {scheme authority : Text}

/-! ## Paths -/

/-- What a path adds to the root: nothing if it is made of slashes, else a slash and the path without those around
it. -/
def fromRoot (path : Text) : Text :=
  if path.all (· == '/') then [] else "/" ++ Text.trim (· == '/') path

theorem authorityOf_fromRoot (x path : Text) : Url.authorityOf (x ++ fromRoot path) = Url.authorityOf x := by
  unfold fromRoot
  split
  · rw [List.append_nil]
  · exact Url.authorityOf_slash x _

theorem authorityOf_segments (x : Text) (path : List Text) :
    Url.authorityOf (x ++ path.flatMap (CodePoint.ofChar '/' :: ·)) = Url.authorityOf x := by
  cases path with
  | nil => rw [List.flatMap_nil, List.append_nil]
  | cons s path => exact Url.authorityOf_slash x _

theorem trim_of_slashes {path : Text} (h : path.all (· == CodePoint.ofChar '/') = true) :
    Text.trim (· == '/') path = [] := by
  have hnil : path.dropWhile (· == CodePoint.ofChar '/') = [] :=
    List.dropWhile_eq_nil_iff.2 (List.all_eq_true.1 h)
  unfold Text.trim
  rw [hnil]
  rfl

/-- A path with something other than slashes has that in the middle. -/
theorem trim_ne_nil {path : Text} (h : path.all (· == CodePoint.ofChar '/') = false) :
    Text.trim (· == '/') path ≠ [] := by
  obtain ⟨c, hc, hne⟩ := List.all_eq_false.1 h
  have hmem : c ∈ path.dropWhile (· == CodePoint.ofChar '/') := by
    have hsplit := List.takeWhile_append_dropWhile (p := (· == CodePoint.ofChar '/')) (l := path)
    rw [← hsplit] at hc
    rcases List.mem_append.1 hc with hfront | hback
    · exact absurd (List.mem_takeWhile_imp hfront) hne
    · exact hback
  exact List.ne_nil_of_mem (Url.mem_dropTrailing hmem (Bool.not_eq_true _ ▸ hne))

/-- The base of a path behind a site. -/
theorem base_fromRoot {site : Text} (hr : Url.IsRooted site) (hc : Url.IsClosed site) (path : Text) :
    Url.base (site ++ "/" ++ Text.trim (· == '/') path) = site ++ fromRoot path := by
  unfold fromRoot
  cases hall : path.all (· == CodePoint.ofChar '/') with
  | true =>
    have hreach : Url.isReachable (site ++ [CodePoint.ofChar '/']) = true := (hr.append _).isReachable
    have hlast : ∀ c, site.getLast? = some c → (c == CodePoint.ofChar '/') = false := by
      intro c hget
      rw [beq_eq_false_iff_ne]
      rintro rfl
      exact hc hget
    rw [trim_of_slashes hall, if_pos rfl, List.append_nil, List.append_nil]
    show Url.base (site ++ [CodePoint.ofChar '/']) = site
    unfold Url.base
    rw [if_pos hreach, Url.dropTrailing_concat, if_pos (beq_self_eq_true _), Url.dropTrailing_of_getLast? hlast]
  | false =>
    have hclosed : Url.IsClosed (site ++ "/" ++ Text.trim (· == '/') path) :=
      (Url.isClosed_append (trim_ne_nil hall) _).2 (Url.isClosed_dropTrailing _)
    rw [Url.base_of_closed ((hr.append _).append _).isReachable hclosed, List.append_assoc]
    rfl

/-! ## Sites -/

/-- A reference with a rooted url at a site that has a scheme and an authority. -/
structure IsAt (r : Reference) (scheme authority : Text) : Prop where
  rooted : Url.IsRooted r.url
  site : Url.site r.url = .ok (scheme, authority)
  scheme_ne : scheme ≠ []
  authority_ne : authority ≠ []

/-- The root of a reference is that of its site. -/
theorem origin_eq (r : Reference) :
    (∃ why, Url.site r.url = .error why ∧ r.origin = .error (.unparsable r.url why)) ∨
      ∃ scheme authority, Url.site r.url = .ok (scheme, authority) ∧
        r.origin = if scheme.isEmpty || authority.isEmpty then .error (.rootless r.url)
          else .ok (scheme ++ "://" ++ authority) := by
  unfold origin Url.site
  cases Url.split r.url with
  | error why => exact .inl ⟨why, rfl, rfl⟩
  | ok parts => exact .inr ⟨parts.scheme, parts.authority, rfl, rfl⟩

namespace IsAt

variable (h : r.IsAt scheme authority)

include h

theorem origin : r.origin = .ok (scheme ++ "://" ++ authority) := by
  obtain ⟨why, hsite, -⟩ | ⟨s, a, hsite, ho⟩ := origin_eq r
  · rw [h.site] at hsite
    cases hsite
  · rw [h.site] at hsite
    obtain ⟨rfl, rfl⟩ := Prod.mk.inj (Except.ok.inj hsite)
    have hempty : ¬(scheme.isEmpty || authority.isEmpty) = true := by
      simp [h.scheme_ne, h.authority_ne]
    rw [ho, if_neg hempty]

/-- The root of the site, in the form of a base. -/
theorem closed_root : Url.IsRooted (scheme ++ "://" ++ authority) ∧ Url.IsClosed (scheme ++ "://" ++ authority) := by
  obtain ⟨rest, -, hreach, rfl⟩ := h.rooted.of_site h.site
  have hslash := Url.slash_not_mem_authorityOf rest
  obtain ⟨c, front, hcons⟩ := List.exists_cons_of_ne_nil h.authority_ne
  have hmem : c ∈ Url.authorityOf rest := by
    rw [hcons]
    exact List.mem_cons_self
  refine ⟨⟨_, _, hreach, rfl, c, hmem, fun hc => hslash (hc ▸ hmem)⟩, ?_⟩
  exact (Url.isClosed_append h.authority_ne _).2 fun hlast => hslash (List.mem_of_getLast? hlast)

/-- **The reference at a path from the root**: its url is that of the site and what the path adds to it. -/
theorem derive_root (path : Text) : r.derive (.root (.text path)) =
    .ok { r with url := scheme ++ "://" ++ authority ++ fromRoot path } := by
  obtain ⟨hr, hc⟩ := h.closed_root
  have hat : r.atPath (scheme ++ "://" ++ authority) path =
      { r with url := scheme ++ "://" ++ authority ++ fromRoot path } := by
    rw [atPath, base_fromRoot hr hc]
    rfl
  show (r.origin.bind fun origin => .ok (r.atPath origin path)) = _
  rw [h.origin, ← hat]
  rfl

/-- What is behind a slash and slashes at the end are not read for the site. -/
theorem child (path : Text) : (r.child path).IsAt scheme authority where
  rooted := isRooted_child h.rooted.hasRoot path
  site := by
    obtain ⟨rest, hurl, hreach, rfl⟩ := h.rooted.of_site h.site
    have hroot : ∃ c ∈ rest, c ≠ CodePoint.ofChar '/' := by
      have hbare := h.rooted.hasRoot
      rwa [hurl, Url.HasRoot, Url.bare_reach hreach] at hbare
    have hchild : (r.child path).url = (scheme ++ "://") ++
        (Text.dropTrailing (· == '/') rest ++ (segments path).flatMap (CodePoint.ofChar '/' :: ·)) := by
      rw [child_eq, below_eq, hurl, Url.base_reach hreach hroot, List.append_assoc]
    rw [← h.site, hurl, hchild]
    refine Url.site_congr hreach ?_
    rw [authorityOf_segments, Url.authorityOf_dropTrailing]
  scheme_ne := h.scheme_ne
  authority_ne := h.authority_ne

/-- The site is read off a path from its root again. -/
theorem root (path : Text) :
    IsAt { r with url := scheme ++ "://" ++ authority ++ fromRoot path } scheme authority where
  rooted := h.closed_root.1.append _
  site := by
    obtain ⟨rest, hurl, hreach, rfl⟩ := h.rooted.of_site h.site
    rw [← h.site, hurl, List.append_assoc]
    refine Url.site_congr hreach ?_
    rw [authorityOf_fromRoot, Url.authorityOf_authorityOf]
  scheme_ne := h.scheme_ne
  authority_ne := h.authority_ne

end IsAt

/-- **A reference that a session keeps is at a site**, or a path from its root is refused as malformed: its url
cannot be taken apart, or lacks a scheme or an authority. -/
theorem isAt_or_unrooted (h : Url.IsKept r.url) :
    (∃ scheme authority, r.IsAt scheme authority) ∨
      (∀ scheme authority, Url.site r.url = .ok (scheme, authority) → scheme = [] ∨ authority = []) ∧
        ∃ e, e.family? = some .malformedUrl ∧ ∀ path, r.derive (.root (.text path)) = .error e := by
  have hderive : ∀ {e : Error}, r.origin = .error e → ∀ path, r.derive (.root (.text path)) = .error e := by
    intro e he path
    show (r.origin.bind fun origin => .ok (r.atPath origin path)) = _
    rw [he]
    rfl
  obtain ⟨why, hsite, ho⟩ | ⟨scheme, authority, hsite, ho⟩ := origin_eq r
  · refine .inr ⟨fun scheme authority hok => ?_, _, rfl, hderive ho⟩
    rw [hsite] at hok
    cases hok
  split at ho
  · rename_i hempty
    refine .inr ⟨fun s a hok => ?_, _, rfl, hderive ho⟩
    rw [hsite] at hok
    obtain ⟨rfl, rfl⟩ := Prod.mk.inj (Except.ok.inj hok)
    simpa using hempty
  · rename_i hempty
    have hne : scheme ≠ [] ∧ authority ≠ [] := by simpa using hempty
    rcases h with hroot | hhttp | hhttps
    · exact .inl ⟨scheme, authority, hroot, hsite, hne.1, hne.2⟩
    -- the name of a scheme alone has no authority
    · have hnone : Url.site "http:" = .ok (Text.ofString "http", []) := rfl
      rw [hhttp, hnone] at hsite
      exact absurd (Prod.mk.inj (Except.ok.inj hsite)).2.symm hne.2
    · have hnone : Url.site "https:" = .ok (Text.ofString "https", []) := rfl
      rw [hhttps, hnone] at hsite
      exact absurd (Prod.mk.inj (Except.ok.inj hsite)).2.symm hne.2

/-! ## Moving about a database -/

/-- A reference is the child of another one, or at a path from its root. -/
def Moves (r c : Reference) : Prop :=
  ∃ path : Text, r.derive (.child (.text path)) = .ok c ∨ r.derive (.root (.text path)) = .ok c

/-- **A reference stays at its site** and keeps all but its path, however often it moves. -/
theorem IsAt.of_moves (h : r.IsAt scheme authority) (hc : Relation.ReflTransGen Moves r c) :
    c.IsAt scheme authority ∧ c = { r with url := c.url } := by
  induction hc with
  | refl => exact ⟨h, rfl⟩
  | tail _ hmove ih =>
    obtain ⟨hat, hrest⟩ := ih
    obtain ⟨path, hd | hd⟩ := hmove
    · obtain rfl := Except.ok.inj hd
      refine ⟨hat.child path, ?_⟩
      rw [child_eq, hrest]
    · rw [hat.derive_root] at hd
      obtain rfl := Except.ok.inj hd
      refine ⟨hat.root path, ?_⟩
      rw [hrest]

end RemoteTree.Reference
