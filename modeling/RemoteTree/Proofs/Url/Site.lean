import RemoteTree.Proofs.Url.Base
import RemoteTree.Proofs.Url.Query

/-!
# The site of a url

Scheme and authority of a url say which database it is about. Behind one of the two schemes everything up to the
first mark is read for the authority, tabs and line ends apart. So neither the slashes at the end of a url nor what
is put behind one more slash changes its site.

* `authorityOf`: what is read for the authority; `authorityOf_slash`, `authorityOf_dropTrailing`: what has no part
  in it.
* `Url.site`: scheme and authority of a url, or what keeps it from being taken apart.
* `site_reach`: **the site of a url with one of the two schemes depends on what is read for its authority alone.**
* `of_site`, `IsRooted.of_split`: the scheme that is read off a rooted url, and the characters of its authority.
-/

namespace RemoteTree.Url

/-! ## Authorities -/

/-- What is read for the authority behind a scheme. -/
def authorityOf (rest : Text) : Text :=
  (rest.filter fun c => !isIgnored c).takeWhile fun c => !endsAuthority c

theorem authorityOf_slash (x y : Text) : authorityOf (x ++ CodePoint.ofChar '/' :: y) = authorityOf x := by
  have hkept : (!isIgnored (CodePoint.ofChar '/')) = true := by decide
  unfold authorityOf
  rw [List.filter_append, List.filter_cons, if_pos hkept]
  exact takeWhile_append_stop (p := fun c => !endsAuthority c) (by decide) _ _

/-- Slashes at the end have no part in an authority. -/
theorem authorityOf_dropTrailing (rest : Text) :
    authorityOf (Text.dropTrailing (· == '/') rest) = authorityOf rest := by
  induction rest using List.reverseRecOn with
  | nil => rfl
  | append_singleton rest c ih =>
    rw [dropTrailing_concat]
    split
    · rename_i hc
      obtain rfl := beq_iff_eq.1 hc
      rw [ih, authorityOf_slash]
    · rfl

/-- The characters of an authority. -/
theorem of_mem_authorityOf {rest : Text} {c : CodePoint} (h : c ∈ authorityOf rest) :
    isIgnored c = false ∧ endsAuthority c = false := by
  have hends := List.mem_takeWhile_imp h
  have hkept := List.of_mem_filter ((List.takeWhile_subset _) h)
  exact ⟨by simpa using hkept, by simpa using hends⟩

theorem slash_not_mem_authorityOf (rest : Text) : CodePoint.ofChar '/' ∉ authorityOf rest :=
  fun h => absurd (of_mem_authorityOf h).2 (by decide)

/-- An authority is read for itself. -/
theorem authorityOf_authorityOf (rest : Text) : authorityOf (authorityOf rest) = authorityOf rest := by
  have hfilter : (authorityOf rest).filter (fun c => !isIgnored c) = authorityOf rest :=
    List.filter_eq_self.2 fun c hc => by simp [(of_mem_authorityOf hc).1]
  have htake : (authorityOf rest).takeWhile (fun c => !endsAuthority c) = authorityOf rest :=
    List.takeWhile_eq_self_iff.2 fun c hc => by simp [(of_mem_authorityOf hc).2]
  show ((authorityOf rest).filter fun c => !isIgnored c).takeWhile _ = _
  rw [hfilter, htake]

/-! ## Sites -/

/-- Scheme and authority of a url. -/
def site (t : Text) : Except Fault (Text × Text) := (split t).map fun p => (p.scheme, p.authority)

/-- The two schemes. -/
theorem IsReach.scheme {reach : Text} (h : IsReach reach) :
    ∃ scheme : Text, reach = scheme ++ "://" := by
  rcases h with rfl | rfl
  · exact ⟨Text.ofString "http", rfl⟩
  · exact ⟨Text.ofString "https", rfl⟩

/-- **The site of a url with one of the two schemes** depends on what is read for its authority alone. -/
theorem site_reach {scheme : Text} (h : IsReach (scheme ++ "://")) (rest : Text) :
    site (scheme ++ "://" ++ rest) = (checkBrackets (authorityOf rest)).bind fun _ =>
      (checkLookalikes (authorityOf rest)).map fun _ => (scheme, authorityOf rest) := by
  -- nothing is dropped from the scheme
  have hread : IsScheme scheme ∧ Text.lowerAscii scheme = scheme ∧
      ((scheme ++ "://" ++ rest).dropWhile fun c => c.val ≤ 0x20).filter (fun c => !isIgnored c) =
        scheme ++ CodePoint.ofChar ':' :: (Text.ofString "//" ++ rest.filter fun c => !isIgnored c) := by
    rcases h with h | h
    · obtain rfl : scheme = Text.ofString "http" := List.append_cancel_right h
      exact ⟨⟨_, _, rfl, by decide, by decide⟩, by decide, rfl⟩
    · obtain rfl : scheme = Text.ofString "https" := List.append_cancel_right h
      exact ⟨⟨_, _, rfl, by decide, by decide⟩, by decide, rfl⟩
  obtain ⟨hscheme, hlower, hread⟩ := hread
  have hslashes : ∀ t : Text, (Text.ofString "//").isPrefixOf (Text.ofString "//" ++ t) = true := fun t =>
    List.isPrefixOf_iff_prefix.2 (List.prefix_append _ _)
  have hauthority : ((Text.ofString "//" ++ rest.filter fun c => !isIgnored c).drop 2).takeWhile
      (fun c => !endsAuthority c) = authorityOf rest := rfl
  unfold site split splitWith
  simp only [hread, hscheme.takeScheme, hlower, Option.getD_some, hslashes, if_true, hauthority]
  cases checkBrackets (authorityOf rest) with
  | error why => rfl
  | ok _ => cases checkLookalikes (authorityOf rest) <;> rfl

/-- Urls with one scheme are about one database if the same is read for their authorities. -/
theorem site_congr {reach : Text} (h : IsReach reach) {x y : Text} (hxy : authorityOf x = authorityOf y) :
    site (reach ++ x) = site (reach ++ y) := by
  obtain ⟨scheme, rfl⟩ := h.scheme
  rw [site_reach h, site_reach h, hxy]

/-- **What is read off a rooted url**: its own scheme, and what is read for its authority. -/
theorem IsRooted.of_site {t : Text} (h : IsRooted t) {scheme authority : Text}
    (hsite : site t = .ok (scheme, authority)) :
    ∃ rest : Text, t = scheme ++ "://" ++ rest ∧ IsReach (scheme ++ "://") ∧ authorityOf rest = authority := by
  obtain ⟨reach, rest, hreach, rfl, -⟩ := h
  obtain ⟨s, rfl⟩ := hreach.scheme
  rw [site_reach hreach] at hsite
  obtain ⟨_, -, hsite⟩ := bind_eq_ok.1 hsite
  obtain ⟨_, -, hpair⟩ := map_eq_ok.1 hsite
  obtain ⟨rfl, rfl⟩ := Prod.mk.inj hpair
  exact ⟨rest, rfl, hreach, rfl⟩

/-- The parts of a rooted url have one of the two schemes and an authority without slashes. -/
theorem IsRooted.of_split {t : Text} (h : IsRooted t) {p : Parts} (hp : split t = .ok p) :
    IsReach (p.scheme ++ "://") ∧ ∀ c ∈ p.authority, c ≠ '/' := by
  have hsite : site t = .ok (p.scheme, p.authority) := map_eq_ok.2 ⟨p, hp, rfl⟩
  obtain ⟨rest, -, hreach, hauthority⟩ := h.of_site hsite
  refine ⟨hreach, fun c hc => ?_⟩
  rintro rfl
  rw [← hauthority] at hc
  exact slash_not_mem_authorityOf rest hc

end RemoteTree.Url
