import RemoteTree.Http.Chain
import RemoteTree.Proofs.Results
import RemoteTree.Proofs.Url.VeiledEscapes

/-!
# Veiled urls

Urls that differ only in secrets are taken apart alike: the secrets stand in the query, or behind a question mark
of the fragment. So they are sent alike, joined alike with what a response says, and redirected alike.

* `VeiledParts`: the parts of veiled urls.
* `Veiled.split`, `VeiledParts.text`: urls are taken apart and put together.
* `Veiled.target`: the urls that are sent.
* `Veiled.join`, `Veiled.redirected`: **the urls that redirects lead to.**
-/

namespace RemoteTree.Url

/-! ## Parts -/

/-- Parts that differ only in secrets. A secret of the fragment stands behind a question mark of its own. -/
structure VeiledParts (p q : Parts) : Prop where
  scheme : p.scheme = q.scheme
  authority : p.authority = q.authority
  path : p.path = q.path
  query : Veiled true p.query q.query
  fragment : Veiled false p.fragment q.fragment

namespace VeiledParts

variable {p q : Parts}

/-- Urls that are put together from such parts. -/
theorem text (h : VeiledParts p q) : Veiled false p.text q.text := by
  obtain ⟨scheme, authority, path, query, fragment⟩ := p
  obtain ⟨_, _, _, query', fragment'⟩ := q
  obtain ⟨rfl, rfl, rfl, hquery, hfragment⟩ := h
  dsimp only at hquery hfragment
  have hq : Veiled false (Text.when (!query.isEmpty) ("?" ++ query)) (Text.when (!query'.isEmpty) ("?" ++ query')) := by
    rw [hquery.isEmpty_eq]
    unfold Text.when
    split
    · exact hquery.mark []
    · exact .nil
  have hf : Veiled false (Text.when (!fragment.isEmpty) ("#" ++ fragment))
      (Text.when (!fragment'.isEmpty) ("#" ++ fragment')) := by
    rw [hfragment.isEmpty_eq]
    unfold Text.when
    split
    · exact .char _ hfragment
    · exact .nil
  exact ((Veiled.refl false _).append hq).append hf

theorem normalized (h : VeiledParts p q) : VeiledParts p.normalized q.normalized := by
  obtain ⟨scheme, authority, path, query, fragment⟩ := p
  obtain ⟨_, _, _, query', fragment'⟩ := q
  obtain ⟨rfl, rfl, rfl, hquery, hfragment⟩ := h
  exact ⟨rfl, rfl, rfl, hquery, hfragment⟩

end VeiledParts

/-! ## Taking urls apart -/

/-- The scheme is taken off in front of a question mark, whatever stands behind that. -/
theorem takeScheme_mark (x v : Text) : takeScheme (x ++ CodePoint.ofChar '?' :: v) =
    (takeScheme x).map fun e => (e.1, e.2 ++ CodePoint.ofChar '?' :: v) := by
  by_cases hx : CodePoint.ofChar ':' ∈ x
  · obtain ⟨a, rest, rfl, ha⟩ := List.eq_append_cons_of_mem hx
    unfold takeScheme
    rw [List.append_assoc, List.cons_append, Text.cut_append ha, Text.cut_append ha]
    cases a with
    | nil => rfl
    | cons c s =>
      dsimp only
      split <;> rfl
  · -- in front of a later colon stands the question mark, which is part of no scheme
    have hmark : isSchemeChar '?' = false := by decide
    have hletter : CodePoint.isLetter '?' = false := by decide
    have hne : CodePoint.ofChar '?' ≠ ':' := by decide
    unfold takeScheme
    rw [Text.cut_append_left hx, Text.cut_of_not_mem hx]
    simp only [Text.cut, hne, if_false]
    cases (Text.cut ':' v).2 with
    | none => cases x <;> rfl
    | some rest =>
      cases x with
      | nil =>
        simp [hletter]
      | cons c s => simp [hmark]

namespace Veiled

variable {t u : Text}

theorem takeScheme (h : Veiled false t u) : (takeScheme t = none ∧ Url.takeScheme u = none) ∨
    ∃ scheme t' u', Url.takeScheme t = some (scheme, t') ∧ Url.takeScheme u = some (scheme, u') ∧ Veiled false t' u' := by
  rcases h.front with rfl | ⟨x, v, w, -, rfl, rfl, hvw⟩
  · cases hs : Url.takeScheme t with
    | none => exact .inl ⟨rfl, rfl⟩
    | some e => exact .inr ⟨e.1, e.2, e.2, rfl, rfl, refl _ _⟩
  · rw [takeScheme_mark, takeScheme_mark]
    cases Url.takeScheme x with
    | none => exact .inl ⟨rfl, rfl⟩
    | some e => exact .inr ⟨e.1, _, _, rfl, rfl, hvw.mark _⟩

/-- Behind two slashes both have the same authority, if what ends it ends at a question mark. -/
theorem slashes (ends : CodePoint → Bool) (hends : ends '?' = true) (h : Veiled false t u) :
    (Text.ofString "//").isPrefixOf t = (Text.ofString "//").isPrefixOf u ∧
      ((Text.ofString "//").isPrefixOf t = true →
        ((t.drop 2).takeWhile fun c => !ends c) = ((u.drop 2).takeWhile fun c => !ends c) ∧
          Veiled false ((t.drop 2).dropWhile fun c => !ends c) ((u.drop 2).dropWhile fun c => !ends c)) := by
  refine ⟨h.isPrefixOf_eq (by decide), fun hs => ?_⟩
  obtain ⟨t, rfl⟩ : ∃ v, t = CodePoint.ofChar '/' :: CodePoint.ofChar '/' :: v := by
    obtain ⟨v, hv⟩ := List.isPrefixOf_iff_prefix.1 hs
    exact ⟨v, hv.symm⟩
  cases h with
  | char _ h =>
    rw [behind_eq (by decide) (by decide)] at h
    cases h with
    | char _ h =>
      rw [behind_eq (by decide) (by decide)] at h
      exact h.takeWhile_eq (by simp [hends])

/-- **Both are taken apart alike.** -/
theorem splitWith (scheme : Text) (h : Veiled false t u) :
    Agree VeiledParts (splitWith scheme t) (Url.splitWith scheme u) := by
  unfold Url.splitWith
  have hclean := h.dropWhile_blank.filter_ignored
  generalize (List.filter _ (List.dropWhile _ t)) = t at hclean ⊢
  generalize (List.filter _ (List.dropWhile _ u)) = u at hclean ⊢
  obtain ⟨s, t', u', ht, hu, hv⟩ : ∃ s t' u', (Url.takeScheme t).getD (scheme, t) = (s, t') ∧
      (Url.takeScheme u).getD (scheme, u) = (s, u') ∧ Veiled false t' u' := by
    rcases hclean.takeScheme with ⟨ht, hu⟩ | ⟨s, t', u', ht, hu, hv⟩
    · exact ⟨scheme, t, u, by rw [ht]; rfl, by rw [hu]; rfl, hclean⟩
    · exact ⟨s, t', u', by rw [ht]; rfl, by rw [hu]; rfl, hv⟩
  dsimp only
  rw [ht, hu]
  dsimp only
  obtain ⟨hsame, hslashes⟩ := hv.slashes endsAuthority (by decide)
  obtain ⟨a, t'', u'', ht', hu', hv'⟩ : ∃ a t'' u'',
      (if (Text.ofString "//").isPrefixOf t' then
        ((t'.drop 2).takeWhile fun c => !endsAuthority c, (t'.drop 2).dropWhile fun c => !endsAuthority c)
        else (([] : Text), t')) = (a, t'') ∧
      (if (Text.ofString "//").isPrefixOf u' then
        ((u'.drop 2).takeWhile fun c => !endsAuthority c, (u'.drop 2).dropWhile fun c => !endsAuthority c)
        else (([] : Text), u')) = (a, u'') ∧ Veiled false t'' u'' := by
    cases hs : (Text.ofString "//").isPrefixOf t' with
    | true =>
      obtain ⟨ha, hd⟩ := hslashes hs
      refine ⟨_, _, _, rfl, ?_, hd⟩
      rw [hsame] at hs
      rw [hs, ha]
      rfl
    | false =>
      refine ⟨_, _, _, rfl, ?_, hv⟩
      rw [hsame] at hs
      rw [hs]
      rfl
  rw [ht', hu']
  dsimp only
  obtain ⟨hfront, hfragment⟩ := hv'.cut_number
  obtain ⟨hpath, hquery⟩ := hfront.cut_mark
  refine Agree.bind_same _ fun _ => ?_
  refine Agree.bind_same _ fun _ => ?_
  exact .ok ⟨rfl, rfl, hpath, hquery, hfragment⟩

theorem split (h : Veiled false t u) : Agree VeiledParts (split t) (Url.split u) := h.splitWith []

/-! ## Urls that are sent -/

theorem targetParts (scheme : Text) (h : Veiled false t u) :
    Agree VeiledParts (targetParts scheme t) (Url.targetParts scheme u) := by
  obtain ⟨hsame, hslashes⟩ := h.slashes endsTarget (by decide)
  unfold Url.targetParts
  rw [← hsame]
  cases hs : (Text.ofString "//").isPrefixOf t with
  | false => exact .error _ _
  | true =>
    obtain ⟨ha, hd⟩ := hslashes hs
    obtain ⟨hfront, hfragment⟩ := hd.cut_number
    obtain ⟨hpath, hquery⟩ := hfront.cut_mark
    dsimp only
    rw [ha]
    refine Agree.bind_same _ fun a => ?_
    rw [hpath]
    exact .ok ⟨rfl, rfl, rfl, hquery.component, hfragment.component⟩

/-- **Both are sent alike**, or no request can be sent to either. -/
theorem target (h : Veiled false t u) : Agree (Veiled false) (target t) (Url.target u) := by
  unfold Url.target
  rcases h.takeScheme with ⟨ht, hu⟩ | ⟨scheme, t', u', ht, hu, hv⟩
  · rw [ht, hu]
    exact .error _ _
  · rw [ht, hu]
    refine (hv.targetParts scheme).bind fun p q hpq => ?_
    exact hpq.text.requote.mapError _ _

/-! ## Redirects -/

/-- **Both are joined alike with what is alike.** -/
theorem join {base base' : Text} (hb : Veiled false base base') (h : Veiled false t u) :
    Agree (Veiled false) (join base t) (Url.join base' u) := by
  unfold Url.join
  rw [hb.isEmpty_eq, h.isEmpty_eq]
  split
  · exact .ok h
  split
  · exact .ok hb
  refine hb.split.bind fun b b' hbb => ?_
  obtain ⟨scheme, authority, path, query, fragment⟩ := b
  obtain ⟨_, _, _, query', fragment'⟩ := b'
  obtain ⟨rfl, rfl, rfl, hquery, hfragment⟩ := hbb
  dsimp only
  refine (h.splitWith _).bind fun r r' hrr => ?_
  have hwhole := hrr.normalized.text
  obtain ⟨scheme', authority', path', rquery, rfragment⟩ := r
  obtain ⟨_, _, _, rquery', rfragment'⟩ := r'
  obtain ⟨rfl, rfl, rfl, hrquery, hrfragment⟩ := hrr
  dsimp only at hrquery hrfragment ⊢
  split
  · exact .ok h
  split
  · exact .ok hwhole
  split
  · -- in place of an empty query stands that of the base
    have hq : Veiled true (if rquery.isEmpty then query else rquery) (if rquery'.isEmpty then query' else rquery') := by
      rw [hrquery.isEmpty_eq]
      split
      · exact hquery
      · exact hrquery
    exact .ok (VeiledParts.text ⟨rfl, rfl, rfl, hq, hrfragment⟩)
  · exact .ok (VeiledParts.text ⟨rfl, rfl, rfl, hrquery, hrfragment⟩)

/-- **A redirect leads from both to the same place**, but for a secret in the fragment or the query. -/
theorem redirected (h : Veiled false t u) {now now' : Parts} (hnow : VeiledParts now now') (place : Text) :
    Agree (Veiled false) (redirected t now place) (Url.redirected u now' place) := by
  unfold Url.redirected
  rw [hnow.scheme]
  dsimp only
  refine Agree.bind_same _ fun parts => ?_
  have hfragment : Veiled false (if parts.fragment.isEmpty then now.fragment else parts.fragment)
      (if parts.fragment.isEmpty then now'.fragment else parts.fragment) := by
    split
    · exact hnow.fragment
    · exact refl _ _
  have hquoted : VeiledParts { parts.normalized with
      fragment := if parts.fragment.isEmpty then now.fragment else parts.fragment }
      { parts.normalized with fragment := if parts.fragment.isEmpty then now'.fragment else parts.fragment } :=
    ⟨rfl, rfl, rfl, refl _ _, hfragment⟩
  refine (hquoted.text.requote.mapError _ _).bind fun q q' hqq => ?_
  split
  · exact (h.join hqq).mapError _ _
  · exact .ok hqq

/-- The client has a way of sending requests to both, or to neither. -/
theorem isHttp_eq (h : Veiled false t u) : isHttp t = isHttp u := by
  unfold isHttp Text.lowerAscii
  dsimp only
  rw [h.isPrefixOf_map (by decide), h.isPrefixOf_map (by decide)]

end Veiled

end RemoteTree.Url
