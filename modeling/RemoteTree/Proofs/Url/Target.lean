import RemoteTree.Proofs.Http.Follow
import RemoteTree.Proofs.Url.Authority

/-!
# A target can be taken apart

The url that is sent has the scheme, the authority and the path of a target, each requoted. Requoting
keeps the marks between them, so that the url is taken apart where it was put together, and its port can
be read.

* `IsScheme`: the schemes that are taken off a url.
* `Parts.OfTarget`: what holds of the parts of a target.
* `readable_of_target`: **a target can be taken apart, down to its port**, if it can be taken apart at all.
* `Request.readable_of_prepare`: so can the url of every request that the client makes.
-/

namespace RemoteTree.Url

/-! ## Schemes -/

/-- The schemes that are taken off a url. -/
def IsScheme (t : Text) : Prop := ∃ c s, t = c :: s ∧ c.isLetter = true ∧ s.all isSchemeChar = true

theorem isLetter_toLower {c : CodePoint} (h : c.isLetter = true) : c.toLower.isLetter = true := by
  by_cases hu : c.isUpper = true
  · simp [CodePoint.isLetter, CodePoint.isLower_toLower hu]
  · rwa [CodePoint.toLower, if_neg hu]

theorem isSchemeChar_toLower {c : CodePoint} (h : isSchemeChar c = true) :
    isSchemeChar c.toLower = true := by
  rcases CodePoint.toLower_cases c with hc | hc
  · rwa [hc]
  · simp [isSchemeChar, hc]

theorem isScheme_of_takeScheme {t scheme rest : Text} (h : takeScheme t = some (scheme, rest)) :
    IsScheme scheme := by
  unfold takeScheme at h
  split at h
  · rename_i c s rest hcut
    split at h
    · rename_i hcs
      rw [Bool.and_eq_true] at hcs
      obtain ⟨rfl, -⟩ := Prod.mk.inj (Option.some.inj h)
      refine ⟨c.toLower, Text.lowerAscii s, rfl, isLetter_toLower hcs.1, ?_⟩
      refine List.all_eq_true.2 fun x hx => ?_
      obtain ⟨y, hy, rfl⟩ := List.mem_map.1 hx
      exact isSchemeChar_toLower (List.all_eq_true.1 hcs.2 y hy)
    · cases h
  · cases h

namespace IsScheme

variable {t : Text}

theorem schemeChars (h : IsScheme t) : ∀ c ∈ t, isSchemeChar c = true := by
  obtain ⟨c, s, rfl, hc, hs⟩ := h
  intro x hx
  rcases List.mem_cons.1 hx with rfl | hx
  · simp [isSchemeChar, CodePoint.isLetterOrDigit, hc]
  · exact List.all_eq_true.1 hs x hx

theorem urlChars (h : IsScheme t) : ∀ c ∈ t, Escape.isUrlChar c = true := by
  intro c hc
  have := h.schemeChars c hc
  simp only [isSchemeChar, Bool.or_eq_true, beq_iff_eq] at this
  rcases this with ((hl | rfl) | rfl) | rfl
  · simp [Escape.isUrlChar, Escape.isUnreserved, hl]
  · decide
  · decide
  · decide

theorem colon_not_mem (h : IsScheme t) : CodePoint.ofChar ':' ∉ t := by
  intro hmem
  have := h.schemeChars _ hmem
  revert this
  decide

/-- A scheme is taken off where it was put in front. -/
theorem takeScheme (h : IsScheme t) (rest : Text) :
    takeScheme (t ++ CodePoint.ofChar ':' :: rest) = some (Text.lowerAscii t, rest) := by
  have hcut := Text.cut_append h.colon_not_mem rest
  obtain ⟨c, s, rfl, hc, hs⟩ := h
  unfold Url.takeScheme
  rw [hcut]
  simp [hc, hs]

end IsScheme

/-! ## The parts of a target -/

/-- What holds of the parts of a target. -/
structure Parts.OfTarget (p : Parts) (a : Authority) : Prop where
  scheme : IsScheme p.scheme
  sendable : a.Sendable
  authority : p.authority = a.text
  path : p.path.head? = some '/'

/-- What ends an authority is not in it. -/
theorem sendable_of_takeWhile {t : Text} {a : Authority}
    (h : readAuthority (t.takeWhile fun c => !endsTarget c) = .ok a) : a.Sendable := by
  refine sendable_of_readAuthority h fun c hc => ?_
  have := List.all_eq_true.1 (List.all_takeWhile ..) c hc
  simpa using this

theorem ofTarget_of_targetParts {scheme rest : Text} {p : Parts} (hs : IsScheme scheme)
    (h : targetParts scheme rest = .ok p) : ∃ a, p.OfTarget a := by
  unfold targetParts at h
  dsimp only at h
  split at h
  · cases h
  obtain ⟨a, ha, h⟩ := bind_eq_ok.1 h
  obtain rfl := Except.ok.inj h
  refine ⟨a, hs, sendable_of_takeWhile ha, rfl, ?_⟩
  dsimp only
  split
  · assumption
  · rfl

theorem Authority.Sendable.text_ne_nil {a : Authority} (h : a.Sendable) : a.text ≠ [] := by
  intro he
  rw [text_eq] at he
  exact h.hostful (List.append_eq_nil_iff.1 (List.append_eq_nil_iff.1 he).2).1

/-- The url of a target, part by part. -/
theorem Parts.OfTarget.text_eq {p : Parts} {a : Authority} (h : p.OfTarget a) :
    p.text = p.scheme ++ CodePoint.ofChar ':' :: CodePoint.ofChar '/' :: CodePoint.ofChar '/' ::
      (a.text ++ (p.path ++ (Text.when (!p.query.isEmpty) ("?" ++ p.query) ++
        Text.when (!p.fragment.isEmpty) ("#" ++ p.fragment)))) := by
  obtain ⟨scheme, authority, path, query, fragment⟩ := p
  obtain ⟨⟨c, s, rfl, -⟩, hsend, rfl, hpath⟩ := h
  have hne : a.text.isEmpty = false := by
    cases ht : a.text with
    | nil => exact absurd ht hsend.text_ne_nil
    | cons => rfl
  unfold Parts.text
  simp [hne, hpath, Text.when, Text.ofString]

/-- Behind the authority of a target comes a slash. -/
theorem Parts.OfTarget.path_eq {p : Parts} {a : Authority} (h : p.OfTarget a) :
    ∃ path, p.path = CodePoint.ofChar '/' :: path := by
  have hpath := h.path
  cases hp : p.path with
  | nil => rw [hp] at hpath; cases hpath
  | cons c path =>
    rw [hp] at hpath
    obtain rfl := Option.some.inj hpath
    exact ⟨path, rfl⟩

/-! ## Taking it apart -/

/-- Nothing is dropped from a text without blanks and controls. -/
theorem dropped_eq {t : Text} (h : ∀ c ∈ t, 0x20 < c.val) :
    ((t.dropWhile fun c => c.val ≤ 0x20).filter fun c => !isIgnored c) = t := by
  have hdrop : t.dropWhile (fun c => c.val ≤ 0x20) = t := by
    cases t with
    | nil => rfl
    | cons c t =>
      have := h c List.mem_cons_self
      rw [List.dropWhile_cons, if_neg (by simpa using this)]
  rw [hdrop, List.filter_eq_self]
  intro c hc
  have := h c hc
  simp only [isIgnored, Bool.not_eq_true', Bool.or_eq_false_iff, decide_eq_false_iff_not]
  omega

/-- The authority of a url that begins as one of a target. -/
theorem authority_of_split {scheme authority rest : Text} {p : Parts} (hs : IsScheme scheme)
    (ha : ∀ c ∈ authority, endsAuthority c = false)
    (hall : ∀ c ∈ scheme ++ CodePoint.ofChar ':' :: CodePoint.ofChar '/' :: CodePoint.ofChar '/' ::
      (authority ++ CodePoint.ofChar '/' :: rest), 0x20 < c.val)
    (h : split (scheme ++ CodePoint.ofChar ':' :: CodePoint.ofChar '/' :: CodePoint.ofChar '/' ::
      (authority ++ CodePoint.ofChar '/' :: rest)) = .ok p) : p.authority = authority := by
  have hslashes : ∀ t : Text, (Text.ofString "//").isPrefixOf
      (CodePoint.ofChar '/' :: CodePoint.ofChar '/' :: t) = true := fun t => by
    simp [Text.ofString]
  have htake : (authority ++ CodePoint.ofChar '/' :: rest).takeWhile (fun c => !endsAuthority c) =
      authority := by
    rw [List.takeWhile_append_of_pos fun c hc => by rw [ha c hc]; rfl]
    exact List.append_nil _
  unfold split splitWith at h
  simp only [dropped_eq hall, hs.takeScheme, Option.getD_some, hslashes, if_true,
    List.drop_succ_cons, List.drop_zero, htake] at h
  obtain ⟨_, -, h⟩ := bind_eq_ok.1 h
  obtain ⟨_, -, h⟩ := bind_eq_ok.1 h
  obtain rfl := Except.ok.inj h
  rfl

/-- A target is put together from its parts and requoted. -/
theorem parts_of_target {t u : Text} (h : target t = .ok u) :
    ∃ scheme rest p, takeScheme t = some (scheme, rest) ∧ targetParts scheme rest = .ok p ∧
      Escape.requote p.text = .ok u := by
  unfold target at h
  split at h
  · rename_i scheme rest htake
    obtain ⟨p, hp, h⟩ := bind_eq_ok.1 h
    exact ⟨scheme, rest, p, htake, hp, mapError_eq_ok.1 h⟩
  · cases h

/-- **A target can be taken apart, down to its port**, if it can be taken apart at all. -/
theorem readable_of_target {t u : Text} {p : Parts} (ht : target t = .ok u) (hp : split u = .ok p) :
    Readable u := by
  obtain ⟨scheme, rest, parts, htake, hparts, ht⟩ := parts_of_target ht
  obtain ⟨a, hof⟩ := ofTarget_of_targetParts (isScheme_of_takeScheme htake) hparts
  obtain ⟨hr, hchars⟩ := Escape.requoted_of_requote ht
  obtain ⟨path, hpath⟩ := hof.path_eq
  rw [hof.text_eq, hpath, List.cons_append] at hr
  -- the marks in front of the authority and behind it are where they were
  obtain ⟨u₁, rfl, h₁⟩ := hr.split_of_urlChars (by decide) hof.scheme.urlChars
  obtain ⟨u₂, rfl, h₂⟩ := Requoted.split_of_urlChars (x := []) (by decide) (by simp) h₁
  obtain ⟨u₃, rfl, h₃⟩ := Requoted.split_of_urlChars (x := []) (by decide) (by simp) h₂
  obtain ⟨authority, rest', rfl, ha, -⟩ := h₃.split (by decide)
  have hends : ∀ c ∈ authority, endsAuthority c = false := by
    have hno : ∀ m ∈ Text.ofString "/?#", isMark m = true := by decide
    intro c hc
    refine Bool.eq_false_iff.2 fun hend => ?_
    have hm : c ∈ Text.ofString "/?#" := by
      simp only [endsAuthority, Bool.or_eq_true, beq_iff_eq] at hend
      rcases hend with (rfl | rfl) | rfl <;> decide
    exact ha.not_mem (hno c hm) (hof.sendable.not_mem hm) hc
  have hauthority := authority_of_split hof.scheme hends (fun c hc => ?_) hp
  · obtain ⟨port, hport⟩ := hof.sendable.port_of_requoted (p := p) (hauthority ▸ ha)
    exact ⟨p, port, hp, hport⟩
  · rcases hchars c hc with hc | ⟨b, hb⟩
    · exact (Escape.within_of_urlChar hc).1
    · have hdigits : ∀ n < 16, 0x20 < (Escape.upperDigit n).val := by decide
      exact Escape.forall_mem_ofByte (p := fun c => 0x20 < c.val) (by decide) hdigits hb

end RemoteTree.Url

namespace RemoteTree

/-- A request that the client makes is sent to the target of the url, which can be taken apart. -/
theorem Request.target_of_prepare {m : Method} {url : Text} {settings : List (Text × Value)}
    {payload : Body} {r : Request} (h : prepare m url settings payload = .ok r) :
    Url.target url = .ok r.url ∧ ∃ parts, Url.split r.url = .ok parts := by
  obtain ⟨target, parts, headers, ht, hp, -, rfl | ⟨s, rfl⟩⟩ := of_prepare h
  · exact ⟨ht, parts, hp⟩
  · exact ⟨ht, parts, hp⟩

/-- The url of a request that the client makes can be taken apart, down to its port. -/
theorem Request.readable_of_prepare {m : Method} {url : Text} {settings : List (Text × Value)}
    {payload : Body} {r : Request} (h : prepare m url settings payload = .ok r) : Url.Readable r.url := by
  obtain ⟨ht, parts, hp⟩ := target_of_prepare h
  exact Url.readable_of_target ht hp

end RemoteTree
