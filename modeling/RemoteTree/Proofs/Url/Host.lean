import RemoteTree.Proofs.Text.Lowercase
import RemoteTree.Proofs.Url.Requote
import RemoteTree.Url.Target

/-!
# The hosts of targets

A host that can be read comes out as a name in which no mark stands, or as an address in brackets.

* `not_mark_toLower`, `mem_of_mem_lowerAscii`: putting a text into lower case makes no mark.
* `IsHost`: the hosts of targets.
* `not_mark_of_hostName`, `not_mark_of_isNumeric`, `isHost_of_bracketed`: the three ways of writing one.
-/

namespace RemoteTree.Url

/-! ## Letters and digits are no marks -/

theorem not_mark_of_letterOrDigit {c : CodePoint} (h : c.isLetterOrDigit = true) : isMark c = false := by
  cases hm : isMark c with
  | false => rfl
  | true =>
    have := forall_mark (p := fun m => !m.isLetterOrDigit) hm (by decide)
    simp [h] at this

theorem not_mark_toLower {c : CodePoint} (h : isMark c = false) : isMark c.toLower = false := by
  rcases CodePoint.toLower_cases c with hc | hc
  · rwa [hc]
  · exact not_mark_of_letterOrDigit hc

theorem not_mark_toUpper {c : CodePoint} (h : isMark c = false) : isMark c.toUpper = false := by
  rcases CodePoint.toUpper_cases c with hc | hc
  · rwa [hc]
  · exact not_mark_of_letterOrDigit hc

/-- A mark in a text of lower case has been there before. -/
theorem mem_of_mem_lowerAscii {t : Text} {m : CodePoint} (hm : isMark m = true)
    (h : m ∈ Text.lowerAscii t) : m ∈ t := by
  obtain ⟨c, hc, rfl⟩ := List.mem_map.1 h
  rcases CodePoint.toLower_cases c with hl | hl
  · rwa [hl]
  · rw [not_mark_of_letterOrDigit hl] at hm
    cases hm

theorem letterOrDigit_of_hexDigit {c : CodePoint} (h : Address.isHexDigit c = true) :
    c.isLetterOrDigit = true := by
  simp only [Address.isHexDigit, CodePoint.isLetterOrDigit, CodePoint.isLetter, CodePoint.isUpper,
    CodePoint.isLower, CodePoint.isDigit, CodePoint.within, Bool.or_eq_true, Bool.and_eq_true,
    decide_eq_true_eq] at h ⊢
  omega

theorem not_mark_of_hexDigit {c : CodePoint} (h : Address.isHexDigit c = true) : isMark c = false :=
  not_mark_of_letterOrDigit (letterOrDigit_of_hexDigit h)

/-- What comes out for a part of a url may stand in it, or belongs to an escape. -/
theorem Escape.mem_component {allowed : CodePoint → Bool} {t : Text} {c : CodePoint}
    (h : c ∈ component allowed t) : allowed c = true ∨ ∃ b, c ∈ ofByte b := by
  unfold component at h
  rcases mem_encode h with h | h
  · rw [Bool.or_eq_true, Bool.and_eq_true, beq_iff_eq (a := c)] at h
    refine h.imp id fun ⟨_, hc⟩ => ?_
    rw [hc]
    exact ⟨0, List.mem_cons_self⟩
  · exact .inr h

/-! ## Hosts -/

/-- The hosts of targets: a name without marks, or something in brackets. -/
inductive IsHost : Text → Prop where
  | name {t : Text} (h : ∀ c ∈ t, isMark c = false) : IsHost t
  | bracketed {t : Text} (h : ∀ m ∈ Text.ofString "]@/?#", m ∉ t) : IsHost (CodePoint.ofChar '[' :: (t ++ [CodePoint.ofChar ']']))

/-- An escape in a host turns into an unreserved character, or stays one. -/
theorem hostEscape_cases {d e : CodePoint} {out : Text} (h : hostEscape d e = some out) :
    (∃ c : CodePoint, Escape.isUnreserved c = true ∧ out = [c.toLower]) ∨
      (Address.isHexDigit d = true ∧ Address.isHexDigit e = true ∧
        out = [CodePoint.ofChar '%', d.toUpper, e.toUpper]) := by
  unfold hostEscape at h
  obtain ⟨n, hn, h⟩ := Option.bind_eq_some_iff.1 h
  have hdigits : Address.isHexDigit d = true ∧ Address.isHexDigit e = true := by
    unfold escaped? at hn
    split at hn
    · cases hn
    · rename_i hd
      simpa using hd
  dsimp only at h
  split at h
  · cases h
  split at h
  · rename_i hu
    exact .inl ⟨_, hu, (Option.some.inj h).symm⟩
  · exact .inr ⟨hdigits.1, hdigits.2, (Option.some.inj h).symm⟩

theorem not_mark_of_hostEscape {d e : CodePoint} {out : Text} (h : hostEscape d e = some out) :
    ∀ c ∈ out, isMark c = false := by
  intro c hc
  rcases hostEscape_cases h with ⟨x, hu, rfl⟩ | ⟨hd, he, rfl⟩
  · rw [List.mem_singleton.1 hc]
    exact not_mark_toLower (Escape.not_mark_of_unreserved hu)
  · simp only [List.mem_cons, List.not_mem_nil, or_false] at hc
    rcases hc with rfl | rfl | rfl
    · decide
    · exact not_mark_toUpper (not_mark_of_hexDigit hd)
    · exact not_mark_toUpper (not_mark_of_hexDigit he)

theorem not_mark_of_hostName {t out : Text} (h : hostName t = some out) : ∀ c ∈ out, isMark c = false := by
  fun_induction hostName t generalizing out with
  | case1 =>
    obtain rfl := Option.some.inj h
    simp
  | case2 d e rest ih =>
    obtain ⟨first, hfirst, h⟩ := Option.bind_eq_some_iff.1 h
    obtain ⟨behind, hbehind, h⟩ := Option.bind_eq_some_iff.1 h
    obtain rfl := Option.some.inj h
    intro c hc
    rcases List.mem_append.1 hc with hc | hc
    · exact not_mark_of_hostEscape hfirst c hc
    · exact ih hbehind c hc
  | case3 | case5 => cases h
  | case4 c rest _ hs ih =>
    obtain ⟨behind, hbehind, rfl⟩ := Option.map_eq_some_iff.1 h
    intro x hx
    rcases List.mem_cons.1 hx with rfl | hx
    · refine not_mark_toLower ?_
      cases hm : isMark c with
      | false => rfl
      | true =>
        have := forall_mark (p := fun m => !standsInHost m) hm (by decide)
        simp [hs] at this
    · exact ih hbehind x hx

theorem letterOrDigit_of_isNumber {t : Text} (h : isNumber t = true) :
    ∀ c ∈ t, c.isLetterOrDigit = true := by
  have hdigits : ∀ {u : Text}, u.all CodePoint.isDigit = true → ∀ c ∈ u, c.isLetterOrDigit = true := by
    intro u hu c hc
    simp [CodePoint.isLetterOrDigit, List.all_eq_true.1 hu c hc]
  unfold isNumber at h
  split at h
  · rename_i a b digits
    split at h
    · rename_i hab
      rw [Bool.and_eq_true, decide_eq_true_eq, Bool.or_eq_true, decide_eq_true_eq,
        decide_eq_true_eq] at hab
      rw [Bool.and_eq_true] at h
      intro c hc
      rcases List.mem_cons.1 hc with rfl | hc
      · rw [hab.1]
        decide
      rcases List.mem_cons.1 hc with rfl | hc
      · rcases hab.2 with hb | hb <;> rw [hb] <;> decide
      · exact letterOrDigit_of_hexDigit (List.all_eq_true.1 h.2 c hc)
    · exact hdigits h
  · rw [Bool.and_eq_true] at h
    exact hdigits h.2

/-- A host of numbers has digits, letters and dots. -/
theorem of_isNumeric {t : Text} (h : isNumeric t = true) : ∀ c ∈ t, c = '.' ∨ c.isLetterOrDigit = true := by
  intro c hc
  unfold isNumeric at h
  rw [Bool.and_eq_true] at h
  rcases Text.mem_pieces (c := '.') hc with rfl | ⟨p, hp, hcp⟩
  · exact .inl rfl
  · exact .inr (letterOrDigit_of_isNumber (List.all_eq_true.1 h.2 p hp) c hcp)

theorem not_mark_of_isNumeric {t : Text} (h : isNumeric t = true) : ∀ c ∈ t, isMark c = false := by
  intro c hc
  rcases of_isNumeric h c hc with rfl | hl
  · decide
  · exact not_mark_of_letterOrDigit hl

/-- What ends a host or the authority does not stand in a written address if it did not stand in it before. -/
theorem isHost_of_bracketed {t host : Text} (h : bracketed t = some host)
    (ht : ∀ m ∈ Text.ofString "]@/?#", m ∉ t) : IsHost host := by
  have hmark : ∀ m ∈ Text.ofString "]@/?#", isMark m = true := by decide
  unfold bracketed at h
  split at h
  · rename_i address hcut
    split at h
    · obtain rfl := Option.some.inj h
      refine .bracketed fun m hm hmem => ht m hm ?_
      have := mem_of_mem_lowerAscii (hmark m hm) hmem
      exact Text.mem_of_mem_cut (m := '%') (by rwa [hcut])
    · cases h
  · rename_i address zone hcut
    split at h
    · obtain rfl := Option.some.inj h
      have hshape : (("[" : Text) ++ Text.lowerAscii address ++ "%" ++
          Escape.component Escape.isUnreserved (bareZone zone) ++ "]" : Text) =
          CodePoint.ofChar '[' :: ((Text.lowerAscii address ++ "%" ++
            Escape.component Escape.isUnreserved (bareZone zone)) ++ [CodePoint.ofChar ']']) := rfl
      rw [hshape]
      refine .bracketed fun m hm hmem => ?_
      rw [List.mem_append, List.mem_append] at hmem
      rcases hmem with (hmem | hmem) | hmem
      · have := mem_of_mem_lowerAscii (hmark m hm) hmem
        exact ht m hm (Text.mem_of_mem_cut (m := '%') (by rwa [hcut]))
      · rw [List.mem_singleton.1 hmem] at hm
        revert hm
        decide
      · have hnot : isMark m = false := by
          rcases Escape.mem_component hmem with hu | ⟨b, hb⟩
          · exact Escape.not_mark_of_unreserved hu
          · exact Escape.not_mark_of_mem_ofByte hb
        rw [hmark m hm] at hnot
        cases hnot
    · cases h

end RemoteTree.Url
