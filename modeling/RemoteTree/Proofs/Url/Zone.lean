import RemoteTree.Proofs.Url.Authority
import RemoteTree.Proofs.Url.Escape

/-!
# Zones that look like escapes

The address of a host may name a zone, behind a percent sign. To who undoes escapes the sign and the first two
characters of the zone look like an escape, and if they are letters or digits, but not both to base 16, then
no escape of the url is undone at all.

* `isMisleading`: the zones that stop escapes from being undone.
* `Url.misleads`: the urls with such a zone.
* `isNone_unescape_zone`, `isNone_unescape_host`: **the escapes of a host cannot be undone exactly if it has
  such a zone.**
-/

namespace RemoteTree.Url

/-- Whether a zone begins with two letters or digits that are not both to base 16. -/
def isMisleading : Text → Bool
  | a :: b :: _ =>
    a.isLetterOrDigit && b.isLetterOrDigit && !(Address.isHexDigit a && Address.isHexDigit b)
  | _ => false

/-- The zone of an address in brackets. -/
def zone? : Text → Option Text
  | [] => none
  | c :: inside => if c = '[' then ((Text.cut ']' inside).1.cut '%').2.map bareZone else none

/-- Whether the host of a url, as it is read, is an address with a zone that begins with two letters or digits
that are not both to base 16. -/
def misleads (t : Text) : Bool :=
  match takeScheme t with
  | none => false
  | some (_, rest) =>
    let authority : Text := (rest.drop 2).takeWhile fun c => !endsTarget c
    ((zone? (authority.cutLast '@').2).map isMisleading).getD false

namespace Escape

theorem isAlphanumeric_of_unreserved {c : CodePoint} (h : isUnreserved c = true) :
    c.isAlphanumeric = c.isLetterOrDigit :=
  if_pos (show c.isAscii = true from decide_eq_true (lt_of_unreserved h))

/-- A letter or digit is one to base 16 if it has a value as such. -/
theorem isNone_digitValue {c : CodePoint} (h : isUnreserved c = true) :
    (digitValue? c).isNone = !Address.isHexDigit c := by
  have hsmall : ∀ n < 0x80, (digitValue? (CodePoint.ofNat n)).isNone = !Address.isHexDigit (CodePoint.ofNat n) := by
    decide +kernel
  have hc := hsmall c.val (lt_of_unreserved h)
  rwa [CodePoint.ofNat_val] at hc

/-- What is kept in front of a part stays in front of it. -/
theorem component_cons {allowed : CodePoint → Bool} {c : CodePoint} (hsign : c ≠ '%') (hlt : c.val < 0x80)
    (hc : allowed c = true) (t : Text) : component allowed (c :: t) = c :: component allowed t := by
  unfold component
  rw [upperEscapes_cons hsign]
  exact encode_kept hlt (by simp [hc]) _

/-- A part that begins with a percent sign comes out as one. -/
theorem component_sign (allowed : CodePoint → Bool) (t : Text) :
    ∃ u, component allowed (CodePoint.ofChar '%' :: t) = CodePoint.ofChar '%' :: u := by
  have hencode : ∀ (kept : CodePoint → Bool) (u : Text), ∃ v,
      encode kept (Utf8.unitsOf (CodePoint.ofChar '%' :: u)) = CodePoint.ofChar '%' :: v := by
    intro kept u
    cases hk : kept '%' with
    | true => exact ⟨_, encode_kept (by decide) hk u⟩
    | false =>
      have hunits : Utf8.units '%' = [0x25] := by decide
      have hnot : ((CodePoint.ofNat (UInt8.toNat 0x25)).isAscii && kept (CodePoint.ofNat (UInt8.toNat 0x25))) =
          false := by
        rw [show CodePoint.ofNat (UInt8.toNat 0x25) = '%' by decide, hk, Bool.and_false]
      rw [unitsOf_cons, hunits, encode_append, encode_cons, hnot]
      exact ⟨_, rfl⟩
  unfold component
  cases hb : beginsHex t with
  | false =>
    rw [upperEscapes_sign hb]
    exact hencode _ _
  | true =>
    match t, hb with
    | d :: e :: t, hb =>
      obtain ⟨hd, he⟩ : Address.isHexDigit d = true ∧ Address.isHexDigit e = true := by
        simpa [beginsHex] using hb
      rw [upperEscapes_escape hd he]
      exact hencode _ _

/-- Undoing escapes behind a text without percent signs. -/
theorem unescape_append_of_not_mem {x : Text} (h : CodePoint.ofChar '%' ∉ x) (y : Text) :
    unescapeUnreserved (x ++ y) = (unescapeUnreserved y).map (x ++ ·) := by
  induction x with
  | nil => cases hy : unescapeUnreserved y <;> simp [hy]
  | cons c x ih =>
    rw [List.mem_cons, not_or] at h
    rw [List.cons_append, unescape_cons (Ne.symm h.1), ih h.2]
    cases unescapeUnreserved y <;> rfl

theorem isNone_unescape_append {m : CodePoint} (hm : isMark m = true) (x y : Text) :
    (unescapeUnreserved (x ++ m :: y)).isNone =
      ((unescapeUnreserved x).isNone || (unescapeUnreserved y).isNone) := by
  rw [unescape_append hm]
  cases unescapeUnreserved x <;> cases unescapeUnreserved y <;> rfl

theorem Escaped.isNone_unescape {t : Text} (h : Escaped t) : (unescapeUnreserved t).isNone = false := by
  obtain ⟨u, hu⟩ := h.unescape
  rw [hu]
  rfl

/-- **The percent sign in front of a zone** keeps escapes from being undone exactly if the zone is
misleading. -/
theorem isNone_unescape_zone {z : Text} (hz : ∀ c ∈ z, c = '%' ∨ isUnreserved c = true) :
    (unescapeUnreserved (CodePoint.ofChar '%' :: component isUnreserved z)).isNone = isMisleading z := by
  have hescaped : ∀ z : Text, Escaped (component isUnreserved z) :=
    escaped_component (by decide) fun _ hc => hc
  have hsign : (CodePoint.ofChar '%').isAlphanumeric = false := by decide
  have hsignLetter : (CodePoint.ofChar '%').isLetterOrDigit = false := by decide
  have hcons : ∀ {c : CodePoint} (_ : isUnreserved c = true) (t : Text),
      component isUnreserved (c :: t) = c :: component isUnreserved t := fun {c} hc t =>
    component_cons (fun he => absurd (he ▸ hc) (by decide)) (lt_of_unreserved hc) hc t
  -- what does not look like an escape is kept
  have hkept : ∀ z : Text, looksEscaped (component isUnreserved z) = false →
      (unescapeUnreserved (CodePoint.ofChar '%' :: component isUnreserved z)).isNone = false := by
    intro z hl
    rw [unescape_sign hl, Option.isNone_map]
    exact (hescaped z).isNone_unescape
  match z with
  | [] => exact hkept [] rfl
  | [a] =>
    refine hkept [a] ?_
    rcases hz a List.mem_cons_self with rfl | ha
    · obtain ⟨u, hu⟩ := component_sign isUnreserved []
      rw [hu]
      cases u <;> simp [looksEscaped, hsign]
    · rw [hcons ha]
      rfl
  | a :: b :: r =>
    -- a percent sign of the zone is none of the two characters of an escape
    rcases hz a List.mem_cons_self with rfl | ha
    · obtain ⟨u, hu⟩ := component_sign isUnreserved (b :: r)
      rw [hkept _ (by rw [hu]; cases u <;> simp [looksEscaped, hsign])]
      simp [isMisleading, hsignLetter]
    rcases hz b (List.mem_cons_of_mem _ List.mem_cons_self) with rfl | hb
    · obtain ⟨u, hu⟩ := component_sign isUnreserved r
      rw [hkept _ (by rw [hcons ha, hu]; simp [looksEscaped, hsign])]
      simp [isMisleading, hsignLetter]
    have hlooks : looksEscaped (component isUnreserved (a :: b :: r)) =
        (a.isLetterOrDigit && b.isLetterOrDigit) := by
      rw [hcons ha, hcons hb, looksEscaped, isAlphanumeric_of_unreserved ha, isAlphanumeric_of_unreserved hb]
    cases hab : a.isLetterOrDigit && b.isLetterOrDigit with
    | false => rw [hkept _ (hlooks.trans hab), isMisleading, hab, Bool.false_and]
    | true =>
      obtain ⟨hla, hlb⟩ := (Bool.and_eq_true _ _).mp hab
      rw [hcons ha, hcons hb, unescape_escape ((isAlphanumeric_of_unreserved ha).trans hla)
        ((isAlphanumeric_of_unreserved hb).trans hlb), isMisleading, hab, Bool.true_and]
      have hda := isNone_digitValue ha
      have hdb := isNone_digitValue hb
      have hr := (hescaped r).isNone_unescape
      cases hva : digitValue? a <;> cases hvb : digitValue? b <;> simp_all

end Escape

/-! ## Hosts -/

theorem ne_sign_toLower {c : CodePoint} (h : c ≠ '%') : c.toLower ≠ '%' := by
  rcases CodePoint.toLower_cases c with hc | hc
  · rwa [hc]
  · intro he
    rw [he] at hc
    exact absurd hc (by decide)

theorem ne_sign_of_unreserved {c : CodePoint} (h : Escape.isUnreserved c = true) : c ≠ '%' := by
  rintro rfl
  exact absurd h (by decide)

theorem escaped_hostEscape {d e : CodePoint} {out : Text} (h : hostEscape d e = some out) :
    Escape.Escaped out := by
  rcases hostEscape_cases h with ⟨c, hu, rfl⟩ | ⟨hd, he, rfl⟩
  · exact .char (ne_sign_toLower (ne_sign_of_unreserved hu)) .nil
  · exact .escape (Escape.isHexDigit_toUpper hd) (Escape.isHexDigit_toUpper he) .nil

theorem escaped_hostName {t out : Text} (h : hostName t = some out) : Escape.Escaped out := by
  fun_induction hostName t generalizing out with
  | case1 =>
    obtain rfl := Option.some.inj h
    exact .nil
  | case2 d e rest ih =>
    obtain ⟨first, hfirst, h⟩ := Option.bind_eq_some_iff.1 h
    obtain ⟨behind, hbehind, h⟩ := Option.bind_eq_some_iff.1 h
    obtain rfl := Option.some.inj h
    exact (escaped_hostEscape hfirst).append (ih hbehind)
  | case3 | case5 => cases h
  | case4 c rest hc _ ih =>
    obtain ⟨behind, hbehind, rfl⟩ := Option.map_eq_some_iff.1 h
    exact .char (ne_sign_toLower hc) (ih hbehind)

theorem escaped_of_isNumeric {t : Text} (h : isNumeric t = true) : Escape.Escaped t := by
  refine .of_not_mem fun hmem => ?_
  rcases of_isNumeric h _ hmem with he | hl
  · exact absurd he (by decide)
  · exact absurd hl (by decide)

theorem isZone_chars {z : Text} (h : isZone z = true) : ∀ c ∈ z, c = '%' ∨ Escape.isUnreserved c = true := by
  unfold isZone at h
  rw [Bool.and_eq_true, Bool.and_eq_true] at h
  intro c hc
  simpa using List.all_eq_true.1 h.2 c hc

/-- An address in brackets, with or without a zone. -/
theorem isNone_unescape_bracketed {t host : Text} (h : bracketed t = some host) :
    (Escape.unescapeUnreserved host).isNone = (((t.cut '%').2.map bareZone).map isMisleading).getD false := by
  have haddress : CodePoint.ofChar '%' ∉ Text.lowerAscii (t.cut '%').1 := by
    intro hmem
    obtain ⟨c, hc, he⟩ := List.mem_map.1 hmem
    have hne : c ≠ '%' := fun heq => Text.not_mem_cut '%' t (heq ▸ hc)
    exact ne_sign_toLower hne he
  unfold bracketed at h
  split at h
  · rename_i address hcut
    rw [hcut] at haddress
    split at h
    · obtain rfl := Option.some.inj h
      rw [hcut]
      have hescaped : Escape.Escaped ("[" ++ Text.lowerAscii address ++ "]" : Text) := by
        refine .of_not_mem fun hmem => ?_
        rcases List.mem_append.1 hmem with hmem | hmem
        · rcases List.mem_append.1 hmem with hmem | hmem
          · exact absurd hmem (by decide)
          · exact haddress hmem
        · exact absurd hmem (by decide)
      exact hescaped.isNone_unescape
    · cases h
  · rename_i address zone hcut
    rw [hcut] at haddress
    split at h
    · rename_i hzone
      rw [Bool.and_eq_true] at hzone
      obtain rfl := Option.some.inj h
      -- there is no percent sign in front of that of the zone, and a mark behind the zone
      have hshape : ("[" ++ Text.lowerAscii address ++ "%" ++
          Escape.component Escape.isUnreserved (bareZone zone) ++ "]" : Text) =
          (CodePoint.ofChar '[' :: (Text.lowerAscii address ++ CodePoint.ofChar '%' ::
            Escape.component Escape.isUnreserved (bareZone zone))) ++ CodePoint.ofChar ']' :: [] := by
        simp [Text.ofString]
      rw [hshape, Escape.isNone_unescape_append (by decide), Escape.unescape_cons (by decide),
        Option.isNone_map, Escape.unescape_append_of_not_mem haddress, Option.isNone_map,
        Escape.isNone_unescape_zone (isZone_chars hzone.2), hcut]
      exact Bool.or_false _
    · cases h

/-- **The escapes of a host cannot be undone** exactly if it is an address with a misleading zone. -/
theorem isNone_unescape_host {t host : Text} {port : Option Nat} (h : readHost t = some (host, port)) :
    (Escape.unescapeUnreserved host).isNone = ((zone? t).map isMisleading).getD false := by
  unfold readHost at h
  split at h
  · obtain ⟨rfl, rfl⟩ := Prod.mk.inj (Option.some.inj h)
    rfl
  rename_i c inside
  split at h
  · rename_i hc
    subst hc
    rcases hcut : Text.cut ']' inside with ⟨address, after⟩
    rw [hcut] at h
    obtain ⟨found, hfound, h⟩ := Option.bind_eq_some_iff.1 h
    obtain ⟨behind, -, h⟩ := Option.bind_eq_some_iff.1 h
    have hhost : found = host := by
      split at h
      · exact (Prod.mk.inj (Option.some.inj h)).1
      · split at h
        · obtain ⟨p, -, h⟩ := Option.bind_eq_some_iff.1 h
          exact (Prod.mk.inj (Option.some.inj h)).1
        · cases h
    subst hhost
    rw [isNone_unescape_bracketed hfound, zone?, if_pos rfl, hcut]
  · rename_i hc
    rcases hcut : Text.cut ':' (c :: inside) with ⟨name, after⟩
    rw [hcut] at h
    obtain ⟨p, -, h⟩ := Option.bind_eq_some_iff.1 h
    rw [zone?, if_neg hc]
    dsimp only at h
    split at h
    · rename_i hnumeric
      obtain ⟨rfl, rfl⟩ := Prod.mk.inj (Option.some.inj h)
      exact (escaped_of_isNumeric hnumeric).isNone_unescape
    · obtain ⟨found, hfound, h⟩ := Option.bind_eq_some_iff.1 h
      obtain ⟨rfl, rfl⟩ := Prod.mk.inj (Option.some.inj h)
      exact (escaped_hostName hfound).isNone_unescape

/-- The escapes of an authority cannot be undone exactly if those of its host cannot. -/
theorem isNone_unescape_authority {t : Text} {a : Authority} (h : readAuthority t = .ok a) :
    (Escape.unescapeUnreserved a.text).isNone = ((zone? (t.cutLast '@').2).map isMisleading).getD false := by
  unfold readAuthority at h
  dsimp only at h
  split at h
  · cases h
  rename_i host port hread
  split at h
  · cases h
  split at h
  · cases h
  obtain rfl := Except.ok.inj h
  rw [← isNone_unescape_host hread, Authority.text_eq]
  generalize ha : (⟨_, host, port⟩ : Authority) = a
  have hhost : a.host = host := by rw [← ha]
  have huser : Escape.Escaped a.user := by
    rw [← ha]
    refine Escape.escaped_component (by decide) (fun c hc => ?_) _
    simp [Escape.allowedInUser, hc]
  -- the port has no percent signs
  have hbehind : (Escape.unescapeUnreserved (a.host ++ a.behind)).isNone =
      (Escape.unescapeUnreserved host).isNone := by
    rw [hhost]
    unfold Authority.behind Text.when
    split
    · split
      · rename_i n _ _
        have hdigits : CodePoint.ofChar '%' ∉ Text.ofNat n := fun hmem =>
          absurd (Text.isDigit_of_mem_ofNat hmem) (by decide)
        refine (Escape.isNone_unescape_append (m := ':') (by decide) host (Text.ofNat n)).trans ?_
        rw [(Escape.Escaped.of_not_mem hdigits).isNone_unescape, Bool.or_false]
      · rw [List.append_nil]
    · rw [List.append_nil]
  unfold Text.when
  split
  · rw [List.append_assoc]
    refine (Escape.isNone_unescape_append (m := '@') (by decide) a.user (a.host ++ a.behind)).trans ?_
    rw [huser.isNone_unescape, Bool.false_or, hbehind]
  · rw [List.nil_append, hbehind]

end RemoteTree.Url
