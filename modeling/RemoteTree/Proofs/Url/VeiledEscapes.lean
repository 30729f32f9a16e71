import RemoteTree.Proofs.Url.Veiled

/-!
# Escapes in veiled texts

Making and undoing escapes leaves the marks of a url and the escapes of a secret whole, so that veiled texts stay
veiled. Whether the percent signs of a text begin escapes is the same for both, for those of a secret always do.

* `Veiled.digits_induction`: veiled texts from left to right, where an escape is taken at once.
* `Veiled.component`, `Veiled.requote`: **escapes are made and undone alike in both.**
-/

namespace RemoteTree.Url

/-- Whether a text begins with two of certain characters. -/
def begins (digit : CodePoint → Bool) : Text → Bool
  | d :: e :: _ => digit d && digit e
  | _ => false

theorem begins_isHexDigit (t : Text) : Escape.beginsHex t = begins Address.isHexDigit t := by
  match t with
  | [] | [_] => rfl
  | _ :: _ :: _ => rfl

theorem begins_isAlphanumeric (t : Text) : Escape.looksEscaped t = begins CodePoint.isAlphanumeric t := by
  match t with
  | [] | [_] => rfl
  | _ :: _ :: _ => rfl

namespace IsSecret

variable {x : Text}

/-- The letters of the escapes of a secret come out in upper case, whatever stands behind it. -/
theorem upperEscapes (h : IsSecret x) : ∃ x' k, IsSecret x' ∧ ∀ t, Escape.upperEscapes (x ++ t) =
    (x' ++ (Escape.upperEscapes t).1, k + (Escape.upperEscapes t).2.1, k + (Escape.upperEscapes t).2.2) := by
  induction h with
  | nil => exact ⟨[], 0, nil, fun t => by simp⟩
  | @char c x hsecret hc _ ih =>
    obtain ⟨x', k, hx', hall⟩ := ih
    refine ⟨c :: x', k, IsSecret.char hsecret hc hx', fun t => ?_⟩
    rw [List.cons_append, Escape.upperEscapes_cons hc, hall]
    rfl
  | @escape d e x hd he _ ih =>
    obtain ⟨x', k, hx', hall⟩ := ih
    refine ⟨_, k + 1, .escape (Escape.isHexDigit_toUpper hd) (Escape.isHexDigit_toUpper he) hx', fun t => ?_⟩
    rw [List.cons_append, List.cons_append, List.cons_append, Escape.upperEscapes_escape hd he, hall]
    simp only [List.cons_append, Nat.add_right_comm]

/-- The escapes of a secret can be undone, whatever stands behind it. -/
theorem unescape (h : IsSecret x) : ∃ x', IsSecret x' ∧ ∀ t, Escape.unescapeUnreserved (x ++ t) =
    (Escape.unescapeUnreserved t).map (x' ++ ·) := by
  induction h with
  | nil => exact ⟨[], nil, fun t => by simp⟩
  | @char c x hsecret hc _ ih =>
    obtain ⟨x', hx', hall⟩ := ih
    refine ⟨c :: x', IsSecret.char hsecret hc hx', fun t => ?_⟩
    rw [List.cons_append, Escape.unescape_cons hc, hall, Option.map_map]
    rfl
  | @escape d e x hd he _ ih =>
    obtain ⟨x', hx', hall⟩ := ih
    obtain ⟨had, m, hm⟩ := Escape.digit_of_isHexDigit hd
    obtain ⟨hae, n, hn⟩ := Escape.digit_of_isHexDigit he
    have hescape : ∀ t, Escape.unescapeUnreserved (CodePoint.ofChar '%' :: d :: e :: x ++ t) =
        (Escape.unescapeUnreserved t).map fun u =>
          if Escape.isUnreserved (CodePoint.ofNat (m * 16 + n)) then CodePoint.ofNat (m * 16 + n) :: (x' ++ u)
          else CodePoint.ofChar '%' :: d :: e :: (x' ++ u) := by
      intro t
      rw [List.cons_append, List.cons_append, List.cons_append, Escape.unescape_escape had hae, hm, hn, hall]
      cases Escape.unescapeUnreserved t <;> rfl
    by_cases hun : Escape.isUnreserved (CodePoint.ofNat (m * 16 + n)) = true
    · exact ⟨_, hx'.unreserved hun, fun t => (hescape t).trans (by simp only [hun, if_true]; rfl)⟩
    · exact ⟨_, .escape hd he hx', fun t => (hescape t).trans (by simp only [hun]; rfl)⟩

/-- A secret is written as one, with its percent signs as they are or with an escape for each. -/
theorem encode {kept : CodePoint → Bool} (hkept : ∀ c, isSecretChar c = true → c ≠ '%' → kept c = true)
    (h : IsSecret x) : IsSecret (Escape.encode kept (Utf8.unitsOf x)) := by
  have hdigit : ∀ {c : CodePoint}, Address.isHexDigit c = true → c.val < 0x80 ∧ kept c = true := fun hc =>
    have hun := Escape.isUnreserved_of_isHexDigit hc
    ⟨Escape.lt_of_unreserved hun, hkept _ (isSecretChar_of_hexDigit hc) (ne_sign_of_unreserved hun)⟩
  induction h with
  | nil => exact nil
  | @char c x hsecret hc _ ih =>
    rw [Escape.encode_kept (of_isSecretChar hsecret).1 (hkept c hsecret hc)]
    exact .char hsecret hc ih
  | @escape d e x hd he _ ih =>
    have hrest : Escape.encode kept (Utf8.unitsOf (d :: e :: x)) = d :: e :: Escape.encode kept (Utf8.unitsOf x) := by
      rw [Escape.encode_kept (hdigit hd).1 (hdigit hd).2, Escape.encode_kept (hdigit he).1 (hdigit he).2]
    cases hsign : kept '%' with
    | true =>
      rw [Escape.encode_kept (by decide) hsign, hrest]
      exact .escape hd he ih
    | false =>
      have hunits : Escape.encode kept (Utf8.units '%') = Escape.ofByte 0x25 := by
        rw [show Utf8.units '%' = [0x25] by decide, Escape.encode_cons,
          show CodePoint.ofNat (UInt8.toNat 0x25) = CodePoint.ofChar '%' by decide, hsign]
        simp [Escape.encode]
      rw [Escape.unitsOf_cons, Escape.encode_append, hunits, hrest,
        show Escape.ofByte 0x25 = [CodePoint.ofChar '%', CodePoint.ofChar '2', CodePoint.ofChar '5'] by decide]
      exact .escape (by decide) (by decide) ((ih.unreserved (Escape.isUnreserved_of_isHexDigit he)).unreserved
        (Escape.isUnreserved_of_isHexDigit hd))

end IsSecret

namespace Veiled

variable {b : Bool} {t u : Text}

/-- Induction over veiled texts from left to right, where two digits behind a percent sign are taken at once. What
counts as a digit is none of the marks. -/
theorem digits_induction {digit : CodePoint → Bool} (hdigit : ∀ c, digit c = true → c ≠ '=' ∧ c ≠ '?' ∧ c ≠ '#')
    {motive : Bool → Text → Text → Prop} (nil : ∀ b, motive b [] [])
    (secret : ∀ x y t u, IsSecret x → IsSecret y → motive true t u →
      motive true (CodePoint.ofChar '=' :: (x ++ t)) (CodePoint.ofChar '=' :: (y ++ u)))
    (char : ∀ b (c : CodePoint) t u, c ≠ '%' → motive (behind b c) t u → motive b (c :: t) (c :: u))
    (sign : ∀ b t u, begins digit t = false → begins digit u = false → motive b t u →
      motive b (CodePoint.ofChar '%' :: t) (CodePoint.ofChar '%' :: u))
    (escape : ∀ b d e t u, digit d = true → digit e = true → motive b t u →
      motive b (CodePoint.ofChar '%' :: d :: e :: t) (CodePoint.ofChar '%' :: d :: e :: u))
    (h : Veiled b t u) : motive b t u := by
  induction hn : t.length using Nat.strongRecOn generalizing b t u with
  | ind n ih =>
    cases h with
    | nil => exact nil b
    | @secret x y t u hx hy h =>
      exact secret x y t u hx hy (ih t.length (by rw [← hn, List.length_cons, List.length_append]; omega) h rfl)
    | @char _ c t u h =>
      have hrest := ih t.length (by rw [← hn]; exact Nat.lt_succ_self _) h rfl
      by_cases hc : c = '%'
      · subst hc
        have hbehind : behind b '%' = b := behind_eq (by decide) (by decide)
        rw [hbehind] at h hrest
        -- both texts begin alike behind the sign, or there is no digit where a secret begins
        cases h with
        | nil => exact sign b [] [] rfl rfl hrest
        | @secret x y t u hx hy h =>
          have hnot : ∀ t, begins digit (CodePoint.ofChar '=' :: t) = false := fun t => by
            have hd : digit '=' = false := Bool.eq_false_iff.2 fun he => (hdigit _ he).1 rfl
            cases t <;> simp [begins, hd]
          exact sign _ _ _ (hnot _) (hnot _) hrest
        | @char _ d t u h =>
          generalize hb : behind b d = b' at h
          cases h with
          | nil => exact sign _ _ _ rfl rfl hrest
          | @secret x y t u hx hy h =>
            have hnot : ∀ t, begins digit (d :: CodePoint.ofChar '=' :: t) = false := fun t => by
              have he : digit '=' = false := Bool.eq_false_iff.2 fun he => (hdigit _ he).1 rfl
              simp [begins, he]
            exact sign _ _ _ (hnot _) (hnot _) hrest
          | @char _ e t u h =>
            cases hde : digit d && digit e with
            | false => exact sign _ _ _ hde hde hrest
            | true =>
              rw [Bool.and_eq_true] at hde
              obtain ⟨-, hq, hn'⟩ := hdigit d hde.1
              obtain ⟨-, hq', hn''⟩ := hdigit e hde.2
              rw [← hb, behind_eq hq hn', behind_eq hq' hn''] at h
              exact escape b d e t u hde.1 hde.2 (ih t.length (by simp only [List.length_cons] at hn; omega) h rfl)
      · exact char b c t u hc hrest

/-- The escapes of both come out in upper case, and both have as many percent signs more than escapes. -/
theorem upperEscapes (h : Veiled b t u) : Veiled b (Escape.upperEscapes t).1 (Escape.upperEscapes u).1 ∧
    (Escape.upperEscapes t).2.1 + (Escape.upperEscapes u).2.2 =
      (Escape.upperEscapes u).2.1 + (Escape.upperEscapes t).2.2 := by
  have hdigit : ∀ c, Address.isHexDigit c = true → c ≠ '=' ∧ c ≠ '?' ∧ c ≠ '#' := fun c hc =>
    (of_isSecretChar (isSecretChar_of_hexDigit hc)).2.2
  refine digits_induction hdigit (motive := fun b t u =>
    Veiled b (Escape.upperEscapes t).1 (Escape.upperEscapes u).1 ∧
      (Escape.upperEscapes t).2.1 + (Escape.upperEscapes u).2.2 =
        (Escape.upperEscapes u).2.1 + (Escape.upperEscapes t).2.2) ?nil ?secret ?char ?sign ?escape h
  case nil => exact fun b => ⟨.nil, rfl⟩
  case secret =>
    intro x y t u hx hy ih
    obtain ⟨x', k, hx', hallx⟩ := hx.upperEscapes
    obtain ⟨y', l, hy', hally⟩ := hy.upperEscapes
    rw [Escape.upperEscapes_cons (by decide), Escape.upperEscapes_cons (by decide), hallx, hally]
    refine ⟨.secret hx' hy' ih.1, ?_⟩
    have := ih.2
    dsimp only
    omega
  case char =>
    intro b c t u hc ih
    rw [Escape.upperEscapes_cons hc, Escape.upperEscapes_cons hc]
    exact ⟨.char c ih.1, ih.2⟩
  case sign =>
    intro b t u ht hu ih
    rw [← begins_isHexDigit] at ht hu
    rw [Escape.upperEscapes_sign ht, Escape.upperEscapes_sign hu]
    refine ⟨.char _ ?_, congrArg Nat.succ ih.2⟩
    rw [behind_eq (by decide) (by decide)]
    exact ih.1
  case escape =>
    intro b d e t u hd he ih
    rw [Escape.upperEscapes_escape hd he, Escape.upperEscapes_escape hd he]
    have hmarks : ∀ {c : CodePoint}, Address.isHexDigit c = true → c.toUpper ≠ '?' ∧ c.toUpper ≠ '#' := fun hc =>
      (hdigit _ (Escape.isHexDigit_toUpper hc)).2
    refine ⟨.prepend (x := [CodePoint.ofChar '%', d.toUpper, e.toUpper]) ?_ ih.1, ?_⟩
    · simp only [List.forall_mem_cons]
      exact ⟨by decide, hmarks hd, hmarks he, fun c hc => by cases hc⟩
    · have := ih.2
      dsimp only
      omega

/-- The escapes of both can be undone or those of none. -/
theorem unescape (h : Veiled b t u) :
    (Escape.unescapeUnreserved t = none ∧ Escape.unescapeUnreserved u = none) ∨
      ∃ t' u', Escape.unescapeUnreserved t = some t' ∧ Escape.unescapeUnreserved u = some u' ∧ Veiled b t' u' := by
  have hdigit : ∀ c, CodePoint.isAlphanumeric c = true → c ≠ '=' ∧ c ≠ '?' ∧ c ≠ '#' := by
    have hnot : ∀ m, CodePoint.isAlphanumeric m = false → ∀ c, CodePoint.isAlphanumeric c = true → c ≠ m := by
      intro m hm c hc he
      rw [he, hm] at hc
      cases hc
    exact fun c hc => ⟨hnot _ (by decide) c hc, hnot _ (by decide) c hc, hnot _ (by decide) c hc⟩
  refine digits_induction hdigit (motive := fun b t u =>
    (Escape.unescapeUnreserved t = none ∧ Escape.unescapeUnreserved u = none) ∨
      ∃ t' u', Escape.unescapeUnreserved t = some t' ∧ Escape.unescapeUnreserved u = some u' ∧ Veiled b t' u')
    ?nil ?secret ?char ?sign ?escape h
  case nil => exact fun b => .inr ⟨[], [], rfl, rfl, .nil⟩
  case secret =>
    intro x y t u hx hy ih
    obtain ⟨x', hx', hallx⟩ := hx.unescape
    obtain ⟨y', hy', hally⟩ := hy.unescape
    rw [Escape.unescape_cons (by decide), Escape.unescape_cons (by decide), hallx, hally]
    rcases ih with ⟨ht, hu⟩ | ⟨t', u', ht, hu, hv⟩
    · exact .inl ⟨by rw [ht]; rfl, by rw [hu]; rfl⟩
    · exact .inr ⟨_, _, by rw [ht]; rfl, by rw [hu]; rfl, .secret hx' hy' hv⟩
  case char =>
    intro b c t u hc ih
    rw [Escape.unescape_cons hc, Escape.unescape_cons hc]
    rcases ih with ⟨ht, hu⟩ | ⟨t', u', ht, hu, hv⟩
    · exact .inl ⟨by rw [ht]; rfl, by rw [hu]; rfl⟩
    · exact .inr ⟨_, _, by rw [ht]; rfl, by rw [hu]; rfl, .char c hv⟩
  case sign =>
    intro b t u hlt hlu ih
    rw [← begins_isAlphanumeric] at hlt hlu
    rw [Escape.unescape_sign hlt, Escape.unescape_sign hlu]
    rcases ih with ⟨ht, hu⟩ | ⟨t', u', ht, hu, hv⟩
    · exact .inl ⟨by rw [ht]; rfl, by rw [hu]; rfl⟩
    · refine .inr ⟨_, _, by rw [ht]; rfl, by rw [hu]; rfl, .char _ ?_⟩
      rw [behind_eq (by decide) (by decide)]
      exact hv
  case escape =>
    intro b d e t u hd he ih
    rw [Escape.unescape_escape hd he, Escape.unescape_escape hd he]
    cases Escape.digitValue? d with
    | none => exact .inl ⟨rfl, rfl⟩
    | some m =>
      cases Escape.digitValue? e with
      | none => exact .inl ⟨rfl, rfl⟩
      | some n =>
        dsimp only
        rcases ih with ⟨ht, hu⟩ | ⟨t', u', ht, hu, hv⟩
        · exact .inl ⟨by rw [ht]; rfl, by rw [hu]; rfl⟩
        refine .inr ⟨_, _, by rw [ht]; rfl, by rw [hu]; rfl, ?_⟩
        split
        · rename_i hun
          have hmarks := (of_isSecretChar (c := CodePoint.ofNat (m * 16 + n)) (by simp [isSecretChar, hun])).2.2.2
          exact .prepend (x := [CodePoint.ofNat (m * 16 + n)])
            (List.forall_mem_cons.2 ⟨hmarks, fun c hc => by cases hc⟩) hv
        · refine .prepend (x := [CodePoint.ofChar '%', d, e]) ?_ hv
          simp only [List.forall_mem_cons]
          exact ⟨by decide, (hdigit d hd).2, (hdigit e he).2, fun c hc => by cases hc⟩

/-- Characters of a text are written as they are, or with escapes, which are no marks. -/
theorem encode_units_cases (kept : CodePoint → Bool) (c : CodePoint) :
    (kept c = true ∧ Escape.encode kept (Utf8.units c) = [c]) ∨
      ((c.val < 0x80 → kept c = false) ∧ ∀ x ∈ Escape.encode kept (Utf8.units c), x ≠ '?' ∧ x ≠ '#') := by
  have hescape : ∀ {b : UInt8} {x : CodePoint}, x ∈ Escape.ofByte b → x ≠ '?' ∧ x ≠ '#' := fun hx =>
    ⟨fun he => by rw [he] at hx; exact absurd (Escape.not_mark_of_mem_ofByte hx) (by decide),
      fun he => by rw [he] at hx; exact absurd (Escape.not_mark_of_mem_ofByte hx) (by decide)⟩
  by_cases hc : c.val < 0x80
  · have hunits : Utf8.units c = [UInt8.ofNat c.val] := if_pos hc
    have hnat : CodePoint.ofNat (UInt8.ofNat c.val).toNat = c := by
      rw [UInt8.toNat_ofNat', Nat.mod_eq_of_lt (by omega), CodePoint.ofNat_val]
    have hascii : c.isAscii = true := decide_eq_true hc
    have hencode : Escape.encode kept (Utf8.units c) = if kept c then [c] else Escape.ofByte (UInt8.ofNat c.val) := by
      rw [hunits, Escape.encode_cons, hnat, hascii, Bool.true_and]
      exact List.append_nil _
    cases hk : kept c with
    | true => exact .inl ⟨rfl, by rw [hencode, hk]; rfl⟩
    | false =>
      refine .inr ⟨fun _ => rfl, fun x hx => ?_⟩
      rw [hencode, hk] at hx
      exact hescape hx
  · refine .inr ⟨fun hlt => absurd hlt hc, fun x hx => ?_⟩
    obtain ⟨b, hb, hx⟩ := List.mem_flatMap.1 hx
    have hle := Escape.le_of_mem_units (by omega) hb
    have hascii : (CodePoint.ofNat b.toNat).isAscii = false := by
      unfold CodePoint.isAscii
      rw [CodePoint.val_ofNat (Nat.lt_trans b.toNat_lt (by decide))]
      exact decide_eq_false (by omega)
    simp only [hascii, Bool.false_and, Bool.false_eq_true, if_false] at hx
    exact hescape hx

/-- **Both are written alike** where secrets and the marks in front of them are kept. -/
theorem encode {kept : CodePoint → Bool} (hkept : ∀ c, isSecretChar c = true → c ≠ '%' → kept c = true)
    (hmark : kept '?' = true) (hequals : kept '=' = true) (h : Veiled b t u) :
    Veiled b (Escape.encode kept (Utf8.unitsOf t)) (Escape.encode kept (Utf8.unitsOf u)) := by
  induction h with
  | nil => exact .nil
  | @char b c t u h ih =>
    rw [Escape.unitsOf_cons, Escape.unitsOf_cons, Escape.encode_append, Escape.encode_append]
    rcases encode_units_cases kept c with ⟨-, he⟩ | ⟨hk, hnot⟩
    · rw [he]
      exact .char c ih
    · refine .prepend hnot ?_
      have hq : c ≠ '?' := by
        rintro rfl
        rw [hk (by decide)] at hmark
        cases hmark
      by_cases hn : c = '#'
      · subst hn
        rw [behind_number] at ih
        exact ih.lift
      · rwa [behind_eq hq hn] at ih
  | @secret x y t u hx hy h ih =>
    have hunits : ∀ x t : Text, Escape.encode kept (Utf8.unitsOf (CodePoint.ofChar '=' :: (x ++ t))) =
        CodePoint.ofChar '=' :: (Escape.encode kept (Utf8.unitsOf x) ++ Escape.encode kept (Utf8.unitsOf t)) := by
      intro x t
      rw [Escape.encode_kept (by decide) hequals, ← Escape.encode_append, Utf8.unitsOf, Utf8.unitsOf, Utf8.unitsOf,
        ← List.flatMap_append]
    rw [hunits, hunits]
    exact .secret (hx.encode hkept) (hy.encode hkept) ih

theorem allowedInQuery_of_isSecretChar {c : CodePoint} (h : isSecretChar c = true) (hsign : c ≠ '%') :
    Escape.allowedInQuery c = true := by
  simp only [isSecretChar, Bool.or_eq_true, beq_iff_eq] at h
  rcases h with (h | rfl) | rfl
  · simp [Escape.allowedInQuery, Escape.allowedInPath, Escape.allowedInUser, h]
  · decide
  · exact absurd rfl hsign

/-- **Both get escapes alike** as parts of a url: the percent signs of a secret do not count for whether those of
the part begin escapes. -/
theorem component (h : Veiled b t u) :
    Veiled b (Escape.component Escape.allowedInQuery t) (Escape.component Escape.allowedInQuery u) := by
  obtain ⟨hv, hcount⟩ := h.upperEscapes
  have hsame : ((Escape.upperEscapes t).2.1 == (Escape.upperEscapes t).2.2) =
      ((Escape.upperEscapes u).2.1 == (Escape.upperEscapes u).2.2) := by
    rw [Bool.eq_iff_iff, beq_iff_eq, beq_iff_eq]
    omega
  unfold Escape.component
  dsimp only
  rw [hsame]
  have hmarks : Escape.allowedInQuery '?' = true ∧ Escape.allowedInQuery '=' = true := by decide
  refine hv.encode (fun c hc hsign => ?_) ?_ ?_
  · rw [allowedInQuery_of_isSecretChar hc hsign, Bool.true_or]
  · rw [hmarks.1, Bool.true_or]
  · rw [hmarks.2, Bool.true_or]

theorem writable_eq (h : Veiled b t u) : Utf8.writable t = Utf8.writable u := by
  induction h with
  | nil => rfl
  | char c _ ih =>
    unfold Utf8.writable at ih ⊢
    rw [List.all_cons, List.all_cons, ih]
  | @secret x y t u hx hy h ih =>
    have hall : ∀ {x : Text}, IsSecret x → Utf8.writable x = true := fun hx =>
      Utf8.writable_of_ascii fun c hc => (of_isSecretChar (hx.chars c hc)).1
    have hx' := hall hx
    have hy' := hall hy
    unfold Utf8.writable at ih hx' hy' ⊢
    rw [List.all_cons, List.all_cons, List.all_append, List.all_append, hx', hy', ih]

theorem isUrlChar_of_isSecretChar {c : CodePoint} (h : isSecretChar c = true) (hsign : c ≠ '%') :
    Escape.isUrlChar c = true := by
  simp only [isSecretChar, Bool.or_eq_true, beq_iff_eq] at h
  rcases h with (h | rfl) | rfl
  · exact Escape.isUrlChar_of_unreserved h
  · decide
  · exact absurd rfl hsign

/-- **Both are requoted alike.** -/
theorem requote (h : Veiled b t u) : Agree (Veiled b) (Escape.requote t) (Escape.requote u) := by
  have hmarks : Escape.isUrlChar '?' = true ∧ Escape.isUrlChar '=' = true := by decide
  -- both can be written, or none of them
  have hwritten : ∀ {kept : CodePoint → Bool} {t u : Text}, (∀ c, Escape.isUrlChar c = true → kept c = true) →
      Veiled b t u →
        Agree (Veiled b) ((Utf8.encode t).map (Escape.encode kept)) ((Utf8.encode u).map (Escape.encode kept)) := by
    intro kept t u hkept hv
    cases hw : Utf8.writable t with
    | true =>
      rw [Utf8.encode_of_writable hw, Utf8.encode_of_writable (hv.writable_eq ▸ hw)]
      exact .ok (hv.encode (fun c hc hsign => hkept c (isUrlChar_of_isSecretChar hc hsign))
        (hkept _ hmarks.1) (hkept _ hmarks.2))
    | false =>
      obtain ⟨e, he⟩ := Utf8.encode_of_not_writable hw
      obtain ⟨e', he'⟩ := Utf8.encode_of_not_writable (hv.writable_eq ▸ hw)
      rw [he, he']
      exact .error e e'
  unfold Escape.requote
  rcases h.unescape with ⟨ht, hu⟩ | ⟨t', u', ht, hu, hv⟩
  · rw [ht, hu]
    exact hwritten (fun c hc => hc) h
  · rw [ht, hu]
    exact hwritten (fun c hc => by rw [hc, Bool.true_or]) hv

end Veiled

end RemoteTree.Url
