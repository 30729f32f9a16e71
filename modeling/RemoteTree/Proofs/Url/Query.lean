import RemoteTree.Proofs.Form
import RemoteTree.Proofs.Url.Target
import RemoteTree.Proofs.Url.Zone

/-!
# The query of a target

A form that stands behind the question mark of a url is sent as it is: no character of it needs an escape, and
no escape of it can be undone. The one exception are urls of which the escapes cannot be undone because of
their host; there each percent sign is sent as an escape of its own.

* `Escape.component_form`, `Escape.unescape_form`: making and undoing escapes leave a form alone.
* `Escape.doubled`: a form in which the percent signs have escapes.
* `targetParts_query`: the form is the query of the target, and no other part depends on it.
* `query_of_target`: **what is sent behind the question mark.**
-/

namespace RemoteTree.Url

namespace Escape

/-! ## Forms -/

theorem of_isFormChar {c : CodePoint} (h : Form.isFormChar c = true) :
    c.val < 0x80 ∧ (c = '%' ∨ allowedInQuery c = true ∧ isUrlChar c = true) := by
  have hmarks : ∀ m ∈ Text.ofString "_.-~+%&=",
      m.val < 0x80 ∧ (m = '%' ∨ allowedInQuery m = true ∧ isUrlChar m = true) := by decide
  unfold Form.isFormChar at h
  rw [Bool.or_eq_true] at h
  rcases h with hl | hm
  · have hu : isUnreserved c = true := by simp [isUnreserved, hl]
    exact ⟨lt_of_unreserved hu, .inr ⟨by simp [allowedInQuery, allowedInPath,
      allowedInUser, hu], isUrlChar_of_unreserved hu⟩⟩
  · exact hmarks c (List.contains_iff_mem.1 hm)

/-- A text of ASCII that is kept stays as it is. -/
theorem encode_of_kept {kept : CodePoint → Bool} {t : Text} (h : ∀ c ∈ t, c.val < 0x80 ∧ kept c = true) :
    encode kept (Utf8.unitsOf t) = t := by
  induction t with
  | nil => rfl
  | cons c t ih =>
    obtain ⟨hlt, hk⟩ := h c List.mem_cons_self
    rw [encode_kept hlt hk, ih fun x hx => h x (List.mem_cons_of_mem _ hx)]

/-- Every percent sign of a form begins an escape in upper case. -/
theorem upperEscapes_form {t : Text} (h : Form.IsForm t) : ∃ k, upperEscapes t = (t, k, k) := by
  induction h with
  | nil => exact ⟨0, rfl⟩
  | @mark c t hc _ ih =>
    obtain ⟨k, hk⟩ := ih
    have hsign : c ≠ '%' := by rcases hc with rfl | rfl <;> decide
    exact ⟨k, by rw [upperEscapes_cons hsign, hk]⟩
  | @byte b t _ ih =>
    obtain ⟨k, hk⟩ := ih
    rcases Form.encodeByte_cases b with ⟨-, he⟩ | ⟨c, -, -, hu, he⟩ | ⟨he, -⟩
    · exact ⟨k, by rw [he, List.singleton_append, upperEscapes_cons (by decide), hk]⟩
    · exact ⟨k, by rw [he, List.singleton_append, upperEscapes_cons (ne_sign_of_unreserved hu), hk]⟩
    · obtain ⟨m, hm, n, hn, -, hb⟩ := ofByte_eq b
      obtain ⟨hhex, hupper, -⟩ := upperDigit_digit hm
      obtain ⟨hhex', hupper', -⟩ := upperDigit_digit hn
      refine ⟨k + 1, ?_⟩
      rw [he, hb]
      show upperEscapes (CodePoint.ofChar '%' :: upperDigit m :: upperDigit n :: t) = _
      rw [upperEscapes_escape hhex hhex', hupper, hupper', hk]
      rfl

/-- **A form is a query as it is.** -/
theorem component_form {t : Text} (h : Form.IsForm t) : component allowedInQuery t = t := by
  obtain ⟨k, hk⟩ := upperEscapes_form h
  unfold component
  rw [hk]
  refine encode_of_kept fun c hc => ?_
  obtain ⟨hlt, hkept⟩ := of_isFormChar (h.isFormChar hc)
  refine ⟨hlt, ?_⟩
  rcases hkept with rfl | ⟨ha, -⟩
  · simp
  · rw [ha, Bool.true_or]

/-- **No escape of a form can be undone.** -/
theorem unescape_form {t : Text} (h : Form.IsForm t) : unescapeUnreserved t = some t := by
  induction h with
  | nil => rfl
  | @mark c t hc _ ih =>
    have hsign : c ≠ '%' := by rcases hc with rfl | rfl <;> decide
    rw [unescape_cons hsign, ih, Option.map_some]
  | @byte b t _ ih =>
    rcases Form.encodeByte_cases b with ⟨-, he⟩ | ⟨c, -, -, hu, he⟩ | ⟨he, hu⟩
    · rw [he, List.singleton_append, unescape_cons (by decide), ih, Option.map_some]
    · rw [he, List.singleton_append, unescape_cons (ne_sign_of_unreserved hu), ih, Option.map_some]
    · obtain ⟨m, hm, n, hn, hmn, hb⟩ := ofByte_eq b
      obtain ⟨hhex, -, hval⟩ := upperDigit_digit hm
      obtain ⟨hhex', -, hval'⟩ := upperDigit_digit hn
      rw [he, hb]
      show unescapeUnreserved (CodePoint.ofChar '%' :: upperDigit m :: upperDigit n :: t) = _
      rw [unescape_escape (digit_of_isHexDigit hhex).1 (digit_of_isHexDigit hhex').1, hval, hval', ih]
      -- the byte is not that of an unreserved character
      dsimp only
      rw [hmn, hu]
      rfl

/-- A text in which every percent sign has an escape. -/
def doubled (t : Text) : Text := t.flatMap fun c : CodePoint => if c = '%' then Text.ofString "%25" else [c]

/-- Where no escape is undone, the percent signs of a form get escapes. -/
theorem encode_form {t : Text} (h : ∀ c ∈ t, Form.isFormChar c = true) :
    encode isUrlChar (Utf8.unitsOf t) = doubled t := by
  induction t with
  | nil => rfl
  | cons c t ih =>
    have htail := ih fun x hx => h x (List.mem_cons_of_mem _ hx)
    obtain ⟨hlt, hkept⟩ := of_isFormChar (h c List.mem_cons_self)
    rcases hkept with rfl | ⟨-, hurl⟩
    · have hunits : encode isUrlChar (Utf8.units '%') = Text.ofString "%25" := by decide
      rw [unitsOf_cons, encode_append, hunits, htail]
      rfl
    · rw [encode_kept hlt hurl, htail]
      have hsign : c ≠ '%' := by
        rintro rfl
        exact absurd hurl (by decide)
      simp [doubled, hsign]

end Escape

/-! ## Targets -/

theorem takeWhile_append_stop {α : Type} {p : α → Bool} {m : α} (hm : p m = false) (x y : List α) :
    (x ++ m :: y).takeWhile p = x.takeWhile p := by
  induction x with
  | nil => simp [hm]
  | cons c x ih => simp only [List.cons_append, List.takeWhile_cons, ih]

theorem dropWhile_append_stop {α : Type} {p : α → Bool} {m : α} (hm : p m = false) (x y : List α) :
    (x ++ m :: y).dropWhile p = x.dropWhile p ++ m :: y := by
  induction x with
  | nil => simp [hm]
  | cons c x ih =>
    simp only [List.cons_append, List.dropWhile_cons, ih]
    split <;> rfl

/-- The scheme is taken off in front of what has no colon. -/
theorem takeScheme_append {y : Text} (h : CodePoint.ofChar ':' ∉ y) (x : Text) :
    takeScheme (x ++ y) = (takeScheme x).map fun e => (e.1, e.2 ++ y) := by
  have hcut := Text.cut_append_right h x
  unfold takeScheme
  rw [hcut]
  rcases Text.cut ':' x with ⟨a, _ | b⟩
  · dsimp only
    generalize a ++ y = z
    cases z <;> cases a <;> rfl
  · cases a with
    | nil => rfl
    | cons c s =>
      dsimp only [Option.map_some]
      split <;> rfl

/-- **The form behind the question mark is the query of the target**, and no other part depends on it. -/
theorem targetParts_query {scheme rest body : Text} (hmark : CodePoint.ofChar '?' ∉ rest)
    (hhash : CodePoint.ofChar '#' ∉ rest) (hbody : Form.IsForm body) :
    targetParts scheme (rest ++ CodePoint.ofChar '?' :: body) =
      (targetParts scheme rest).map fun p => { p with query := body } := by
  have hslashes : (Text.ofString "//").isPrefixOf (rest ++ CodePoint.ofChar '?' :: body) =
      (Text.ofString "//").isPrefixOf rest := by
    have hne : (CodePoint.ofChar '/' == CodePoint.ofChar '?') = false := by decide
    match rest with
    | [] => rfl
    | [a] => simp [Text.ofString, List.isPrefixOf_cons_cons, hne]
    | a :: b :: rest => rfl
  unfold targetParts
  rw [hslashes]
  cases hs : (Text.ofString "//").isPrefixOf rest with
  | false => rfl
  | true =>
    obtain ⟨rest, rfl⟩ : ∃ u, rest = CodePoint.ofChar '/' :: CodePoint.ofChar '/' :: u := by
      obtain ⟨u, hu⟩ := List.isPrefixOf_iff_prefix.1 hs
      exact ⟨u, hu.symm⟩
    have hends : (!endsTarget '?') = false := by decide
    have htake := takeWhile_append_stop (p := fun c => !endsTarget c) hends rest body
    have hdrop := dropWhile_append_stop (p := fun c => !endsTarget c) hends rest body
    have hmem : ∀ {m : CodePoint}, m ∉ CodePoint.ofChar '/' :: CodePoint.ofChar '/' :: rest →
        m ∉ rest.dropWhile fun c => !endsTarget c := fun hm hdrop =>
      hm (List.mem_cons_of_mem _ (List.mem_cons_of_mem _ ((List.dropWhile_sublist _).mem hdrop)))
    -- the first question mark is the one in front of the form, and nothing comes behind it
    have hhash' : CodePoint.ofChar '#' ∉ (rest.dropWhile fun c => !endsTarget c) ++ CodePoint.ofChar '?' :: body := by
      intro hm
      rcases List.mem_append.1 hm with hm | hm
      · exact hmem hhash hm
      rcases List.mem_cons.1 hm with he | hm
      · exact absurd he (by decide)
      · exact absurd (hbody.isFormChar hm) (by decide)
    simp only [Bool.not_true, Bool.false_eq_true, if_false, List.cons_append, List.drop_succ_cons,
      List.drop_zero, htake, hdrop,
      Text.cut_of_not_mem hhash', Text.cut_of_not_mem (hmem hhash), Text.cut_append (hmem hmark),
      Text.cut_of_not_mem (hmem hmark), Option.getD_some, Option.getD_none, Escape.component_form hbody]
    cases readAuthority (rest.takeWhile fun c => !endsTarget c) <;> rfl

/-- What stands in front of the query of a target. -/
theorem front_of_targetParts {scheme rest : Text} {p : Parts}
    (hmark : CodePoint.ofChar '?' ∉ rest) (hhash : CodePoint.ofChar '#' ∉ rest)
    (h : targetParts scheme rest = .ok p) :
    ∃ a path, readAuthority ((rest.drop 2).takeWhile fun c => !endsTarget c) = .ok a ∧ a.Sendable ∧
      p = ⟨scheme, a.text, CodePoint.ofChar '/' :: path, [], []⟩ ∧
      Escape.Escaped path ∧ CodePoint.ofChar '?' ∉ path := by
  have hmem : ∀ {m : CodePoint}, m ∉ rest →
      m ∉ (rest.drop 2).dropWhile fun c => !endsTarget c := fun hm hdrop =>
    hm (List.mem_of_mem_drop ((List.dropWhile_sublist _).mem hdrop))
  unfold targetParts at h
  dsimp only at h
  split at h
  · cases h
  simp only [Text.cut_of_not_mem (hmem hhash), Text.cut_of_not_mem (hmem hmark), Option.getD_none] at h
  obtain ⟨a, ha, h⟩ := bind_eq_ok.1 h
  obtain rfl := Except.ok.inj h
  have hsend := sendable_of_takeWhile ha
  generalize hraw : Escape.component Escape.allowedInPath
    (removeDots ((rest.drop 2).dropWhile fun c => !endsTarget c)) = raw
  have hescaped : Escape.Escaped raw := by
    rw [← hraw]
    refine Escape.escaped_component (by decide) (fun c hc => ?_) _
    simp [Escape.allowedInPath, Escape.allowedInUser, hc]
  have hquestion : CodePoint.ofChar '?' ∉ raw := by
    rw [← hraw]
    intro hm
    rcases Escape.mem_component hm with hm | ⟨b, hb⟩
    · exact absurd hm (by decide)
    · exact absurd (Escape.not_mark_of_mem_ofByte hb) (by decide)
  -- a path without a slash in front of it gets one
  cases raw with
  | nil => exact ⟨a, [], ha, hsend, rfl, .nil, List.not_mem_nil⟩
  | cons c path =>
    by_cases hc : c = '/'
    · subst hc
      refine ⟨a, path, ha, hsend, rfl, ?_, fun hm => hquestion (List.mem_cons_of_mem _ hm)⟩
      cases hescaped with
      | char _ h => exact h
    · refine ⟨a, c :: path, ha, hsend, ?_, hescaped, hquestion⟩
      exact congrArg (fun q => (⟨scheme, a.text, q, [], []⟩ : Parts))
        (if_neg fun he => hc (Option.some.inj he))

/-- What is sent in front of the query: it has no question mark, and its escapes cannot be undone exactly if
the url misleads. -/
theorem front_text {scheme : Text} {a : Authority} {path : Text} (hs : IsScheme scheme) (ha : a.Sendable)
    (hpath : Escape.Escaped path) (hquestion : CodePoint.ofChar '?' ∉ path) :
    let x := scheme ++ CodePoint.ofChar ':' :: CodePoint.ofChar '/' :: CodePoint.ofChar '/' ::
      (a.text ++ CodePoint.ofChar '/' :: path)
    CodePoint.ofChar '?' ∉ x ∧
      (Escape.unescapeUnreserved x).isNone = (Escape.unescapeUnreserved a.text).isNone := by
  have hnot : ∀ {m : CodePoint}, isSchemeChar m = false → m ∉ scheme := fun hm hmem => by
    rw [hs.schemeChars _ hmem] at hm
    cases hm
  refine ⟨fun hm => ?_, ?_⟩
  · rcases List.mem_append.1 hm with hm | hm
    · exact hnot (by decide) hm
    simp only [List.mem_cons, List.mem_append] at hm
    rcases hm with he | he | he | hm | he | hm
    · exact absurd he (by decide)
    · exact absurd he (by decide)
    · exact absurd he (by decide)
    · exact ha.not_mem (by decide) hm
    · exact absurd he (by decide)
    · exact hquestion hm
  · rw [Escape.unescape_append_of_not_mem (hnot (by decide)), Option.isNone_map,
      Escape.unescape_cons (by decide), Option.isNone_map, Escape.unescape_cons (by decide),
      Option.isNone_map, Escape.unescape_cons (by decide), Option.isNone_map,
      Escape.isNone_unescape_append (by decide), hpath.isNone_unescape, Bool.or_false]

/-- **A form behind a question mark is requoted as it is**, or its percent signs get escapes if the escapes in
front of it cannot be undone. -/
theorem requote_query {x body u : Text} (hx : CodePoint.ofChar '?' ∉ x) (hbody : Form.IsForm body)
    (h : Escape.requote (x ++ CodePoint.ofChar '?' :: body) = .ok u) :
    (Text.cut '?' u).2 =
      some (if (Escape.unescapeUnreserved x).isNone then Escape.doubled body else body) := by
  have hparts : ∀ (kept : CodePoint → Bool) (s : Text), kept '?' = true →
      Escape.encode kept (Utf8.unitsOf (s ++ CodePoint.ofChar '?' :: body)) =
        Escape.encode kept (Utf8.unitsOf s) ++ CodePoint.ofChar '?' :: Escape.encode kept (Utf8.unitsOf body) := by
    intro kept s hk
    rw [← Escape.encode_kept (by decide) hk, ← Escape.encode_append, Utf8.unitsOf, Utf8.unitsOf, Utf8.unitsOf,
      ← List.flatMap_append]
  have hmark : isMark '?' = true := by decide
  unfold Escape.requote at h
  rw [Escape.unescape_append hmark, Escape.unescape_form hbody] at h
  -- the escapes of the whole text can be undone if those in front of the form can
  cases hun : Escape.unescapeUnreserved x with
  | none =>
    rw [hun] at h
    have hu := (Escape.encode_of_written h).symm
    rw [hparts Escape.isUrlChar x (by decide),
      Escape.encode_form fun c hc => hbody.isFormChar hc] at hu
    have hfront := (Escape.alike_encode (fun c (hc : Escape.isUrlChar c = true) => hc) x).not_mem hmark hx
    rw [hu, Text.cut_append hfront]
    rfl
  | some x' =>
    rw [hun] at h
    have hu := (Escape.encode_of_written h).symm
    have hkept : ∀ c, Escape.isUrlChar c = true → (Escape.isUrlChar c || c == '%') = true :=
      fun c hc => by rw [hc, Bool.true_or]
    have hsame : Escape.encode (fun c => Escape.isUrlChar c || c == '%') (Utf8.unitsOf body) = body := by
      refine Escape.encode_of_kept fun c hc => ?_
      obtain ⟨hlt, rfl | ⟨-, hurl⟩⟩ := Escape.of_isFormChar (hbody.isFormChar hc)
      · exact ⟨hlt, by decide⟩
      · exact ⟨hlt, hkept c hurl⟩
    rw [hparts _ x' (by decide), hsame] at hu
    have hfront := (Escape.alike_encode hkept x').not_mem hmark
      ((Escape.alike_unescapeUnreserved hun).not_mem hmark hx)
    rw [hu, Text.cut_append hfront]
    rfl

theorem mem_of_takeScheme {t scheme rest : Text} (h : takeScheme t = some (scheme, rest)) {c : CodePoint}
    (hc : c ∈ rest) : c ∈ t := by
  unfold takeScheme at h
  split at h
  · rename_i x s behind hcut
    split at h
    · obtain ⟨-, rfl⟩ := Prod.mk.inj (Option.some.inj h)
      have hbehind : (Text.cut ':' t).2 = some behind := by rw [hcut]
      rw [← Text.append_cut hbehind]
      exact List.mem_append_right _ (List.mem_cons_of_mem _ hc)
    · cases h
  · cases h

section

variable {front u : Text} (hmark : CodePoint.ofChar '?' ∉ front) (hhash : CodePoint.ofChar '#' ∉ front)

include hmark hhash

/-- A target without a query: what is requoted, and whether its escapes can be undone. -/
theorem front_of_target {scheme rest : Text} {p : Parts} (hs : takeScheme front = some (scheme, rest))
    (hp : targetParts scheme rest = .ok p) :
    ∃ x, CodePoint.ofChar '?' ∉ x ∧ (Escape.unescapeUnreserved x).isNone = misleads front ∧
      ∀ body, ({ p with query := body } : Parts).text =
        x ++ Text.when (!body.isEmpty) (CodePoint.ofChar '?' :: body) := by
  have hscheme := isScheme_of_takeScheme hs
  obtain ⟨a, path, ha, hsend, rfl, hpath, hquestion⟩ := front_of_targetParts
    (fun hm => hmark (mem_of_takeScheme hs hm)) (fun hm => hhash (mem_of_takeScheme hs hm)) hp
  obtain ⟨hx, hun⟩ := front_text hscheme hsend hpath hquestion
  refine ⟨_, hx, ?_, fun body => ?_⟩
  · rw [hun, isNone_unescape_authority ha, misleads, hs]
  · have hof : Parts.OfTarget ⟨scheme, a.text, CodePoint.ofChar '/' :: path, body, []⟩ a :=
      ⟨hscheme, hsend, rfl, rfl⟩
    rw [hof.text_eq]
    simp [Text.when, Text.ofString]

/-- **What is sent behind the question mark**: the form as it is, or with escapes for its percent signs if the
url in front of it misleads. -/
theorem query_of_target {body : Text} (hbody : Form.IsForm body) (hne : body ≠ [])
    (h : target (front ++ CodePoint.ofChar '?' :: body) = .ok u) :
    (Text.cut '?' u).2 = some (if misleads front then Escape.doubled body else body) := by
  have hcolon : CodePoint.ofChar ':' ∉ CodePoint.ofChar '?' :: body := by
    intro hm
    rcases List.mem_cons.1 hm with he | hm
    · exact absurd he (by decide)
    · exact absurd (hbody.isFormChar hm) (by decide)
  obtain ⟨_, _, q, hs, hq, hr⟩ := parts_of_target h
  rw [takeScheme_append hcolon] at hs
  -- the form is no part of what the scheme is taken off from
  obtain ⟨⟨scheme, rest⟩, hfront, he⟩ := Option.map_eq_some_iff.1 hs
  obtain ⟨rfl, rfl⟩ := Prod.mk.inj he
  have hmark' : CodePoint.ofChar '?' ∉ rest := fun hm => hmark (mem_of_takeScheme hfront hm)
  have hhash' : CodePoint.ofChar '#' ∉ rest := fun hm => hhash (mem_of_takeScheme hfront hm)
  rw [targetParts_query hmark' hhash' hbody] at hq
  cases hp : targetParts scheme rest with
  | error e => rw [hp] at hq; cases hq
  | ok p =>
    rw [hp] at hq
    obtain rfl := Except.ok.inj hq
    obtain ⟨x, hx, hun, htext⟩ := front_of_target hmark hhash hfront hp
    have hquery : Text.when (!body.isEmpty) (CodePoint.ofChar '?' :: body) = CodePoint.ofChar '?' :: body := by
      simp [Text.when, hne]
    rw [htext, hquery] at hr
    rw [requote_query hx hbody hr, hun]

/-- A url without a query is sent without one. -/
theorem no_query_of_target (h : target front = .ok u) : (Text.cut '?' u).2 = none := by
  obtain ⟨scheme, rest, p, hs, hp, hr⟩ := parts_of_target h
  obtain ⟨x, hx, -, htext⟩ := front_of_target hmark hhash hs hp
  have hempty : p.query = [] := by
    obtain ⟨_, _, -, -, rfl, -⟩ := front_of_targetParts
      (fun hm => hmark (mem_of_takeScheme hs hm)) (fun hm => hhash (mem_of_takeScheme hs hm)) hp
    rfl
  have hself : ({ p with query := p.query } : Parts).text = x := by
    rw [htext p.query, hempty]
    exact List.append_nil x
  rw [show p.text = x from hself] at hr
  have hrequoted := (Escape.requoted_of_requote hr).1
  rw [Text.cut_of_not_mem (hrequoted.not_mem (by decide) hx)]

end

end RemoteTree.Url
