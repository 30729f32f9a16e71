import RemoteTree.Proofs.Url.Decode
import RemoteTree.Proofs.Url.Dots
import RemoteTree.Proofs.Url.Query

/-!
# Where a location is sent

The url of a request has no dots in its path, and escapes where they are needed. At a plain host everything in
front of the path is sent as it is, and the path as far as the first `?` or `#` is what it stands for.

* `Origin`: a scheme and a plain host.
* `Origin.target_eq`: what is sent for a path at an origin.
* `Url.located`: the part of a url in front of its query and its fragment.
* `Url.isLiteral`: the paths that are sent for themselves.
* `Origin.located_of_target`: **where a location is sent**, read by who reads all its escapes.
-/

namespace RemoteTree.Url

/-! ## What is kept -/

namespace Escape

theorem isUrlChar_of_allowedInQuery {c : CodePoint} (h : allowedInQuery c = true) : isUrlChar c = true := by
  have hmarks : ∀ m ∈ Text.ofString "!$&'()*+,;=", isUrlChar m = true := by decide
  simp only [allowedInQuery, allowedInPath, allowedInUser, Bool.or_eq_true, beq_iff_eq] at h
  rcases h with (((((h | h) | rfl) | rfl) | rfl) | rfl)
  · exact isUrlChar_of_unreserved h
  · exact hmarks c (List.contains_iff_mem.1 h)
  all_goals decide

theorem isUrlChar_of_allowedInPath {c : CodePoint} (h : allowedInPath c = true) : isUrlChar c = true :=
  isUrlChar_of_allowedInQuery (by simp [allowedInQuery, h])

/-- What may stand in a url, or the sign of an escape. -/
def isSent (c : CodePoint) : Bool := isUrlChar c || c == '%'

theorem lt_of_isSent {c : CodePoint} (h : isSent c = true) : c.val < 0x80 := by
  unfold isSent at h
  rw [Bool.or_eq_true, beq_iff_eq] at h
  rcases h with h | rfl
  · exact (within_of_urlChar h).2
  · decide

/-- A part of a url comes out with characters that are sent as they are. -/
theorem isSent_component {allowed : CodePoint → Bool} (h : ∀ c, allowed c = true → isUrlChar c = true)
    {t : Text} {c : CodePoint} (hc : c ∈ component allowed t) : isSent c = true := by
  rcases mem_component hc with hc | ⟨b, hb⟩
  · simp [isSent, h c hc]
  · have hdigits : ∀ n < 16, isSent (upperDigit n) = true := by decide
    exact forall_mem_ofByte (p := fun c => isSent c = true) (by decide) hdigits hb

theorem isSent_unescape {t u : Text} (h : unescapeUnreserved t = some u) (ht : ∀ c ∈ t, isSent c = true) :
    ∀ c ∈ u, isSent c = true := by
  intro c hc
  rcases mem_unescape h hc with hc | hc
  · exact ht c hc
  · simp [isSent, isUrlChar_of_unreserved hc]

/-- A url of such characters is sent as it is but for the escapes that are undone. -/
theorem requote_eq {t u : Text} (h : unescapeUnreserved t = some u) (hu : ∀ c ∈ u, isSent c = true) :
    requote t = .ok u := by
  have hascii : ∀ c ∈ u, c.val < 0x80 := fun c hc => lt_of_isSent (hu c hc)
  unfold requote
  rw [h]
  dsimp only
  rw [Utf8.encode_of_writable (Utf8.writable_of_ascii hascii)]
  exact congrArg Except.ok (encode_of_kept fun c hc => ⟨hascii c hc, hu c hc⟩)

end Escape

/-! ## Plain hosts -/

/-- Letters in lower case, digits and `-._`. -/
def isHostChar (c : CodePoint) : Bool := c.isLower || c.isDigit || c == '-' || c == '.' || c == '_'

/-- A character of a plain host stands in a host as it is, and is no mark. -/
theorem of_isHostChar {c : CodePoint} (h : isHostChar c = true) :
    c.val < 0x80 ∧ standsInHost c = true ∧ c.toLower = c ∧ endsTarget c = false ∧ isMark c = false ∧
      Escape.isUnreserved c = true := by
  have hlt : c.val < 0x80 := by
    simp only [isHostChar, CodePoint.isLower, CodePoint.isDigit, CodePoint.within, Bool.or_eq_true,
      Bool.and_eq_true, decide_eq_true_eq, beq_iff_eq] at h
    rcases h with (((h | h) | rfl) | rfl) | rfl
    · omega
    · omega
    all_goals decide
  have hall : ∀ n < 0x80, isHostChar (CodePoint.ofNat n) = true →
      standsInHost (CodePoint.ofNat n) = true ∧ (CodePoint.ofNat n).toLower = CodePoint.ofNat n ∧
        endsTarget (CodePoint.ofNat n) = false ∧ isMark (CodePoint.ofNat n) = false ∧
        Escape.isUnreserved (CodePoint.ofNat n) = true := by
    decide +kernel
  have hc := hall c.val hlt
  rw [CodePoint.ofNat_val] at hc
  exact ⟨hlt, hc h⟩

/-- A question mark and a form behind it, or nothing. -/
def IsQuery (t : Text) : Prop := t = [] ∨ ∃ form, Form.IsForm form ∧ form ≠ [] ∧ t = CodePoint.ofChar '?' :: form

/-- A text ends a path: it begins with the mark of a query or a fragment, or it is empty. -/
def EndsPath (t : Text) : Prop := ∀ c, t.head? = some c → c = '?' ∨ c = '#'

theorem IsQuery.endsPath {t : Text} (h : IsQuery t) : EndsPath t := by
  rintro c hc
  rcases h with rfl | ⟨form, -, -, rfl⟩
  · cases hc
  · exact .inl (Option.some.inj hc).symm

/-- What stands behind the path of a url: the query and the fragment, each with its mark if there is one. -/
def behindPath (query fragment : Text) : Text :=
  Text.when (!query.isEmpty) ("?" ++ query) ++ Text.when (!fragment.isEmpty) ("#" ++ fragment)

/-- What stands behind a path begins with a mark, and every percent sign of it begins an escape. -/
theorem behindPath_cases {query fragment : Text} (hq : Escape.Escaped query) (hf : Escape.Escaped fragment) :
    behindPath query fragment = [] ∨ ∃ m t, behindPath query fragment = m :: t ∧ (m = '?' ∨ m = '#') ∧
      Escape.Escaped t ∧ ∀ c ∈ t, c ∈ query ∨ c = '#' ∨ c ∈ fragment := by
  have hbehind : Escape.Escaped (Text.when (!fragment.isEmpty) ("#" ++ fragment)) := by
    cases fragment with
    | nil => exact .nil
    | cons c fragment => exact .char (by decide) hf
  cases query with
  | nil =>
    cases fragment with
    | nil => exact .inl rfl
    | cons c fragment => exact .inr ⟨'#', c :: fragment, rfl, .inr rfl, hf, fun x hx => .inr (.inr hx)⟩
  | cons c query =>
    refine .inr ⟨'?', _, rfl, .inl rfl, hq.append hbehind, fun x hx => ?_⟩
    rcases List.mem_append.1 hx with hx | hx
    · exact .inl hx
    · unfold Text.when at hx
      split at hx
      · exact .inr ((List.mem_cons.1 hx).imp_right id)
      · cases hx

/-- A scheme of the web and a plain host: a name in lower case that does not begin with a dot. -/
structure Origin where
  scheme : Text
  host : Text
  web : scheme = Text.ofString "http" ∨ scheme = Text.ofString "https"
  plain : ∀ c ∈ host, isHostChar c = true
  named : host ≠ []
  undotted : host.head? ≠ some '.'

/-- The url of an origin, without a path. -/
def Origin.url (o : Origin) : Text := o.scheme ++ "://" ++ o.host

namespace Origin

variable (o : Origin)

theorem mark_not_mem {m : CodePoint} (hm : isMark m = true) : m ∉ o.host := fun h => by
  rw [(of_isHostChar (o.plain m h)).2.2.2.2.1] at hm
  cases hm

/-- A plain name is in its normal form. -/
theorem hostName_eq {t : Text} (h : ∀ c ∈ t, isHostChar c = true) : hostName t = some t := by
  induction t with
  | nil => rfl
  | cons c t ih =>
    rw [List.forall_mem_cons] at h
    obtain ⟨-, hstands, hlower, -, -, hun⟩ := of_isHostChar h.1
    unfold hostName
    rw [if_neg (ne_sign_of_unreserved hun), if_pos hstands, ih h.2, hlower]
    rfl

theorem readAuthority_eq : readAuthority o.host = .ok ⟨[], o.host, none⟩ := by
  have hat : CodePoint.ofChar '@' ∉ o.host := o.mark_not_mem (by decide)
  have hcolon : CodePoint.ofChar ':' ∉ o.host := o.mark_not_mem (by decide)
  have hname := hostName_eq o.plain
  have hbracket : CodePoint.ofChar '[' ∉ o.host := o.mark_not_mem (by decide)
  have hread : readHost o.host = some (o.host, none) := by
    obtain ⟨c, t, ht⟩ := List.exists_cons_of_ne_nil o.named
    rw [ht] at hname hcolon hbracket ⊢
    have hc : c ≠ '[' := fun he => hbracket (he ▸ List.mem_cons_self)
    unfold readHost
    dsimp only
    rw [if_neg hc, Text.cut_of_not_mem hcolon]
    simp [hname]
  have hlabel : isBadLabel o.host = false := by
    obtain ⟨c, t, ht⟩ := List.exists_cons_of_ne_nil o.named
    have hdot := o.undotted
    have hstar : c ≠ '*' := fun he => by
      have := o.plain c (ht ▸ List.mem_cons_self)
      rw [he] at this
      exact absurd this (by decide)
    rw [ht] at hdot ⊢
    simp only [isBadLabel, List.head?_cons, Bool.or_eq_false_iff, beq_eq_false_iff_ne]
    exact ⟨fun he => hstar (Option.some.inj he), hdot⟩
  unfold readAuthority
  rw [Text.cutLast_of_not_mem hat]
  dsimp only
  rw [hread]
  have hempty : o.host.isEmpty = false := by simpa using o.named
  simp only [hempty, hlabel, Bool.false_eq_true, if_false]
  rfl

theorem isScheme : IsScheme o.scheme := by
  rcases o.web with h | h
  · exact ⟨'h', Text.ofString "ttp", h, by decide, by decide⟩
  · exact ⟨'h', Text.ofString "ttps", h, by decide, by decide⟩

theorem lowerAscii_scheme : Text.lowerAscii o.scheme = o.scheme := by
  rcases o.web with h | h <;> rw [h] <;> decide

/-- The origin of a url in the form in which it is taken apart. -/
theorem url_append (t : Text) : o.url ++ t =
    o.scheme ++ CodePoint.ofChar ':' :: CodePoint.ofChar '/' :: CodePoint.ofChar '/' :: (o.host ++ t) := by
  simp [url, Text.ofString]

/-- The characters of an origin are sent as they are, and have no sign of an escape among them. -/
theorem of_mem_url {c : CodePoint} (h : c ∈ o.url) : Escape.isUrlChar c = true ∧ c ≠ '%' ∧ c ≠ '?' ∧ c ≠ '#' := by
  have hmarks : ∀ m ∈ Text.ofString "://", Escape.isUrlChar m = true ∧ m ≠ '%' ∧ m ≠ '?' ∧ m ≠ '#' := by decide
  have hunreserved : ∀ c, Escape.isUnreserved c = true → c ≠ '?' ∧ c ≠ '#' := fun c hc =>
    ⟨fun he => by rw [he] at hc; exact absurd hc (by decide), fun he => by rw [he] at hc; exact absurd hc (by decide)⟩
  rcases List.mem_append.1 h with h | h
  · rcases List.mem_append.1 h with h | h
    · have hscheme : ∀ m ∈ o.scheme, Escape.isUnreserved m = true := by
        rcases o.web with hw | hw <;> rw [hw] <;> decide
      have hun := hscheme c h
      exact ⟨Escape.isUrlChar_of_unreserved hun, ne_sign_of_unreserved hun, hunreserved c hun⟩
    · exact hmarks c h
  · have hun := (of_isHostChar (o.plain c h)).2.2.2.2.2
    exact ⟨Escape.isUrlChar_of_unreserved hun, ne_sign_of_unreserved hun, hunreserved c hun⟩

/-- The parts of the url that is sent for a location: the path without dots, and what stands behind it. -/
theorem targetParts_eq {path tail : Text} (hmark : CodePoint.ofChar '?' ∉ path) (hhash : CodePoint.ofChar '#' ∉ path)
    (htail : EndsPath tail) :
    let query := ((Text.cut '?' (Text.cut '#' tail).1).2).getD []
    let fragment := ((Text.cut '#' tail).2).getD []
    targetParts o.scheme (CodePoint.ofChar '/' :: CodePoint.ofChar '/' ::
        (o.host ++ (CodePoint.ofChar '/' :: path ++ tail))) =
      .ok ⟨o.scheme, o.host, Escape.component Escape.allowedInPath (rooted (CodePoint.ofChar '/' :: path)),
        Escape.component Escape.allowedInQuery query, Escape.component Escape.allowedInQuery fragment⟩ := by
  intro query fragment
  have hends : (!endsTarget '/') = false := by decide
  have hhost : ∀ c ∈ o.host, (!endsTarget c) = true := fun c hc => by rw [(of_isHostChar (o.plain c hc)).2.2.2.1]; rfl
  have htake : (o.host ++ (CodePoint.ofChar '/' :: path ++ tail)).takeWhile (fun c => !endsTarget c) = o.host := by
    rw [List.takeWhile_append_of_pos hhost, List.cons_append, List.takeWhile_cons, hends]
    exact List.append_nil _
  have hdrop : (o.host ++ (CodePoint.ofChar '/' :: path ++ tail)).dropWhile (fun c => !endsTarget c) =
      CodePoint.ofChar '/' :: path ++ tail := by
    rw [List.dropWhile_append_of_pos hhost, List.cons_append, List.dropWhile_cons, hends]
    rfl
  have hnot : ∀ {m : CodePoint}, m ∉ path → m ≠ '/' → m ∉ CodePoint.ofChar '/' :: path := fun hm hne hmem =>
    (List.mem_cons.1 hmem).elim hne hm
  -- what stands behind the path begins with one of the marks that end it
  have hfront : (Text.cut '?' (Text.cut '#' tail).1).1 = [] := by
    cases tail with
    | nil => rfl
    | cons c tail =>
      have hne : CodePoint.ofChar '?' ≠ '#' := by decide
      rcases htail c rfl with rfl | rfl
      · simp [Text.cut, hne]
      · rfl
  have hpath : (let p := Escape.component Escape.allowedInPath (removeDots (CodePoint.ofChar '/' :: path))
      if p.head? = some (CodePoint.ofChar '/') then p else Text.ofString "/" ++ p) =
        Escape.component Escape.allowedInPath (rooted (CodePoint.ofChar '/' :: path)) := by
    have hhead := head_rooted path
    unfold rooted at hhead ⊢
    split
    · rename_i hnil
      rw [hnil]
      rfl
    · rename_i hne
      rw [if_neg hne] at hhead
      obtain ⟨t, ht⟩ := List.head?_eq_some_iff.1 hhead
      rw [ht, Escape.component_cons (by decide) (by decide) (by decide)]
      rfl
  unfold targetParts
  have hslashes : (Text.ofString "//").isPrefixOf (CodePoint.ofChar '/' :: CodePoint.ofChar '/' ::
      (o.host ++ (CodePoint.ofChar '/' :: path ++ tail))) = true := by simp [Text.ofString]
  rw [hslashes]
  simp only [Bool.not_true, Bool.false_eq_true, if_false, List.drop_succ_cons, List.drop_zero, htake, hdrop,
    o.readAuthority_eq, Text.cut_append_left (hnot hhash (by decide)), Text.cut_append_left (hnot hmark (by decide)),
    hfront, List.append_nil]
  have hauthority : (⟨[], o.host, none⟩ : Authority).text = o.host := by simp [Authority.text, Text.when]
  show (Except.ok (⟨o.scheme, (⟨[], o.host, none⟩ : Authority).text, _, _, _⟩ : Parts) :
    Except TargetFault Parts) = _
  rw [hauthority, ← hpath]
  rfl

/-- A form behind a path is sent as it is. -/
theorem behindPath_of_isQuery {tail : Text} (h : IsQuery tail) :
    behindPath (Escape.component Escape.allowedInQuery (((Text.cut '?' (Text.cut '#' tail).1).2).getD []))
      (Escape.component Escape.allowedInQuery (((Text.cut '#' tail).2).getD [])) = tail := by
  rcases h with rfl | ⟨form, hform, hne, rfl⟩
  · rfl
  · have hhash : CodePoint.ofChar '#' ∉ CodePoint.ofChar '?' :: form := by
      intro hm
      rcases List.mem_cons.1 hm with he | hm
      · exact absurd he (by decide)
      · exact absurd (hform.isFormChar hm) (by decide)
    have hquery : (Text.cut '?' (CodePoint.ofChar '?' :: form)).2 = some form := by simp [Text.cut]
    rw [Text.cut_of_not_mem hhash]
    dsimp only
    rw [hquery, Option.getD_some, Escape.component_form hform]
    simp [behindPath, Text.when, hne, Escape.component, Escape.upperEscapes, Escape.encode, Utf8.unitsOf,
      Text.ofString]

/-- Behind an origin a path and what stands behind it are requoted each by itself. -/
theorem requote_behind {path sent query fragment : Text} (hun : Escape.unescapeUnreserved path = some sent)
    (hpath : ∀ c ∈ path, Escape.isSent c = true) (hquery : ∀ c ∈ query, Escape.isSent c = true)
    (hfragment : ∀ c ∈ fragment, Escape.isSent c = true) (hq : Escape.Escaped query)
    (hf : Escape.Escaped fragment) :
    ∃ rest, Escape.requote (o.url ++ (path ++ behindPath query fragment)) = .ok (o.url ++ (sent ++ rest)) ∧
      EndsPath rest ∧ (IsQuery (behindPath query fragment) → rest = behindPath query fragment) := by
  have hsign : CodePoint.ofChar '%' ∉ o.url := fun h => (o.of_mem_url h).2.1 rfl
  have hurl : ∀ c ∈ o.url, Escape.isSent c = true := fun c hc => by simp [Escape.isSent, (o.of_mem_url hc).1]
  have hsent := Escape.isSent_unescape hun hpath
  rcases behindPath_cases hq hf with hnil | ⟨m, t, hmt, hm, ht, htchars⟩
  · refine ⟨[], ?_, IsQuery.endsPath (.inl rfl), fun _ => hnil.symm⟩
    rw [hnil, List.append_nil, List.append_nil]
    refine Escape.requote_eq (by rw [Escape.unescape_append_of_not_mem hsign, hun]; rfl) fun c hc => ?_
    exact (List.mem_append.1 hc).elim (hurl c) (hsent c)
  · obtain ⟨u, hu⟩ := ht.unescape
    have hmark : isMark m = true ∧ Escape.isSent m = true := by rcases hm with rfl | rfl <;> decide
    have htail : ∀ c ∈ t, Escape.isSent c = true := by
      intro c hc
      rcases htchars c hc with hc | rfl | hc
      · exact hquery c hc
      · decide
      · exact hfragment c hc
    have hutail := Escape.isSent_unescape hu htail
    refine ⟨m :: u, ?_, fun c hc => ?_, fun h => ?_⟩
    · refine Escape.requote_eq ?_ fun c hc => ?_
      · rw [hmt, Escape.unescape_append_of_not_mem hsign, Escape.unescape_append hmark.1, hun, hu]
        rfl
      · simp only [List.mem_append, List.mem_cons] at hc
        rcases hc with hc | hc | rfl | hc
        · exact hurl c hc
        · exact hsent c hc
        · exact hmark.2
        · exact hutail c hc
    · exact Option.some.inj hc ▸ hm
    · -- the escapes of a form stay
      rw [hmt] at h ⊢
      rcases h with h | ⟨form, hform, -, h⟩
      · cases h
      · obtain ⟨rfl, rfl⟩ := List.cons.inj h
        rw [Escape.unescape_form hform] at hu
        rw [Option.some.inj hu]

/-- **What is sent for a location**: the path is read as what it stands for without dots, and a form behind it
is sent as it is. -/
theorem target_eq {path tail : Text} (hmark : CodePoint.ofChar '?' ∉ path) (hhash : CodePoint.ofChar '#' ∉ path)
    (hascii : ∀ c ∈ path, c.val < 0x80) (htail : EndsPath tail) :
    ∃ sent rest, target (o.url ++ (CodePoint.ofChar '/' :: path ++ tail)) = .ok (o.url ++ (sent ++ rest)) ∧
      Escape.decode sent = Escape.meant (rooted (CodePoint.ofChar '/' :: path)) ∧
      CodePoint.ofChar '?' ∉ sent ∧ CodePoint.ofChar '#' ∉ sent ∧ EndsPath rest ∧
      (IsQuery tail → rest = tail) := by
  have hparts := o.targetParts_eq hmark hhash htail
  have hbehind : IsQuery tail → _ := fun h => behindPath_of_isQuery h
  dsimp only at hparts
  generalize ((Text.cut '?' (Text.cut '#' tail).1).2).getD [] = query at hparts hbehind
  generalize ((Text.cut '#' tail).2).getD [] = fragment at hparts hbehind
  have hrooted : ∀ c ∈ rooted (CodePoint.ofChar '/' :: path), c.val < 0x80 := fun c hc => by
    rcases mem_rooted hc with rfl | hc
    · decide
    · exact hascii c hc
  generalize rooted (CodePoint.ofChar '/' :: path) = root at hparts hrooted ⊢
  have hinPath : ∀ c, Escape.isUnreserved c = true → Escape.allowedInPath c = true := fun c hc => by
    simp [Escape.allowedInPath, Escape.allowedInUser, hc]
  have hinQuery : ∀ c, Escape.isUnreserved c = true → Escape.allowedInQuery c = true := fun c hc => by
    simp [Escape.allowedInQuery, hinPath c hc]
  have hquerySent : ∀ t, ∀ c ∈ Escape.component Escape.allowedInQuery t, Escape.isSent c = true := fun t c hc =>
    Escape.isSent_component (fun c hc => Escape.isUrlChar_of_allowedInQuery hc) hc
  obtain ⟨sent, hsent, hdecode⟩ := Escape.decode_component hinPath (by decide) hrooted
  -- no mark of a query or a fragment comes into the path
  have hnot : ∀ m, isMark m = true → Escape.allowedInPath m = false → m ∉ sent := by
    intro m hm hallowed hmem
    rcases Escape.mem_unescape hsent hmem with hmem | hun
    · rcases Escape.mem_component hmem with hk | ⟨b, hb⟩
      · rw [hallowed] at hk
        cases hk
      · rw [Escape.not_mark_of_mem_ofByte hb] at hm
        cases hm
    · rw [Escape.not_mark_of_unreserved hun] at hm
      cases hm
  obtain ⟨rest, hrequote, hends, hkept⟩ := o.requote_behind hsent
    (fun c hc => Escape.isSent_component (fun c hc => Escape.isUrlChar_of_allowedInPath hc) hc)
    (hquerySent query) (hquerySent fragment) (Escape.escaped_component (by decide) hinQuery query)
    (Escape.escaped_component (by decide) hinQuery fragment)
  refine ⟨sent, rest, ?_, hdecode, hnot '?' (by decide) (by decide), hnot '#' (by decide) (by decide), hends,
    fun h => ?_⟩
  · obtain ⟨a, hof⟩ := ofTarget_of_targetParts o.isScheme hparts
    have htext := hof.text_eq
    rw [← hof.authority] at htext
    unfold target
    rw [url_append, o.isScheme.takeScheme, lowerAscii_scheme]
    dsimp only
    rw [hparts]
    show Except.mapError _ (Escape.requote (Parts.text _)) = _
    rw [htext, ← url_append]
    exact mapError_eq_ok.2 hrequote
  · rw [hbehind h] at hkept
    exact hkept h

end Origin

/-! ## Where a url leads -/

/-- Whether a path goes on with a character. -/
def goesOn (c : CodePoint) : Bool := c != '?' && c != '#'

theorem goesOn_iff {c : CodePoint} : goesOn c = true ↔ c ≠ '?' ∧ c ≠ '#' := by simp [goesOn]

/-- The part of a url in front of its query and its fragment. -/
def located (u : Text) : Text := u.takeWhile goesOn

theorem located_append {x y : Text} (hx : ∀ c ∈ x, goesOn c = true) (hy : EndsPath y) : located (x ++ y) = x := by
  unfold located
  rw [List.takeWhile_append_of_pos hx]
  cases y with
  | nil => exact List.append_nil x
  | cons c y =>
    have hc : goesOn c = false := by rcases hy c rfl with rfl | rfl <;> decide
    rw [List.takeWhile_cons, hc]
    exact List.append_nil x

/-- Whether a path without the slash in front of it is sent for itself: it does not end early, it has no dots,
and its escapes do not stand for anything else. -/
def isLiteral (path : Text) : Bool :=
  path.all goesOn && (Text.pieces '/' path).all (fun s => !isDots s) && Escape.isItself (CodePoint.ofChar '/' :: path)

/-- **A location is sent for itself** exactly if its path is literal, and then the query is sent behind it. -/
theorem Origin.located_of_target (o : Origin) {path query : Text} (hascii : ∀ c ∈ path, c.val < 0x80)
    (hquery : IsQuery query) :
    ∃ u, target (o.url ++ (CodePoint.ofChar '/' :: path ++ query)) = .ok u ∧
      (Escape.decode (located u) = o.url ++ CodePoint.ofChar '/' :: path ↔ isLiteral path = true) ∧
      (isLiteral path = true → u = located u ++ query) := by
  -- the path ends at its first mark, and what comes behind it is no part of it
  obtain ⟨front, back, hpath, hfront, hback⟩ : ∃ front back, path = front ++ back ∧
      (∀ c ∈ front, goesOn c = true) ∧ EndsPath back := by
    refine ⟨path.takeWhile goesOn, path.dropWhile goesOn, List.takeWhile_append_dropWhile.symm,
      fun c hc => List.all_eq_true.1 (List.all_takeWhile ..) c hc, fun c hc => ?_⟩
    have hends : goesOn c = false := by
      have := List.head?_dropWhile_not goesOn path
      rwa [hc] at this
    by_contra hne
    rw [goesOn_iff.2 (not_or.1 hne)] at hends
    cases hends
  have hnot : ∀ {m : CodePoint}, goesOn m = false → m ∉ front := fun hm hmem => by
    rw [hfront _ hmem] at hm
    cases hm
  have hends : EndsPath (back ++ query) := by
    cases back with
    | nil => exact hquery.endsPath
    | cons c back => exact fun x hx => hback x hx
  obtain ⟨sent, rest, htarget, hdecode, hsent, hsent', hrest, hkept⟩ := o.target_eq (hnot (by decide))
    (hnot (by decide)) (fun c hc => hascii c (hpath ▸ List.mem_append_left _ hc)) hends
  have hlocated : located (o.url ++ (sent ++ rest)) = o.url ++ sent := by
    rw [← List.append_assoc]
    refine located_append (fun c hc => goesOn_iff.2 ?_) hrest
    rcases List.mem_append.1 hc with hc | hc
    · exact (o.of_mem_url hc).2.2
    · exact ⟨fun he => hsent (he ▸ hc), fun he => hsent' (he ▸ hc)⟩
  have hread : Escape.decode (located (o.url ++ (sent ++ rest))) =
      o.url ++ Escape.meant (rooted (CodePoint.ofChar '/' :: front)) := by
    rw [hlocated, Escape.decode_append_of_not_mem (fun h => (o.of_mem_url h).2.1 rfl)
      (fun c hc => (Escape.within_of_urlChar (o.of_mem_url hc).1).2), hdecode]
  have hliteral : isLiteral path = true → front = path ∧ back = [] := by
    intro h
    simp only [isLiteral, Bool.and_eq_true] at h
    cases back with
    | nil => exact ⟨by rw [hpath, List.append_nil], rfl⟩
    | cons c back =>
      have := List.all_eq_true.1 h.1.1 c (hpath ▸ by simp)
      rw [goesOn_iff] at this
      exact absurd (hback c rfl) (not_or.2 this)
  refine ⟨o.url ++ (sent ++ rest), ?_, ?_, fun h => ?_⟩
  · rw [← htarget, hpath]
    simp
  · rw [hread]
    have hself : ∀ c ∈ CodePoint.ofChar '/' :: path, c.val < 0x80 := List.forall_mem_cons.2 ⟨by decide, hascii⟩
    constructor
    · intro h
      have hpathEq := List.append_cancel_left h
      have hle := Escape.length_meant_le (rooted (CodePoint.ofChar '/' :: front))
      have hlength : path.length = front.length + back.length := by rw [hpath, List.length_append]
      rw [hpathEq, List.length_cons] at hle
      have hdots := (length_rooted front).resolve_right (by omega)
      rw [rooted_of_no_dots hdots] at hpathEq hle
      -- a part of the path cannot stand for all of it
      have hnil : back = [] := List.eq_nil_of_length_eq_zero (by rw [List.length_cons] at hle; omega)
      obtain rfl : path = front := by rw [hpath, hnil, List.append_nil]
      simp only [isLiteral, Bool.and_eq_true, List.all_eq_true, Bool.not_eq_true']
      exact ⟨⟨hfront, hdots⟩, (Escape.meant_eq_iff hself).1 hpathEq⟩
    · intro h
      obtain ⟨rfl, -⟩ := hliteral h
      simp only [isLiteral, Bool.and_eq_true, List.all_eq_true, Bool.not_eq_true'] at h
      rw [rooted_of_no_dots h.1.2, (Escape.meant_eq_iff hself).2 h.2]
  · obtain ⟨-, rfl⟩ := hliteral h
    rw [hlocated, hkept hquery, List.nil_append, List.append_assoc]

end RemoteTree.Url
