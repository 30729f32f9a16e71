import RemoteTree.Proofs.Reference.Query
import RemoteTree.Proofs.Session.Action
import RemoteTree.Proofs.Url.Query

/-!
# What the query tells

* `Session.resolve_ofTexts`: the url that a reference stands for, where its parameters are texts.
* `Session.query_tells_parameters`: **the query of a reference tells its effective parameters and nothing else,
  and it is sent as it is.**
-/

namespace RemoteTree.Session

variable {s : Session} {r : Reference} {f g : Parameter → Option Text}

theorem resolve_ofTexts (hf : r.effective (s.token? r) = .ofTexts f)
    (hw : ∀ p t, f p = some t → Utf8.writable t = true) :
    s.resolve r = .ok (r.url ++ "/.json" ++
      Text.when (!(Parameters.form f).isEmpty) (CodePoint.ofChar '?' :: Parameters.form f)) := by
  unfold resolve Reference.resolve
  rw [hf, Parameters.query_ofTexts hw]
  rfl

/-- **Texts that are told apart**: two references with the same url stand for the same url exactly if their
effective parameters are the same. -/
theorem resolve_eq_iff {t : Session} {q : Reference} (hf : r.effective (s.token? r) = .ofTexts f)
    (hw : ∀ p t, f p = some t → Utf8.writable t = true) (hg : q.effective (t.token? q) = .ofTexts g)
    (hv : ∀ p t, g p = some t → Utf8.writable t = true) (hurl : q.url = r.url) :
    t.resolve q = s.resolve r ↔ q.effective (t.token? q) = r.effective (s.token? r) := by
  constructor
  · intro h
    rw [resolve_ofTexts hf hw, resolve_ofTexts hg hv, hurl] at h
    have htail := List.append_cancel_left (Except.ok.inj h)
    -- behind the url there is nothing, or the mark and the form
    have hform : Parameters.form g = Parameters.form f := by
      cases hgf : Parameters.form g <;> cases hff : Parameters.form f <;>
        simp [Text.when, hgf, hff] at htail ⊢
      exact htail
    rw [hf, hg, Parameters.eq_of_form_eq hv hw hform]
  · intro h
    unfold resolve Reference.resolve
    rw [h, hurl]

/-- What is done at a reference sends its first request to the url that the reference stands for. -/
theorem target_of_sent {name : Text} {place : Nat} (hr : s.references.find? name = some (place, r)) (a : Action)
    {q : Sent} (hq : (s.observe (.act name a)).sent.head? = some q) :
    ∃ url, s.resolve r = .ok url ∧ Url.target url = .ok q.request.url := by
  obtain ⟨m, payload, headers, hhead⟩ : ∃ m payload headers,
      ((s.operate (between (s.script.length + nesting)) r m payload headers).1.sent.drop
        s.sent.length).head? = some q := by
    simp only [observe, perform, step, hr] at hq
    rw [sent_act] at hq
    split at hq
    · exact ⟨_, _, _, hq⟩
    · rw [List.drop_length] at hq
      cases hq
  obtain ⟨url, hresolve, hprepare⟩ := firstRequest_of_sent (grows_between _) hhead
  exact ⟨url, hresolve, (Request.target_of_prepare hprepare).1⟩

/-- The query of what is sent first. -/
theorem query_of_sent (hf : r.effective (s.token? r) = .ofTexts f)
    (hw : ∀ p t, f p = some t → Utf8.writable t = true) (hmark : CodePoint.ofChar '?' ∉ r.url)
    (hhash : CodePoint.ofChar '#' ∉ r.url) {name : Text} {place : Nat}
    (hr : s.references.find? name = some (place, r)) (a : Action) {q : Sent}
    (hq : (s.observe (.act name a)).sent.head? = some q) :
    (Text.cut '?' q.request.url).2 =
      if Parameters.form f = [] then none
      else some (if Url.misleads (r.url ++ "/.json") then Url.Escape.doubled (Parameters.form f)
        else Parameters.form f) := by
  have hsuffix : ∀ {m : CodePoint}, m ∉ r.url → m ∉ Text.ofString "/.json" →
      m ∉ r.url ++ Text.ofString "/.json" := fun hm hs hmem =>
    (List.mem_append.1 hmem).elim hm hs
  have hmark' := hsuffix hmark (by decide)
  have hhash' := hsuffix hhash (by decide)
  obtain ⟨target, hresolve, htarget⟩ := target_of_sent hr a hq
  rw [resolve_ofTexts hf hw] at hresolve
  obtain rfl := Except.ok.inj hresolve
  unfold Text.when at htarget
  split
  · rename_i hnil
    rw [hnil] at htarget
    exact Url.no_query_of_target hmark' hhash' (by simpa using htarget)
  · rename_i hne
    have hform : Form.IsForm (Parameters.form f) := Form.IsForm.joinPairs _
    refine Url.query_of_target hmark' hhash' hform hne ?_
    simpa [hne] using htarget

/-- **The query tells the effective parameters and nothing else.** Where the values of these are texts without
surrogates, the url of a reference is followed by `/.json`, and by a question mark and a form exactly if there
are parameters.

* The form has only ASCII letters and digits and `_.-~+%&=`, and is read as the names and values of the
  parameters, each once and in the order of the names.
* Another reference with the same url stands for the same url exactly if its parameters are the same.
* If the url has no `?` and no `#`, the query of what is sent first is that same form; only if the host has a
  zone that begins with two letters or digits which are not both to base 16, each percent sign of the form is
  sent as `%25`.

A token that is a text with surrogates cannot be encoded, and nothing is sent. -/
theorem query_tells_parameters (s : Session) (r : Reference) :
    (∀ f : Parameter → Option Text, r.effective (s.token? r) = .ofTexts f →
      (∀ p t, f p = some t → Utf8.writable t = true) →
      ∃ form : Text,
        s.resolve r = .ok (r.url ++ "/.json" ++ Text.when (!form.isEmpty) (CodePoint.ofChar '?' :: form)) ∧
        (form = [] ↔ ∀ p, f p = none) ∧ (∀ c ∈ form, Form.isFormChar c = true) ∧
        Form.read form = some (Parameters.pairs f) ∧
        (Parameters.pairs f).Pairwise (fun a b => Text.before a.1 b.1 = true) ∧
        (∀ (t : Session) (q : Reference) (g : Parameter → Option Text), q.url = r.url →
          q.effective (t.token? q) = .ofTexts g → (∀ p t, g p = some t → Utf8.writable t = true) →
          (t.resolve q = s.resolve r ↔ q.effective (t.token? q) = r.effective (s.token? r))) ∧
        (CodePoint.ofChar '?' ∉ r.url → CodePoint.ofChar '#' ∉ r.url → ∀ name place a q,
          s.references.find? name = some (place, r) → (s.observe (.act name a)).sent.head? = some q →
          (Text.cut '?' q.request.url).2 =
            if form = [] then none
            else some (if Url.misleads (r.url ++ "/.json") then Url.Escape.doubled form else form))) ∧
    (∀ t, (r.effective (s.token? r)).get? .auth = some (.text t) → Utf8.writable t = false →
      ∃ fault, (Error.encoding fault).kind = ⟨.system, "UnicodeEncodeError"⟩ ∧
        s.resolve r = .error (.encoding fault) ∧
        ∀ name place m payload headers, s.references.find? name = some (place, r) →
          s.perform (.act name (.request m payload headers)) = (s, .error (.encoding fault))) := by
  refine ⟨fun f hf hw => ⟨Parameters.form f, resolve_ofTexts hf hw, Parameters.form_eq_nil, ?_, ?_, ?_, ?_, ?_⟩,
    fun t ht hu => ?_⟩
  · exact fun c hc => (Form.IsForm.joinPairs _).isFormChar hc
  · exact Parameters.read_form hw
  · exact Parameters.pairs_ascending f
  · exact fun t q g hurl hg hv => resolve_eq_iff hf hw hg hv hurl
  · exact fun hmark hhash name place a q hr hq => query_of_sent hf hw hmark hhash hr a hq
  · obtain ⟨fault, hfault⟩ := Parameters.query_of_unwritable ht hu
    have hresolve : s.resolve r = .error (.encoding fault) := by
      unfold resolve Reference.resolve
      rw [hfault]
      rfl
    refine ⟨fault, rfl, hresolve, fun name place m payload headers hr => ?_⟩
    have hfirst : s.firstRequest r m payload headers = .error (.encoding fault) := by
      unfold firstRequest
      rw [hresolve]
      rfl
    simp only [perform, step, hr, act, operate, hfirst]
    rfl

/-- A reference with a token, at a url. -/
def authorized (url token : Text) : Reference := (Reference.make url 0 (.int 3)).withParameter .auth (.text token)

/-- A client with that reference, and a database that always answers. -/
def answered (url token : Text) : Session :=
  (start ⟨⟨[], .ok ⟨200, [], [0x31], none⟩⟩, []⟩ .restoring 30 ⟨none, none⟩ .usual).introduce "r"
    (authorized url token)

/-- The token alone is a text. -/
def tokenAlone (token : Text) : Parameter → Option Text := fun p => if p = .auth then some token else none

/-- A token with marks of the form is sent as one value. -/
theorem query_tells_parameters_marked :
    let s := answered "http://a" "x&y=é"
    ∃ q, (s.observe (.act "r" .remove)).sent.head? = some q ∧
      ∃ query, (Text.cut '?' q.request.url).2 = some query ∧
        Form.read query = some [(Text.ofString "auth", Text.ofString "x&y=é")] := by
  intro s
  have hsent : (s.observe (.act "r" .remove)).sent.length = 1 := by decide +kernel
  obtain ⟨q, hq⟩ : ∃ q, (s.observe (.act "r" .remove)).sent.head? = some q := by
    cases hx : (s.observe (.act "r" .remove)).sent with
    | nil => rw [hx] at hsent; cases hsent
    | cons q _ => exact ⟨q, rfl⟩
  have heffective : (authorized "http://a" "x&y=é").effective (s.token? (authorized "http://a" "x&y=é")) =
      .ofTexts (tokenAlone "x&y=é") := by
    refine congrArg Parameters.mk (funext fun p => ?_)
    cases p <;> rfl
  have hwritable : ∀ p t, tokenAlone "x&y=é" p = some t → Utf8.writable t = true := by
    intro p t ht
    unfold tokenAlone at ht
    split at ht
    · obtain rfl := Option.some.inj ht
      decide
    · cases ht
  obtain ⟨form, -, hempty, -, hread, -, -, hquery⟩ :=
    (query_tells_parameters s (authorized "http://a" "x&y=é")).1 _ heffective hwritable
  have hne : form ≠ [] := fun he => by
    have := hempty.1 he .auth
    cases this
  have hplain : Url.misleads ((authorized "http://a" "x&y=é").url ++ "/.json") = false := by decide +kernel
  have hform := hquery (by decide +kernel) (by decide +kernel) "r" 0 .remove q rfl hq
  rw [if_neg hne, hplain] at hform
  exact ⟨q, hq, form, hform, hread⟩

/-- A zone that looks like a broken escape: the query is not sent as it stands in the url. -/
theorem query_tells_parameters_zoned :
    let s := answered "http://[fe80::1%25en0]/a" "x&y"
    (CodePoint.ofChar '?' ∉ (authorized "http://[fe80::1%25en0]/a" "x&y").url ∧
      CodePoint.ofChar '#' ∉ (authorized "http://[fe80::1%25en0]/a" "x&y").url) ∧
    (s.resolve (authorized "http://[fe80::1%25en0]/a" "x&y")).toOption =
      some (Text.ofString "http://[fe80::1%25en0]/a/.json?auth=x%26y") ∧
    (s.observe (.act "r" .remove)).sent.map (fun q => q.request.url) =
      [Text.ofString "http://[fe80::1%25en0]/a/.json?auth=x%2526y"] := by
  decide +kernel

end RemoteTree.Session
