import RemoteTree.Proofs.Reference.Paths
import RemoteTree.Proofs.Session.Inherited
import RemoteTree.Proofs.Url.Site

/-!
# The urls of references

Every url of a reference has a scheme in front and no slash at its end, if every string that a reference is made
of or set to has a root. Whatever is derived from a reference is put into that form again, or is a child whose
path has no slash at its end. Only the name of a created child is taken as the database gives it.

* `Url.Founded`: a url in that form, or the child of one under a name that ends in a slash.
* `Reference.founded_derive`: what is derived from a reference with a rooted url is in that form.
* `Url.inherited_founded`: so references inherit it from the ones they are made of; `Session.founds_timeline` says
  that steps with rooted strings leave every url in that form.
* `urls_of_references`: **every url has a scheme in front and no slash at its end, unless the database gives a
  child a name that ends in a slash**.
-/

namespace RemoteTree

/-! ## One url -/

/-- Where a url comes from that need not be closed: it is in the form of a base, or it is the url of a child
whose name is one of those that may be given and ends in a slash. -/
inductive Url.Founded (names : Text → Prop) : Text → Prop
  | closed {url : Text} (hr : IsRooted url) (hc : IsClosed url) : Founded names url
  | named {parent name : Text} (hr : IsRooted parent) (hc : IsClosed parent) (hn : names name)
      (ho : ¬IsClosed name) : Founded names (parent ++ "/" ++ name)

namespace Url

variable {names : Text → Prop} {url : Text}

theorem Founded.isRooted (h : Founded names url) : IsRooted url := by
  cases h with
  | closed hr _ => exact hr
  | named hr _ _ _ => exact (hr.append _).append _

/-- A text with a root is founded once it is in the form of a base. -/
theorem founded_base (h : HasRoot url) : Founded names (base url) := .closed (isRooted_base h) (isClosed_base url)

theorem Founded.base (h : Founded names url) : Founded names (Url.base url) := founded_base h.isRooted.hasRoot

/-- The child of a founded url under a name that may be given is founded. -/
theorem founded_named (h : IsRooted url) {name : Text} (hn : names name) (hne : name ≠ []) :
    Founded names (Url.base url ++ "/" ++ name) := by
  have hroot := h.hasRoot
  by_cases hc : IsClosed name
  · exact .closed (((isRooted_base hroot).append _).append _) ((isClosed_append hne _).2 hc)
  · exact .named (isRooted_base hroot) (isClosed_base url) hn hc

end Url

namespace Reference

variable {r c : Reference} {names : Text → Prop}

/-- The child at a path is in the form of a base. -/
theorem founded_child (h : Url.IsRooted r.url) (path : Text) : Url.Founded names (r.child path).url :=
  .closed (isRooted_child h.hasRoot path) (isClosed_child r path)

/-- The location at a path from the root is in the form of a base, for its authority is not empty. -/
theorem founded_atPath (h : Url.IsRooted r.url) {origin : Text} (ho : r.origin = .ok origin) (path : Text) :
    Url.Founded names (r.atPath origin path).url := by
  refine Url.founded_base ?_
  unfold Reference.origin at ho
  cases hp : Url.split r.url with
  | error why => simp [hp] at ho
  | ok parts =>
    obtain ⟨hreach, hslash⟩ := h.of_split hp
    simp only [hp] at ho
    split at ho
    · cases ho
    · rename_i hempty
      obtain rfl := Except.ok.inj ho
      obtain ⟨c, rest, hauthority⟩ : ∃ c rest, parts.authority = c :: rest := by
        refine List.exists_cons_of_ne_nil fun hnil => hempty ?_
        rw [hnil, List.isEmpty_nil, Bool.or_true]
      have hmem : c ∈ parts.authority := by
        rw [hauthority]
        exact List.mem_cons_self
      unfold Url.HasRoot
      rw [List.append_assoc, List.append_assoc, Url.bare_reach hreach]
      exact ⟨c, List.mem_append_left _ hmem, hslash c hmem⟩

/-- **What is derived** from a reference with a rooted url has one in the form of a base. -/
theorem founded_derive (h : Url.IsRooted r.url) {d : Derivation} (hd : r.derive d = .ok c) :
    Url.Founded names c.url := by
  have hrefine : ∀ (p : Parameter) (word : Except Error Text), r.refine p word = .ok c →
      Url.Founded names c.url := by
    intro p word hword
    obtain ⟨w, -, rfl⟩ := map_eq_ok.1 hword
    exact Url.founded_base h.hasRoot
  cases d with
  | child path =>
    obtain ⟨t, -, hd⟩ := bind_eq_ok.1 hd
    obtain rfl := Except.ok.inj hd
    exact founded_child h t
  | root path =>
    obtain ⟨origin, ho, hd⟩ := bind_eq_ok.1 hd
    obtain ⟨t, -, hd⟩ := bind_eq_ok.1 hd
    obtain rfl := Except.ok.inj hd
    exact founded_atPath h ho t
  | orderBy v | limitToFirst v | limitToLast v | startAt v | endAt v | equalTo v => exact hrefine _ _ hd

end Reference

/-! ## Sessions -/

/-- What is derived from a founded url is founded, and a child under a name that may be given. -/
theorem Url.inherited_founded (names : Text → Prop) : Inherited names (Founded names) where
  derived := fun h hd => Reference.founded_derive h.isRooted hd
  named := fun h hn hne => founded_named h.isRooted hn hne

/-- A step whose string has a root, if it gives one. -/
def Step.IsRooted (t : Step) : Prop := ∀ url ∈ t.given?, Url.HasRoot url

instance (t : Step) : Decidable t.IsRooted := inferInstanceAs (Decidable (∀ url ∈ t.given?, Url.HasRoot url))

namespace Session

variable {s t u : Session} {names : Text → Prop}

/-- A session whose urls are founded, with a script that gives no other names. -/
abbrev Founded (names : Text → Prop) (s : Session) : Prop := s.Bears names (Url.Founded names)

/-- A row of steps of the client leaves the urls founded, if their strings have a root. -/
theorem founds_timeline (names : Text → Prop) (s : Session) (steps : List Step)
    (h : ∀ m ∈ s.timeline steps, m.step.IsRooted) (hs : s.Founded names) :
    (∀ m ∈ s.timeline steps, m.before.Founded names ∧ m.after.Founded names) ∧ (s.run steps).Founded names :=
  bears_timeline (Url.inherited_founded names) s steps (fun m hm url hurl => Url.founded_base (h m hm url hurl)) hs

theorem founded_start (script : Script) (policy : Policy) (level : Int) (timeouts : Timeout.Settings)
    (trust : Trust) : (start script policy level timeouts trust).Founded script.Names :=
  bears_start script policy level timeouts trust

/-- **The urls of references**, at every moment of every session in which each string that a reference is made of
or set to has something other than slashes behind its optional scheme, the steps in between included.

* The url begins with `http://` or `https://` and has something other than slashes behind it.
* It has no slash at its end, unless it is that of a created child: the url of its parent in that same form, a
  slash, and a name that ends in a slash and that a response of the script gives.
* What the reference stands for begins with the url and `/.json`, and there is a double slash before `.json` exactly
  if the url has a slash at its end.

The url of a child that is created under a name has a slash at its end exactly if the name has. -/
theorem urls_of_references (script : Script) (policy : Policy) (level : Int) (timeouts : Timeout.Settings)
    (trust : Trust) (steps : List Step)
    (h : ∀ m ∈ (start script policy level timeouts trust).timeline steps, m.step.IsRooted) :
    (∀ m ∈ (start script policy level timeouts trust).timeline steps, ∀ t, t = m.before ∨ t = m.after →
      ∀ place r, t.references.get? place = some r →
        Url.IsRooted r.url ∧
          (Url.IsClosed r.url ∨ ∃ parent name : Text, r.url = parent ++ "/" ++ name ∧ Url.IsRooted parent ∧
            Url.IsClosed parent ∧ script.Names name ∧ ¬Url.IsClosed name) ∧
          ∀ url, t.resolve r = .ok url → ∃ query, url = r.url ++ "/.json" ++ query ∧
            (Url.IsClosed r.url ↔ ∀ front : Text, r.url ++ "/.json" ≠ front ++ "//.json")) ∧
      ∀ (r : Reference) (name : Text), name ≠ [] → (Url.IsClosed (r.named name).url ↔ Url.IsClosed name) := by
  have hfounds := founds_timeline script.Names (start script policy level timeouts trust) steps
  obtain ⟨hmoments, -⟩ := hfounds h (founded_start script policy level timeouts trust)
  refine ⟨fun m hm t ht place r hr => ?_, fun r name hne => Url.isClosed_append hne _⟩
  have hsession : t.Founded script.Names := by
    obtain ⟨hbefore, hafter⟩ := hmoments m hm
    rcases ht with rfl | rfl
    · exact hbefore
    · exact hafter
  have hurl : Url.Founded script.Names r.url := hsession.references r (List.mem_of_getElem? hr)
  refine ⟨hurl.isRooted, ?_, fun url hresolve => ?_⟩
  · generalize r.url = url at hurl
    cases hurl with
    | closed _ hc => exact .inl hc
    | named hp hc hn ho => exact .inr ⟨_, _, rfl, hp, hc, hn, ho⟩
  · obtain ⟨query, -, hquery⟩ := bind_eq_ok.1 hresolve
    exact ⟨query, (Except.ok.inj hquery).symm, Url.isClosed_iff⟩

/-- The database names a child `k`, and its url is closed. -/
theorem urls_of_references_created :
    let s := start tokenMeanwhile .restoring 30 ⟨none, none⟩ .usual
    ∃ r, (s.run creating).references.get? 1 = some r ∧ Url.IsRooted r.url ∧
      ∀ front : Text, r.url ++ "/.json" ≠ front ++ "//.json" := by
  intro s
  have hrooted : ∀ m ∈ s.timeline creating, m.step.IsRooted := by decide +kernel
  obtain ⟨hurls, -⟩ := urls_of_references tokenMeanwhile .restoring 30 ⟨none, none⟩ .usual creating hrooted
  have hne : creating ≠ [] := List.cons_ne_nil _ _
  obtain ⟨past, m, hm, hafter⟩ := timeline_last s hne
  have hmem : m ∈ s.timeline creating := by
    rw [hm]
    exact List.mem_append_right _ (List.mem_singleton_self m)
  have hnames : ∀ name, tokenMeanwhile.Names name → Url.IsClosed name := by
    rintro name ⟨reply, hreply, r, body, v, ho, hread, hd, hc⟩
    obtain rfl := List.mem_singleton.1 hreply
    obtain rfl := Except.ok.inj ho
    obtain rfl := Except.ok.inj hread
    have hname : (Json.decode (.bytes [0x7B, 0x22, 0x6E, 0x61, 0x6D, 0x65, 0x22, 0x3A, 0x22, 0x6B, 0x22, 0x7D])
        none).toOption.bind childName? = some (Text.ofString "k") := by
      decide +kernel
    rw [hd, Except.toOption, Option.bind_some, hc] at hname
    rw [Option.some.inj hname]
    decide
  have hplace : ((s.run creating).references.get? 1).isSome = true := by decide +kernel
  obtain ⟨r, hr⟩ := Option.isSome_iff_exists.1 hplace
  obtain ⟨hroot, hclosed, -⟩ := hurls m hmem (s.run creating) (.inr hafter.symm) 1 r hr
  refine ⟨r, hr, hroot, Url.isClosed_iff.1 ?_⟩
  rcases hclosed with hclosed | ⟨parent, name, -, -, -, hn, ho⟩
  · exact hclosed
  · exact absurd (hnames name hn) ho

/-- The database names a child `k/`. -/
def slashed : Script :=
  ⟨⟨[],
    .ok ⟨200, [], [0x7B, 0x22, 0x6E, 0x61, 0x6D, 0x65, 0x22, 0x3A, 0x22, 0x6B, 0x2F, 0x22, 0x7D], none⟩⟩, []⟩

/-- The url of the child has a slash at its end, and what it stands for a double one. -/
theorem urls_of_references_slashed :
    let s := start slashed .restoring 30 ⟨none, none⟩ .usual
    (∀ m ∈ s.timeline creating, m.step.IsRooted) ∧
      ((s.run creating).references.get? 1).map Reference.url = some (Text.ofString "http://a/k/") ∧
      (((s.run creating).references.get? 1).bind fun r => ((s.run creating).resolve r).toOption) =
        some (Text.ofString "http://a/k//.json") := by
  decide +kernel

end Session

end RemoteTree
