import RemoteTree.Proofs.Reference.Roots
import RemoteTree.Proofs.Session.Inherited

/-!
# Paths of the references of a session

Whatever strings references are made of and set to, and whatever the database calls their children, each of them has
a url that a path can be put behind in parts, and one whose site does not change on the way.

* `Url.inherited_kept`: what references keep they hand on to those that are made from them.
* `child_of_paths`: **child is a homomorphism from paths.**
* `root_of_paths`: **paths from the root are absolute.**
-/

namespace RemoteTree

/-- **What references keep they hand on**, whatever names are given to children. -/
theorem Url.inherited_kept (names : Text → Prop) : Inherited names IsKept where
  derived := by
    intro r c d h hd
    have hrefine : ∀ (p : Parameter) (word : Except Error Text), r.refine p word = .ok c → IsKept c.url := by
      intro p word hword
      obtain ⟨w, -, rfl⟩ := map_eq_ok.1 hword
      exact isKept_base r.url
    cases d with
    | child path =>
      obtain ⟨t, -, hd⟩ := bind_eq_ok.1 hd
      obtain rfl := Except.ok.inj hd
      exact .inl (Reference.isRooted_child h.hasRoot t)
    | root path =>
      obtain ⟨origin, -, hd⟩ := bind_eq_ok.1 hd
      obtain ⟨t, -, hd⟩ := bind_eq_ok.1 hd
      obtain rfl := Except.ok.inj hd
      exact isKept_base _
    | orderBy v | limitToFirst v | limitToLast v | startAt v | endAt v | equalTo v => exact hrefine _ _ hd
  named := fun h _ _ => .inl (((isRooted_base h.hasRoot).append _).append _)

namespace Session

/-- Every reference of every session has a url that references may keep. -/
theorem isKept_of_timeline {script : Script} {policy : Policy} {level : Int} {timeouts : Timeout.Settings}
    {trust : Trust} {steps : List Step} {m : Moment}
    (hm : m ∈ (start script policy level timeouts trust).timeline steps) {t : Session}
    (ht : t = m.before ∨ t = m.after) {place : Nat} {r : Reference} (hr : t.references.get? place = some r) :
    Url.IsKept r.url :=
  of_inherited (Url.inherited_kept script.Names) (fun _ _ url _ => Url.isKept_base url) hm ht hr

/-- **Child is a homomorphism from paths**, for every reference at every moment of every session, the steps in
between included.

* The child at `b` of the child at `a` is the child at `a/b`, as a whole: it has the same url and the same
  configuration, and so it stands for the same and is sent the same way in every session. That is the reference with
  the segments of both paths below the base of its url.
* Two references with one url have children with one url exactly if the paths have the same segments: nothing else
  of the references counts, and no slash more or less in the paths. -/
theorem child_of_paths (script : Script) (policy : Policy) (level : Int) (timeouts : Timeout.Settings)
    (trust : Trust) (steps : List Step) :
    ∀ m ∈ (start script policy level timeouts trust).timeline steps, ∀ t, t = m.before ∨ t = m.after →
      ∀ place r, t.references.get? place = some r →
        (∀ a b : Text, ∃ c d, r.derive (.child (.text a)) = .ok c ∧ c.derive (.child (.text b)) = .ok d ∧
          r.derive (.child (.text (a ++ "/" ++ b))) = .ok d ∧
          d = { r with url := Reference.below (Url.base r.url) (Reference.segments a ++ Reference.segments b) }) ∧
        ∀ q : Reference, q.url = r.url → ∀ a b : Text, ∃ c d, q.derive (.child (.text a)) = .ok c ∧
          r.derive (.child (.text b)) = .ok d ∧ (c.url = d.url ↔ Reference.segments a = Reference.segments b) := by
  intro m hm t ht place r hr
  have hroot := (isKept_of_timeline hm ht hr).hasRoot
  refine ⟨fun a b => ?_, fun q hq a b => ⟨_, _, rfl, rfl, Reference.url_child_eq_iff hq a b⟩⟩
  have hchild := Reference.child_child hroot a b
  refine ⟨r.child a, r.child (a ++ "/" ++ b), rfl, congrArg Except.ok hchild, rfl, ?_⟩
  rw [Reference.child_eq, Reference.segments_append]

/-- A reference is made of two slashes, and nothing is left of them but a scheme, which is taken for a host. -/
def slashes : List Step := [.reference "r" (.text "//") (some (.int 3)) false]

/-- Walked in two parts or in one, the path leads to the same child. -/
theorem child_of_paths_slashes :
    ∃ r c d, ((start tokenMeanwhile .restoring 30 ⟨none, none⟩ .usual).run slashes).references.get? 0 = some r ∧
      r.url = Text.ofString "https:" ∧ r.derive (.child (.text "a//")) = .ok c ∧
      c.derive (.child (.text "/b")) = .ok d ∧ r.derive (.child (.text "a////b")) = .ok d ∧
      d.url = Text.ofString "https://https:/a/b" := by
  obtain ⟨m, hm, hafter⟩ :=
    (start tokenMeanwhile .restoring 30 ⟨none, none⟩ .usual).exists_moment_after (List.cons_ne_nil _ _ : slashes ≠ [])
  have hr : ((start tokenMeanwhile .restoring 30 ⟨none, none⟩ .usual).run slashes).references.get? 0 =
      some (.make "//" 0 (.int 3)) := rfl
  obtain ⟨hpaths, -⟩ := child_of_paths tokenMeanwhile .restoring 30 ⟨none, none⟩ .usual slashes m hm _ (.inr hafter)
    0 _ hr
  obtain ⟨c, d, hc, hd, hboth, rfl⟩ := hpaths "a//" "/b"
  exact ⟨_, c, _, hr, by decide, hc, hd, hboth, by decide⟩

/-- **Paths from the root are absolute**, for every reference at every moment of every session, the steps in between
included.

* A path from the root is refused as malformed exactly if the url of the reference has no parts, or no scheme or no
  authority among them.
* Else the reference at the path has the url that scheme and authority make, and behind it nothing if the path is
  made of slashes, and a slash and the path without those around it if not; all else is as it was.
* The reference itself stays in its place as it is.
* Where one path from the root leads somewhere, every path from the root and every child leads to a reference from
  which that path leads to the same place. So do all that can be reached by any number of both, and scheme and
  authority stay the same on the way. -/
theorem root_of_paths (script : Script) (policy : Policy) (level : Int) (timeouts : Timeout.Settings)
    (trust : Trust) (steps : List Step) :
    ∀ m ∈ (start script policy level timeouts trust).timeline steps, ∀ t, t = m.before ∨ t = m.after →
      ∀ place r, t.references.get? place = some r →
        (∀ p : Text, (∃ e, r.derive (.root (.text p)) = .error e ∧ e.family? = some .malformedUrl) ↔
          ∀ parts, Url.split r.url = .ok parts → parts.scheme = [] ∨ parts.authority = []) ∧
        (∀ parts, Url.split r.url = .ok parts → parts.scheme ≠ [] → parts.authority ≠ [] → ∀ p : Text,
          r.derive (.root (.text p)) =
            .ok { r with url := parts.scheme ++ "://" ++ parts.authority ++ Reference.fromRoot p }) ∧
        (∀ (name as p : Text), t.references.find? name = some (place, r) →
          (t.perform (.act name (.derive (.root (.text p)) as))).1.references.get? place = some r) ∧
        ∀ (q : Text) d, r.derive (.root (.text q)) = .ok d →
          (∀ p s : Text, ∃ x y, r.derive (.root (.text p)) = .ok x ∧ x.derive (.root (.text q)) = .ok d ∧
            r.derive (.child (.text s)) = .ok y ∧ y.derive (.root (.text q)) = .ok d) ∧
          ∀ c, Relation.ReflTransGen Reference.Moves r c → c.derive (.root (.text q)) = .ok d ∧
            ∃ parts own, Url.split r.url = .ok parts ∧ Url.split c.url = .ok own ∧
              own.scheme = parts.scheme ∧ own.authority = parts.authority := by
  intro m hm t ht place r hr
  have hkept := isKept_of_timeline hm ht hr
  have hquiet : ∀ (name as p : Text), t.references.find? name = some (place, r) →
      (t.perform (.act name (.derive (.root (.text p)) as))).1.references.get? place = some r := by
    intro name as p hfind
    simp only [perform, step, hfind, act]
    cases r.derive (.root (.text p)) with
    | error e => exact hr
    | ok c => exact Registry.get?_insert hr as c
  obtain ⟨scheme, authority, h⟩ | ⟨hnone, e, hfamily, he⟩ := Reference.isAt_or_unrooted hkept
  · obtain ⟨parts, hparts, hpair⟩ := map_eq_ok.1 h.site
    obtain ⟨rfl, rfl⟩ := Prod.mk.inj hpair
    refine ⟨fun p => ⟨?_, fun hno => ?_⟩, fun own hown _ _ p => ?_, hquiet, fun q d hd => ⟨fun p s => ?_, fun c hc => ?_⟩⟩
    · rintro ⟨e, he, -⟩
      rw [h.derive_root] at he
      cases he
    · rcases hno parts hparts with hscheme | hauthority
      · exact absurd hscheme h.scheme_ne
      · exact absurd hauthority h.authority_ne
    · rw [hparts] at hown
      obtain rfl := Except.ok.inj hown
      exact h.derive_root p
    · rw [← hd, h.derive_root q]
      exact ⟨_, _, h.derive_root p, (h.root p).derive_root q, rfl, (h.child s).derive_root q⟩
    · obtain ⟨hat, hrest⟩ := h.of_moves hc
      obtain ⟨own, hown, hsame⟩ := map_eq_ok.1 hat.site
      obtain ⟨hscheme, hauthority⟩ := Prod.mk.inj hsame
      refine ⟨?_, parts, own, hparts, hown, hscheme, hauthority⟩
      rw [← hd, h.derive_root q, hat.derive_root q, hrest]
  · have hunrooted : ∀ parts, Url.split r.url = .ok parts → parts.scheme = [] ∨ parts.authority = [] :=
      fun parts hparts => hnone _ _ (map_eq_ok.2 ⟨parts, hparts, rfl⟩)
    refine ⟨fun p => ⟨fun _ => hunrooted, fun _ => ⟨e, he p, hfamily⟩⟩, fun parts hparts hscheme hauthority => ?_, hquiet,
      fun q d hd => ?_⟩
    · rcases hunrooted parts hparts with hnil | hnil
      · exact absurd hnil hscheme
      · exact absurd hnil hauthority
    · rw [he q] at hd
      cases hd

/-- A reference whose url has a user, an address in brackets, a port, and more than a path. -/
def addressed : List Step := [.reference "r" (.text "http://u@[::1]:80/a?b#c/") (some (.int 3)) false]

/-- From below and from another path, the path leads to the same place. -/
theorem root_of_paths_addressed :
    ∃ r d, ((start tokenMeanwhile .restoring 30 ⟨none, none⟩ .usual).run addressed).references.get? 0 = some r ∧
      r.url = Text.ofString "http://u@[::1]:80/a?b#c" ∧ r.derive (.root (.text "//x//y/")) = .ok d ∧
      d.url = Text.ofString "http://u@[::1]:80/x//y" ∧
      ∃ c, Relation.ReflTransGen Reference.Moves r c ∧ c.url = Text.ofString "http://u@[::1]:80/z/s" ∧
        c.derive (.root (.text "//x//y/")) = .ok d := by
  obtain ⟨m, hm, hafter⟩ :=
    (start tokenMeanwhile .restoring 30 ⟨none, none⟩ .usual).exists_moment_after (List.cons_ne_nil _ _ : addressed ≠ [])
  have hr : ((start tokenMeanwhile .restoring 30 ⟨none, none⟩ .usual).run addressed).references.get? 0 =
      some (.make "http://u@[::1]:80/a?b#c/" 0 (.int 3)) := rfl
  have hparts : Url.split (Reference.make "http://u@[::1]:80/a?b#c/" 0 (.int 3)).url =
      .ok ⟨"http", "u@[::1]:80", "/a", "b", "c"⟩ := rfl
  obtain ⟨-, hplace, -, hagain⟩ := root_of_paths tokenMeanwhile .restoring 30 ⟨none, none⟩ .usual addressed m hm _
    (.inr hafter) 0 _ hr
  have hroot := hplace _ hparts (by decide) (by decide)
  obtain ⟨-, hmoves⟩ := hagain "//x//y/" _ (hroot "//x//y/")
  have hmove : Relation.ReflTransGen Reference.Moves (.make "http://u@[::1]:80/a?b#c/" 0 (.int 3)) _ :=
    .tail (.single ⟨"z/", .inr (hroot "z/")⟩) ⟨"s", .inl rfl⟩
  exact ⟨_, _, hr, by decide, hroot "//x//y/", by decide, _, hmove, by decide, (hmoves _ hmove).1⟩

end Session

end RemoteTree
