import RemoteTree.Proofs.Reference.Child
import RemoteTree.Proofs.Session.Query

/-!
# Where a child is found

The segments of a child are put into its url as they are. The first request of what is done at a child goes to
the location that the segments name exactly if they are literal: then there is no other child to be found
there, and nothing above.

* `Session.IsFirstAt`: the first request of what is done at a reference.
* `Session.child_is_below`: **a child of literal segments is found at a location of its own.**
* `Session.child_is_below_elsewhere`: other children are found elsewhere.
-/

namespace RemoteTree.Session

/-- A request is the first one that something done at a reference sends. -/
def IsFirstAt (s : Session) (r : Reference) (q : Sent) : Prop :=
  ∃ name place a, s.references.find? name = some (place, r) ∧ (s.observe (.act name a)).sent.head? = some q

/-- Where the child of a reference is to be found. -/
def location (r : Reference) (path : Text) : Text := r.url ++ "/" ++ Text.join "/" (Reference.segments path) ++ "/.json"

variable {s : Session} {r : Reference} {l : Url.Location}

/-- The url that stands for a child, and the one that is sent for it: its location if its segments are literal,
and another one if not. -/
theorem target_of_child (h : r.url = l.url) {path : Text} (hascii : ∀ c ∈ path, c.val < 0x80)
    (hne : Reference.segments path ≠ []) {url : Text} (hurl : s.resolve (r.child path) = .ok url) :
    ∃ u query, Url.target url = .ok u ∧ ((r.child path).effective (s.token? (r.child path))).query = .ok query ∧
      (Url.Escape.decode (Url.located u) = location r path ↔
        Url.isLiteral (Text.join "/" (Reference.segments path)) = true) ∧
      (Url.isLiteral (Text.join "/" (Reference.segments path)) = true → u = Url.located u ++ query) := by
  obtain ⟨query, hquery, hform, rfl⟩ := Reference.resolve_child h hne hurl
  have hall : ∀ c ∈ Text.join "/" (l.segments ++ Reference.segments path ++ [Text.ofString ".json"]),
      c.val < 0x80 := by
    refine (Text.forall_mem_join (c := CodePoint.ofChar '/') (by decide)).2 fun p hp c hc => ?_
    simp only [List.mem_append, List.mem_singleton] at hp
    rcases hp with (hp | hp) | rfl
    · exact (Url.of_isPlain (l.plain p hp c hc)).1
    · exact hascii c ((Reference.of_mem_segments hp).2 c hc).1
    · exact (by decide : ∀ c ∈ Text.ofString ".json", c.val < 0x80) c hc
  obtain ⟨u, hu, hliteral, hkept⟩ := l.origin.located_of_target hall hform
  rw [Url.isLiteral_below l hne fun p hp hc => ((Reference.of_mem_segments hp).2 _ hc).2 rfl] at hliteral hkept
  have hlocation : location r path = l.origin.url ++ CodePoint.ofChar '/' ::
      Text.join "/" (l.segments ++ Reference.segments path ++ [Text.ofString ".json"]) := by
    have hjoin := Url.flatMap_slash hne
    rw [← Url.flatMap_slash (by simp), location, h]
    simp only [Url.Location.url, List.flatMap_append, hjoin, List.flatMap_singleton]
    simp [Text.ofString]
  rw [← hlocation] at hliteral
  exact ⟨u, query, hu, hquery, hliteral, hkept⟩

/-- What is done at a child sends its first request there. -/
theorem located_of_isFirstAt (h : r.url = l.url) {path : Text} (hascii : ∀ c ∈ path, c.val < 0x80)
    (hne : Reference.segments path ≠ []) {q : Sent} (hq : s.IsFirstAt (r.child path) q) :
    (Url.Escape.decode (Url.located q.request.url) = location r path ↔
      Url.isLiteral (Text.join "/" (Reference.segments path)) = true) ∧
      (Url.isLiteral (Text.join "/" (Reference.segments path)) = true →
        ∃ query, ((r.child path).effective (s.token? (r.child path))).query = .ok query ∧
          q.request.url = Url.located q.request.url ++ query) := by
  obtain ⟨name, place, a, hr, hhead⟩ := hq
  obtain ⟨url, hresolve, htarget⟩ := target_of_sent hr a hhead
  obtain ⟨u, query, hu, hquery, hliteral, hkept⟩ := target_of_child h hascii hne hresolve
  obtain rfl := Except.ok.inj (htarget.symm.trans hu)
  exact ⟨hliteral, fun hl => ⟨query, hquery, hkept hl⟩⟩

/-- Different segments have different locations. -/
theorem segments_of_location {path path' : Text} (h : location r path = location r path')
    (hne : Reference.segments path ≠ []) (hne' : Reference.segments path' ≠ []) :
    Reference.segments path = Reference.segments path' := by
  have hslash : Text.ofString "/" = [CodePoint.ofChar '/'] := rfl
  unfold location at h
  rw [hslash] at h
  have hpieces := congrArg (Text.pieces '/') (List.append_cancel_left (List.append_cancel_right h))
  rwa [Text.pieces_join hne fun p hp hc => ((Reference.of_mem_segments hp).2 _ hc).2 rfl,
    Text.pieces_join hne' fun p hp hc => ((Reference.of_mem_segments hp).2 _ hc).2 rfl] at hpieces

/-- No location below a url is one of those above it. -/
theorem location_ne_above {path above rest : Text} (h : r.url = above ++ rest) : location r path ≠ above ++ "/.json" := by
  intro heq
  have hlength := congrArg List.length heq
  have hslash : "/".toList.length = 1 := rfl
  simp only [location, h, List.length_append, Text.ofString, List.length_map] at hlength
  omega

/-- **A child of literal segments is found at a location of its own.** Below a url of a plain host and plain
segments there is something to be sent for every child with segments of ASCII. The first request of what is done
at the child

* is sent to the url of the reference with the segments behind it, read with all its escapes, exactly if they
  have no `?`, no `#`, no segment of dots and no escapes that stand for something else;
* then has the query of the effective parameters and nothing else behind it;
* and then goes neither where another such child is found nor to the reference or one above it. -/
theorem child_is_below (s : Session) (r : Reference) (l : Url.Location) (h : r.url = l.url) (path : Text)
    (hascii : ∀ c ∈ path, c.val < 0x80) (hne : Reference.segments path ≠ []) :
    (∀ url, s.resolve (r.child path) = .ok url → ∃ u, Url.target url = .ok u) ∧
    ∀ q, s.IsFirstAt (r.child path) q →
      (Url.Escape.decode (Url.located q.request.url) =
          r.url ++ "/" ++ Text.join "/" (Reference.segments path) ++ "/.json" ↔
        Url.isLiteral (Text.join "/" (Reference.segments path)) = true) ∧
      (Url.isLiteral (Text.join "/" (Reference.segments path)) = true →
        (∃ query, ((r.child path).effective (s.token? (r.child path))).query = .ok query ∧
          q.request.url = Url.located q.request.url ++ query) ∧
        (∀ (t : Session) (path' : Text) (q' : Sent), (∀ c ∈ path', c.val < 0x80) →
          Reference.segments path' ≠ [] → Url.isLiteral (Text.join "/" (Reference.segments path')) = true →
          t.IsFirstAt (r.child path') q' → Reference.segments path' ≠ Reference.segments path →
          Url.located q'.request.url ≠ Url.located q.request.url) ∧
        ∀ above rest, r.url = above ++ rest →
          Url.Escape.decode (Url.located q.request.url) ≠ above ++ "/.json") := by
  refine ⟨fun url hurl => ?_, fun q hq => ?_⟩
  · obtain ⟨u, -, hu, -⟩ := target_of_child h hascii hne hurl
    exact ⟨u, hu⟩
  · obtain ⟨hiff, hquery⟩ := located_of_isFirstAt h hascii hne hq
    refine ⟨hiff, fun hl => ⟨hquery hl, fun t path' q' hascii' hne' hl' hq' hdiff heq => ?_,
      fun above rest hurl heq => ?_⟩⟩
    · have hthere := (located_of_isFirstAt h hascii' hne' hq').1.2 hl'
      rw [heq, hiff.2 hl] at hthere
      exact hdiff (segments_of_location hthere hne hne').symm
    · rw [hiff.2 hl] at heq
      exact location_ne_above hurl heq

/-- The location `http://a/b`. -/
def belowHost : Url.Location :=
  ⟨⟨"http", "a", .inl rfl, by decide, by decide, by decide⟩, [Text.ofString "b"], by decide, by decide⟩

/-- A client with a child of `http://a/b`, and a database that always answers. -/
def besides (path : Text) : Session :=
  (start ⟨⟨[], .ok ⟨200, [], [0x31], none⟩⟩, []⟩ .restoring 30 ⟨none, none⟩ .usual).introduce "c"
    ((Reference.make "http://a/b" 0 (.int 3)).child path)

/-- A blank and a lonely percent sign are sent with escapes, and the child is found below its parent. -/
theorem child_is_below_blank :
    ∃ q, ((besides "c d%").observe (.act "c" .remove)).sent.head? = some q ∧
      Url.Escape.decode (Url.located q.request.url) = Text.ofString "http://a/b/c d%/.json" := by
  have hsent : ((besides "c d%").observe (.act "c" .remove)).sent.length = 1 := by decide +kernel
  obtain ⟨q, hq⟩ : ∃ q, ((besides "c d%").observe (.act "c" .remove)).sent.head? = some q := by
    cases hx : ((besides "c d%").observe (.act "c" .remove)).sent with
    | nil => rw [hx] at hsent; cases hsent
    | cons q _ => exact ⟨q, rfl⟩
  have hfound := (child_is_below (besides "c d%") (.make "http://a/b" 0 (.int 3)) belowHost (by decide) "c d%"
    (by decide) (by decide)).2 q ⟨"c", 0, .remove, rfl, hq⟩
  exact ⟨q, hq, hfound.1.2 (by decide)⟩

/-- Where the first request for a child of `http://a/b` goes, read with all its escapes. -/
def found (path : Text) : Option Text :=
  ((besides path).observe (.act "c" .remove)).sent.head?.map fun q => Url.Escape.decode (Url.located q.request.url)

/-- Segments that are not literal: dots lead to what is above, a mark ends the path, and an escaped slash is
found where a slash is. -/
theorem child_is_below_elsewhere :
    found ".." = some (Text.ofString "http://a/.json") ∧ found "c?d" = some (Text.ofString "http://a/b/c") ∧
      found "c#d" = some (Text.ofString "http://a/b/c") ∧
      found "c%2Fd" = some (Text.ofString "http://a/b/c/d/.json") ∧
      found "c%2Fd" = found "c/d" := by
  decide +kernel

end RemoteTree.Session
