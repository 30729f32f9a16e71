import RemoteTree.Proofs.Reference.Query
import RemoteTree.Proofs.Url.Base
import RemoteTree.Proofs.Url.Location

/-!
# The url of a child

Below a location of plain segments a child adds its own segments, and every request the name of the
representation. What is sent for it is literal exactly if the child's own segments are.

* `Url.Location`: an origin and plain segments.
* `Parameters.isQuery_of_query`: a query is a form behind its mark, whatever the parameters are.
* `Reference.resolve_child`: the url that the child of a location stands for.
* `Url.isLiteral_below`: **only the segments of the child decide whether it is sent for itself.**
-/

namespace RemoteTree

namespace Url

/-! ## Locations -/

/-- ASCII letters, digits and `-_~`. -/
def isPlain (c : CodePoint) : Bool := c.isLetterOrDigit || c == '-' || c == '_' || c == '~'

theorem of_isPlain {c : CodePoint} (h : isPlain c = true) :
    c.val < 0x80 ∧ c ≠ '%' ∧ c ≠ '/' ∧ c ≠ '.' ∧ goesOn c = true := by
  have hun : Escape.isUnreserved c = true := by
    simp only [isPlain, Bool.or_eq_true] at h
    simp only [Escape.isUnreserved, Bool.or_eq_true]
    rcases h with ((h | h) | h) | h <;> simp [h]
  have hnot : ∀ m, isPlain m = false → c ≠ m := fun m hm he => by
    rw [he, hm] at h
    cases h
  exact ⟨Escape.lt_of_unreserved hun, hnot _ (by decide), hnot _ (by decide), hnot _ (by decide),
    goesOn_iff.2 ⟨hnot _ (by decide), hnot _ (by decide)⟩⟩

/-- An origin and plain segments below it, the last of them not empty. -/
structure Location where
  origin : Origin
  segments : List Text
  plain : ∀ s ∈ segments, ∀ c ∈ s, isPlain c = true
  closed : segments.getLast? ≠ some []

/-- The url of a location. -/
def Location.url (l : Location) : Text := l.origin.url ++ l.segments.flatMap (CodePoint.ofChar '/' :: ·)

/-- The url of a location is in the form of a base. -/
theorem Location.base_url (l : Location) : base l.url = l.url := by
  have hreach : isReachable l.url = true := by
    unfold isReachable url Origin.url
    rcases l.origin.web with hw | hw <;> rw [hw] <;> simp [Text.ofString]
  refine base_of_closed hreach fun hc => ?_
  unfold url at hc
  rcases List.eq_nil_or_concat l.segments with hnil | ⟨front, s, hs⟩
  · -- the last character is one of the host
    rw [hnil, List.flatMap_nil, List.append_nil, Origin.url, getLast?_append l.origin.named] at hc
    have := l.origin.plain _ (List.mem_of_getLast? hc)
    exact absurd this (by decide)
  · have hne : s ≠ [] := fun he => l.closed (by rw [hs, he]; simp)
    have hflat : l.origin.url ++ l.segments.flatMap (CodePoint.ofChar '/' :: ·) =
        (l.origin.url ++ front.flatMap (CodePoint.ofChar '/' :: ·) ++ [CodePoint.ofChar '/']) ++ s := by
      rw [hs]
      simp
    rw [hflat, getLast?_append hne] at hc
    have hmem : s ∈ l.segments := by rw [hs]; simp
    exact (of_isPlain (l.plain s hmem _ (List.mem_of_getLast? hc))).2.2.1 rfl

/-! ## Below a location -/

theorem flatMap_slash {ps : List Text} (h : ps ≠ []) :
    ps.flatMap (CodePoint.ofChar '/' :: ·) = CodePoint.ofChar '/' :: Text.join "/" ps := by
  cases ps with
  | nil => exact absurd rfl h
  | cons p ps =>
    rw [show Text.ofString "/" = [CodePoint.ofChar '/'] from rfl, Text.join_cons]
    rfl

/-- **Only the segments of the child decide whether it is sent for itself.** -/
theorem isLiteral_below (l : Location) {path : List Text} (hne : path ≠ [])
    (hpath : ∀ s ∈ path, CodePoint.ofChar '/' ∉ s) :
    isLiteral (Text.join "/" (l.segments ++ path ++ [Text.ofString ".json"])) = isLiteral (Text.join "/" path) := by
  have hslash : Text.ofString "/" = [CodePoint.ofChar '/'] := rfl
  have hlast : ∀ c ∈ Text.ofString ".json", c ≠ '/' ∧ c ≠ '%' ∧ goesOn c = true := by decide
  have hall : l.segments ++ path ++ [Text.ofString ".json"] ≠ [] := by simp
  have hnot : ∀ s ∈ l.segments ++ path ++ [Text.ofString ".json"], CodePoint.ofChar '/' ∉ s := by
    intro s hs hc
    simp only [List.mem_append, List.mem_singleton] at hs
    rcases hs with (hs | hs) | rfl
    · exact (of_isPlain (l.plain s hs _ hc)).2.2.1 rfl
    · exact hpath s hs hc
    · exact (hlast _ hc).1 rfl
  have hgoes : ∀ ps : List Text, (Text.join "/" ps).all goesOn = ps.all fun s => s.all goesOn := by
    intro ps
    rw [Bool.eq_iff_iff]
    simp only [List.all_eq_true]
    exact Text.forall_mem_join (c := CodePoint.ofChar '/') (by decide)
  -- a plain segment is none of dots
  have hplain : l.segments.all (fun s => s.all goesOn) = true ∧ l.segments.all (fun s => !isDots s) = true := by
    simp only [List.all_eq_true, Bool.not_eq_true']
    refine ⟨fun s hs c hc => (of_isPlain (l.plain s hs c hc)).2.2.2.2, fun s hs => ?_⟩
    refine Bool.eq_false_iff.2 fun hd => ?_
    have hdot : CodePoint.ofChar '.' ∈ s := by rcases isDots_iff.1 hd with rfl | rfl <;> decide
    exact (of_isPlain (l.plain s hs _ hdot)).2.2.2.1 rfl
  have hitself : CodePoint.ofChar '/' :: Text.join "/" (l.segments ++ path ++ [Text.ofString ".json"]) =
      l.segments.flatMap (CodePoint.ofChar '/' :: ·) ++ ((CodePoint.ofChar '/' :: Text.join "/" path) ++
        CodePoint.ofChar '/' :: Text.ofString ".json") := by
    rw [← flatMap_slash hall, ← flatMap_slash hne]
    simp
  have hsign : CodePoint.ofChar '%' ∉ l.segments.flatMap (CodePoint.ofChar '/' :: ·) := by
    intro hm
    obtain ⟨s, hs, hc⟩ := List.mem_flatMap.1 hm
    rcases List.mem_cons.1 hc with he | hc
    · exact absurd he (by decide)
    · exact (of_isPlain (l.plain s hs _ hc)).2.1 rfl
  unfold isLiteral
  rw [hgoes, hgoes, hitself, Escape.isItself_append hsign (by decide) (by decide), hslash,
    Text.pieces_join hall hnot, Text.pieces_join hne hpath]
  simp only [List.all_append, hplain.1, hplain.2, Bool.true_and]
  have hjson : List.all [Text.ofString ".json"] (fun s => s.all goesOn) = true ∧
      List.all [Text.ofString ".json"] (fun s => !isDots s) = true := by decide
  rw [hjson.1, hjson.2, Bool.and_true, Bool.and_true]

end Url

/-! ## Queries -/

theorem Parameters.isForm_of_encodeValue {v : Value} {t : Text} (h : encodeValue v = .ok t) : Form.IsForm t := by
  unfold encodeValue at h
  split at h
  · obtain rfl := Except.ok.inj h
    exact .encodeBytes _
  split at h
  · cases h
  · unfold Form.encodeText at h
    rw [mapError_eq_ok] at h
    obtain ⟨bs, -, rfl⟩ := map_eq_ok.1 h
    exact .encodeBytes bs

/-- **A query is a form behind its mark**, whatever the parameters are. -/
theorem Parameters.isQuery_of_query {ps : Parameters} {t : Text} (h : ps.query = .ok t) : Url.IsQuery t := by
  unfold query at h
  obtain ⟨pairs, hpairs, h⟩ := bind_eq_ok.1 h
  have hforms : ∀ p ∈ pairs, Form.IsForm p.1 ∧ Form.IsForm p.2 := by
    intro p hp
    obtain ⟨⟨q, v⟩, -, hq⟩ := of_mem_mapM hpairs p hp
    obtain ⟨e, he, hq⟩ := bind_eq_ok.1 hq
    obtain rfl := Except.ok.inj hq
    refine ⟨?_, isForm_of_encodeValue he⟩
    rw [← q.encode_name.2]
    exact .encodeBytes _
  cases pairs with
  | nil => exact .inl (Except.ok.inj h).symm
  | cons p ps =>
    obtain rfl := Except.ok.inj h
    refine .inr ⟨_, .joinPairs_of hforms, ?_, rfl⟩
    cases ps <;> simp [Form.joinPairs, Text.join, Text.ofString]

/-! ## Children -/

namespace Reference

theorem of_mem_segments {path s : Text} (h : s ∈ segments path) : s ≠ [] ∧ ∀ c ∈ s, c ∈ path ∧ c ≠ '/' := by
  unfold segments at h
  obtain ⟨hs, hne⟩ := List.mem_filter.1 h
  exact ⟨by simpa using hne, fun c hc => Text.mem_of_mem_pieces hs hc⟩

/-- The child of a location has the url of the location with its segments behind it. -/
theorem url_child {r : Reference} {l : Url.Location} (h : r.url = l.url) {path : Text} (hne : segments path ≠ []) :
    (r.child path).url = r.url ++ "/" ++ Text.join "/" (segments path) := by
  have hbase : Url.base r.url = r.url := by rw [h, l.base_url]
  have hempty : (segments path).isEmpty = false := by simpa using hne
  show below (Url.base r.url) (segments path) = _
  rw [hbase, below, hempty]
  rfl

/-- The url that the child of a location stands for, in the form in which it is sent. -/
theorem resolve_child {r : Reference} {l : Url.Location} (h : r.url = l.url) {path : Text}
    (hne : segments path ≠ []) {token : Option Value} {url : Text} (hurl : (r.child path).resolve token = .ok url) :
    ∃ query, ((r.child path).effective token).query = .ok query ∧ Url.IsQuery query ∧
      url = l.origin.url ++ (CodePoint.ofChar '/' ::
        Text.join "/" (l.segments ++ segments path ++ [Text.ofString ".json"]) ++ query) := by
  obtain ⟨query, hquery, hurl⟩ := bind_eq_ok.1 hurl
  obtain rfl := Except.ok.inj hurl
  refine ⟨query, hquery, Parameters.isQuery_of_query hquery, ?_⟩
  rw [url_child h hne, h, ← Url.flatMap_slash (by simp)]
  have hjoin := Url.flatMap_slash hne
  simp only [Url.Location.url, List.flatMap_append, hjoin, List.flatMap_singleton]
  simp [Text.ofString]

end Reference

end RemoteTree
