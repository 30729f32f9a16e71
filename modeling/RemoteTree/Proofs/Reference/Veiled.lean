import RemoteTree.Proofs.Reference.Query
import RemoteTree.Proofs.Url.VeiledParts
import RemoteTree.Reference.Derivation

/-!
# References that differ in their tokens

References that are the same but for their tokens stand for urls that are veiled: the token is the first value of
the query. Whatever is derived from them or changed in them alike differs in nothing else.

* `Value.IsTokenLike`: tokens that may stand for each other.
* `Parameters.Alike`, `Reference.Alike`: parameters and references that differ only in the token.
* `Parameters.Alike.query`, `Reference.Alike.resolve`: **their queries and their urls differ only in secrets.**
* `Reference.Alike.derive`: derivations of both.
-/

namespace RemoteTree

/-! ## Tokens -/

/-- Tokens that may stand for each other: texts without surrogates. Anything else stands for itself alone. -/
inductive Value.IsTokenLike : Value → Value → Prop where
  | same (v : Value) : IsTokenLike v v
  | texts {t u : Text} (ht : Utf8.writable t = true) (hu : Utf8.writable u = true) : IsTokenLike (.text t) (.text u)

/-! ## Parameters -/

/-- Parameters that differ only in the token. -/
structure Parameters.Alike (ps qs : Parameters) : Prop where
  token : Option.Rel Value.IsTokenLike (ps.get? .auth) (qs.get? .auth)
  rest : ∀ p, p ≠ .auth → ps.get? p = qs.get? p

namespace Parameters

variable {ps qs : Parameters}

/-- The entries but for that of the token. -/
def others (ps : Parameters) : List (Parameter × Value) :=
  Parameter.all.tail.filterMap fun p => (ps.get? p).map fun v => (p, v)

/-- No name comes before that of the token. -/
theorem entries_eq (ps : Parameters) :
    ps.entries = ((ps.get? .auth).map fun v => (Parameter.auth, v)).toList ++ ps.others := by
  unfold entries others Parameter.all
  rw [List.filterMap_cons]
  cases ps.get? .auth <;> rfl

theorem encodeEntry_text (p : Parameter) {t : Text} (ht : Utf8.writable t = true) :
    encodeEntry (p, .text t) = .ok (Text.ofString p.name, Form.encodeBytes (Utf8.unitsOf t)) := by
  unfold encodeEntry encodeValue Form.encodeText
  simp only [Value.plain, Utf8.encode_of_writable ht]
  rfl

namespace Alike

theorem refl (ps : Parameters) : ps.Alike ps := by
  refine ⟨?_, fun _ _ => rfl⟩
  cases ps.get? .auth with
  | none => exact .none
  | some v => exact .some (.same v)

/-- A value in the place of a parameter of both. -/
theorem set (h : ps.Alike qs) (p : Parameter) (v : Value) : (ps.set p v).Alike (qs.set p v) := by
  refine ⟨?_, fun q hq => ?_⟩
  · rw [get?_set, get?_set]
    split
    · exact .some (.same v)
    · exact h.token
  · rw [get?_set, get?_set, h.rest q hq]

theorem setToken (h : ps.Alike qs) {v w : Value} (hvw : v.IsTokenLike w) :
    (ps.set .auth v).Alike (qs.set .auth w) := by
  refine ⟨.some hvw, fun q hq => ?_⟩
  rw [get?_set, get?_set, if_neg hq, if_neg hq, h.rest q hq]

theorem clear (h : ps.Alike qs) (p : Parameter) : (ps.clear p).Alike (qs.clear p) := by
  refine ⟨?_, fun q hq => ?_⟩
  · rw [get?_clear, get?_clear]
    split
    · exact .none
    · exact h.token
  · rw [get?_clear, get?_clear, h.rest q hq]

theorem others_eq (h : ps.Alike qs) : ps.others = qs.others := by
  have hnot : Parameter.auth ∉ Parameter.all.tail := by decide
  unfold others
  generalize Parameter.all.tail = names at hnot ⊢
  induction names with
  | nil => rfl
  | cons p names ih =>
    rw [List.mem_cons, not_or] at hnot
    rw [List.filterMap_cons, List.filterMap_cons, ih hnot.2, h.rest p (Ne.symm hnot.1)]

/-- A secret in the place of the first value of a form. -/
theorem veiled_joinPairs {x y : Text} (hx : Url.IsSecret x) (hy : Url.IsSecret y) (pairs : List (Text × Text)) :
    Url.Veiled false ("?" ++ Form.joinPairs ((Text.ofString "auth", x) :: pairs))
      ("?" ++ Form.joinPairs ((Text.ofString "auth", y) :: pairs)) := by
  have hjoin : ∀ x : Text, Form.joinPairs ((Text.ofString "auth", x) :: pairs) = Text.ofString "auth" ++
      CodePoint.ofChar '=' :: (x ++ (pairs.map fun p => p.1 ++ CodePoint.ofChar '=' :: p.2).flatMap
        (CodePoint.ofChar '&' :: ·)) := by
    intro x
    unfold Form.joinPairs
    rw [List.map_cons, show Text.ofString "&" = [CodePoint.ofChar '&'] from rfl, Text.join_cons]
    simp [Text.ofString]
  have hname : ∀ c ∈ Text.ofString "auth", c ≠ '?' ∧ c ≠ '#' := by decide
  rw [hjoin, hjoin]
  exact (Url.Veiled.prepend (b := true) hname (.secret hx hy (.refl _ _))).mark []

/-- **The queries differ only in secrets**, for the token comes first. -/
theorem query (h : ps.Alike qs) : Agree (Url.Veiled false) ps.query qs.query := by
  have htoken := h.token
  unfold Parameters.query
  rw [entries_eq, entries_eq, h.others_eq]
  generalize qs.others = rest
  generalize ps.get? .auth = v at htoken ⊢
  generalize qs.get? .auth = w at htoken ⊢
  cases htoken with
  | none => exact .refl (fun t => .refl _ t) _
  | some hvw =>
    cases hvw with
    | same v => exact .refl (fun t => .refl _ t) _
    | texts ht hu =>
      simp only [Option.map_some, Option.toList_some, List.singleton_append, List.mapM_cons, encodeEntry_text _ ht,
        encodeEntry_text _ hu]
      cases hrest : rest.mapM encodeEntry with
      | error e => exact .error _ _
      | ok pairs => exact .ok (veiled_joinPairs (.encodeBytes _) (.encodeBytes _) pairs)

end Alike

end Parameters

/-! ## References -/

/-- References that differ only in the token. -/
structure Reference.Alike (r q : Reference) : Prop where
  url : r.url = q.url
  channel : r.channel = q.channel
  timeout : r.timeout = q.timeout
  store : r.store = q.store
  parameters : r.parameters.Alike q.parameters

namespace Reference.Alike

variable {r q : Reference}

theorem refl (r : Reference) : r.Alike r := ⟨rfl, rfl, rfl, rfl, .refl _⟩

theorem withUrl (h : r.Alike q) (url : Text) : { r with url }.Alike { q with url } :=
  ⟨rfl, h.channel, h.timeout, h.store, h.parameters⟩

theorem withParameters (h : r.Alike q) {ps qs : Parameters} (hps : ps.Alike qs) :
    { r with parameters := ps }.Alike { q with parameters := qs } :=
  ⟨h.url, h.channel, h.timeout, h.store, hps⟩

theorem withParameter (h : r.Alike q) (p : Parameter) (v : Value) :
    (r.withParameter p v).Alike (q.withParameter p v) := h.withParameters (h.parameters.set p v)

theorem withToken (h : r.Alike q) {v w : Value} (hvw : v.IsTokenLike w) :
    (r.withParameter .auth v).Alike (q.withParameter .auth w) := h.withParameters (h.parameters.setToken hvw)

theorem withoutParameter (h : r.Alike q) (p : Parameter) : (r.withoutParameter p).Alike (q.withoutParameter p) :=
  h.withParameters (h.parameters.clear p)

theorem withFlag (h : r.Alike q) (p : Parameter) (word : Text) (on : Bool) :
    (r.withFlag p word on).Alike (q.withFlag p word on) := by
  unfold Reference.withFlag
  split
  · exact h.withParameter p _
  · exact h.withoutParameter p

theorem copy (h : r.Alike q) : r.copy.Alike q.copy :=
  ⟨congrArg Url.base h.url, h.channel, h.timeout, h.store, h.parameters⟩

theorem named (h : r.Alike q) (name : Text) : (r.named name).Alike (q.named name) := by
  have hcopy := h.copy
  unfold Reference.named
  dsimp only
  rw [hcopy.url]
  exact hcopy.withUrl _

theorem refine (h : r.Alike q) (p : Parameter) (word : Except Error Text) :
    Agree Alike (r.refine p word) (q.refine p word) := by
  cases word with
  | error e => exact .error e e
  | ok w => exact .ok (h.copy.withParameter p _)

/-- **Both have the same derivations.** -/
theorem derive (h : r.Alike q) (d : Derivation) : Agree Alike (r.derive d) (q.derive d) := by
  cases d with
  | child path =>
    refine Agree.bind_same _ fun t => ?_
    have hcopy := h.copy
    unfold Reference.child
    dsimp only
    rw [hcopy.url]
    exact .ok (hcopy.withUrl _)
  | root path =>
    unfold Reference.derive
    dsimp only
    rw [show r.origin = q.origin by unfold Reference.origin; rw [h.url]]
    refine Agree.bind_same _ fun origin => ?_
    refine Agree.bind_same _ fun t => ?_
    exact .ok (h.copy.withUrl _)
  | orderBy v => exact h.refine _ _
  | limitToFirst v => exact h.refine _ _
  | limitToLast v => exact h.refine _ _
  | startAt v => exact h.refine _ _
  | endAt v => exact h.refine _ _
  | equalTo v => exact h.refine _ _

/-- **They stand for urls that differ only in secrets.** -/
theorem resolve (h : r.Alike q) {v w : Option Value} (hvw : Option.Rel Value.IsTokenLike v w) :
    Agree (Url.Veiled false) (r.resolve v) (q.resolve w) := by
  have heffective : (r.effective v).Alike (q.effective w) := by
    cases hvw with
    | none => exact h.parameters
    | some hvw => exact h.parameters.setToken hvw
  unfold Reference.resolve
  rw [h.url]
  exact heffective.query.bind fun t u htu => .ok ((Url.Veiled.refl _ _).append htu)

end Reference.Alike

end RemoteTree
