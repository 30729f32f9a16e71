import Mathlib.Data.List.Induction
import RemoteTree.Proofs.Results
import RemoteTree.Reference.Derivation

/-!
# The lineage of a reference

What has been done to a reference since it was made, and before that to the reference that it was derived
from, and so on back to one that was made for a url. The last word on a parameter, on the timeout and on
the store of tokens is what counts.

* `Change`, `Lineage`: what is done to a reference, and a row of it.
* `Lineage.value?`, `Lineage.shown`: the parameters of a lineage, and those that go with a request.
* `Event`, `lineages`, `tokens`: what happens to references and stores, and what it comes to.
* `Reference.Follows`: a reference is what its lineage says. `Reference.follows_derive` says that a derived
  reference follows the lineage of its source, with the parameter that the derivation sets.
-/

namespace RemoteTree

/-- What is done to the configuration of a reference. -/
inductive Change where
  | set (p : Parameter) (v : Value)
  | clear (p : Parameter)
  | timeout (seconds : Value)
  /-- Takes the token from a store from now on, by number, or from none. -/
  | bind (store : Option Nat)

/-- What a change says about a parameter: a value, that there is none, or nothing. -/
def Change.parameter? (p : Parameter) : Change → Option (Option Value)
  | .set q v => if q = p then some (some v) else none
  | .clear q => if q = p then some none else none
  | _ => none

/-- What a change says about the timeout. -/
def Change.timeout? : Change → Option Value
  | .timeout seconds => some seconds
  | _ => none

/-- What a change says about the store. -/
def Change.store? : Change → Option (Option Nat)
  | .bind store => some store
  | _ => none

/-- A reference that is made through a channel with a timeout, and the changes since then. -/
structure Lineage where
  channel : Nat
  firstTimeout : Value
  changes : List Change

namespace Lineage

/-- The last word of a lineage. -/
def last? {β : Type} (l : Lineage) (word : Change → Option β) : Option β :=
  l.changes.reverse.findSome? word

/-- The value of a parameter: that of the last change that set it, unless a later one cleared it. -/
def value? (l : Lineage) (p : Parameter) : Option Value := (l.last? (Change.parameter? p)).join

/-- The timeout: that of the last change, or the first one. -/
def timeout (l : Lineage) : Value := (l.last? Change.timeout?).getD l.firstTimeout

/-- The store that was bound last. -/
def store? (l : Lineage) : Option Nat := (l.last? Change.store?).join

/-- The parameters that go with a request while the stores hold the tokens: the token of the bound store
takes the place of the reference's own. -/
def shown (l : Lineage) (tokens : List Value) (p : Parameter) : Option Value :=
  match p, l.store?.bind (tokens[·]?) with
  | .auth, some token => some token
  | p, _ => l.value? p

/-- The lineage with what is done next, if anything. -/
def extend (l : Lineage) (c : Option Change) : Lineage := { l with changes := l.changes ++ c.toList }

@[simp] theorem extend_none (l : Lineage) : l.extend none = l := by simp [extend]

theorem last?_extend {β : Type} (l : Lineage) (c : Change) (word : Change → Option β) :
    (l.extend (some c)).last? word = (word c).or (l.last? word) := by
  unfold last? extend
  rw [Option.toList_some, List.reverse_append, List.reverse_singleton, List.singleton_append,
    List.findSome?_cons]
  cases word c <;> rfl

end Lineage

/-- What happens to references and stores. References and stores are known by number, in the order in
which they were made. -/
inductive Event where
  /-- A reference is made through a channel, with a timeout. -/
  | made (channel : Nat) (timeout : Value)
  /-- A reference is derived from another, and a parameter set on it. -/
  | derived (source : Nat) (setting : Option Change)
  | changed (reference : Nat) (c : Change)
  /-- A store is made for a token. -/
  | stored (token : Value)
  | rotated (store : Nat) (token : Value)

namespace Event

/-- The lineages after what happens. A derived reference takes over the lineage that its source has at
that moment. -/
def lineages (ls : List Lineage) : Event → List Lineage
  | .made channel timeout => ls ++ [⟨channel, timeout, []⟩]
  | .derived source setting => ls ++ (ls[source]?.map (·.extend setting)).toList
  | .changed reference c => ls.modify reference (·.extend (some c))
  | .stored _ | .rotated .. => ls

/-- The tokens in the stores after what happens. -/
def tokens (ts : List Value) : Event → List Value
  | .stored token => ts ++ [token]
  | .rotated store token => ts.set store token
  | .made .. | .derived .. | .changed .. => ts

end Event

/-- The lineages of all references after a history. -/
def lineages (history : List Event) : List Lineage := history.foldl Event.lineages []

/-- The tokens in all stores after a history. -/
def tokens (history : List Event) : List Value := history.foldl Event.tokens []

theorem lineages_append_singleton (history : List Event) (e : Event) :
    lineages (history ++ [e]) = e.lineages (lineages history) := by
  simp [lineages]

theorem tokens_append_singleton (history : List Event) (e : Event) :
    tokens (history ++ [e]) = e.tokens (tokens history) := by
  simp [tokens]

/-- No reference is forgotten. -/
theorem length_lineages_append (history more : List Event) :
    (lineages history).length ≤ (lineages (history ++ more)).length := by
  induction more using List.reverseRecOn with
  | nil => simp
  | append_singleton more e ih =>
    rw [← List.append_assoc, lineages_append_singleton]
    refine Nat.le_trans ih ?_
    cases e <;> simp [Event.lineages]

/-- The parameter that a derivation sets on the reference that it leads to. -/
def Derivation.setting? : Derivation → Option Change
  | .child _ | .root _ => none
  | .orderBy v => (orderKey v).toOption.map fun w => .set .orderBy (.text w)
  | .limitToFirst v => (limitText v).toOption.map fun w => .set .limitToFirst (.text w)
  | .limitToLast v => (limitText v).toOption.map fun w => .set .limitToLast (.text w)
  | .startAt v => (boundText "start_at" v).toOption.map fun w => .set .startAt (.text w)
  | .endAt v => (boundText "end_at" v).toOption.map fun w => .set .endAt (.text w)
  | .equalTo v => (boundText "equal_to" v).toOption.map fun w => .set .equalTo (.text w)

/-- A reference is what its lineage says. -/
structure Reference.Follows (r : Reference) (l : Lineage) : Prop where
  channel : r.channel = l.channel
  timeout : r.timeout = l.timeout
  store : r.store = l.store?
  parameters : ∀ p, r.parameters.get? p = l.value? p

namespace Reference

variable {r : Reference} {l : Lineage}

theorem follows_make (url : Text) (channel : Nat) (timeout : Value) :
    (make url channel timeout).Follows ⟨channel, timeout, []⟩ :=
  ⟨rfl, rfl, rfl, fun _ => rfl⟩

/-! ## Changes -/

namespace Follows

/-- The url is no part of the lineage. -/
theorem withUrl (h : r.Follows l) (url : Text) : { r with url }.Follows l :=
  ⟨h.channel, h.timeout, h.store, h.parameters⟩

theorem withTimeout (h : r.Follows l) (seconds : Value) :
    { r with timeout := seconds }.Follows (l.extend (some (.timeout seconds))) where
  channel := h.channel
  timeout := by rw [Lineage.timeout, Lineage.last?_extend]; rfl
  store := by rw [Lineage.store?, Lineage.last?_extend]; exact h.store
  parameters p := by rw [Lineage.value?, Lineage.last?_extend]; exact h.parameters p

theorem withStore (h : r.Follows l) (store : Option Nat) :
    { r with store }.Follows (l.extend (some (.bind store))) where
  channel := h.channel
  timeout := by rw [Lineage.timeout, Lineage.last?_extend]; exact h.timeout
  store := by rw [Lineage.store?, Lineage.last?_extend]; rfl
  parameters p := by rw [Lineage.value?, Lineage.last?_extend]; exact h.parameters p

theorem withParameter (h : r.Follows l) (p : Parameter) (v : Value) :
    (r.withParameter p v).Follows (l.extend (some (.set p v))) where
  channel := h.channel
  timeout := by rw [Lineage.timeout, Lineage.last?_extend]; exact h.timeout
  store := by rw [Lineage.store?, Lineage.last?_extend]; exact h.store
  parameters q := by
    rw [Lineage.value?, Lineage.last?_extend, Change.parameter?, Reference.withParameter,
      Parameters.get?_set]
    -- the change speaks of its own parameter alone
    by_cases hq : q = p
    · rw [if_pos hq, if_pos hq.symm]
      rfl
    · rw [if_neg hq, if_neg (Ne.symm hq)]
      exact h.parameters q

theorem withoutParameter (h : r.Follows l) (p : Parameter) :
    (r.withoutParameter p).Follows (l.extend (some (.clear p))) where
  channel := h.channel
  timeout := by rw [Lineage.timeout, Lineage.last?_extend]; exact h.timeout
  store := by rw [Lineage.store?, Lineage.last?_extend]; exact h.store
  parameters q := by
    rw [Lineage.value?, Lineage.last?_extend, Change.parameter?, Reference.withoutParameter,
      Parameters.get?_clear]
    by_cases hq : q = p
    · rw [if_pos hq, if_pos hq.symm]
      rfl
    · rw [if_neg hq, if_neg (Ne.symm hq)]
      exact h.parameters q

/-! ## Derivations -/

/-- A copy has the lineage of its source. -/
theorem copy (h : r.Follows l) : r.copy.Follows l := h.withUrl _

theorem refine {p : Parameter} {word : Except Error Text} {c : Reference} (h : r.Follows l)
    (hc : r.refine p word = .ok c) :
    c.Follows (l.extend (word.toOption.map fun w => .set p (.text w))) := by
  cases word with
  | error e => cases hc
  | ok w =>
    obtain rfl := Except.ok.inj hc
    exact h.copy.withParameter p (.text w)

end Follows

/-- **A derived reference** follows the lineage of its source, with the parameter that the derivation
sets. -/
theorem follows_derive (h : r.Follows l) {d : Derivation} {c : Reference} (hc : r.derive d = .ok c) :
    c.Follows (l.extend d.setting?) := by
  cases d with
  | child path =>
    obtain ⟨t, -, hc⟩ := bind_eq_ok.1 hc
    obtain rfl := Except.ok.inj hc
    rw [Derivation.setting?, Lineage.extend_none]
    exact h.copy.withUrl _
  | root path =>
    obtain ⟨origin, -, hc⟩ := bind_eq_ok.1 hc
    obtain ⟨t, -, hc⟩ := bind_eq_ok.1 hc
    obtain rfl := Except.ok.inj hc
    rw [Derivation.setting?, Lineage.extend_none]
    exact h.copy.withUrl _
  | orderBy v => exact h.refine hc
  | limitToFirst v => exact h.refine hc
  | limitToLast v => exact h.refine hc
  | startAt v => exact h.refine hc
  | endAt v => exact h.refine hc
  | equalTo v => exact h.refine hc

/-- The parameters that go with a request are those that the lineage shows. -/
theorem Follows.effective (h : r.Follows l) (tokens : List Value) :
    r.effective (r.store.bind (tokens[·]?)) = ⟨l.shown tokens⟩ := by
  have hget : ∀ p, (r.effective (l.store?.bind (tokens[·]?))).get? p = l.shown tokens p := by
    intro p
    unfold Reference.effective Lineage.shown
    cases l.store?.bind (tokens[·]?) with
    | none => cases p <;> exact h.parameters _
    | some token =>
      dsimp only
      rw [Parameters.get?_set]
      -- the token of the store is shown in the place of the reference's own, and nothing else is
      cases p <;> first | rfl | exact h.parameters _
  rw [h.store]
  exact congrArg Parameters.mk (funext hget)

end Reference

end RemoteTree
