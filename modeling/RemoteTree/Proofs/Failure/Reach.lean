import Mathlib.Data.List.Forall2
import Mathlib.Logic.Relation
import RemoteTree.Http.NoResponse

/-!
# A failure times out through what can be reached from it

The failures of a graph may refer to each other in circles, so they are searched with a record of the
places that have been seen. Whatever place is taken next, the record and the places that are pending
together keep what can be reached (`Explores`); when nothing is pending, the record is all of it.

* `Refers`, `Reaches`: the references from one place to another, and rows of them.
* `Search.Goes`, `Search.Answers`: a search that takes the pending places in any order and stops at the
  first timeout. Every step makes it smaller (`Search.wellFounded_goes`).
* `trouble_iff_reaches`: **a failure is a timeout exactly if one can be reached from it that counts**,
  and every search says so, whatever the order of the arguments and of the search.
-/

namespace RemoteTree.Failure

variable {nodes : List Node} {root i j : Nat}

/-! ## What can be reached -/

/-- The failure at place `i` refers to the one at place `j`. -/
def Refers (nodes : List Node) (i j : Nat) : Prop :=
  j < nodes.length ∧ ∃ n, nodes[i]? = some n ∧ j ∈ n.neighbours

/-- The place `j` can be reached from the place `i` over any number of references. -/
def Reaches (nodes : List Node) : Nat → Nat → Prop := Relation.ReflTransGen (Refers nodes)

/-- Whether the failure at a place is a timeout that counts by itself. -/
def countsAt (nodes : List Node) (i : Nat) : Bool :=
  (nodes[i]?.map fun n => n.kind.counts).getD false

theorem countsAt_iff : countsAt nodes i = true ↔
    ∃ n, nodes[i]? = some n ∧ n.kind.isTimeout = true ∧ n.kind.isNewConnection = false := by
  unfold countsAt Kind.counts
  cases nodes[i]? <;> simp

theorem lt_of_countsAt (h : countsAt nodes i = true) : i < nodes.length := by
  obtain ⟨n, hn, -⟩ := countsAt_iff.1 h
  exact (List.getElem?_eq_some_iff.1 hn).1

/-- A failure leads to a timeout: one that counts can be reached from it, itself included. -/
def LeadsToTimeout (f : Failure) : Prop :=
  ∃ i n, Reaches f.nodes f.root i ∧ f.nodes[i]? = some n ∧
    n.kind.isTimeout = true ∧ n.kind.isNewConnection = false

theorem leadsToTimeout_iff (f : Failure) :
    f.LeadsToTimeout ↔ ∃ i, Reaches f.nodes f.root i ∧ countsAt f.nodes i = true := by
  simp only [LeadsToTimeout, countsAt_iff]
  constructor
  · rintro ⟨i, n, hr, hc⟩
    exact ⟨i, hr, n, hc⟩
  · rintro ⟨i, hr, n, hc⟩
    exact ⟨i, n, hr, hc⟩

/-- A failure leads to a timeout if it is one, or if one does that it refers to. -/
theorem leadsToTimeout_step (f : Failure) : f.LeadsToTimeout ↔
    countsAt f.nodes f.root = true ∨
      ∃ j, Refers f.nodes f.root j ∧ (⟨f.nodes, j⟩ : Failure).LeadsToTimeout := by
  simp only [leadsToTimeout_iff]
  constructor
  · rintro ⟨i, hr, hc⟩
    rcases hr.cases_head with rfl | ⟨j, hj, hr⟩
    · exact .inl hc
    · exact .inr ⟨j, hj, i, hr, hc⟩
  · rintro (hc | ⟨j, hj, i, hr, hc⟩)
    · exact ⟨f.root, .refl, hc⟩
    · exact ⟨i, .head hj hr, hc⟩

/-! ## Searches -/

/-- A search of a graph: the places that are pending, and those that have been seen. -/
structure Search where
  pending : List Nat
  seen : List Nat

namespace Search

/-- One step of a search that finds no timeout. Any of the pending places may be taken. -/
inductive Goes (nodes : List Node) : Search → Search → Prop
  /-- A place that has been seen, or at which there is nothing, is left out. -/
  | pass (before after seen : List Nat) (i : Nat) (h : i ∈ seen ∨ nodes.length ≤ i) :
      Goes nodes ⟨before ++ i :: after, seen⟩ ⟨before ++ after, seen⟩
  /-- At another place, what its failure refers to becomes pending, in any order. -/
  | look (before after pending seen : List Nat) (i : Nat) (n : Node) (hs : i ∉ seen)
      (hn : nodes[i]? = some n) (hc : countsAt nodes i = false)
      (hp : pending.Perm (n.neighbours ++ (before ++ after))) :
      Goes nodes ⟨before ++ i :: after, seen⟩ ⟨pending, i :: seen⟩

/-- What a search says: that there is a timeout as soon as it comes to one that it has not seen, and that
there is none once nothing is pending. -/
inductive Answers (nodes : List Node) : Search → Trouble → Prop
  | none (seen : List Nat) : Answers nodes ⟨[], seen⟩ .network
  | found (before after seen : List Nat) (i : Nat) (hs : i ∉ seen) (hc : countsAt nodes i = true) :
      Answers nodes ⟨before ++ i :: after, seen⟩ .timeout
  | goes {s t : Search} {a : Trouble} (h : Goes nodes s t) (ha : Answers nodes t a) :
      Answers nodes s a

/-- Every step leaves fewer places unseen, or as many and fewer pending. -/
theorem wellFounded_goes (nodes : List Node) : WellFounded fun t s : Search => Goes nodes s t := by
  refine Subrelation.wf (fun {t s} h => ?_) (InvImage.wf
    (fun s : Search => (unseen nodes.length s.seen, s.pending.length))
    (Prod.lex Nat.lt_wfRel Nat.lt_wfRel).wf)
  cases h with
  | pass before after seen i h =>
    refine .right _ ?_
    change (before ++ after).length < (before ++ i :: after).length
    simp only [List.length_append, List.length_cons]
    omega
  | look before after pending seen i n hs hn hc hp =>
    have hi : i < nodes.length := (List.getElem?_eq_some_iff.1 hn).1
    exact .left _ _ (unseen_cons_lt hi hs)

/-- The places that a search has seen hold no timeout that counts. -/
def Quiet (nodes : List Node) (s : Search) : Prop := ∀ i ∈ s.seen, countsAt nodes i = false

theorem Quiet.goes {s t : Search} (h : s.Quiet nodes) (hg : Goes nodes s t) : t.Quiet nodes := by
  cases hg with
  | pass before after seen i hi => exact h
  | look before after pending seen i n hs hn hc hp =>
    intro j hj
    rcases List.mem_cons.1 hj with rfl | hj
    · exact hc
    · exact h j hj

/-- A search that has somewhere to go goes on or has found a timeout. -/
theorem goes_or_answers (nodes : List Node) (s : Search) :
    (∃ t, Goes nodes s t) ∨ ∃ a, Answers nodes s a := by
  obtain ⟨pending, seen⟩ := s
  cases pending with
  | nil => exact .inr ⟨_, .none seen⟩
  | cons i after =>
    by_cases hs : i ∈ seen
    · exact .inl ⟨_, .pass [] after seen i (.inl hs)⟩
    by_cases hi : i < nodes.length
    · have hn : nodes[i]? = some nodes[i] := List.getElem?_eq_getElem hi
      cases hc : countsAt nodes i with
      | true => exact .inr ⟨_, .found [] after seen i hs hc⟩
      | false => exact .inl ⟨_, .look [] after _ seen i nodes[i] hs hn hc (.refl _)⟩
    · exact .inl ⟨_, .pass [] after seen i (.inr (by omega))⟩

theorem exists_answers (nodes : List Node) (s : Search) : ∃ a, Answers nodes s a := by
  induction s using (wellFounded_goes nodes).induction with
  | _ s ih =>
    rcases goes_or_answers nodes s with ⟨t, ht⟩ | ha
    · obtain ⟨a, ha⟩ := ih t ht
      exact ⟨a, .goes ht ha⟩
    · exact ha

end Search

/-! ## What every search keeps -/

/-- A search from `root` has come to places that can be reached, has lost none that is referred to at a
place that it has seen, and has not lost `root`. -/
structure Explores (nodes : List Node) (root : Nat) (s : Search) : Prop where
  reached : ∀ i, i ∈ s.pending ∨ i ∈ s.seen → i < nodes.length → Reaches nodes root i
  closed : ∀ i ∈ s.seen, ∀ j, Refers nodes i j → j ∈ s.pending ∨ j ∈ s.seen
  begun : root < nodes.length → root ∈ s.pending ∨ root ∈ s.seen

namespace Explores

variable {before after pending seen : List Nat}

theorem start (nodes : List Node) (root : Nat) : Explores nodes root ⟨[root], []⟩ where
  reached i hi _ := by
    obtain rfl : i = root := by simpa using hi
    exact .refl
  closed i hi := absurd hi List.not_mem_nil
  begun _ := .inl (List.mem_singleton_self root)

/-- A place may be left out that has been seen or at which there is nothing. -/
theorem pass (h : Explores nodes root ⟨before ++ i :: after, seen⟩)
    (hi : i ∈ seen ∨ nodes.length ≤ i) : Explores nodes root ⟨before ++ after, seen⟩ := by
  have hkeep : ∀ j, j < nodes.length → j ∈ before ++ i :: after ∨ j ∈ seen →
      j ∈ before ++ after ∨ j ∈ seen := by
    intro j hj hm
    simp only [List.mem_append, List.mem_cons] at hm ⊢
    by_cases hji : j = i
    · subst hji
      exact .inr (hi.resolve_right (by omega))
    · tauto
  refine ⟨fun j hj => h.reached j ?_, fun k hk j hj => ?_, fun hr => hkeep root hr (h.begun hr)⟩
  · simp only [List.mem_append, List.mem_cons] at hj ⊢
    tauto
  · exact hkeep j hj.1 (h.closed k hk j hj)

/-- At a place that is pending, what it refers to becomes pending. -/
theorem look {n : Node} (h : Explores nodes root ⟨before ++ i :: after, seen⟩)
    (hn : nodes[i]? = some n) (hp : pending.Perm (n.neighbours ++ (before ++ after))) :
    Explores nodes root ⟨pending, i :: seen⟩ := by
  have hi : i < nodes.length := (List.getElem?_eq_some_iff.1 hn).1
  have hri : Reaches nodes root i :=
    h.reached i (.inl (List.mem_append_right _ (List.mem_cons_self ..))) hi
  have hkeep : ∀ j, j ∈ before ++ i :: after ∨ j ∈ seen → j ∈ pending ∨ j ∈ i :: seen := by
    intro j hj
    simp only [hp.mem_iff, List.mem_append, List.mem_cons] at hj ⊢
    tauto
  refine ⟨fun j hj hl => ?_, fun k hk j hj => ?_, fun hr => hkeep root (h.begun hr)⟩
  · simp only [hp.mem_iff, List.mem_append, List.mem_cons] at hj
    rcases hj with (hj | hj | hj) | rfl | hj
    · exact hri.tail ⟨hl, n, hn, hj⟩
    · exact h.reached j (.inl (List.mem_append_left _ hj)) hl
    · exact h.reached j (.inl (List.mem_append_right _ (List.mem_cons_of_mem _ hj))) hl
    · exact hri
    · exact h.reached j (.inr hj) hl
  · rcases List.mem_cons.1 hk with rfl | hk
    · obtain ⟨-, m, hm, hj⟩ := hj
      obtain rfl : n = m := Option.some.inj (hn.symm.trans hm)
      exact .inl (hp.mem_iff.2 (List.mem_append_left _ hj))
    · exact hkeep j (h.closed k hk j hj)

theorem goes {s t : Search} (h : Explores nodes root s) (hg : Search.Goes nodes s t) :
    Explores nodes root t := by
  cases hg with
  | pass before after seen i hi => exact h.pass hi
  | look before after pending seen i n hs hn hc hp => exact h.look hn hp

theorem visit (h : Explores nodes root ⟨pending, seen⟩) :
    Explores nodes root ⟨[], visit nodes pending seen⟩ := by
  fun_induction Failure.visit nodes pending seen with
  | case1 seen => exact h
  | case2 i pending seen hs ih =>
    have h : Explores nodes root ⟨[] ++ i :: pending, seen⟩ := h
    exact ih (h.pass (.inl hs))
  | case3 i pending seen hs hi _ ih =>
    have h : Explores nodes root ⟨[] ++ i :: pending, seen⟩ := h
    exact ih (h.look (List.getElem?_eq_getElem hi) (.refl _))
  | case4 i pending seen hs hi ih =>
    have h : Explores nodes root ⟨[] ++ i :: pending, seen⟩ := h
    exact ih (h.pass (.inr (Nat.le_of_not_lt hi)))

/-- When nothing is pending, the places that have been seen are those that can be reached. -/
theorem seen_iff (h : Explores nodes root ⟨[], seen⟩) (hi : i < nodes.length) :
    i ∈ seen ↔ Reaches nodes root i := by
  constructor
  · exact fun hs => h.reached i (.inr hs) hi
  · intro hr
    induction hr with
    | refl => exact (h.begun hi).resolve_left List.not_mem_nil
    | @tail j k hr hjk ih =>
      have hj : j < nodes.length := by
        obtain ⟨-, n, hn, -⟩ := hjk
        exact (List.getElem?_eq_some_iff.1 hn).1
      exact (h.closed j (ih hj) k hjk).resolve_left List.not_mem_nil

end Explores

theorem isTimeout_iff (f : Failure) : f.isTimeout = true ↔ f.LeadsToTimeout := by
  have he := (Explores.start f.nodes f.root).visit
  rw [leadsToTimeout_iff]
  change ((visit f.nodes [f.root] []).any (countsAt f.nodes) = true) ↔ _
  rw [List.any_eq_true]
  refine exists_congr fun i => and_congr_left fun hc => he.seen_iff (lt_of_countsAt hc)

theorem trouble_eq_timeout_iff {f : Failure} : f.trouble = .timeout ↔ f.LeadsToTimeout := by
  rw [← isTimeout_iff]
  unfold trouble
  split <;> simp [*]

theorem trouble_eq_network_iff {f : Failure} : f.trouble = .network ↔ ¬ f.LeadsToTimeout := by
  rw [← trouble_eq_timeout_iff]
  cases f.trouble <;> simp

/-! ## What every search says -/

/-- A search that has seen no timeout yet says what there is to say of its root. -/
theorem Search.Answers.eq_trouble {s : Search} {a : Trouble} (h : Search.Answers nodes s a)
    (he : Explores nodes root s) (hq : s.Quiet nodes) :
    a = (⟨nodes, root⟩ : Failure).trouble := by
  induction h with
  | none seen =>
    have hn : ¬ (⟨nodes, root⟩ : Failure).LeadsToTimeout := by
      rw [leadsToTimeout_iff]
      rintro ⟨i, hr, hc⟩
      have hi : i ∈ seen := (he.seen_iff (lt_of_countsAt hc)).2 hr
      exact Bool.false_ne_true ((hq i hi).symm.trans hc)
    exact (trouble_eq_network_iff.2 hn).symm
  | found before after seen i hs hc =>
    have hp : i ∈ before ++ i :: after := List.mem_append_right _ (List.mem_cons_self ..)
    have hr : Reaches nodes root i := he.reached i (.inl hp) (lt_of_countsAt hc)
    exact (trouble_eq_timeout_iff.2 ((leadsToTimeout_iff _).2 ⟨i, hr, hc⟩)).symm
  | goes hg _ ih => exact ih (he.goes hg) (hq.goes hg)

/-- Whatever a search has come to, it ends, and says what there is to say of its root. -/
theorem Search.answers_iff {s : Search} {a : Trouble}
    (h : Relation.ReflTransGen (Search.Goes nodes) ⟨[root], []⟩ s) :
    Search.Answers nodes s a ↔ a = (⟨nodes, root⟩ : Failure).trouble := by
  have hs : Explores nodes root s ∧ s.Quiet nodes := by
    induction h with
    | refl => exact ⟨.start nodes root, fun i hi => absurd hi List.not_mem_nil⟩
    | tail _ hg ih => exact ⟨ih.1.goes hg, ih.2.goes hg⟩
  have hsaid : ∀ b, Search.Answers nodes s b → b = (⟨nodes, root⟩ : Failure).trouble :=
    fun b hb => hb.eq_trouble hs.1 hs.2
  refine ⟨hsaid a, ?_⟩
  rintro rfl
  obtain ⟨b, hb⟩ := Search.exists_answers nodes s
  exact hsaid b hb ▸ hb

/-! ## The order of the arguments -/

/-- The same failure with its arguments in another order. -/
structure Node.Reordered (m n : Node) : Prop where
  kind : m.kind = n.kind
  args : m.args.Perm n.args
  reason : m.reason = n.reason
  cause : m.cause = n.cause
  context : m.context = n.context

theorem Node.Reordered.mem_neighbours {m n : Node} (h : m.Reordered n) :
    j ∈ m.neighbours ↔ j ∈ n.neighbours := by
  unfold Node.neighbours
  rw [h.reason, h.cause, h.context]
  simp only [List.mem_append, (h.args.filterMap Arg.place?).mem_iff]

/-- The same graph of failures with the arguments of each in another order. -/
structure Reordered (f g : Failure) : Prop where
  root : f.root = g.root
  nodes : List.Forall₂ Node.Reordered f.nodes g.nodes

namespace Reordered

variable {f g : Failure}

theorem symm (h : f.Reordered g) : g.Reordered f where
  root := h.root.symm
  nodes := (h.nodes.flip).imp fun _ _ hn =>
    ⟨hn.kind.symm, hn.args.symm, hn.reason.symm, hn.cause.symm, hn.context.symm⟩

theorem exists_node (h : f.Reordered g) {n : Node} (hn : f.nodes[i]? = some n) :
    ∃ m, g.nodes[i]? = some m ∧ n.Reordered m := by
  obtain ⟨hi, rfl⟩ := List.getElem?_eq_some_iff.1 hn
  have hi' : i < g.nodes.length := h.nodes.length_eq ▸ hi
  exact ⟨g.nodes[i], List.getElem?_eq_getElem hi', h.nodes.get hi hi'⟩

theorem refers (h : f.Reordered g) (hr : Refers f.nodes i j) : Refers g.nodes i j := by
  obtain ⟨hj, n, hn, hm⟩ := hr
  obtain ⟨m, hm', hnm⟩ := h.exists_node hn
  exact ⟨h.nodes.length_eq ▸ hj, m, hm', hnm.mem_neighbours.1 hm⟩

theorem leadsToTimeout (h : f.Reordered g) (hf : f.LeadsToTimeout) : g.LeadsToTimeout := by
  obtain ⟨i, n, hr, hn, ht, hc⟩ := hf
  obtain ⟨m, hm, hnm⟩ := h.exists_node hn
  rw [hnm.kind] at ht hc
  have hle : Refers f.nodes ≤ Refers g.nodes := fun _ _ => h.refers
  have hr' : Reaches g.nodes f.root i := Relation.ReflTransGen.mono hle _ _ hr
  exact ⟨i, m, h.root ▸ hr', hm, ht, hc⟩

theorem trouble_eq (h : f.Reordered g) : f.trouble = g.trouble := by
  have ht : f.trouble = .timeout ↔ g.trouble = .timeout := by
    rw [trouble_eq_timeout_iff, trouble_eq_timeout_iff]
    exact ⟨h.leadsToTimeout, h.symm.leadsToTimeout⟩
  cases hf : f.trouble <;> cases hg : g.trouble <;> simp_all

end Reordered

/-! ## The classification -/

/-- **A failure is a timeout exactly if one can be reached from it that counts**: one of a class of
timeouts that is not a failure to get a new connection; otherwise it is of the network. A failure to get
a new connection only does not count itself: it leads to a timeout if one does that it refers to. The
order of the arguments does not matter, and neither does that of the search: every search of the graph
that begins at the failure ends, and from whatever it has come to says the same. -/
theorem trouble_iff_reaches (f : Failure) :
    (f.trouble = .timeout ↔ ∃ i n, Reaches f.nodes f.root i ∧ f.nodes[i]? = some n ∧
      n.kind.isTimeout = true ∧ n.kind.isNewConnection = false) ∧
    (f.trouble = .network ↔ ¬ ∃ i n, Reaches f.nodes f.root i ∧ f.nodes[i]? = some n ∧
      n.kind.isTimeout = true ∧ n.kind.isNewConnection = false) ∧
    (∀ i n, f.nodes[i]? = some n → n.kind.isNewConnection = true →
      ((⟨f.nodes, i⟩ : Failure).trouble = .timeout ↔
        ∃ j, Refers f.nodes i j ∧ (⟨f.nodes, j⟩ : Failure).trouble = .timeout)) ∧
    (∀ g : Failure, f.Reordered g → f.trouble = g.trouble) ∧
    (WellFounded fun t s : Search => Search.Goes f.nodes s t) ∧
    ∀ s, Relation.ReflTransGen (Search.Goes f.nodes) ⟨[f.root], []⟩ s →
      ∀ a, Search.Answers f.nodes s a ↔ a = f.trouble := by
  refine ⟨trouble_eq_timeout_iff, trouble_eq_network_iff, fun i n hn hc => ?_,
    fun g hg => hg.trouble_eq, Search.wellFounded_goes f.nodes, fun s hs a => Search.answers_iff hs⟩
  have hq : countsAt f.nodes i ≠ true := by
    rw [Ne, countsAt_iff]
    rintro ⟨m, hm, -, hm'⟩
    obtain rfl : n = m := Option.some.inj (hn.symm.trans hm)
    exact Bool.false_ne_true (hm'.symm.trans hc)
  simp only [trouble_eq_timeout_iff]
  exact (leadsToTimeout_step ⟨f.nodes, i⟩).trans (or_iff_right hq)

/-- A request that was refused, with a timeout behind the refusal that leads back to the request. -/
theorem trouble_iff_reaches_behind :
    (⟨[⟨⟨.client, "ConnectionError"⟩, [.failure 1], none, none, none, none⟩,
      ⟨⟨.pool, "NewConnectionError"⟩, [], none, none, some 2, none⟩,
      ⟨⟨.system, "TimeoutError"⟩, [], none, some 0, none, none⟩], 0⟩ : Failure).trouble = .timeout := by
  refine (trouble_iff_reaches _).1.2
    ⟨2, _, .tail (.single (?_ : Refers _ 0 1)) (?_ : Refers _ 1 2), rfl, by decide, by decide⟩
  · exact ⟨by decide, _, rfl, by decide⟩
  · exact ⟨by decide, _, rfl, by decide⟩

end RemoteTree.Failure
