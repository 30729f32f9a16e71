import RemoteTree.Proofs.Lock.Calm

/-!
# Nobody waits in vain

Whoever waits for the lock waits for somebody who has it. Access is only given back by an actor that has
it, and only asked for by one that has none; that no actor waits for itself rests on the latter.

* `Record.Courteous`: the records of all rows of such steps.
* `Record.Earns`: whoever has access has had it before or has been granted it since, so those who still
  wait have none (`Record.Apart`).
* `waits_for_holder`: **a reader waits for a writer, a writer for somebody who has access, and a release
  for nobody**, so that the lock that nobody uses is as it was in the beginning.
-/

namespace RemoteTree.Lock.Record

variable {α : Type}

/-- Whether an actor has access of some kind. -/
def Holds (k : Record α) (a : α) : Prop := a ∈ k.readers ∨ a ∈ k.writers

/-! ## Access is earned by a grant -/

/-- From one record to a later one: whoever has access has had it before or has been granted it. -/
def Earns (k l : Record α) : Prop :=
  ∃ new, l.granted = k.granted ++ new ∧ ∀ b, l.Holds b → k.Holds b ∨ ∃ g ∈ new, g.actor = b

namespace Earns

theorem of_granted_eq {k l : Record α} (hg : l.granted = k.granted) (h : ∀ b, l.Holds b → k.Holds b) :
    k.Earns l :=
  ⟨[], by rw [hg, List.append_nil], fun b hb => .inl (h b hb)⟩

theorem refl (k : Record α) : k.Earns k := of_granted_eq rfl fun _ hb => hb

theorem trans {k l m : Record α} (h : k.Earns l) (h' : l.Earns m) : k.Earns m := by
  obtain ⟨new, hg, hn⟩ := h
  obtain ⟨new', hg', hn'⟩ := h'
  refine ⟨new ++ new', by rw [hg', hg, List.append_assoc], fun b hb => ?_⟩
  rcases hn' b hb with hb | ⟨g, hm, rfl⟩
  · rcases hn b hb with hb | ⟨g, hm, rfl⟩
    · exact .inl hb
    · exact .inr ⟨g, List.mem_append_left _ hm, rfl⟩
  · exact .inr ⟨g, List.mem_append_right _ hm, rfl⟩

end Earns

variable [DecidableEq α] {k : Record α} {a : α} {c : Call}

omit [DecidableEq α] in
theorem earns_reach (k : Record α) (a : α) (c : Call) (p : Plan) : k.Earns (k.reach a c p) := by
  unfold reach
  split
  · exact .refl k
  rename_i x rest _
  split
  · refine ⟨[⟨a, c, k.readers, k.writers⟩], by cases x <;> rfl, fun b hb => ?_⟩
    -- the access that is added is that of the actor to whom it is granted
    cases x <;> simp only [gain, Holds, List.mem_append, List.mem_singleton] at hb ⊢ <;> grind
  · exact .refl k

theorem earns_finish (k : Record α) (a : α) (c : Option Call) (f : Option Fault) :
    k.Earns (k.finish a c f) := by
  refine .of_granted_eq (history_finish k a c f).1 fun b hb => ?_
  unfold finish at hb
  split at hb
  · exact hb
  rename_i x _
  cases x with
  | reading => exact hb.imp_left List.mem_of_mem_erase
  | writing => exact hb.imp_right List.mem_of_mem_erase

theorem earns_move (k : Record α) (t : Task α) : k.Earns (k.move t) := by
  unfold move
  cases k.callOf? t.actor with
  | none =>
    split
    · exact earns_finish k _ _ _
    · exact .refl k
  | some c =>
    have hr := earns_reach k t.actor c t.plan
    split
    · exact hr.trans (earns_finish _ _ _ _)
    · exact hr

theorem earns_watch (k : Record α) (r : Run α) : k.Earns (k.watch r) := by
  fun_induction watch k r with
  | case1 k r h => exact .of_granted_eq rfl fun _ hb => hb
  | case2 k r t ts h _ ih => exact (earns_move k t).trans ih

/-! ## Those who wait have no access -/

/-- Every actor is in one call at most, and those who are in a call have no access. -/
structure Apart (k : Record α) : Prop where
  single : (k.pending.map Prod.fst).Nodup
  idle : ∀ e ∈ k.pending, ¬ k.Holds e.1

/-- The calls that wait or are about to be served are those that are served in the step, in the order of
the grants, and behind them those that wait afterwards. -/
theorem Settled.row (h : k.Settled) (hb : k.state.isWaiting a = false) (hp : k.Permits a c) :
    ∃ new : List (Grant α), k.pending ++ (if c.asks?.isSome then [(a, c)] else []) =
        new.map Grant.request ++ (k.step a c).pending ∧
      ∀ b, (k.step a c).Holds b → k.Holds b ∨ ∃ g ∈ new, g.actor = b := by
  have ho := (h.step hp).sound.order
  rw [step_of_not_waiting hb] at ho ⊢
  generalize hr : (⟨k.state, [⟨a, c.plan, none⟩], []⟩ : Run α) = r at ho ⊢
  obtain ⟨new, hg, hn⟩ := earns_watch (k.calling a c) r
  refine ⟨new, ?_, hn⟩
  -- nothing is started in the step but its own call, and what was granted before stays in front
  have hg' : ((k.calling a c).watch r).granted = k.granted ++ new := hg
  have hstart : (k.calling a c).started =
      k.granted.map Grant.request ++ (k.pending ++ if c.asks?.isSome then [(a, c)] else []) := by
    unfold calling
    dsimp only
    rw [h.sound.order]
    split <;> simp
  rw [(history_watch (k.calling a c) r).2, hstart, hg', List.map_append, List.append_assoc] at ho
  exact List.append_cancel_left ho

/-- **Those who wait have no access** after a step, if nobody asks for more than it has. -/
theorem Apart.step (h : k.Apart) (hs : k.Settled) (hp : k.Permits a c)
    (hc : c.asks?.isSome → ¬ k.Holds a) : (k.step a c).Apart := by
  cases hb : k.state.isWaiting a with
  | true =>
    rw [Record.step, if_pos hb]
    exact h
  | false =>
    obtain ⟨new, hrow, hn⟩ := hs.row hb hp
    have ha := hs.calm.ne_of_not_waiting hb
    -- the row before the step has each actor once, and none that has access
    have hsingle : ((k.pending ++ if c.asks?.isSome then [(a, c)] else []).map Prod.fst).Nodup := by
      split
      · rw [List.map_append, List.nodup_append]
        refine ⟨h.single, by simp, fun x hx y hy => ?_⟩
        obtain ⟨e, he, rfl⟩ := List.mem_map.1 hx
        rw [List.map_singleton, List.mem_singleton] at hy
        rw [hy]
        exact ha e he
      · rw [List.append_nil]
        exact h.single
    have hidle : ∀ e ∈ k.pending ++ (if c.asks?.isSome then [(a, c)] else []), ¬ k.Holds e.1 := by
      intro e he
      rcases List.mem_append.1 he with he | he
      · exact h.idle e he
      · split at he
        · rename_i hasks
          rw [List.mem_singleton.1 he]
          exact hc hasks
        · cases he
    rw [hrow] at hsingle hidle
    rw [List.map_append, List.nodup_append] at hsingle
    refine ⟨hsingle.2.1, fun e he hold => ?_⟩
    rcases hn e.1 hold with hold | ⟨g, hg, hge⟩
    · exact hidle e (List.mem_append_right _ he) hold
    · have hfront : g.actor ∈ (new.map Grant.request).map Prod.fst := by
        rw [List.map_map]
        exact List.mem_map_of_mem hg
      exact hsingle.2.2 _ hfront _ (List.mem_map_of_mem he) hge

/-- The records of all rows of steps in which access is only given back by an actor that has it, and only
asked for by an actor that has none. -/
inductive Courteous : Record α → Prop where
  | initial : Courteous (.initial α)
  | step {k : Record α} {a : α} {c : Call} : Courteous k → k.Permits a c →
    (c.asks?.isSome → ¬ k.Holds a) → Courteous (k.step a c)

theorem Courteous.reached (h : k.Courteous) : k.Reached := by
  induction h with
  | initial => exact .initial
  | step _ hp _ ih => exact ih.step hp

theorem apart_of_courteous (h : k.Courteous) : k.Apart := by
  induction h with
  | initial => exact ⟨List.nodup_nil, fun e he => by cases he⟩
  | step hk hp hc ih => exact ih.step (settled_of_reached hk.reached) hp hc

/-! ## Waiting -/

/-- In a calm lock those wait who are in a call. -/
theorem Calm.mem_waiting (h : k.Calm) (a : α) :
    a ∈ k.state.waiting ↔ a ∈ k.pending.map Prod.fst := by
  have hw : k.state.isWaiting a = true ↔ a ∈ k.state.waiting := by
    simp only [State.isWaiting, State.waiting, List.any_eq_true, List.mem_map, decide_eq_true_eq]
  rw [← hw, h.isWaiting]
  simp only [List.any_eq_true, List.mem_map, decide_eq_true_eq]

/-- An actor that has access does not wait. -/
theorem Apart.not_waiting (h : k.Apart) (hs : k.Calm) (ha : k.Holds a) :
    k.state.isWaiting a = false := by
  rw [hs.isWaiting, List.any_eq_false]
  intro e he hea
  exact h.idle e he (of_decide_eq_true hea ▸ ha)

/-- **A release does not wait**: it is the first call to end, and its actor waits nowhere. -/
theorem Apart.release (h : k.Apart) (hs : k.Settled) (hp : k.Permits a c) (hc : c.asks? = none) :
    ∃ fin, (start k.state a c).2 = .ran ((a, none) :: fin) ∧ a ∉ (start k.state a c).1.waiting := by
  have hold : k.Holds a := by
    cases c with
    | releaseRead => exact .inl hp
    | releaseWrite => exact .inr hp
    | acquireRead | acquireWrite | read | write | readFailing | writeFailing => cases hc
  have hb := h.not_waiting hs.calm hold
  obtain ⟨r, hr, hs'⟩ := settled_release hs hb hp hc
  obtain ⟨hstate, hended⟩ := step_eq_start k a c
  obtain ⟨fin, hfin⟩ : ∃ fin : List (α × Option Fault), (start k.state a c).2 = .ran fin := by
    simp [start, hb]
  obtain ⟨new, hnew, -⟩ := seen_watch (k.released a c) r
  refine ⟨new, ?_, ?_⟩
  · -- the record of the step notes the end of the release before all other ends
    have he := hended fin hfin
    rw [hr, hnew] at he
    simp only [released, List.map_append, List.append_assoc] at he
    rw [hfin, ← List.append_cancel_left he]
    rfl
  · obtain ⟨front, hrow, -⟩ := hs.row hb hp
    rw [hc] at hrow
    rw [← hstate, hs'.calm.mem_waiting]
    intro hmem
    obtain ⟨e, he, hea⟩ := List.mem_map.1 hmem
    refine hs.calm.ne_of_not_waiting hb e ?_ hea
    have : e ∈ k.pending ++ [] := by
      rw [show k.pending ++ [] = _ from hrow]
      exact List.mem_append_right _ he
    rwa [List.append_nil] at this

omit [DecidableEq α] in
/-- Who waits behind whom: a reader behind a writer that has access or waits in front of it, a writer
behind anybody that has access. -/
theorem Calm.reason (h : k.Calm) :
    (∀ front e back, k.pending = front ++ e :: back → e.2.asks? = some .reading →
      k.writers ≠ [] ∨ ∃ w ∈ front, w.2.asks? = some .writing) ∧
      (k.pending ≠ [] → k.readers ≠ [] ∨ k.writers ≠ []) := by
  cases h with
  | shared hq hw hs => simp [hq]
  | owned w hw hr hs => simp [hw]
  | leaving e q n hq he hw hr hs =>
    refine ⟨fun front x back hx hread => .inr ?_, fun _ => .inl fun h0 => by simp [h0] at hr⟩
    -- the writer in front of the row is the first, and the reader is another one
    rw [hq] at hx
    cases front with
    | nil =>
      obtain rfl := (List.cons.inj hx).1
      rw [he] at hread
      cases hread
    | cons y front =>
      obtain rfl := (List.cons.inj hx).1
      exact ⟨e, List.mem_cons_self, he⟩

omit [DecidableEq α] in
/-- A lock that nobody has is as it was in the beginning. -/
theorem Calm.initial (h : k.Calm) (hr : k.readers = []) (hw : k.writers = []) :
    k.pending = [] ∧ k.state = .initial α := by
  cases h with
  | shared hq _ hs =>
    refine ⟨hq, ?_⟩
    rw [hs, hr]
    rfl
  | owned w hw' _ _ => simp [hw'] at hw
  | leaving e q n _ _ _ hr' _ => simp [hr] at hr'

/-- **Nobody waits in vain.** Those who wait are in calls that ask for access, in the order in which they
were started. A reader waits only while another actor has access for writing, or behind a writer that
came earlier and waits itself; a writer waits only while another actor has access. A release never waits.
So nobody waits once nobody has access, and the lock is then as it was in the beginning. -/
theorem waits_for_holder (h : k.Courteous) :
    (∀ a, a ∈ k.state.waiting ↔ ∃ e ∈ k.pending, e.1 = a) ∧
      (∀ e ∈ k.pending, e.2.asks?.isSome) ∧ k.pending <:+ k.started ∧
      (∀ front e back, k.pending = front ++ e :: back → e.2.asks? = some .reading →
        (∃ b ∈ k.writers, b ≠ e.1) ∨ ∃ w ∈ front, w.2.asks? = some .writing) ∧
      (∀ e ∈ k.pending, e.2.asks? = some .writing → ∃ b, k.Holds b ∧ b ≠ e.1) ∧
      (∀ a c, k.Permits a c → c.asks? = none → ∃ fin,
        (start k.state a c).2 = .ran ((a, none) :: fin) ∧ a ∉ (start k.state a c).1.waiting) ∧
      (k.readers = [] → k.writers = [] → k.state.waiting = [] ∧ k.state = .initial α) := by
  have hs := settled_of_reached h.reached
  have ha := apart_of_courteous h
  obtain ⟨hread, hwrite⟩ := hs.calm.reason
  refine ⟨fun a => ?_, hs.sound.asks, ⟨_, hs.sound.order.symm⟩, ?_, ?_, ?_, ?_⟩
  · rw [hs.calm.mem_waiting, List.mem_map]
  · intro front e back hq he
    have hmem : e ∈ k.pending := by simp [hq]
    refine (hread front e back hq he).imp_left fun hw => ?_
    obtain ⟨b, hb⟩ := List.exists_mem_of_ne_nil _ hw
    exact ⟨b, hb, fun hbe => ha.idle e hmem (.inr (hbe ▸ hb))⟩
  · intro e he _
    rcases hwrite (List.ne_nil_of_mem he) with hne | hne <;>
      obtain ⟨b, hb⟩ := List.exists_mem_of_ne_nil _ hne
    · exact ⟨b, .inl hb, fun hbe => ha.idle e he (.inl (hbe ▸ hb))⟩
    · exact ⟨b, .inr hb, fun hbe => ha.idle e he (.inr (hbe ▸ hb))⟩
  · exact fun a c hp hc => ha.release hs hp hc
  · intro hr hw
    obtain ⟨-, hst⟩ := hs.calm.initial hr hw
    exact ⟨by rw [hst]; rfl, hst⟩

/-- A reader waits behind a writer that waits for another reader; when that one leaves, the writer fails
inside and all have been served. -/
theorem waits_for_holder_behind_failing :
    let k := (((initial Nat).step 1 .acquireRead).step 2 .writeFailing).step 3 .read
    let l := k.step 1 .releaseRead
    k.Courteous ∧ k.pending = [(2, .writeFailing), (3, .read)] ∧ (∃ b, k.Holds b ∧ b ≠ 2) ∧
      l.Courteous ∧ l.readers = [] ∧ l.writers = [] ∧ l.state.waiting = [] ∧
      l.state = .initial Nat := by
  intro k l
  have hk : k.Courteous := by
    refine .step (.step (.step .initial trivial fun _ => ?_) trivial fun _ => ?_) trivial fun _ => ?_
    all_goals
      unfold Holds
      decide +kernel
  have hq : k.pending = [(2, .writeFailing), (3, .read)] := by decide +kernel
  have hp : k.Permits 1 .releaseRead := by
    show 1 ∈ k.readers
    decide +kernel
  have hl : l.Courteous := .step hk hp fun hc => by cases hc
  have hr : l.readers = [] := by decide +kernel
  have hw : l.writers = [] := by decide +kernel
  exact ⟨hk, hq, (waits_for_holder hk).2.2.2.2.1 (2, .writeFailing) (by simp [hq]) rfl, hl, hr, hw,
    (waits_for_holder hl).2.2.2.2.2.2 hr hw⟩

end RemoteTree.Lock.Record
