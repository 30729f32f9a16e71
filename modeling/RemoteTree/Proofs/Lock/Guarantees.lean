import RemoteTree.Proofs.Lock.Calm

/-!
# What the lock promises

Any number of actors start calls in any order; access is only given back by an actor that has it.

* `exclusion`: one writer or many readers have access, the count of readers is right, the room is taken
  exactly while somebody has access, and no release goes wrong.
* `granted_in_order`: **access is granted in the order in which the calls that ask for it were
  started**, so neither readers nor writers are overtaken.
-/

namespace RemoteTree.Lock.Record

variable {α : Type} [DecidableEq α] {k : Record α}

/-- Opening a door that nobody has passed is no way to end a call. -/
theorem not_released (h : k.Reached) {a : α} {c : Call} (hp : k.Permits a c)
    {fin : List (α × Option Fault)} (hf : (start k.state a c).2 = .ran fin) :
    ∀ e ∈ fin, e.2 ≠ some .released := by
  intro e he
  -- the record of the step tells of every end that is seen
  have hmem : e ∈ (k.step a c).ended.map Ending.seen := by
    rw [(step_eq_start k a c).2 fin hf]
    exact List.mem_append_right _ he
  obtain ⟨x, hx, rfl⟩ := List.mem_map.1 hmem
  obtain ⟨c', -, hc'⟩ := (settled_of_reached (h.step hp)).sound.ends x hx
  show x.fault ≠ some .released
  rw [hc']
  cases c' <;> simp [Call.outcome]

/-- **Exclusion.** At most one actor has access for writing, and then nobody has access for reading;
this is so at every moment at which access is granted, too. The count of readers is that of the reading
accesses granted and not given back, and the room is taken exactly while it is positive or a writer has
access. No call fails because a door was opened that nobody had passed: calls fail if what is done under
the lock fails, and have then given their access back. -/
theorem exclusion (h : k.Reached) :
    k.writers.length ≤ 1 ∧ (k.writers ≠ [] → k.readers = []) ∧
      (∀ g ∈ k.granted, g.writers = [] ∧ (g.call.asks? = some .writing → g.readers = [])) ∧
      k.state.readers = k.readers.length ∧
      (k.state.room.free = 0 ↔ 0 < k.state.readers ∨ k.writers ≠ []) ∧
      (∀ e ∈ k.ended, ∃ c, e.call? = some c ∧ e.fault = c.outcome) ∧
      ∀ a c fin, k.Permits a c → (start k.state a c).2 = .ran fin →
        ∀ e ∈ fin, e.2 ≠ some .released := by
  have hs := settled_of_reached h
  have hn : ∀ a c fin, k.Permits a c → (start k.state a c).2 = .ran fin →
      ∀ e ∈ fin, e.2 ≠ some .released := fun _ _ _ hp hf => not_released h hp hf
  cases hs.calm with
  | shared hq hw hst =>
    refine ⟨by simp [hw], by simp [hw], hs.sound.grants, by rw [hst], ?_, hs.sound.ends, hn⟩
    rw [hst, hw]
    cases k.readers with
    | nil => simp
    | cons a rs => simp
  | owned w hw hr hst =>
    refine ⟨by simp [hw], by simp [hr], hs.sound.grants, by rw [hst, hr]; rfl, ?_, hs.sound.ends, hn⟩
    simp [hst, hw]
  | leaving e q n hq he hw hr hst =>
    refine ⟨by simp [hw], by simp [hw], hs.sound.grants, by rw [hst, hr]; rfl, ?_, hs.sound.ends, hn⟩
    rw [hst]
    simp only [true_iff]
    left
    omega

/-- A writer waits for a reader that gives its access back; it has been granted its own and has given
it back as well. -/
theorem exclusion_after_release :
    let k := (((initial Nat).step 1 .acquireRead).step 2 .write).step 1 .releaseRead
    k.Reached ∧ k.state.readers = k.readers.length ∧ ∃ g ∈ k.granted, g.actor = 2 := by
  have hp : 1 ∈ (((initial Nat).step 1 .acquireRead).step 2 .write).readers := by decide +kernel
  have h : ((((initial Nat).step 1 .acquireRead).step 2 .write).step 1 .releaseRead).Reached :=
    .step (.step (.step .initial trivial) trivial) hp
  exact ⟨h, (exclusion h).2.2.2.1, by decide +kernel⟩

/-- **No overtaking.** The calls that ask for access, in the order in which they were started, are those
that have been granted it, in the order of the grants, and behind them those that wait. A step adds to
both rows at their end, so whoever came later is granted access later. -/
theorem granted_in_order (h : k.Reached) :
    k.started = k.granted.map Grant.request ++ k.pending ∧
      ∀ a c, k.granted <+: (k.step a c).granted ∧ k.started <+: (k.step a c).started :=
  ⟨(settled_of_reached h).sound.order, k.history_step⟩

/-- A reader that comes while a writer waits is granted access after the writer. -/
theorem granted_in_order_behind_writer :
    let k := (((initial Nat).step 1 .acquireRead).step 2 .acquireWrite).step 3 .acquireRead
    k.Reached ∧ k.granted.map Grant.request = [(1, .acquireRead)] ∧
      k.started = k.granted.map Grant.request ++ k.pending := by
  have h : ((((initial Nat).step 1 .acquireRead).step 2 .acquireWrite).step 3 .acquireRead).Reached :=
    .step (.step (.step .initial trivial) trivial) trivial
  exact ⟨h, by decide +kernel, (granted_in_order h).1⟩

end RemoteTree.Lock.Record
