/-!
# Results that are made in turns

What is made in several turns is there if every turn succeeds, and fails as the first turn that does not.

* `bind_eq_ok`, `bind_eq_error`: the two ends of two turns.
* `mapError_eq_ok`, `mapError_eq_error`: the two ends of a turn whose failure is put into other words.
* `map_eq_ok`: a turn whose success is put into other words.
* `eq_ok_of_toOption`: a turn of which only the success is looked at.
* `FailsWith`: what a result may fail with.
* `FailsIff`: when a result fails that can only fail in one way.
* `Agree`: two results that are failures, or there, in the same cases.
* `mapM_eq_error`, `of_mem_mapM`: what fails for a row fails for one of its members, and what succeeds has each
  of its results from one of them.
-/

namespace RemoteTree

variable {ε ε' α β : Type}

theorem bind_eq_ok {x : Except ε α} {f : α → Except ε β} {b : β} :
    x >>= f = .ok b ↔ ∃ a, x = .ok a ∧ f a = .ok b := by
  cases x with
  | error e => simp [bind, Except.bind]
  | ok a => simp [bind, Except.bind]

theorem bind_eq_error {x : Except ε α} {f : α → Except ε β} {e : ε} :
    x >>= f = .error e ↔ x = .error e ∨ ∃ a, x = .ok a ∧ f a = .error e := by
  cases x with
  | error e => simp [bind, Except.bind]
  | ok a => simp [bind, Except.bind]

@[simp] theorem mapError_ok (a : α) (f : ε → ε') : (Except.ok a).mapError f = .ok a := rfl

@[simp] theorem mapError_error (e : ε) (f : ε → ε') :
    (Except.error e : Except ε α).mapError f = .error (f e) := rfl

theorem mapError_eq_ok {x : Except ε α} {f : ε → ε'} {a : α} :
    x.mapError f = .ok a ↔ x = .ok a := by
  cases x <;> simp

theorem mapError_eq_error {x : Except ε α} {f : ε → ε'} {e : ε'} :
    x.mapError f = .error e ↔ ∃ e', x = .error e' ∧ f e' = e := by
  cases x <;> simp

theorem eq_ok_of_toOption {x : Except ε α} {a : α} (h : x.toOption = some a) : x = .ok a := by
  cases x with
  | error e => cases h
  | ok b => exact congrArg Except.ok (Option.some.inj h)

theorem map_eq_ok {x : Except ε α} {f : α → β} {b : β} : x.map f = .ok b ↔ ∃ a, x = .ok a ∧ f a = b := by
  cases x <;> simp [Except.map]

theorem of_mem_mapM {f : α → Except ε β} {l : List α} {bs : List β} (h : l.mapM f = .ok bs) :
    ∀ b ∈ bs, ∃ a ∈ l, f a = .ok b := by
  induction l generalizing bs with
  | nil =>
    obtain rfl := Except.ok.inj h
    exact fun b hb => by cases hb
  | cons a l ih =>
    rw [List.mapM_cons] at h
    obtain ⟨b, hb, h⟩ := bind_eq_ok.1 h
    obtain ⟨cs, hcs, h⟩ := bind_eq_ok.1 h
    obtain rfl := Except.ok.inj h
    refine List.forall_mem_cons.2 ⟨⟨a, List.mem_cons_self, hb⟩, fun c hc => ?_⟩
    obtain ⟨x, hx, hf⟩ := ih hcs c hc
    exact ⟨x, List.mem_cons_of_mem _ hx, hf⟩

/-- Whatever a result fails with has a property. -/
def FailsWith (P : ε → Prop) (x : Except ε α) : Prop := ∀ e, x = .error e → P e

namespace FailsWith

variable {P : ε → Prop}

theorem ok (a : α) : FailsWith P (.ok a) := fun _ h => nomatch h

theorem error {e : ε} (h : P e) : FailsWith P (.error e : Except ε α) := by
  intro e' he
  obtain rfl := Except.error.inj he
  exact h

theorem bind {x : Except ε α} {f : α → Except ε β} (hx : FailsWith P x) (hf : ∀ a, FailsWith P (f a)) :
    FailsWith P (x >>= f) := by
  intro e he
  obtain he | ⟨a, -, he⟩ := bind_eq_error.1 he
  · exact hx e he
  · exact hf a e he

theorem map {x : Except ε α} (hx : FailsWith P x) (f : α → β) : FailsWith P (x.map f) := by
  cases x with
  | error e => exact .error (hx e rfl)
  | ok a => exact .ok (f a)

theorem mapError (x : Except ε' α) {f : ε' → ε} (hf : ∀ e, P (f e)) : FailsWith P (x.mapError f) := by
  intro e he
  obtain ⟨e', -, rfl⟩ := mapError_eq_error.1 he
  exact hf e'

end FailsWith

/-- A result that fails exactly in some cases, and always in the same way. -/
def FailsIff (e : ε) (P : Prop) (x : Except ε α) : Prop := ∀ e', x = .error e' ↔ e' = e ∧ P

namespace FailsIff

variable {e : ε} {P Q : Prop}

theorem ok (a : α) : FailsIff e False (.ok a) := fun _ => iff_of_false nofun And.right

theorem error (h : P) : FailsIff e P (.error e : Except ε α) := fun _ =>
  ⟨fun he => ⟨(Except.error.inj he).symm, h⟩, fun ⟨he, _⟩ => he ▸ rfl⟩

theorem congr {x : Except ε α} (h : FailsIff e P x) (hPQ : P ↔ Q) : FailsIff e Q x := fun e' =>
  (h e').trans (and_congr_right fun _ => hPQ)

/-- Of two turns that may fail alike, either may. -/
theorem bind {x : Except ε α} {f : α → Except ε β} (hx : FailsIff e P x) (hf : ∀ a, FailsIff e Q (f a)) :
    FailsIff e (P ∨ Q) (x >>= f) := by
  intro e'
  rw [bind_eq_error, hx e', and_or_left]
  constructor
  · rintro (h | ⟨a, -, ha⟩)
    · exact .inl h
    · exact .inr ((hf a e').1 ha)
  · rintro (h | ⟨rfl, hQ⟩)
    · exact .inl h
    · cases hr : x with
      | error e'' => exact .inl ⟨rfl, ((hx e'').1 hr).2⟩
      | ok a => exact .inr ⟨a, rfl, (hf a e').2 ⟨rfl, hQ⟩⟩

theorem map {x : Except ε α} (h : FailsIff e P x) (f : α → β) : FailsIff e P (x.map f) := by
  intro e'
  rw [← h e']
  cases x <;> simp [Except.map]

end FailsIff

/-- Two results that agree: both are failures, of whatever kind, or both are there, and one is related to the
other. -/
inductive Agree (R : α → β → Prop) : Except ε α → Except ε' β → Prop where
  | ok {a : α} {b : β} (h : R a b) : Agree R (.ok a) (.ok b)
  | error (e : ε) (e' : ε') : Agree R (.error e) (.error e')

namespace Agree

variable {γ δ : Type} {R : α → β → Prop} {S : γ → δ → Prop} {x : Except ε α} {y : Except ε' β}

theorem refl {R : α → α → Prop} (h : ∀ a, R a a) (x : Except ε α) : Agree R x x := by
  cases x with
  | error e => exact .error e e
  | ok a => exact .ok (h a)

theorem cases (h : Agree R x y) :
    (∃ a b, x = .ok a ∧ y = .ok b ∧ R a b) ∨ ∃ e e', x = .error e ∧ y = .error e' := by
  cases h with
  | ok h => exact .inl ⟨_, _, rfl, rfl, h⟩
  | error e e' => exact .inr ⟨e, e', rfl, rfl⟩

/-- What is made of results that agree agrees if it does for related ones. -/
theorem bind (h : Agree R x y) {f : α → Except ε γ} {g : β → Except ε' δ}
    (hfg : ∀ a b, R a b → Agree S (f a) (g b)) : Agree S (x >>= f) (y >>= g) := by
  cases h with
  | ok hab => exact hfg _ _ hab
  | error e e' => exact .error e e'

/-- What is made of one result in two ways agrees if it does for everything that may come. -/
theorem bind_same (x : Except ε α) {f : α → Except ε γ} {g : α → Except ε δ}
    (hfg : ∀ a, Agree S (f a) (g a)) : Agree S (x >>= f) (x >>= g) := by
  cases x with
  | ok a => exact hfg a
  | error e => exact .error e e

theorem mapError (h : Agree R x y) {γ' δ' : Type} (f : ε → γ') (g : ε' → δ') :
    Agree R (x.mapError f) (y.mapError g) := by
  cases h with
  | ok hab => exact .ok hab
  | error e e' => exact .error _ _

end Agree

theorem mapM_eq_error {f : α → Except ε β} {l : List α} {e : ε} (h : l.mapM f = .error e) :
    ∃ a ∈ l, f a = .error e := by
  induction l with
  | nil => cases h
  | cons a l ih =>
    rw [List.mapM_cons] at h
    rcases bind_eq_error.1 h with h | ⟨b, -, h⟩
    · exact ⟨a, List.mem_cons_self, h⟩
    · rcases bind_eq_error.1 h with h | ⟨bs, -, h⟩
      · obtain ⟨x, hx, hf⟩ := ih h
        exact ⟨x, List.mem_cons_of_mem _ hx, hf⟩
      · cases h

theorem FailsWith.mapM {P : ε → Prop} {f : α → Except ε β} (hf : ∀ a, FailsWith P (f a)) (l : List α) :
    FailsWith P (l.mapM f) := by
  intro e he
  obtain ⟨a, -, ha⟩ := mapM_eq_error he
  exact hf a e ha

end RemoteTree
