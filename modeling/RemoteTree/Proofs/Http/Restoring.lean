import Mathlib.Logic.Function.Basic
import RemoteTree.Proofs.Http.Carried

/-!
# Headers put back in place

The policy that puts headers back changes the header map of the next request where it stands: it goes through the map
of the first request and sets its entries there, one after the other. To set an entry is to replace the spelling of
its name together with its value, and no name stands twice in a map. So what becomes of an entry depends on its own
name alone, and what has been put back once can be put back again without a change.

* `Headers.mem_setAll`: **an entry stands in a map after some settings** if it is one of them, or if it stood there
  and none of them has its name.
* `Headers.setAll_eq_self`: to set entries that are there changes nothing.
* `Policy.restoreAt`: the policy at work on maps that have places; `Policy.restoreAt_eq` says that it makes of one of
  them what `Policy.restore` makes of it, and leaves the others alone.
* `Policy.puts_back_in_place`: **what the policy changes, and what it does not.**
-/

namespace RemoteTree

/-! ## Entries of a map -/

namespace Headers

variable {h settings : Headers} {name : Text} {v : Value} {e : Text × Value}

instance (h : Headers) : Decidable h.Distinct := inferInstanceAs (Decidable (List.Pairwise _ h))

/-- An entry stands in a map after a setting if it is what is set, or if it stood there and has another name. -/
theorem mem_set (hd : h.Distinct) : e ∈ h.set name v ↔ e = (name, v) ∨ e ∈ h ∧ sameName name e.1 = false := by
  induction h with
  | nil => simp [set]
  | cons x rest ih =>
    obtain ⟨hx, hrest⟩ := List.pairwise_cons.1 hd
    by_cases hname : sameName x.1 name = true
    · -- the entry with the name is replaced, and those behind it have other names
      have hothers : ∀ y ∈ rest, sameName name y.1 = false := by
        intro y hy
        rw [← sameName_congr hname]
        exact hx y hy
      have hself : sameName name x.1 = true := by rwa [sameName_comm]
      have hset : set (x :: rest) name v = (name, v) :: rest := if_pos hname
      rw [hset, List.mem_cons, List.mem_cons]
      constructor
      · rintro (he | he)
        · exact .inl he
        · exact .inr ⟨.inr he, hothers e he⟩
      · rintro (he | ⟨rfl | he, hother⟩)
        · exact .inl he
        · rw [hself] at hother
          cases hother
        · exact .inr he
    · have hset : set (x :: rest) name v = x :: set rest name v := if_neg hname
      have hother : sameName name x.1 = false := by simpa [sameName_comm] using hname
      rw [hset, List.mem_cons, ih hrest, List.mem_cons]
      constructor
      · rintro (rfl | he | ⟨he, hne⟩)
        · exact .inr ⟨.inl rfl, hother⟩
        · exact .inl he
        · exact .inr ⟨.inr he, hne⟩
      · rintro (he | ⟨rfl | he, hne⟩)
        · exact .inr (.inl he)
        · exact .inl rfl
        · exact .inr (.inr ⟨he, hne⟩)

/-- **An entry stands in a map after some settings** if it is one of them, or if it stood there and none of them has
its name. By induction on the settings: none of them undoes another one, for their names are apart. -/
theorem mem_setAll (hd : h.Distinct) (hs : settings.Distinct) :
    e ∈ h.setAll settings ↔ e ∈ settings ∨ e ∈ h ∧ ∀ x ∈ settings, sameName x.1 e.1 = false := by
  induction settings generalizing h with
  | nil => simp [setAll]
  | cons x rest ih =>
    obtain ⟨hx, hrest⟩ := List.pairwise_cons.1 hs
    have hstep : h.setAll (x :: rest) = (h.set x.1 x.2).setAll rest := rfl
    rw [hstep, ih (hd.set x.1 x.2) hrest, mem_set hd, List.mem_cons, List.forall_mem_cons]
    constructor
    · rintro (he | ⟨rfl | ⟨he, hother⟩, hothers⟩)
      · exact .inl (.inr he)
      · exact .inl (.inl rfl)
      · exact .inr ⟨he, hother, hothers⟩
    · rintro ((rfl | he) | ⟨he, hother, hothers⟩)
      · refine .inr ⟨.inl rfl, fun y hy => ?_⟩
        rw [sameName_comm]
        exact hx y hy
      · exact .inl he
      · exact .inr ⟨.inr ⟨he, hother⟩, hothers⟩

/-- To set an entry that is there changes nothing. -/
theorem set_eq_self (hd : h.Distinct) (he : (name, v) ∈ h) : h.set name v = h := by
  induction h with
  | nil => cases he
  | cons x rest ih =>
    obtain ⟨hx, hrest⟩ := List.pairwise_cons.1 hd
    rcases List.mem_cons.1 he with rfl | he
    · exact if_pos (sameName_refl name)
    · have hother : ¬sameName x.1 name = true := Bool.not_eq_true _ ▸ hx _ he
      have hset : set (x :: rest) name v = x :: set rest name v := if_neg hother
      rw [hset, ih hrest he]

/-- Nor does it to set several. -/
theorem setAll_eq_self (hd : h.Distinct) (he : ∀ e ∈ settings, e ∈ h) : h.setAll settings = h := by
  induction settings with
  | nil => rfl
  | cons x rest ih =>
    rw [List.forall_mem_cons] at he
    have hstep : h.setAll (x :: rest) = (h.set x.1 x.2).setAll rest := rfl
    rw [hstep, set_eq_self hd he.1, ih he.2]

end Headers

/-! ## Maps in their places -/

namespace Policy

open Headers

variable {maps : Nat → Headers} {next : Nat} {via : List Nat}

/-- Sets an entry in the map at a place, unless it frames a body. -/
def putBack (place : Nat) (maps : Nat → Headers) (e : Text × Value) : Nat → Headers :=
  if isFraming e.1 then maps else Function.update maps place ((maps place).set e.1 e.2)

/-- The policy at work on maps in their places: that of the next request, and those of the requests before it, the
first one first. What it makes of the maps is told together with the error, if there is one. -/
def restoreAt (maps : Nat → Headers) (next : Nat) (via : List Nat) : (Nat → Headers) × Except Error Unit :=
  match via with
  | [] => (maps, .ok ())
  | first :: _ =>
    if hopLimit < via.length then (maps, .error (.tooManyRedirects via.length))
    else ((maps first).foldl (putBack next) maps, .ok ())

/-- Entries that are put back one after the other are set in the one map, but for those that frame a body. -/
theorem foldl_putBack (next : Nat) (entries : Headers) (maps : Nat → Headers) :
    entries.foldl (putBack next) maps =
      Function.update maps next ((maps next).setAll (entries.filter fun e => !isFraming e.1)) := by
  induction entries generalizing maps with
  | nil => exact (Function.update_eq_self next maps).symm
  | cons e rest ih =>
    rw [List.foldl_cons, ih, putBack, List.filter_cons]
    cases isFraming e.1 with
    | true => rfl
    | false =>
      simp only [Bool.false_eq_true, if_false, Bool.not_false, if_true, Function.update_idem, Function.update_self]
      rfl

/-- **The policy changes the map of the next request alone**, and makes of it what it makes of such a map. -/
theorem restoreAt_eq (maps : Nat → Headers) (next : Nat) (via : List Nat) :
    restoreAt maps next via =
      match restore (maps next) (via.map maps) with
      | some h => (Function.update maps next h, .ok ())
      | none => (maps, .error (.tooManyRedirects via.length)) := by
  cases via with
  | nil => exact congrArg (·, _) (Function.update_eq_self next maps).symm
  | cons first rest =>
    unfold restoreAt restore
    simp only [List.map_cons, List.length_cons, List.length_map, foldl_putBack]
    split <;> rfl

/-! ## What becomes of the maps -/

/-- The entries of a map that do not frame a body. -/
def kept (h : Headers) : Headers := h.filter fun e => !isFraming e.1

theorem mem_kept {h : Headers} {e : Text × Value} : e ∈ kept h ↔ e ∈ h ∧ isFraming e.1 = false := by
  rw [kept, List.mem_filter, Bool.not_eq_true']

theorem restoreAt_of_long (h : hopLimit < via.length) :
    restoreAt maps next via = (maps, .error (.tooManyRedirects via.length)) := by
  cases via with
  | nil => cases h
  | cons first rest => exact if_pos h

theorem restoreAt_of_short {first : Nat} {rest : List Nat} (h : (first :: rest).length ≤ hopLimit) :
    restoreAt maps next (first :: rest) =
      (Function.update maps next ((maps next).setAll (kept (maps first))), .ok ()) := by
  have hshort : ¬hopLimit < (first :: rest).length := by omega
  unfold restoreAt
  dsimp only
  rw [if_neg hshort, foldl_putBack]
  rfl

/-- The policy only looks at the number of the requests before, and at the map of the first one. -/
theorem restoreAt_congr {via' : List Nat} (hlength : via'.length = via.length)
    (hfirst : via'.head?.map maps = via.head?.map maps) : restoreAt maps next via' = restoreAt maps next via := by
  cases via with
  | nil => rw [List.eq_nil_of_length_eq_zero hlength]
  | cons first rest =>
    cases via' with
    | nil => cases hlength
    | cons first' rest' =>
      have hmap : maps first' = maps first := Option.some.inj hfirst
      unfold restoreAt
      dsimp only
      rw [hlength, hmap]

/-- The map of the next request once the policy has worked on it. -/
theorem mem_setAll_kept {h first : Headers} (hd : h.Distinct) (hfirst : first.Distinct) {e : Text × Value} :
    e ∈ h.setAll (kept first) ↔ e ∈ first ∧ isFraming e.1 = false ∨
      e ∈ h ∧ ∀ x ∈ first, isFraming x.1 = false → sameName x.1 e.1 = false := by
  have hkept : Distinct (kept first) := hfirst.filter _
  rw [mem_setAll hd hkept, mem_kept]
  simp only [mem_kept, and_imp]

/-- To put headers back once more changes nothing: they are all there. -/
theorem restoreAt_again (hmaps : ∀ place, (maps place).Distinct) (hnext : next ∉ via)
    (hok : (restoreAt maps next via).2 = .ok ()) :
    restoreAt (restoreAt maps next via).1 next via = restoreAt maps next via := by
  cases via with
  | nil => rfl
  | cons first rest =>
    by_cases hlong : hopLimit < (first :: rest).length
    · rw [restoreAt_of_long hlong] at hok
      cases hok
    · have hshort : (first :: rest).length ≤ hopLimit := by omega
      have hne : first ≠ next := fun h => hnext (h ▸ List.mem_cons_self)
      have hthere : ∀ e ∈ kept (maps first), e ∈ (maps next).setAll (kept (maps first)) := fun e he =>
        (mem_setAll (hmaps next) ((hmaps first).filter _)).2 (.inl he)
      rw [restoreAt_of_short hshort, restoreAt_of_short hshort]
      simp only [Function.update_self, Function.update_of_ne hne, Function.update_idem,
        setAll_eq_self ((hmaps next).setAll _) hthere]

/-- **The policy as an update of header maps**, whatever maps there are. The next request has a map of its own, which
is none of those of the requests before it.

* It makes of the one map what `Policy.restore` makes of it, and leaves all others as they are.
* Without a request before, nothing changes. After more than 30 of them nothing changes either, and it ends in the
  error that counts them.
* Otherwise the map of the next request has exactly these entries, and no name twice: those of the first request that
  do not frame a body, with their spelling and their value; and its own ones under names that none of these has, as
  they were.
* All this depends on the number of the requests before, and of their maps on that of the first one alone.
* If there was no error, to apply the policy once more changes nothing. -/
theorem puts_back_in_place (maps : Nat → Headers) (hmaps : ∀ place, (maps place).Distinct) (next : Nat)
    (via : List Nat) (hnext : next ∉ via) :
    let out := restoreAt maps next via
    (∀ place, place ≠ next → out.1 place = maps place) ∧
      restore (maps next) (via.map maps) = (if out.2.isOk then some (out.1 next) else none) ∧
      (via = [] → out = (maps, .ok ())) ∧
      (30 < via.length → out = (maps, .error (.tooManyRedirects via.length))) ∧
      (∀ first rest, via = first :: rest → via.length ≤ 30 →
        out.2 = .ok () ∧ (out.1 next).Distinct ∧ ∀ e, e ∈ out.1 next ↔
          e ∈ maps first ∧ isFraming e.1 = false ∨
            e ∈ maps next ∧ ∀ x ∈ maps first, isFraming x.1 = false → sameName x.1 e.1 = false) ∧
      (∀ via', via'.length = via.length → via'.head?.map maps = via.head?.map maps →
        restoreAt maps next via' = out) ∧
      (out.2 = .ok () → restoreAt out.1 next via = out) := by
  intro out
  have hout : out = match restore (maps next) (via.map maps) with
      | some h => (Function.update maps next h, .ok ())
      | none => (maps, .error (.tooManyRedirects via.length)) := restoreAt_eq maps next via
  refine ⟨?_, ?_, ?_, restoreAt_of_long, ?_, fun via' => restoreAt_congr, restoreAt_again hmaps hnext⟩
  · intro place hplace
    rw [hout]
    split
    · exact Function.update_of_ne hplace _ _
    · rfl
  · rw [hout]
    cases restore (maps next) (via.map maps) with
    | none => rfl
    | some h => exact congrArg some (Function.update_self next h maps).symm
  · rintro rfl
    rfl
  · rintro first rest rfl hshort
    have hmade : out = _ := restoreAt_of_short hshort
    rw [hmade]
    dsimp only
    rw [Function.update_self]
    exact ⟨rfl, (hmaps next).setAll _, fun e => mem_setAll_kept (hmaps next) (hmaps first)⟩

/-- A name is respelled together with its value, and the length of the next request stays. -/
theorem puts_back_in_place_respelled :
    let first : Headers := [("x-a", .text "1"), ("Authorization", .text "t"), ("Content-LENGTH", .text "7")]
    let own : Headers := [("X-A", .text "2"), ("content-length", .text "3"), ("X-B", .text "4")]
    let maps : Nat → Headers := fun place => if place = 0 then own else first
    let out := restoreAt maps 0 [1, 2]
    (∀ place, (maps place).Distinct) ∧ 0 ∉ [1, 2] ∧ out.2 = .ok () ∧
      (out.1 0).map Prod.fst = (["x-a", "content-length", "X-B", "Authorization"] : List Text) ∧
      (∀ e ∈ first, Policy.isFraming e.1 = false → e ∈ out.1 0) ∧ out.1 1 = first ∧
      restoreAt out.1 0 [1, 2] = out := by
  intro first own maps out
  have hown : own.Distinct := by decide +kernel
  have hfirst : first.Distinct := by decide +kernel
  have hmaps : ∀ place, (maps place).Distinct := fun place => by
    by_cases h : place = 0
    · simpa [maps, h] using hown
    · simpa [maps, h] using hfirst
  have hnext : 0 ∉ [1, 2] := by decide
  obtain ⟨hothers, -, -, -, hentries, -, hagain⟩ := puts_back_in_place maps hmaps 0 [1, 2] hnext
  obtain ⟨hok, -, hmem⟩ := hentries 1 [2] rfl (by decide)
  exact ⟨hmaps, hnext, hok, by decide +kernel, fun e he hkept => (hmem e).2 (.inl ⟨he, hkept⟩),
    hothers 1 (by decide), hagain hok⟩

end Policy

end RemoteTree
