import RemoteTree.Proofs.Session.Along
import RemoteTree.Proofs.Session.Attempt

/-!
# What no step takes back

The settings of a session stay as they are and its history only grows: no step, and no step in between
however deep, takes back a request, a line of the log or what the policy was shown.

* `Session.grows_operate`: operations, given that the steps in between take nothing back.
* `Session.grows_step`: steps, on the same terms.
* `Session.grows_between`: so the steps in between take nothing back, by induction on how deep they go.
-/

namespace RemoteTree.Session

variable {meanwhile : Meanwhile} (hm : meanwhile.Grows)

/-! ## Steps without requests -/

theorem grows_configure (s : Session) (place : Nat) (f : Reference → Reference) :
    s.Grows (s.configure place f) :=
  { Grows.refl s with }

theorem grows_introduce (s : Session) (name : Text) (r : Reference) : s.Grows (s.introduce name r) :=
  { Grows.refl s with }

theorem grows_bindStore (s : Session) (place : Nat) (store : Option Text) :
    s.Grows (s.bindStore place store).1 := by
  unfold bindStore
  cases store with
  | none => exact grows_configure s place _
  | some name =>
    dsimp only
    split
    · exact Grows.refl s
    · exact grows_configure s place _

theorem grows_refer (s : Session) (name : Text) (url : Value) (timeout : Option Value) (own : Bool) :
    s.Grows (s.refer name url timeout own).1 := by
  unfold refer
  dsimp only
  split
  · exact Grows.refl s
  · exact { Grows.refl s with }

theorem grows_withStore (s : Session) (name : Text) {f : Nat → Value → Performed}
    (hf : ∀ place token, s.Grows (f place token).1) : s.Grows (s.withStore name f).1 := by
  unfold withStore
  split
  · exact Grows.refl s
  · exact hf _ _

theorem grows_judge (s : Session) (m : Method) (r : Reference) (a : Answer) :
    s.Grows (s.judge m r a).1 := by
  unfold judge
  split
  · exact Grows.refl s
  · exact grows_note _ _ _ _

/-! ## Operations -/

include hm

theorem grows_submit (s : Session) (m : Method) (r : Reference) (target : Text) (first : Request) :
    s.Grows (s.submit meanwhile m r target first).1 := by
  have hn : s.Grows (s.noteFirst m target) := grows_note _ _ _ _
  unfold submit
  dsimp only
  split
  · exact hn
  · rename_i seconds _
    -- what is noted of the answer comes on top of what the chain has added
    have hg := (pursue_adds hm seconds (s.noteFirst m target).patience (s.noteFirst m target)
      (Chain.start first)).2.1
    split
    · rename_i he
      exact hn.trans (hg.of_eq he)
    · rename_i he
      exact (hn.trans (hg.of_eq he)).trans (grows_judge _ _ _ _)

/-- An operation takes nothing back if the steps in between do not. -/
theorem grows_operate (s : Session) (r : Reference) (m : Method) (payload : Body)
    (headers : List (Text × Value)) : s.Grows (s.operate meanwhile r m payload headers).1 := by
  unfold operate
  split
  · exact Grows.refl s
  · exact grows_submit hm s m r _ _

theorem grows_write (s : Session) (r : Reference) (m : Method) (payload : Body) :
    s.Grows (s.write meanwhile r m payload).1 := by
  have hg := grows_operate hm s r m payload []
  unfold write
  split <;> rename_i he <;> exact hg.of_eq he

theorem grows_writeValue (s : Session) (r : Reference) (m : Method) (v : Value) :
    s.Grows (s.writeValue meanwhile r m v).1 := by
  unfold writeValue
  split
  · exact Grows.refl s
  · exact grows_write hm s r m _

theorem grows_push (s : Session) (place : Nat) (r : Reference) (v : Value) (name : Text) :
    s.Grows (s.push meanwhile place r v name).1 := by
  unfold push
  split
  · exact Grows.refl s
  · rename_i bs _
    have hg := grows_operate hm s r .post (.bytes bs) []
    split
    · rename_i he
      exact hg.of_eq he
    · rename_i he
      dsimp only
      split
      · exact hg.of_eq he
      · split
        · exact hg.of_eq he
        · exact ((hg.of_eq he).trans (grows_note _ _ _ _)).trans (grows_introduce _ _ _)

/-! ## Steps -/

theorem grows_act (s : Session) (place : Nat) (r : Reference) (a : Action) :
    s.Grows (s.act meanwhile place r a).1 := by
  cases a with
  | derive d name =>
    simp only [act]
    split
    · exact Grows.refl s
    · exact grows_introduce s name _
  | push v name => exact grows_push hm s place r v name
  | setUrl url =>
    simp only [act]
    split
    · exact Grows.refl s
    · exact grows_configure s place _
  | bind store => exact grows_bindStore s place store
  | resolve =>
    simp only [act]
    split <;> exact Grows.refl s
  | sharesChannel other =>
    simp only [act]
    split <;> exact Grows.refl s
  | request m payload headers =>
    have hg := grows_operate hm s r m payload headers
    simp only [act]
    split <;> rename_i he <;> exact hg.of_eq he
  | set v => exact grows_writeValue hm s r .put v
  | update v => exact grows_writeValue hm s r .patch v
  | remove => exact grows_write hm s r .delete .none
  | value into =>
    have hg := grows_operate hm s r .get .none []
    simp only [act]
    split
    · rename_i he
      exact hg.of_eq he
    · rename_i he
      split <;> exact hg.of_eq he
  | setTimeout _ | auth _ | unauth | shallow _ | includePriority _ => exact grows_configure s place _
  | url | timeout | literal | storeNames => exact Grows.refl s

/-- **A step** takes nothing back if the steps in between do not. -/
theorem grows_step (s : Session) (t : Step) : s.Grows (s.step meanwhile t).1 := by
  cases t with
  | reference name url timeout own => exact grows_refer s name url timeout own
  | store name token => exact { Grows.refl s with }
  | setToken name token => exact grows_withStore s name fun _ _ => { Grows.refl s with }
  | token name => exact grows_withStore s name fun _ _ => Grows.refl s
  | storeLiteral name => exact grows_withStore s name fun _ _ => Grows.refl s
  | close => exact { Grows.refl s with }
  | act name a =>
    simp only [step]
    split
    · exact Grows.refl s
    · exact grows_act hm s _ _ a

omit hm in
/-- **Steps in between** take nothing back, however deep they go. -/
theorem grows_between (depth : Nat) : (between depth).Grows := by
  induction depth with
  | zero => exact fun steps s => inRow_of_steps Grows.refl Grows.trans (fun s _ => Grows.refl s) s steps
  | succ depth ih => exact fun steps s => inRow_of_steps Grows.refl Grows.trans (grows_step ih) s steps

end RemoteTree.Session
