import RemoteTree.Http.Policy
import RemoteTree.Http.Prepare
import RemoteTree.Proofs.Results

/-!
# Headers that are carried along

A policy that puts headers back sets those of the first request, one after the other, on the request
that follows a redirect. What it sets last wins, so this gives the request the headers of the first one
only because no name stands twice among those.

* `Headers.Distinct`: no name stands twice. Every request that is made for a caller has such headers
  (`distinct_of_prepare`).
* `Headers.get?_setAll`: what is set stays set, whatever was there before.
* `Request.of_prepare`: how the first request comes by its headers.
* `Request.Carries`: a request has the headers of another one, but for those that frame a body.
* `Policy.apply_restoring`: what the policy does, the count of redirects included.
-/

namespace RemoteTree

namespace Headers

theorem sameName_comm (a b : Text) : sameName a b = sameName b a := by
  simp only [sameName]
  exact BEq.comm

/-- Spellings of one name are of the same names. -/
theorem sameName_congr {a b : Text} (h : sameName a b = true) (c : Text) :
    sameName a c = sameName b c := by
  simp only [sameName, beq_iff_eq] at h ⊢
  rw [h]

/-- The value of a header does not depend on the spelling of its name. -/
theorem get?_congr {a b : Text} (h : sameName a b = true) (hs : Headers) : hs.get? a = hs.get? b := by
  unfold get?
  congr 2
  funext e
  rw [sameName_comm e.1 a, sameName_congr h, sameName_comm]

theorem get?_cons (e : Text × Value) (rest : Headers) (name : Text) :
    Headers.get? (e :: rest) name = if sameName e.1 name then some e.2 else rest.get? name := by
  unfold get?
  rw [List.find?_cons]
  cases sameName e.1 name <;> rfl

/-- No name stands twice. -/
def Distinct (h : Headers) : Prop := h.Pairwise fun a b => sameName a.1 b.1 = false

theorem mem_of_mem_set {h : Headers} {name : Text} {v : Value} {e : Text × Value}
    (he : e ∈ h.set name v) : e = (name, v) ∨ e ∈ h := by
  induction h with
  | nil => simpa [set] using he
  | cons x rest ih =>
    unfold set at he
    split at he
    · rcases List.mem_cons.1 he with h | h
      · exact .inl h
      · exact .inr (List.mem_cons_of_mem _ h)
    · rcases List.mem_cons.1 he with h | h
      · exact .inr (h ▸ List.mem_cons_self)
      · exact (ih h).imp_right (List.mem_cons_of_mem _)

theorem Distinct.set {h : Headers} (hd : h.Distinct) (name : Text) (v : Value) :
    (h.set name v).Distinct := by
  induction h with
  | nil => exact List.pairwise_singleton _ _
  | cons x rest ih =>
    obtain ⟨hx, hrest⟩ := List.pairwise_cons.1 hd
    unfold Headers.set
    split
    · rename_i hn
      refine List.pairwise_cons.2 ⟨fun e he => ?_, hrest⟩
      rw [← sameName_congr hn]
      exact hx e he
    · rename_i hn
      refine List.pairwise_cons.2 ⟨fun e he => ?_, ih hrest⟩
      rcases mem_of_mem_set he with rfl | he
      · simpa using hn
      · exact hx e he

theorem Distinct.setAll {h : Headers} (hd : h.Distinct) (settings : List (Text × Value)) :
    (h.setAll settings).Distinct := by
  induction settings generalizing h with
  | nil => exact hd
  | cons e rest ih => exact ih (hd.set e.1 e.2)

theorem Distinct.filter {h : Headers} (hd : h.Distinct) (p : Text × Value → Bool) :
    Distinct (h.filter p) :=
  List.Pairwise.filter p hd

theorem distinct_given (settings : List (Text × Value)) : (given settings).Distinct :=
  Distinct.filter (Distinct.setAll List.Pairwise.nil settings) _

/-- Settings of other names change nothing. -/
theorem get?_setAll_of_other {settings : List (Text × Value)} {name : Text}
    (hn : ∀ e ∈ settings, sameName e.1 name = false) (h : Headers) :
    (h.setAll settings).get? name = h.get? name := by
  induction settings generalizing h with
  | nil => rfl
  | cons e rest ih =>
    have hrest := ih (fun x hx => hn x (List.mem_cons_of_mem _ hx)) (h.set e.1 e.2)
    exact hrest.trans (get?_set_of_not_sameName h e.2 (hn e List.mem_cons_self))

/-- **What is set stays set.** Settings without a name that stands twice give each of their names its
value, whatever it was before. -/
theorem get?_setAll {settings : Headers} (hd : settings.Distinct) {name : Text} {v : Value}
    (hv : settings.get? name = some v) (h : Headers) : (h.setAll settings).get? name = some v := by
  induction settings generalizing h with
  | nil => simp [get?] at hv
  | cons e rest ih =>
    obtain ⟨he, hrest⟩ := List.pairwise_cons.1 hd
    rw [get?_cons] at hv
    show (setAll (h.set e.1 e.2) rest).get? name = some v
    split at hv
    · rename_i hn
      -- the settings behind this one have other names, and leave its value alone
      have hother : ∀ x ∈ rest, sameName x.1 name = false := by
        intro x hx
        rw [sameName_comm, ← sameName_congr hn]
        exact he x hx
      rw [get?_setAll_of_other hother, ← get?_congr hn, get?_set]
      exact hv
    · exact ih hrest hv _

/-- Leaving names out does not change the values of the others. -/
theorem get?_filter {drop : Text → Bool} (hdrop : ∀ a b, sameName a b = true → drop a = drop b)
    {name : Text} (hn : drop name = false) (h : Headers) :
    Headers.get? (h.filter fun e => !drop e.1) name = h.get? name := by
  induction h with
  | nil => rfl
  | cons e rest ih =>
    rw [List.filter_cons]
    by_cases he : sameName e.1 name = true
    · have hkeep : drop e.1 = false := (hdrop _ _ he).trans hn
      rw [if_pos (by simp [hkeep]), get?_cons, get?_cons, if_pos he, if_pos he]
    · split
      · rw [get?_cons, get?_cons, if_neg he, if_neg he, ih]
      · rw [get?_cons, if_neg he, ih]

theorem Distinct.withLength {h h' : Headers} {m : Method} {b : Body} (hd : h.Distinct)
    (hb : h.withLength m b = .ok h') : h'.Distinct := by
  cases b with
  | none =>
    obtain rfl := Except.ok.inj hb
    split
    · exact hd
    · exact hd.set _ _
  | text t =>
    obtain ⟨bs, -, hbs⟩ := bind_eq_ok.1 hb
    obtain rfl := Except.ok.inj hbs
    exact hd.set _ _
  | bytes bs =>
    obtain rfl := Except.ok.inj hb
    exact hd.set _ _

end Headers

namespace Request

variable {m : Method} {url : Text} {settings : List (Text × Value)} {payload : Body} {r : Request}

/-- **How a first request is made**: the headers that a caller gives get the length of the body, and are signed if
the url names a user. -/
theorem of_prepare (h : prepare m url settings payload = .ok r) :
    ∃ target parts headers, Url.target url = .ok target ∧ Url.split target = .ok parts ∧
      (Headers.given settings).withLength m payload.trimmed = .ok headers ∧
      (r = ⟨m, target, headers, payload.trimmed⟩ ∨
        ∃ s, r = ⟨m, target, headers.set "Authorization" (.text s), payload.trimmed⟩) := by
  unfold prepare at h
  obtain ⟨target, ht, h⟩ := bind_eq_ok.1 h
  obtain ⟨-, -, h⟩ := bind_eq_ok.1 h
  obtain ⟨parts, hp, h⟩ := bind_eq_ok.1 h
  obtain ⟨headers, hl, h⟩ := bind_eq_ok.1 h
  obtain ⟨signature, -, h⟩ := bind_eq_ok.1 h
  refine ⟨target, parts, headers, mapError_eq_ok.1 ht, mapError_eq_ok.1 hp, mapError_eq_ok.1 hl, ?_⟩
  cases signature with
  | none => exact .inl (Except.ok.inj h).symm
  | some s => exact .inr ⟨s, (Except.ok.inj h).symm⟩

/-- The method and the body are what a caller gives. -/
theorem method_of_prepare (h : prepare m url settings payload = .ok r) : r.method = m := by
  obtain ⟨target, parts, headers, -, -, -, rfl | ⟨s, rfl⟩⟩ := of_prepare h
  · rfl
  · rfl

theorem body_of_prepare (h : prepare m url settings payload = .ok r) : r.body = payload.trimmed := by
  obtain ⟨target, parts, headers, -, -, -, rfl | ⟨s, rfl⟩⟩ := of_prepare h
  · rfl
  · rfl

/-- The headers of a request that is made for a caller are distinct, whatever the caller gives. -/
theorem distinct_of_prepare (h : prepare m url settings payload = .ok r) : r.headers.Distinct := by
  obtain ⟨target, parts, headers, -, -, hl, hr⟩ := of_prepare h
  have hd : headers.Distinct := (Headers.distinct_given settings).withLength hl
  rcases hr with rfl | ⟨s, rfl⟩
  · exact hd
  · exact hd.set _ _

end Request

/-- Whether a request has every header of another one with the same value, but for those that frame
the body of the other one. -/
def Request.Carries (first r : Request) : Prop :=
  ∀ name v, first.headers.get? name = some v → Policy.isFraming name = false →
    r.headers.get? name = some v

theorem Request.carries_refl (r : Request) : r.Carries r := fun _ _ h _ => h

namespace Policy

theorem isFraming_congr {a b : Text} (h : Headers.sameName a b = true) : isFraming a = isFraming b := by
  simp only [Headers.sameName, beq_iff_eq] at h
  unfold isFraming
  rw [h]

/-- The next request with the headers of the first one put back. -/
def restored (next first : Request) : Request :=
  { next with headers := next.headers.setAll (first.headers.filter fun e => !isFraming e.1) }

/-- **The policy puts back what the first request had**, whatever the client has made of it. -/
theorem restored_carries {first : Request} (hd : first.headers.Distinct) (next : Request) :
    first.Carries (restored next first) := by
  intro name v hv hn
  have hv' : Headers.get? (first.headers.filter fun e => !isFraming e.1) name = some v := by
    rw [Headers.get?_filter (fun _ _ => isFraming_congr) hn]
    exact hv
  exact Headers.get?_setAll (hd.filter _) hv' _

/-- The policy at work after at least one request: it refuses once there have been too many, and puts
the headers of the first one back otherwise. -/
theorem apply_restoring (next first : Request) (rest : List Request) :
    apply .restoring next (first :: rest) =
      if hopLimit < rest.length + 1 then .error (.tooManyRedirects (rest.length + 1))
      else .ok (restored next first) := by
  simp only [apply, restore, List.map_cons, List.length_cons, List.length_map]
  by_cases h : hopLimit < rest.length + 1
  · rw [if_pos h, if_pos h]
  · rw [if_neg h, if_neg h]
    rfl

end Policy

end RemoteTree
