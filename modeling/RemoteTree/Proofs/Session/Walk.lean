import RemoteTree.Proofs.Http.Follow
import RemoteTree.Proofs.Session.Attempt

/-!
# How a chain comes to its end

What the attempts of a chain have to do with each other, whatever the replies are: each one sends what
the one before it leads to, with the headers of the first one put back, until there is nothing to follow
or there have been too many.

* `Attempt.request_of_followed`: the method and the body that a redirect leaves.
* `Walk.forall_chain`, `Walk.along`: what each turn hands on, all attempts have, by themselves or together with those
  before them.
* `Walk.via`: an attempt knows exactly the requests before it.
* `Walk.began`: the headers of the first request stay on every later one.
* `Walk.length_le`: there are at most 31 requests.
* `Walk.result_of_last`, `Walk.ends`: how the last attempt decides the result.
-/

namespace RemoteTree

namespace Attempt

variable {a : Attempt} {p : Policy}

/-- The request that the reply leads to, if it is a response that leads to one. -/
def next? (a : Attempt) : Option Request :=
  match a.reply with
  | .error _ => none
  | .ok r => a.chain.next? r

/-- The policy is asked about a next request, and shown all requests so far. -/
theorem turn_of_next {next : Request} (h : a.next? = some next) (p : Policy) :
    ∃ status, a.turn p = Chain.asked p status next (a.chain.via ++ [a.request]) := by
  unfold next? at h
  cases hr : a.reply with
  | error x => simp [hr] at h
  | ok r =>
    rw [hr] at h
    refine ⟨r.status, ?_⟩
    unfold turn
    rw [hr]
    exact Chain.feed_of_next h p

/-- Without a next request the policy is not asked, and the chain is at its end. The count of redirects
comes out of it only if the error of a step in between was one. -/
theorem turn_of_no_next (h : a.next? = none) (p : Policy) :
    (a.turn p).shown = none ∧
      ((∃ why, (a.turn p).progress = .stopped why ∧
          ∀ n, why = .error (.tooManyRedirects n) → a.reply = .error (.error (.tooManyRedirects n))) ∨
        ∃ x, (a.turn p).progress = .answered x) := by
  unfold next? at h
  unfold turn
  cases hr : a.reply with
  | error x =>
    refine ⟨rfl, .inl ⟨x.stop, rfl, fun n hn => ?_⟩⟩
    cases x with
    | failure f => exact absurd hn ((Stop.isForeign_ofFailure f).ne_tooManyRedirects n)
    | error e =>
      simp only [Raised.stop, Stop.ofError] at hn
      split at hn
      · exact absurd hn ((Stop.isForeign_ofFailure _).ne_tooManyRedirects n)
      · rw [Stop.error.inj hn]
  | ok r =>
    rw [hr] at h
    obtain ⟨hshown, ⟨why, hp, hn⟩ | ⟨body, -, -, hp⟩⟩ := Chain.feed_of_no_next h p
    · exact ⟨hshown, .inl ⟨why, hp, fun n h => absurd h (hn n)⟩⟩
    · exact ⟨hshown, .inr ⟨_, hp⟩⟩

/-- A chain goes on to the next request as the policy has it. -/
theorem next_of_followed {status : Int} {c : Chain} (h : (a.turn p).progress = .followed status c) :
    ∃ next, a.next? = some next ∧ c.via = a.chain.via ++ [a.request] ∧
      p.apply next c.via = .ok c.current := by
  cases hn : a.next? with
  | none =>
    obtain ⟨-, ⟨why, hp, -⟩ | ⟨x, hp⟩⟩ := turn_of_no_next hn p
    · rw [hp] at h
      cases h
    · rw [hp] at h
      cases h
  | some next =>
    obtain ⟨st, ht⟩ := turn_of_next hn p
    rw [ht] at h
    unfold Chain.asked at h
    cases hp : p.apply next (a.chain.via ++ [a.request]) with
    | error e => simp [hp] at h
    | ok r =>
      simp only [hp, Progress.followed.injEq] at h
      obtain ⟨-, rfl⟩ := h
      exact ⟨next, rfl, rfl, hp⟩

/-- What a chain goes on with is what follows its redirect, as the policy has it. -/
theorem redirected_of_followed {status : Int} {c : Chain} (h : (a.turn p).progress = .followed status c) :
    ∃ x now place next, a.reply = .ok x ∧ a.request.redirected now x.status place = .ok next ∧
      p.apply next c.via = .ok c.current := by
  obtain ⟨next, hnext, -, happly⟩ := next_of_followed h
  unfold next? at hnext
  split at hnext
  · cases hnext
  · rename_i x hx
    obtain ⟨now, place, hredirected⟩ := Chain.redirected_of_next hnext
    exact ⟨x, now, place, next, hx, hredirected, happly⟩

/-- **How a chain goes on after a redirect**: with the method and the body that its status leaves. -/
theorem request_of_followed {status : Int} {c : Chain} (h : (a.turn p).progress = .followed status c) :
    ∃ x, a.reply = .ok x ∧ x.status ∈ redirectStatuses ∧
      c.current.method = a.request.method.redirected x.status ∧
      c.current.body = if repeatStatuses.contains x.status then a.request.body else .none := by
  obtain ⟨next, hnext, -, happly⟩ := next_of_followed h
  unfold next? at hnext
  split at hnext
  · cases hnext
  rename_i x hx
  obtain ⟨now, place, hredirected⟩ := Chain.redirected_of_next hnext
  obtain ⟨url, parts, headers, -, rfl⟩ := Request.of_redirected hredirected
  obtain ⟨restored, hrestored⟩ := Policy.eq_with_headers happly
  rw [hrestored]
  exact ⟨x, hx, Chain.status_of_next hnext, rfl, rfl⟩

end Attempt

namespace Walk

variable {p : Policy} {n : Nat} {c : Chain} {as : List Attempt} {result : Except Stop Answer}

/-- **What a chain has, and each turn hands on**, it has at all its attempts. -/
theorem forall_chain (h : Walk p n c as result) {P : Chain → Prop} (hc : P c)
    (hturn : ∀ (a : Attempt) status c', P a.chain → (a.turn p).progress = .followed status c' → P c') :
    ∀ a ∈ as, P a.chain := by
  induction h with
  | exhausted | unsendable => exact List.forall_mem_nil _
  | stopped _ hac _ | answered _ hac _ =>
    rw [List.forall_mem_singleton, hac]
    exact hc
  | @followed _ _ c' a status _ _ _ hac hp _ ih =>
    have ha : P a.chain := hac ▸ hc
    exact List.forall_mem_cons.2 ⟨ha, ih (hturn a status c' ha hp)⟩

/-- The first attempt is that of the chain. -/
theorem chain_of_head (h : Walk p n c as result) {a : Attempt} (ha : as[0]? = some a) : a.chain = c := by
  cases h with
  | exhausted | unsendable => cases ha
  | stopped _ hc _ | answered _ hc _ | followed _ hc _ _ =>
    obtain rfl := Option.some.inj ha
    exact hc

/-- **Each attempt knows the requests before it**, the oldest first, and no others. -/
theorem via (h : Walk p n c as result) {i : Nat} {a : Attempt} (ha : as[i]? = some a) :
    a.chain.via = c.via ++ (as.take i).map Attempt.request := by
  induction h generalizing i with
  | exhausted | unsendable => simp at ha
  | stopped _ hc _ | answered _ hc _ =>
    cases i with
    | zero =>
      obtain rfl := Option.some.inj ha
      simp [hc]
    | succ i => simp at ha
  | followed _ hc hp hw ih =>
    cases i with
    | zero =>
      obtain rfl := Option.some.inj ha
      simp [hc]
    | succ i =>
      obtain ⟨-, -, hvia, -⟩ := Attempt.next_of_followed hp
      rw [ih ha, hvia, hc]
      simp

/-- An attempt that is not the last one leads to the one after it. -/
theorem follows (h : Walk p n c as result) {i : Nat} {a b : Attempt} (ha : as[i]? = some a)
    (hb : as[i + 1]? = some b) : ∃ status, (a.turn p).progress = .followed status b.chain := by
  induction h generalizing i with
  | exhausted | unsendable | stopped | answered => simp at hb
  | followed _ hc hp hw ih =>
    cases i with
    | zero =>
      obtain rfl := Option.some.inj ha
      exact ⟨_, by rw [hw.chain_of_head hb]; exact hp⟩
    | succ i => exact ih ha hb

/-- **What the first attempt has, and each turn hands on to the next one**, every attempt has together with those before
it, by induction on their number. -/
theorem along (h : Walk p n c as result) {P : List Attempt → Attempt → Prop} (hfirst : ∀ a, a.chain = c → P [] a)
    (hnext : ∀ before b status a, P before b → (b.turn p).progress = .followed status a.chain → P (before ++ [b]) a)
    {i : Nat} {a : Attempt} (ha : as[i]? = some a) : P (as.take i) a := by
  induction i generalizing a with
  | zero => exact hfirst a (h.chain_of_head ha)
  | succ i ih =>
    obtain ⟨b, hb⟩ : ∃ b, as[i]? = some b := by
      have hlt := (List.getElem?_eq_some_iff.1 ha).1
      exact ⟨as[i], List.getElem?_eq_getElem (by omega)⟩
    have htake : as.take (i + 1) = as.take i ++ [b] := by
      rw [List.take_add_one, hb]
      rfl
    obtain ⟨status, hp⟩ := h.follows hb ha
    rw [htake]
    exact hnext _ b status a (ih hb) hp

end Walk

/-- The result of a chain that a turn ends. -/
def Progress.result? : Progress → Option (Except Stop Answer)
  | .stopped why => some (.error why)
  | .answered x => some (.ok x)
  | .followed .. => none

namespace Walk

variable {p : Policy} {n : Nat} {c : Chain} {as : List Attempt} {result : Except Stop Answer}

/-- A last attempt that ends the chain decides its result. -/
theorem result_of_last (h : Walk p n c as result) {last : Attempt} (hl : as.getLast? = some last)
    {x : Except Stop Answer} (hx : (last.turn p).progress.result? = some x) : result = x := by
  induction h with
  | exhausted | unsendable => cases hl
  | stopped _ _ hp | answered _ _ hp =>
    obtain rfl := Option.some.inj (List.getLast?_singleton.symm.trans hl)
    rw [hp] at hx
    exact Option.some.inj hx
  | @followed _ _ _ _ _ as _ _ _ hp _ ih =>
    cases as with
    | nil =>
      obtain rfl := Option.some.inj (List.getLast?_singleton.symm.trans hl)
      rw [hp] at hx
      cases hx
    | cons b bs =>
      rw [List.getLast?_cons_cons] at hl
      exact ih hl

/-- **How a chain ends under any policy**: its last attempt is the end of it, the next request cannot be sent,
or there have been as many requests as there may be. -/
theorem cases_of_end (h : Walk p n c as result) :
    (∃ last, as.getLast? = some last ∧ (last.turn p).progress.result? = some result) ∨
      ((∃ c', result = .error (Chain.unsendable c')) ∧ as.length < n) ∨
        (result = .error (.error .endlessChain) ∧ as.length = n ∧
          ∀ last, as.getLast? = some last → ∃ status c', (last.turn p).progress = .followed status c') := by
  induction h with
  | exhausted => exact .inr (.inr ⟨rfl, rfl, fun last hl => nomatch hl⟩)
  | @unsendable n c => exact .inr (.inl ⟨⟨c, rfl⟩, Nat.succ_pos n⟩)
  | @stopped _ _ a _ _ _ hp | @answered _ _ a _ _ _ hp =>
    exact .inl ⟨a, rfl, by rw [hp]; rfl⟩
  | @followed _ _ c' a status as _ _ _ hp _ ih =>
    rcases ih with ⟨last, hl, hx⟩ | ⟨hunsendable, hn⟩ | ⟨hr, hn, hfollowed⟩
    · refine .inl ⟨last, ?_, hx⟩
      cases as with
      | nil => cases hl
      | cons b bs => rwa [List.getLast?_cons_cons]
    · exact .inr (.inl ⟨hunsendable, Nat.succ_lt_succ hn⟩)
    · refine .inr (.inr ⟨hr, congrArg Nat.succ hn, fun last hl => ?_⟩)
      cases as with
      | nil =>
        obtain rfl := Option.some.inj (List.getLast?_singleton.symm.trans hl)
        exact ⟨status, c', hp⟩
      | cons b bs =>
        rw [List.getLast?_cons_cons] at hl
        exact hfollowed last hl

/-- A chain with as many requests as there may be that goes on behind the last one has no end. -/
theorem endless (h : Walk p n c as result) (hn : as.length = n)
    (hfollowed : ∀ last, as.getLast? = some last → ∃ status c', (last.turn p).progress = .followed status c') :
    result = .error (.error .endlessChain) := by
  rcases h.cases_of_end with ⟨last, hl, hx⟩ | ⟨-, hlt⟩ | ⟨hr, -⟩
  · obtain ⟨status, c', hp⟩ := hfollowed last hl
    rw [hp] at hx
    cases hx
  · omega
  · exact hr

end Walk

/-! ## Under the policy that puts headers back -/

/-- A chain that began with a request and still carries its headers. -/
structure Chain.Began (first : Request) (c : Chain) : Prop where
  head : (c.via ++ [c.current]).head? = some first
  carries : first.Carries c.current

theorem Chain.began_start (r : Request) : (Chain.start r).Began r := ⟨rfl, r.carries_refl⟩

namespace Attempt

variable {a : Attempt} {first next : Request}

/-- **What becomes of a next request**: it is followed with the headers of the first one, unless there
have been too many. -/
theorem progress_of_next (hb : a.chain.Began first) (hn : a.next? = some next) :
    if Policy.hopLimit < a.chain.via.length + 1 then
      (a.turn .restoring).progress = .stopped (.error (.tooManyRedirects (a.chain.via.length + 1)))
    else
      ∃ status, (a.turn .restoring).progress =
        .followed status ⟨a.chain.via ++ [a.request], Policy.restored next first⟩ := by
  obtain ⟨status, ht⟩ := turn_of_next hn .restoring
  -- the policy reads the headers that it puts back off the oldest request, which is the first one
  obtain ⟨rest, hrest⟩ : ∃ rest, a.chain.via ++ [a.request] = first :: rest := by
    have hhead := hb.head
    unfold request
    cases hv : a.chain.via ++ [a.chain.current] with
    | nil => simp at hv
    | cons x rest =>
      rw [hv] at hhead
      obtain rfl := Option.some.inj hhead
      exact ⟨rest, rfl⟩
  have hlen : rest.length + 1 = a.chain.via.length + 1 := by
    rw [← List.length_cons, ← hrest]
    simp
  rw [ht, hrest]
  unfold Chain.asked
  rw [Policy.apply_restoring, hlen]
  split
  · rfl
  · exact ⟨status, rfl⟩

/-- So a chain that goes on is still short, and goes on with the headers of the first request. -/
theorem followed_restoring {status : Int} {c : Chain} (hb : a.chain.Began first)
    (h : (a.turn .restoring).progress = .followed status c) :
    a.chain.via.length < Policy.hopLimit ∧
      ∃ next, a.next? = some next ∧ c = ⟨a.chain.via ++ [a.request], Policy.restored next first⟩ := by
  obtain ⟨next, hn, -, -⟩ := next_of_followed h
  have hp := progress_of_next hb hn
  split at hp
  · rw [hp] at h
    cases h
  · rename_i hlt
    obtain ⟨_, hp⟩ := hp
    rw [hp] at h
    obtain ⟨-, rfl⟩ := Progress.followed.inj h
    exact ⟨by omega, next, hn, rfl⟩

theorem began_of_followed {status : Int} {c : Chain} (hd : first.headers.Distinct)
    (hb : a.chain.Began first) (h : (a.turn .restoring).progress = .followed status c) :
    c.Began first := by
  obtain ⟨-, next, -, rfl⟩ := followed_restoring hb h
  refine ⟨?_, Policy.restored_carries hd next⟩
  have hhead := hb.head
  simp only [request, List.head?_append] at hhead ⊢
  rw [hhead]
  rfl

end Attempt

namespace Walk

variable {p : Policy} {first : Request} {n : Nat} {c : Chain} {as : List Attempt} {result : Except Stop Answer}

/-- **The headers of the first request stay** on every request of the chain. -/
theorem began (h : Walk .restoring n c as result) (hd : first.headers.Distinct) (hb : c.Began first) :
    ∀ a ∈ as, a.chain.Began first :=
  h.forall_chain hb fun _ _ _ hb hp => Attempt.began_of_followed hd hb hp

/-- **At most 31 requests** are sent, those that the chain began with included. -/
theorem length_le (h : Walk .restoring n c as result) (hd : first.headers.Distinct) (hb : c.Began first)
    (hc : c.via.length ≤ Policy.hopLimit) : c.via.length + as.length ≤ Policy.hopLimit + 1 := by
  induction h with
  | exhausted | unsendable => simp only [List.length_nil]; omega
  | stopped | answered => simp only [List.length_singleton]; omega
  | followed _ hac hp hw ih =>
    obtain ⟨hlt, next, -, rfl⟩ := Attempt.followed_restoring (hac ▸ hb) hp
    have := ih (Attempt.began_of_followed hd (hac ▸ hb) hp)
    simp only [List.length_append, List.length_singleton, hac] at this hlt
    simp only [List.length_cons]
    omega

/-- **How a chain ends**: its next request cannot be sent, or its last attempt is the end of it. It is
never cut short, for it is not longer than the number of requests it may have. -/
theorem ends (h : Walk .restoring n c as result) (hd : first.headers.Distinct) (hb : c.Began first)
    (hc : c.via.length ≤ Policy.hopLimit) (hn : Policy.hopLimit + 1 < c.via.length + n) :
    (∃ c', c'.isSendable = false ∧ result = .error c'.unsendable ∧
        (as = [] ∧ c' = c ∨ ∃ last status, as.getLast? = some last ∧
          (last.turn .restoring).progress = .followed status c')) ∨
      ∃ last, as.getLast? = some last ∧ (last.turn .restoring).progress.result? = some result := by
  induction h with
  | exhausted => omega
  | unsendable hs => exact .inl ⟨_, hs, rfl, .inl ⟨rfl, rfl⟩⟩
  | stopped _ _ hp | answered _ _ hp =>
    refine .inr ⟨_, List.getLast?_singleton, ?_⟩
    rw [hp]
    rfl
  | @followed n c c' a status as result _ hac hp hw ih =>
    obtain ⟨hlt, next, -, hc'⟩ := Attempt.followed_restoring (hac ▸ hb) hp
    have hvia : c'.via.length = c.via.length + 1 := by simp [hc', hac]
    rw [hac] at hlt
    have hend := ih (Attempt.began_of_followed hd (hac ▸ hb) hp) (by omega) (by omega)
    -- the rest of the chain ends as it does, but the last attempt is this one if there is no rest
    cases as with
    | nil =>
      left
      obtain ⟨c₁, hs, hr, ⟨-, rfl⟩ | ⟨_, _, hl, -⟩⟩ | ⟨_, hl, -⟩ := hend
      · exact ⟨c₁, hs, hr, .inr ⟨a, status, rfl, hp⟩⟩
      · cases hl
      · cases hl
    | cons b bs =>
      rw [List.getLast?_cons_cons]
      obtain ⟨c₁, hs, hr, ⟨h, -⟩ | hlast⟩ | hlast := hend
      · cases h
      · exact .inl ⟨c₁, hs, hr, .inr hlast⟩
      · exact .inr hlast

/-- What has been sent when the reply to an attempt comes. -/
theorem via_start (h : Walk p n (.start first) as result) {i : Nat} {a : Attempt} (ha : as[i]? = some a) :
    a.chain.via ++ [a.request] = (as.take (i + 1)).map Attempt.request := by
  rw [h.via ha, List.take_add_one, ha]
  simp [Chain.start]

theorem via_length (h : Walk p n (.start first) as result) {i : Nat} {a : Attempt}
    (ha : as[i]? = some a) : a.chain.via.length = i := by
  have hi := (List.getElem?_eq_some_iff.1 ha).1
  rw [h.via ha, List.length_append, List.length_map, List.length_take]
  simp only [Chain.start, List.length_nil]
  omega

theorem sendable (h : Walk p n c as result) : ∀ a ∈ as, a.chain.isSendable = true := by
  induction h with
  | exhausted | unsendable => simp
  | stopped hs hc _ | answered hs hc _ =>
    intro a ha
    rw [List.mem_singleton.1 ha, hc]
    exact hs
  | followed hs hc _ _ ih =>
    intro a ha
    rcases List.mem_cons.1 ha with rfl | ha
    · rw [hc]
      exact hs
    · exact ih a ha

/-- **A chain of up to 30 redirects is followed to its end**: a next request is sent, with the headers
of the first one, or there is no way of sending it. -/
theorem goes_on (h : Walk .restoring n (.start first) as result) (hd : first.headers.Distinct)
    (hn : Policy.hopLimit + 1 < n) {i : Nat} {a : Attempt} {next : Request} (ha : as[i]? = some a)
    (hi : i < Policy.hopLimit) (hnext : a.next? = some next) :
    let c : Chain := ⟨(as.take (i + 1)).map Attempt.request, Policy.restored next first⟩
    if c.isSendable then (as[i + 1]?).map Attempt.chain = some c
    else as.length = i + 1 ∧ result = .error c.unsendable := by
  have hb : a.chain.Began first := h.began hd (Chain.began_start first) a (List.mem_of_getElem? ha)
  have hp := Attempt.progress_of_next hb hnext
  rw [h.via_length ha, if_neg (by omega), h.via_start ha] at hp
  obtain ⟨status, hp⟩ := hp
  intro c
  cases hnx : as[i + 1]? with
  | some b =>
    obtain ⟨st, hp'⟩ := h.follows ha hnx
    rw [hp] at hp'
    obtain ⟨-, hbc⟩ := Progress.followed.inj hp'
    have hs := h.sendable b (List.mem_of_getElem? hnx)
    rw [← hbc] at hs
    rw [if_pos hs, Option.map_some, ← hbc]
  | none =>
    -- the attempt is the last one, and its turn does not end the chain
    have hl : as.length = i + 1 := by
      have := (List.getElem?_eq_some_iff.1 ha).1
      have := List.getElem?_eq_none_iff.1 hnx
      omega
    have hlast : as.getLast? = some a := by
      rw [List.getLast?_eq_getElem?, hl]
      exact ha
    obtain ⟨c₁, hs, hr, ⟨hnil, -⟩ | ⟨last, st, hl', hp'⟩⟩ | ⟨last, hl', hp'⟩ :=
      h.ends hd (Chain.began_start first) (by simp [Chain.start]) (by simpa [Chain.start] using hn)
    · simp [hnil] at ha
    · rw [hlast] at hl'
      obtain rfl := Option.some.inj hl'
      rw [hp] at hp'
      obtain ⟨-, rfl⟩ := Progress.followed.inj hp'
      rw [if_neg (Bool.not_eq_true _ ▸ hs)]
      exact ⟨hl, hr⟩
    · rw [hlast] at hl'
      obtain rfl := Option.some.inj hl'
      rw [hp] at hp'
      cases hp'

theorem getElem?_of_last {a : Attempt} (ha : as.getLast? = some a) : as[as.length - 1]? = some a := by
  rwa [List.getLast?_eq_getElem?] at ha

/-- **The count of redirects is the result exactly if the 31st request is redirected as well**, or if the
error of a step in between was one. -/
theorem tooManyRedirects_iff (h : Walk .restoring n (.start first) as result)
    (hd : first.headers.Distinct) (hn : Policy.hopLimit + 1 < n) {k : Nat} :
    result = .error (.error (.tooManyRedirects k)) ↔
      (k = Policy.hopLimit + 1 ∧ ∃ a, as[Policy.hopLimit]? = some a ∧ a.next?.isSome) ∨
        ∃ a, as.getLast? = some a ∧ a.reply = .error (.error (.tooManyRedirects k)) := by
  have hstart : (Chain.start first).via.length = 0 := rfl
  have hle := h.length_le hd (Chain.began_start first) (by omega)
  have hends := h.ends hd (Chain.began_start first) (by omega) (by omega)
  have hbegan := h.began hd (Chain.began_start first)
  rw [hstart, Nat.zero_add] at hle
  constructor
  · rintro rfl
    -- a request that cannot be sent ends a chain otherwise, so the last turn has counted
    obtain ⟨c', -, hr, -⟩ | ⟨last, hl, hp⟩ := hends
    · exact absurd (Except.error.inj hr).symm ((Stop.isForeign_ofFailure _).ne_tooManyRedirects k)
    have hat := getElem?_of_last hl
    have hmem := List.mem_of_getElem? hat
    cases hnx : last.next? with
    | none =>
      right
      obtain ⟨-, ⟨why, hp', hwhy⟩ | ⟨x, hp'⟩⟩ := Attempt.turn_of_no_next hnx .restoring
      · rw [hp'] at hp
        exact ⟨last, hl, hwhy k (Except.error.inj (Option.some.inj hp))⟩
      · rw [hp'] at hp
        cases hp
    | some next =>
      left
      have hp' := Attempt.progress_of_next (hbegan last hmem) hnx
      rw [h.via_length hat] at hp'
      split at hp'
      · rename_i hlong
        rw [hp'] at hp
        have hk := Error.tooManyRedirects.inj (Stop.error.inj (Except.error.inj (Option.some.inj hp)))
        have hlast : as.length - 1 = Policy.hopLimit := by omega
        rw [hlast] at hat hk
        exact ⟨hk.symm, last, hat, by rw [hnx]; rfl⟩
      · obtain ⟨_, hp'⟩ := hp'
        rw [hp'] at hp
        cases hp
  · rintro (⟨rfl, a, ha, hnx⟩ | ⟨a, ha, hreply⟩)
    · obtain ⟨next, hnx⟩ := Option.isSome_iff_exists.1 hnx
      have hp := Attempt.progress_of_next (hbegan a (List.mem_of_getElem? ha)) hnx
      rw [h.via_length ha, if_pos (Nat.lt_succ_self _)] at hp
      have hlast : as.getLast? = some a := by
        have hlt := (List.getElem?_eq_some_iff.1 ha).1
        rw [List.getLast?_eq_getElem?, show as.length - 1 = Policy.hopLimit by omega]
        exact ha
      exact h.result_of_last hlast (congrArg Progress.result? hp)
    · have hp : (a.turn .restoring).progress = .stopped (.error (.tooManyRedirects k)) := by
        unfold Attempt.turn
        rw [hreply]
        rfl
      exact h.result_of_last ha (congrArg Progress.result? hp)

end Walk

end RemoteTree
