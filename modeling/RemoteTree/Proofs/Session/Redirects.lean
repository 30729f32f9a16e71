import RemoteTree.Proofs.Session.Trace

/-!
# What an operation does with redirects

* `headers_kept_along_redirects`: **every request of an operation has the headers of the first one, there
  are at most 31 of them, and the policy sees every redirect that is followed** together with all
  requests before it.
-/

namespace RemoteTree.Session

/-- **The requests of an operation.** They are the attempts of its trace, in their order, and whatever
else is sent meanwhile comes from the steps in between. The policy is asked once for each reply that leads
to a next request, and is shown the requests that the operation has sent so far, the oldest first; it is
not asked for any other reply.

Under the policy that puts headers back there are at most 31 requests; each has every header of the first
one, with the same value, but for those that frame a body; a reply to one of the first 30 that leads to a
next request is followed, unless there is no way of sending that request; and too many redirects are
reported exactly if the reply to the 31st request leads to a next one as well, or if a step in between
has ended the operation with such a report of its own. -/
theorem headers_kept_along_redirects (depth : Nat) (s : Session) (r : Reference) (m : Method)
    (payload : Body) (headers : List (Text × Value)) :
    let as := s.trace (between depth) r m payload headers
    let out := s.operate (between depth) r m payload headers
    (∃ seconds, out.1.sent = s.sent ++ as.flatMap fun a => a.sent s.policy seconds s.trust) ∧
      out.1.shown = s.shown ++ as.flatMap (fun a => a.shown s.policy) ∧
      (∀ i a, as[i]? = some a →
        (a.next? = none → (a.turn s.policy).shown = none) ∧
          ∀ next, a.next? = some next → ∃ status, a.turn s.policy =
            Chain.asked s.policy status next ((as.take (i + 1)).map Attempt.request)) ∧
      (s.policy = .restoring →
        as.length ≤ 31 ∧
        (∀ first, as[0]? = some first → ∀ a ∈ as, first.request.Carries a.request) ∧
        (∀ i a first next, as[i]? = some a → as[0]? = some first → i < 30 → a.next? = some next →
          let c : Chain := ⟨(as.take (i + 1)).map Attempt.request, Policy.restored next first.request⟩
          if c.isSendable then (as[i + 1]?).map Attempt.chain = some c
          else as.length = i + 1 ∧ out.2 = .error (failed m r c.unsendable)) ∧
        ∀ k, out.2 = .error (.tooManyRedirects k) ↔
          (k = 31 ∧ ∃ a, as[30]? = some a ∧ a.next?.isSome) ∨
            ∃ a, as.getLast? = some a ∧ a.reply = .error (.error (.tooManyRedirects k))) := by
  intro as out
  cases hf : s.firstRequest r m payload headers with
  | error e =>
    obtain ⟨has, hout⟩ := operate_of_no_request (between depth) hf
    have hne : ∀ k, e ≠ .tooManyRedirects k := by
      rintro k rfl
      exact firstRequest_ne_tooManyRedirects _ _ _ _ _ k hf
    simp [as, out, has, hout, hne]
  | ok x =>
    obtain ⟨target, first⟩ := x
    cases ht : Timeout.attempt r.timeout with
    | error why =>
      obtain ⟨has, hout⟩ := operate_of_no_time (between depth) hf ht
      have hne : ∀ k, failed m r why ≠ .tooManyRedirects k := by
        intro k hk
        rw [failed_eq_tooManyRedirects.1 hk] at ht
        exact attempt_ne_tooManyRedirects _ k ht
      simp [as, out, has, hout, hne, noteFirst]
    | ok seconds =>
      obtain ⟨⟨n, result, hn, hw, hresult⟩, hsent, hshown⟩ :=
        operate_walks (grows_between depth) hf ht
      have hd := Request.distinct_of_prepare (prepare_of_firstRequest hf)
      refine ⟨⟨seconds, hsent⟩, hshown, fun i a ha => ⟨fun hnx => ?_, fun next hnx => ?_⟩, fun hp => ?_⟩
      · exact (Attempt.turn_of_no_next hnx _).1
      · obtain ⟨status, hturn⟩ := Attempt.turn_of_next hnx s.policy
        exact ⟨status, by rw [hturn, hw.via_start ha]⟩
      · rw [hp] at hw
        have hhead : ∀ x, as[0]? = some x → x.request = first := by
          intro x hx
          rw [Attempt.request, hw.chain_of_head hx]
          rfl
        refine ⟨?_, fun x hx a ha => ?_, fun i a x next ha hx hi hnx => ?_, fun k => ?_⟩
        · have hle := hw.length_le hd (Chain.began_start first) (Nat.zero_le _)
          rwa [show (Chain.start first).via.length = 0 from rfl, Nat.zero_add] at hle
        · rw [hhead x hx]
          exact (hw.began hd (Chain.began_start first) a ha).carries
        · rw [hhead x hx]
          intro c
          have hgo : if c.isSendable then _ else _ := hw.goes_on hd hn ha hi hnx
          split
          · rename_i hs
            rwa [if_pos hs] at hgo
          · rename_i hs
            rw [if_neg hs] at hgo
            exact ⟨hgo.1, by rw [hresult, hgo.2]; rfl⟩
        · rw [hresult, report_eq_tooManyRedirects, hw.tooManyRedirects_iff hd hn]
          rfl

end RemoteTree.Session
