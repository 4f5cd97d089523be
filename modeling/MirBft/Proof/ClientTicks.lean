/-
**What a tick does to a request number.**

A tick may promote the null request; then it asks again for requests that it fetches (`OnlyFetches`,
`AskFor`), and at last it may resend an ack, which only counts (`tick_eq_ok`).
-/

import MirBft.Model.Clients

namespace MirBft

/-- What of a request is not about fetching it. -/
def ClientRequest.settled (cr : ClientRequest) : ClientRequest :=
  { cr with fetching := false, ticksFetching := 0, ticksCorrect := 0 }

namespace ClientReqNo

variable {crn first second third after : ClientReqNo} {digest : Bytes} {actions : List Action}

/-- **Nothing changes but the fetches.** -/
structure OnlyFetches (before after : ClientReqNo) : Prop where
  rest : after = { before with requests := after.requests }
  requests : ∀ digest, (after.requests.lookup digest).map ClientRequest.settled =
    (before.requests.lookup digest).map ClientRequest.settled

theorem OnlyFetches.refl (crn : ClientReqNo) : OnlyFetches crn crn := ⟨rfl, fun _ => rfl⟩

theorem OnlyFetches.trans (one : OnlyFetches first second)
    (two : OnlyFetches second third) : OnlyFetches first third :=
  ⟨two.rest.trans (congrArg (fun crn : ClientReqNo => { crn with requests := third.requests }) one.rest),
    fun digest => (two.requests digest).trans (one.requests digest)⟩

theorem onlyFetches_setRequest {old cr : ClientRequest}
    (found : crn.requests.lookup digest = some old) (same : cr.settled = old.settled) :
    OnlyFetches crn (crn.setRequest digest cr) := by
  refine ⟨rfl, fun other => ?_⟩
  show ((crn.requests.insert digest cr).lookup other).map _ = _
  rcases eq_or_ne other digest with rfl | different
  · rw [AList.lookup_insert, found, Option.map_some, Option.map_some, same]
  · rw [AList.lookup_insert_ne different]

theorem fetch_settled (cr : ClientRequest) : cr.fetch.1.settled = cr.settled := by
  unfold ClientRequest.fetch
  split <;> rfl

/-- The actions ask for requests. -/
def AskFor (actions : List Action) : Prop :=
  ∀ action ∈ actions, ∃ targets ack, action = .send targets (.fetchRequest ack)

theorem AskFor.nil : AskFor [] := nofun

theorem AskFor.append {actions more : List Action} (one : AskFor actions) (two : AskFor more) :
    AskFor (actions ++ more) := fun action member =>
  (List.mem_append.mp member).elim (one action) (two action)

theorem askFor_fetch (cr : ClientRequest) : AskFor cr.fetch.2 := by
  unfold ClientRequest.fetch
  split
  · exact .nil
  · intro action member
    exact ⟨_, _, List.mem_singleton.mp member⟩

theorem tickCorrect_spec (crn : ClientReqNo) :
    OnlyFetches crn crn.tickCorrect.1 ∧ AskFor crn.tickCorrect.2 := by
  unfold tickCorrect
  split
  · split
    · exact ⟨.refl crn, .nil⟩
    rename_i cr found
    split
    · exact ⟨.refl crn, .nil⟩
    split
    · exact ⟨onlyFetches_setRequest found rfl, .nil⟩
    · exact ⟨onlyFetches_setRequest found (fetch_settled cr), askFor_fetch cr⟩
  · exact ⟨.refl crn, .nil⟩

theorem onlyFetches_tickFetching (crn : ClientReqNo) (digests : List Bytes) :
    OnlyFetches crn (crn.tickFetching digests).1 := by
  induction digests generalizing crn with
  | nil => exact .refl crn
  | cons digest rest ih =>
    unfold tickFetching
    split
    · exact ih crn
    rename_i cr found
    split
    · exact ih crn
    split
    · refine .trans ?_ (ih _)
      exact onlyFetches_setRequest found rfl
    · refine .trans ?_ (ih _)
      exact onlyFetches_setRequest found rfl

theorem refetch_spec (crn : ClientReqNo) (digests : List Bytes) :
    OnlyFetches crn (crn.refetch digests).1 ∧ AskFor (crn.refetch digests).2 := by
  induction digests generalizing crn with
  | nil => exact ⟨.refl crn, .nil⟩
  | cons digest rest ih =>
    unfold refetch
    split
    · exact ih crn
    · rename_i cr found
      obtain ⟨same, ask⟩ := ih (crn.setRequest digest cr.fetch.1)
      exact ⟨.trans (onlyFetches_setRequest found (fetch_settled cr)) same, (askFor_fetch cr).append ask⟩

/-- The request number when `tick` comes to the resend: the null request may have been promoted. -/
theorem tick_eq (notCommitted : crn.committed = false) :
    ∃ mid asked, OnlyFetches crn.tickConflict.1 mid ∧ AskFor asked ∧
      crn.tick = mid.tickResend >>= fun result =>
        pure (result.1, crn.tickConflict.2 ++ asked ++ result.2) := by
  obtain ⟨first, firstAsk⟩ := tickCorrect_spec crn.tickConflict.1
  set correct := crn.tickConflict.1.tickCorrect with isCorrect
  have second := onlyFetches_tickFetching correct.1 correct.1.weakRequests
  set fetching := correct.1.tickFetching correct.1.weakRequests with isFetching
  obtain ⟨third, thirdAsk⟩ := refetch_spec fetching.1 (fetching.2.insertionSort (· > ·))
  refine ⟨(fetching.1.refetch (fetching.2.insertionSort (· > ·))).1,
    correct.2 ++ (fetching.1.refetch (fetching.2.insertionSort (· > ·))).2,
    (first.trans second).trans third, firstAsk.append thirdAsk, ?_⟩
  unfold tick
  rw [if_neg (by rw [notCommitted]; exact Bool.false_ne_true)]
  simp only [List.append_assoc]
  rfl

/-- **A tick** of a request number that has not committed ends with the resend, which counts, and
may send an ack. -/
theorem tick_eq_ok (ticked : crn.tick = .ok (after, actions)) :
    (crn.committed = true ∧ after = crn ∧ actions = []) ∨
    (crn.committed = false ∧ ∃ mid asked resent acksSent ticksSinceAck,
      OnlyFetches crn.tickConflict.1 mid ∧ AskFor asked ∧ actions = crn.tickConflict.2 ++ asked ++ resent ∧
      after = { mid with acksSent, ticksSinceAck } ∧ (0 < acksSent → 0 < mid.acksSent) ∧
      (resent = [] ∨ ∃ ack, mid.ackToResend = .ok ack ∧
      resent = [.send mid.networkConfig.nodes (.requestAck ack)])) := by
  cases isCommitted : crn.committed with
  | true =>
    unfold tick at ticked
    rw [if_pos isCommitted] at ticked
    cases ticked
    exact Or.inl ⟨rfl, rfl, rfl⟩
  | false =>
    obtain ⟨mid, asked, only, ask, isTick⟩ := tick_eq isCommitted
    rw [isTick] at ticked
    obtain ⟨⟨last, resent⟩, resends, returned⟩ := bind_eq_ok.mp ticked
    cases returned
    refine Or.inr ⟨rfl, mid, asked, resent, ?_⟩
    unfold tickResend at resends
    split at resends
    · cases resends
      exact ⟨_, _, only, ask, rfl, rfl, id, Or.inl rfl⟩
    split at resends
    · cases resends
      exact ⟨_, _, only, ask, rfl, rfl, id, Or.inl rfl⟩
    · obtain ⟨ack, isAck, returned⟩ := bind_eq_ok.mp resends
      cases returned
      exact ⟨_, _, only, ask, rfl, rfl, fun _ => by omega, Or.inr ⟨ack, isAck, rfl⟩⟩

end ClientReqNo

end MirBft
