/-
**What the operations of the commit state change.**

* `commit_frame`: what `commit` changes;
* `drainOnce_cases`: what a round of `drain` does. `Drained`: what `drain` changes and asks for;
* `Settled`: nothing to drain. A commit state is settled after `drain`, if no checkpoint is asked
  for;
* `reinitialize_fresh`: the commit state that is made from the log, and when it is settled.
-/

import MirBft.Model.CommitState

namespace MirBft

namespace CommitState

section Moves

variable {cs after : CommitState} {actions : List Action} {more : Bool} {p : Persisted} {qEntry : QEntry}

/-! ### Committing -/

/-- **What `commit` does**: nothing at or below the checkpoint, and else it notes the batch and the
highest commit. -/
theorem commit_cases (committed : cs.commit qEntry = .ok after) :
    qEntry.seqNo ≤ cs.stopAtSeqNo ∧ (qEntry.seqNo ≤ cs.lowWatermark ∧ after = cs ∨
      cs.lowWatermark < qEntry.seqNo ∧ ∃ lowerHalfCommits upperHalfCommits,
        after = { cs with
          highestCommit := max cs.highestCommit qEntry.seqNo, lowerHalfCommits, upperHalfCommits } ∧
        ∀ other, some other ∈ lowerHalfCommits ∨ some other ∈ upperHalfCommits →
          other = qEntry ∨ some other ∈ cs.lowerHalfCommits ∨ some other ∈ cs.upperHalfCommits) := by
  unfold CommitState.commit at committed
  split at committed
  · cases committed
  split at committed
  · cases committed
  rename_i inside
  refine ⟨Nat.le_of_not_lt inside, ?_⟩
  split at committed
  · cases committed
    exact .inl ⟨‹_›, rfl⟩
  rename_i above
  refine .inr ⟨Nat.lt_of_not_le above, ?_⟩
  split at committed
  · cases committed
  dsimp only at committed
  split at committed
  · cases committed
  split at committed
  · cases committed
  · split at committed
    · cases committed
    · cases committed
      exact ⟨_, _, rfl, fun _ => .inr⟩
  · split at committed
    · cases committed
      refine ⟨_, _, rfl, ?_⟩
      rintro other (lower | new)
      · exact .inr (.inl lower)
      · rcases List.mem_or_eq_of_mem_set new with earlier | same
        · exact .inr (.inr earlier)
        · exact .inl (Option.some.inj same)
    · cases committed
      refine ⟨_, _, rfl, ?_⟩
      rintro other (new | upper)
      · rcases List.mem_or_eq_of_mem_set new with earlier | same
        · exact .inr (.inl earlier)
        · exact .inl (Option.some.inj same)
      · exact .inr (.inr upper)

/-- What `commit` leaves. -/
theorem commit_frame (committed : cs.commit qEntry = .ok after) :
    ∃ highestCommit lowerHalfCommits upperHalfCommits,
      after = { cs with highestCommit, lowerHalfCommits, upperHalfCommits } := by
  obtain ⟨_, ⟨_, rfl⟩ | ⟨_, _, _, rfl, _⟩⟩ := commit_cases committed
  · exact ⟨_, _, _, rfl⟩
  · exact ⟨_, _, _, rfl⟩

/-! ### Draining -/

/-- The place of the next commit. -/
def nextSlot (cs : CommitState) : Option (Option QEntry) :=
  (if cs.lastAppliedCommit + 1 - cs.lowWatermark > cs.checkpointInterval then cs.upperHalfCommits
    else cs.lowerHalfCommits)[(cs.lastAppliedCommit + 1 - (cs.lowWatermark + 1)) %
      cs.checkpointInterval]?

/-- `drain` asks for a checkpoint. -/
def Due (cs : CommitState) : Prop :=
  cs.lastAppliedCommit = cs.lowWatermark + cs.checkpointInterval ∧ !cs.checkpointPending

/-- The second part of a round of `drain`: the next batch, if it is there. -/
def deliverNext (ci : Nat) (cs : CommitState) (requested : List Action) :
    Go (CommitState × List Action × Bool) :=
  match (if cs.lastAppliedCommit + 1 - cs.lowWatermark > ci then cs.upperHalfCommits
    else cs.lowerHalfCommits)[(cs.lastAppliedCommit + 1 - (cs.lowWatermark + 1)) % ci]? with
  | none => throw "index out of range: commits"
  | some none => pure (cs, requested, false)
  | some (some commit) =>
    if commit.seqNo ≠ cs.lastAppliedCommit + 1 then throw "attempted out of order commit"
    else do
      let committingClients ← markRequests commit.seqNo cs.committingClients commit.requests
      pure ({ cs with committingClients, lastAppliedCommit := cs.lastAppliedCommit + 1 },
        requested ++ [.commit commit], true)

/-- A round asks for a checkpoint that is due, and delivers the next batch. -/
theorem drainOnce_eq (cs : CommitState) : cs.drainOnce =
    (if cs.lastAppliedCommit = cs.lowWatermark + cs.checkpointInterval ∧ !cs.checkpointPending then
      cs.requestCheckpoint else pure (cs, [])) >>=
        fun requests => requests.1.deliverNext cs.checkpointInterval requests.2 := by
  by_cases due : cs.lastAppliedCommit = cs.lowWatermark + cs.checkpointInterval ∧ !cs.checkpointPending
  · simp only [CommitState.drainOnce, if_pos due]
    rfl
  · simp only [CommitState.drainOnce, if_neg due]
    rfl

theorem deliverNext_cases {requested : List Action}
    (ran : cs.deliverNext cs.checkpointInterval requested = .ok (after, actions, more)) :
    more = false ∧ after = cs ∧ actions = requested ∧ cs.nextSlot = some none ∨
      more = true ∧ ∃ commit committingClients, cs.nextSlot = some (some commit) ∧
        commit.seqNo = cs.lastAppliedCommit + 1 ∧ actions = requested ++ [.commit commit] ∧
        after = { cs with committingClients, lastAppliedCommit := cs.lastAppliedCommit + 1 } := by
  change (match cs.nextSlot with | none => _ | some none => _ | some (some commit) => _) = _ at ran
  split at ran
  · cases ran
  · rename_i slot
    cases ran
    exact Or.inl ⟨rfl, rfl, rfl, slot⟩
  · rename_i commit slot
    split at ran
    · cases ran
    rename_i isNext
    obtain ⟨committingClients, _, returned⟩ := bind_eq_ok.mp ran
    cases returned
    exact Or.inr ⟨rfl, commit, committingClients, slot, not_not.mp isNext, rfl, rfl⟩

/-- What one round of `drain` does after a checkpoint was asked for, if it was due. -/
theorem drainOnce_cases (ran : cs.drainOnce = .ok (after, actions, more)) :
    ∃ mid requested, (cs.Due ∧ (∃ committingClients config clients,
          mid = { cs with committingClients, checkpointPending := true } ∧
          requested = [.checkpoint cs.lastAppliedCommit config clients]) ∨
        ¬ cs.Due ∧ mid = cs ∧ requested = []) ∧
      (more = false ∧ after = mid ∧ actions = requested ∧ mid.nextSlot = some none ∨
        more = true ∧ ∃ commit committingClients, mid.nextSlot = some (some commit) ∧
          commit.seqNo = mid.lastAppliedCommit + 1 ∧ actions = requested ++ [.commit commit] ∧
          after = { mid with committingClients, lastAppliedCommit := mid.lastAppliedCommit + 1 }) := by
  rw [drainOnce_eq] at ran
  obtain ⟨⟨mid, requested⟩, asked, ran⟩ := bind_eq_ok.mp ran
  split at asked
  · rename_i due
    obtain ⟨⟨states, committingClients⟩, _, asked⟩ := bind_eq_ok.mp asked
    obtain ⟨⟨config, clients⟩, _, asked⟩ := bind_eq_ok.mp asked
    cases asked
    exact ⟨_, _, Or.inl ⟨due, committingClients, config, clients, rfl, rfl⟩, deliverNext_cases ran⟩
  · rename_i notDue
    cases asked
    exact ⟨cs, [], Or.inr ⟨notDue, rfl, rfl⟩, deliverNext_cases ran⟩

/-- **What `drain` changes**, and that it asks for checkpoints and deliveries only. -/
structure Drained (before after : CommitState) (actions : List Action) : Prop where
  rest : ∃ committingClients lastAppliedCommit checkpointPending,
    after = { before with committingClients, lastAppliedCommit, checkpointPending }
  asks : ∀ action ∈ actions, (∃ batch, action = .commit batch) ∨
    ∃ seqNo config clients, action = .checkpoint seqNo config clients

theorem Drained.trans {first second third : CommitState} {more : List Action}
    (one : Drained first second actions) (two : Drained second third more) :
    Drained first third (actions ++ more) := by
  obtain ⟨_, _, _, rfl⟩ := one.rest
  obtain ⟨_, _, _, rfl⟩ := two.rest
  refine ⟨⟨_, _, _, rfl⟩, fun action member => ?_⟩
  rcases List.mem_append.mp member with earlier | later
  · exact one.asks action earlier
  · exact two.asks action later

theorem drainOnce_drained (ran : cs.drainOnce = .ok (after, actions, more)) :
    Drained cs after actions := by
  obtain ⟨mid, requested, asked, delivered⟩ := drainOnce_cases ran
  have first : Drained cs mid requested := by
    rcases asked with ⟨_, _, _, _, rfl, rfl⟩ | ⟨_, rfl, rfl⟩
    · exact ⟨⟨_, _, _, rfl⟩, by simp⟩
    · exact ⟨⟨_, _, _, rfl⟩, by simp⟩
  rcases delivered with ⟨_, rfl, rfl, _⟩ | ⟨_, commit, _, _, _, rfl, rfl⟩
  · exact first
  · exact first.trans ⟨⟨_, _, _, rfl⟩, by simp⟩

theorem drain_drained (ran : cs.drain = .ok (after, actions)) :
    Drained cs after actions := by
  unfold CommitState.drain at ran
  generalize cs.lowWatermark + 2 * cs.checkpointInterval - cs.lastAppliedCommit + 1 = fuel at ran
  have nothing (cs : CommitState) : Drained cs cs [] := ⟨⟨_, _, _, rfl⟩, by simp⟩
  induction fuel generalizing cs actions with
  | zero =>
    cases ran
    exact nothing _
  | succ fuel ih =>
    rw [drainLoop] at ran
    split at ran
    swap
    · cases ran
      exact nothing _
    obtain ⟨⟨next, sent, more⟩, once, ran⟩ := bind_eq_ok.mp ran
    dsimp only at ran
    split at ran
    · obtain ⟨⟨final, rest⟩, looped, returned⟩ := bind_eq_ok.mp ran
      cases returned
      exact (drainOnce_drained once).trans (ih looped)
    · cases ran
      exact drainOnce_drained once

theorem Drained.transferring (drained : Drained cs after actions) :
    after.transferring = cs.transferring := by
  obtain ⟨_, _, _, rfl⟩ := drained.rest
  rfl

/-- **Nothing to drain**: no checkpoint is asked for or due, and the next commit is not there. -/
structure Settled (cs : CommitState) : Prop where
  notPending : cs.checkpointPending = false
  nothing : cs.lastAppliedCommit < cs.lowWatermark + 2 * cs.checkpointInterval →
    cs.lastAppliedCommit ≠ cs.lowWatermark + cs.checkpointInterval ∧
      ∀ commit, cs.nextSlot ≠ some (some commit)

theorem Settled.drainOnce (settled : cs.Settled)
    (room : cs.lastAppliedCommit < cs.lowWatermark + 2 * cs.checkpointInterval)
    (ran : cs.drainOnce = .ok (after, actions, more)) : after = cs ∧ actions = [] ∧ more = false := by
  obtain ⟨notDue, noCommit⟩ := settled.nothing room
  obtain ⟨mid, requested, ⟨due, _⟩ | ⟨_, rfl, rfl⟩, delivered⟩ := drainOnce_cases ran
  · exact absurd due.1 notDue
  · rcases delivered with ⟨isLast, same, sent, _⟩ | ⟨_, commit, _, slot, _⟩
    · exact ⟨same, sent, isLast⟩
    · exact absurd slot (noCommit commit)

theorem Settled.drain (settled : cs.Settled) (ran : cs.drain = .ok (after, actions)) :
    after = cs := by
  unfold CommitState.drain drainLoop at ran
  split at ran
  · rename_i room
    obtain ⟨⟨mid, sent, more⟩, once, ran⟩ := bind_eq_ok.mp ran
    obtain ⟨rfl, rfl, rfl⟩ := settled.drainOnce room once
    cases ran
    rfl
  · cases ran
    rfl

/-- **After `drain`** there is a checkpoint to wait for or nothing to drain. -/
theorem settled_of_drain (ran : cs.drain = .ok (after, actions))
    (notPending : after.checkpointPending = false) : after.Settled := by
  have loop (fuel : Nat) (cs : CommitState) (actions : List Action)
      (enough : cs.lowWatermark + 2 * cs.checkpointInterval - cs.lastAppliedCommit < fuel)
      (ran : cs.drainLoop fuel = .ok (after, actions)) : after.Settled := by
    induction fuel generalizing cs actions with
    | zero => exact absurd enough (Nat.not_lt_zero _)
    | succ fuel ih =>
      rw [drainLoop] at ran
      split at ran
      · rename_i room
        obtain ⟨⟨next, sent, more⟩, once, ran⟩ := bind_eq_ok.mp ran
        obtain ⟨mid, requested, asked, ⟨rfl, rfl, _, slot⟩ | ⟨rfl, _, _, _, _, _, rfl⟩⟩ :=
          drainOnce_cases once
        · cases ran
          rcases asked with ⟨_, _, _, _, rfl, _⟩ | ⟨notDue, rfl, _⟩
          · cases notPending
          · refine ⟨notPending, fun _ => ⟨fun due => notDue ⟨due, by simp [notPending]⟩, ?_⟩⟩
            intro commit isThere
            rw [slot] at isThere
            cases isThere
        · obtain ⟨⟨final, rest⟩, looped, returned⟩ := bind_eq_ok.mp ran
          cases returned
          refine ih _ _ ?_ looped
          rcases asked with ⟨_, _, _, _, rfl, _⟩ | ⟨_, rfl, _⟩
          all_goals
            simp only [checkpointInterval] at room enough ⊢
            omega
      · rename_i full
        cases ran
        exact ⟨notPending, fun room => absurd room full⟩
  exact loop _ cs actions (Nat.lt_succ_self _) ran

/-! ### Starting from the log -/

/-- The log ends with the checkpoint at which a reconfiguration of the one before is applied:
`reinitialize` goes back, and this checkpoint is asked for again. -/
def RequestsAgain (log : List Persistent) : Prop :=
  ∃ last ∈ (lastEntries none none none log).1, ∃ second ∈ (lastEntries none none none log).2.1,
    second.networkState.pendingReconfigurations ≠ [] ∧
      last.seqNo = second.seqNo + second.networkState.config.checkpointInterval

instance (log : List Persistent) : Decidable (RequestsAgain log) := by
  unfold RequestsAgain
  infer_instance

/-- The checkpoint a commit state made from the log goes back to. -/
def restartEntry (last : CEntry) : Option CEntry → CEntry
  | some second => if second.networkState.pendingReconfigurations.isEmpty then last else second
  | none => last

/-- Unless it is asked for again, the last checkpoint is not due from there. -/
theorem restartEntry_notDue {log : List Persistent} {last : CEntry} {second : Option CEntry}
    {transfer : Option (Nat × Bytes)} (found : lastEntries none none none log = (some last, second, transfer))
    (once : ¬ RequestsAgain log) :
    last.seqNo < (restartEntry last second).seqNo +
        2 * (restartEntry last second).networkState.config.checkpointInterval →
      last.seqNo ≠ (restartEntry last second).seqNo +
        (restartEntry last second).networkState.config.checkpointInterval := by
  intro room due
  rcases second with _ | second
  · simp only [restartEntry] at room due
    omega
  · simp only [restartEntry] at room due
    split at room
    · rename_i settled
      rw [if_pos settled] at due
      omega
    · rename_i pending
      rw [if_neg pending] at due
      exact once ⟨last, by simp [found], second, by simp [found], by simpa using pending, due⟩

/-- **A commit state made from the log**, that goes back to the checkpoint `base`: no commit is
there. -/
structure FreshFrom (last base : CEntry) (cs : CommitState) : Prop where
  low : cs.lowWatermark = base.seqNo
  applied : cs.lastAppliedCommit = last.seqNo
  highest : cs.highestCommit = last.seqNo
  stop : cs.stopAtSeqNo = last.seqNo + (if base.networkState.pendingReconfigurations.isEmpty then 2 else 1) *
    base.networkState.config.checkpointInterval
  active : cs.activeState = base.networkState
  empty : ∀ commit, some commit ∉ cs.lowerHalfCommits ∧ some commit ∉ cs.upperHalfCommits

theorem FreshFrom.nextSlot {last base : CEntry} {cs : CommitState} (fresh : cs.FreshFrom last base)
    (commit : QEntry) : cs.nextSlot ≠ some (some commit) := by
  intro slot
  unfold CommitState.nextSlot at slot
  split at slot
  · exact (fresh.empty commit).2 (List.mem_of_getElem? slot)
  · exact (fresh.empty commit).1 (List.mem_of_getElem? slot)

theorem reinitialize_fresh (ran : CommitState.reinitialize cs p = .ok (after, actions)) :
    ∃ last second transfer, lastEntries none none none p.entries = (some last, second, transfer) ∧
      after.FreshFrom last (restartEntry last second) ∧
      after.checkpointPending = cs.checkpointPending := by
  have fresh (base last : CEntry) (clients : GoMap Nat CommittingClient) (transferring : Bool) :
      FreshFrom last base { cs with
        committingClients := clients, lowWatermark := base.seqNo, lastAppliedCommit := last.seqNo,
        highestCommit := last.seqNo, activeState := base.networkState,
        stopAtSeqNo := if base.networkState.pendingReconfigurations.isEmpty then
          last.seqNo + 2 * base.networkState.config.checkpointInterval
          else last.seqNo + base.networkState.config.checkpointInterval,
        lowerHalfCommits := List.replicate base.networkState.config.checkpointInterval none,
        upperHalfCommits := List.replicate base.networkState.config.checkpointInterval none,
        transferring } := by
    refine ⟨rfl, rfl, rfl, ?_, rfl, fun commit => ⟨fun member => ?_, fun member => ?_⟩⟩
    · dsimp only
      split <;> omega
    · exact nomatch List.eq_of_mem_replicate member
    · exact nomatch List.eq_of_mem_replicate member
  unfold CommitState.reinitialize at ran
  split at ran
  · cases ran
  · rename_i last second transfer found
    obtain ⟨clients, _, ran⟩ := bind_eq_ok.mp ran
    refine ⟨last, second, transfer, found, ?_⟩
    rcases transfer with _ | ⟨seqNo, value⟩
    · cases ran
      exact ⟨fresh (restartEntry last second) last clients _, rfl⟩
    · dsimp only at ran
      by_cases there : last.seqNo ≥ seqNo
      · rw [if_pos there] at ran
        cases ran
        exact ⟨fresh (restartEntry last second) last clients _, rfl⟩
      · rw [if_neg there] at ran
        cases ran
        exact ⟨fresh (restartEntry last second) last clients _, rfl⟩

/-- A transfer that was under way is asked for again. -/
theorem reinitialize_sent (ran : CommitState.reinitialize cs p = .ok (after, actions)) :
    actions = [] ∨ ∃ seqNo value, actions = [.stateTransfer seqNo value] := by
  unfold CommitState.reinitialize at ran
  split at ran
  · cases ran
  obtain ⟨_, _, ran⟩ := bind_eq_ok.mp ran
  dsimp only at ran
  split at ran
  · split at ran
    · cases ran
      exact .inl rfl
    · cases ran
      exact .inr ⟨_, _, rfl⟩
  · cases ran
    exact .inl rfl

/-- **A commit state made from the log is settled**, unless a checkpoint is asked for again. -/
theorem reinitialize_settled
    (ran : CommitState.reinitialize cs p = .ok (after, actions)) (notPending : cs.checkpointPending = false)
    (once : ¬ RequestsAgain p.entries) : after.Settled := by
  obtain ⟨last, second, transfer, found, fresh, samePending⟩ := reinitialize_fresh ran
  refine ⟨samePending.trans notPending, fun room => ⟨?_, fresh.nextSlot⟩⟩
  have notDue := restartEntry_notDue found once
  rw [checkpointInterval, fresh.low, fresh.applied, fresh.active] at room ⊢
  exact notDue room

end Moves

/-! ### The marks of a commit state -/

/-- **The marks are in order**: what was applied has committed, and the stop is at most two
intervals above the last checkpoint. -/
structure Sound (cs : CommitState) : Prop where
  low : cs.lowWatermark ≤ cs.lastAppliedCommit
  applied : cs.lastAppliedCommit ≤ cs.highestCommit
  highest : cs.highestCommit ≤ cs.stopAtSeqNo
  commits : ∀ qEntry, some qEntry ∈ cs.lowerHalfCommits ∨ some qEntry ∈ cs.upperHalfCommits →
    qEntry.seqNo ≤ cs.highestCommit
  stop : ∃ intervals ≤ 2, cs.stopAtSeqNo = cs.lowWatermark + intervals * cs.checkpointInterval

namespace Sound

variable {cs after : CommitState} {actions : List Action}

theorem commit (sound : cs.Sound) {qEntry : QEntry} (committed : cs.commit qEntry = .ok after) :
    after.Sound := by
  obtain ⟨inside, ⟨_, rfl⟩ | ⟨_, lower, upper, rfl, entries⟩⟩ := commit_cases committed
  · exact sound
  refine { sound with
    applied := sound.applied.trans (Nat.le_max_left _ _)
    highest := max_le sound.highest inside
    commits := fun other member => ?_ }
  rcases entries other member with rfl | earlier
  · exact Nat.le_max_right _ _
  · exact (sound.commits other earlier).trans (Nat.le_max_left _ _)

theorem drainOnce (sound : cs.Sound) {more : Bool} (ran : cs.drainOnce = .ok (after, actions, more)) :
    after.Sound := by
  obtain ⟨mid, requested, asked, delivered⟩ := drainOnce_cases ran
  have midSound : mid.Sound := by
    rcases asked with ⟨_, _, _, _, rfl, _⟩ | ⟨_, rfl, _⟩
    · exact { sound with }
    · exact sound
  rcases delivered with ⟨_, rfl, _⟩ | ⟨_, commit, _, slot, isNext, _, rfl⟩
  · exact midSound
  -- A batch that is delivered has committed.
  have committed : commit.seqNo ≤ mid.highestCommit := by
    refine midSound.commits commit ?_
    unfold nextSlot at slot
    split at slot
    · exact .inr (List.mem_of_getElem? slot)
    · exact .inl (List.mem_of_getElem? slot)
  exact { midSound with
    low := midSound.low.trans (Nat.le_succ _)
    applied := isNext ▸ committed }

theorem drain (sound : cs.Sound) (ran : cs.drain = .ok (after, actions)) : after.Sound := by
  unfold CommitState.drain at ran
  generalize cs.lowWatermark + 2 * cs.checkpointInterval - cs.lastAppliedCommit + 1 = fuel at ran
  induction fuel generalizing cs actions with
  | zero =>
    cases ran
    exact sound
  | succ fuel ih =>
    rw [drainLoop] at ran
    split at ran
    swap
    · cases ran
      exact sound
    obtain ⟨⟨next, sent, more⟩, once, ran⟩ := bind_eq_ok.mp ran
    dsimp only at ran
    split at ran
    · obtain ⟨⟨final, rest⟩, looped, returned⟩ := bind_eq_ok.mp ran
      cases returned
      exact ih (sound.drainOnce once) looped
    · cases ran
      exact sound.drainOnce once

/-- **The next checkpoint**, after everything up to it was delivered and with an interval of the
same length. -/
theorem applyCheckpointResult (sound : cs.Sound) {p p' : Persisted} {seqNo : Nat} {value : Bytes}
    {networkState : NetworkState} (reached : cs.lowWatermark + cs.checkpointInterval ≤ cs.lastAppliedCommit)
    (sameInterval : networkState.config.checkpointInterval = cs.checkpointInterval)
    (ran : cs.applyCheckpointResult p seqNo value networkState = .ok (after, p', actions)) :
    after.Sound ∧ (after = cs ∨
      after.lowWatermark = cs.lowWatermark + cs.checkpointInterval ∧ cs.stopAtSeqNo ≤ after.stopAtSeqNo ∧
        after.highestCommit = cs.highestCommit ∧ after.checkpointInterval = cs.checkpointInterval) := by
  unfold CommitState.applyCheckpointResult at ran
  dsimp only at ran
  split at ran
  · cases ran
    exact ⟨sound, .inl rfl⟩
  split at ran
  · cases ran
  rename_i isNext
  obtain ⟨⟨p', sent⟩, _, returned⟩ := bind_eq_ok.mp ran
  cases returned
  have isNext := not_not.mp isNext
  obtain ⟨intervals, few, isStop⟩ := sound.stop
  have remaining : 1 ≤ intervals ∨ cs.checkpointInterval = 0 := by
    have committed := reached.trans (sound.applied.trans sound.highest)
    rcases Nat.eq_zero_or_pos intervals with rfl | some
    · exact .inr (by omega)
    · exact .inl some
  have stopLe : cs.stopAtSeqNo ≤ seqNo + cs.checkpointInterval := by
    rw [isStop, isNext, Nat.add_assoc]
    refine Nat.add_le_add_left ?_ _
    calc intervals * cs.checkpointInterval ≤ 2 * cs.checkpointInterval := Nat.mul_le_mul_right _ few
      _ = _ := Nat.two_mul _
  refine ⟨⟨?_, sound.applied, ?_, ?_, ?_⟩, .inr ⟨isNext, ?_, rfl, sameInterval⟩⟩
  · exact isNext ▸ reached
  · dsimp only
    split
    · exact sound.highest.trans (stopLe.trans (by omega))
    · exact sound.highest
  · rintro qEntry (lower | upper)
    · exact sound.commits qEntry (.inr lower)
    · exact nomatch List.eq_of_mem_replicate upper
  · change ∃ intervals ≤ 2, _ = seqNo + intervals * networkState.config.checkpointInterval
    rw [sameInterval]
    split
    · exact ⟨2, le_refl _, rfl⟩
    · rcases remaining with some | none
      · refine ⟨intervals - 1, by omega, ?_⟩
        rw [isStop, isNext, Nat.add_assoc, Nat.add_comm cs.checkpointInterval, ← Nat.add_one_mul,
          Nat.sub_add_cancel some]
      · exact ⟨0, by omega, by simp [isStop, isNext, none]⟩
  · dsimp only
    split
    · exact stopLe.trans (by omega)
    · exact le_refl _

/-- A commit state made from a log, of which two consecutive checkpoints are an interval apart. -/
theorem of_log {p : Persisted} (ran : CommitState.reinitialize cs p = .ok (after, actions))
    (consecutive : ∀ last second transfer, lastEntries none none none p.entries =
    (some last, some second, transfer) →
      last.seqNo = second.seqNo + second.networkState.config.checkpointInterval) : after.Sound := by
  obtain ⟨last, second, transfer, found, fresh, _⟩ := reinitialize_fresh ran
  have noCommits (qEntry : QEntry)
      (member : some qEntry ∈ after.lowerHalfCommits ∨ some qEntry ∈ after.upperHalfCommits) :
      qEntry.seqNo ≤ after.highestCommit :=
    absurd member (not_or.mpr (fresh.empty qEntry))
  have isBase : restartEntry last second = last ∨ ∃ entry, second = some entry ∧
      restartEntry last second = entry ∧ ¬ entry.networkState.pendingReconfigurations.isEmpty := by
    unfold restartEntry
    split
    · split
      · exact .inl rfl
      · exact .inr ⟨_, rfl, rfl, ‹_›⟩
    · exact .inl rfl
  have low := fresh.low
  have applied := fresh.applied
  have highest := fresh.highest
  have stop := fresh.stop
  have interval : after.checkpointInterval =
    (restartEntry last second).networkState.config.checkpointInterval := by
    rw [checkpointInterval, fresh.active]
  rw [← interval] at stop
  rcases isBase with isLast | ⟨entry, rfl, isEntry, isPending⟩
  · rw [isLast] at low stop
    refine ⟨by omega, by omega, by omega, noCommits, _, ?_, stop.trans (by rw [low])⟩
    split <;> omega
  · have isNext := consecutive last entry transfer found
    rw [isEntry] at low stop interval
    rw [if_neg isPending] at stop
    exact ⟨by omega, by omega, by omega, noCommits, 2, le_refl _, by omega⟩

end Sound

/-! ### Between the calls of an epoch -/

/-- **What other components do to the commit state**: it is drained, a checkpoint that was reached
is there, with an interval of the same length, or a state transfer begins. -/
inductive Serves : CommitState → CommitState → Prop
  | idle {cs} : Serves cs cs
  | drain {cs after actions} : cs.drain = .ok (after, actions) → Serves cs after
  | checkpointResult {cs after p p' seqNo value networkState actions} :
      cs.lowWatermark + cs.checkpointInterval ≤ cs.lastAppliedCommit →
      networkState.config.checkpointInterval = cs.checkpointInterval →
      cs.applyCheckpointResult p seqNo value networkState = .ok (after, p', actions) → Serves cs after
  | transferTo {cs after p p' seqNo value actions} :
      cs.transferTo p seqNo value = .ok (after, p', actions) → Serves cs after

/-- **What becomes of the marks**: they stay, or they move on to the next checkpoint. -/
theorem Serves.sound {cs after : CommitState} (served : Serves cs after) (sound : cs.Sound) : after.Sound ∧
    after.highestCommit = cs.highestCommit ∧ after.checkpointInterval = cs.checkpointInterval ∧
      (after.lowWatermark = cs.lowWatermark ∧ after.stopAtSeqNo = cs.stopAtSeqNo ∨
        cs.lowWatermark + cs.checkpointInterval ≤ cs.lastAppliedCommit ∧
          after.lowWatermark = cs.lowWatermark + cs.checkpointInterval ∧
          cs.stopAtSeqNo ≤ after.stopAtSeqNo) := by
  cases served with
  | idle => exact ⟨sound, rfl, rfl, .inl ⟨rfl, rfl⟩⟩
  | drain ran =>
    have drained := sound.drain ran
    obtain ⟨_, _, _, rfl⟩ := (drain_drained ran).rest
    exact ⟨drained, rfl, rfl, .inl ⟨rfl, rfl⟩⟩
  | checkpointResult reached sameInterval ran =>
    obtain ⟨stillSound, rfl | ⟨low, stop, highest, interval⟩⟩ :=
      sound.applyCheckpointResult reached sameInterval ran
    · exact ⟨sound, rfl, rfl, .inl ⟨rfl, rfl⟩⟩
    · exact ⟨stillSound, highest, interval, .inr ⟨reached, low, stop⟩⟩
  | transferTo ran =>
    unfold CommitState.transferTo at ran
    split at ran
    · cases ran
    obtain ⟨_, _, returned⟩ := bind_eq_ok.mp ran
    cases returned
    exact ⟨{ sound with }, rfl, rfl, .inl ⟨rfl, rfl⟩⟩

/-- **The commit states of the code**: one is made from a log, and then there are commits and what
other components do. -/
inductive Arisen : CommitState → Prop
  | log {cs after p actions} : CommitState.reinitialize cs p = .ok (after, actions) →
      (∀ last second transfer, lastEntries none none none p.entries = (some last, some second, transfer) →
        last.seqNo = second.seqNo + second.networkState.config.checkpointInterval) → Arisen after
  | commit {cs after qEntry} : Arisen cs → cs.commit qEntry = .ok after → Arisen after
  | serve {cs after} : Arisen cs → Serves cs after → Arisen after

theorem Arisen.sound {cs : CommitState} (reached : Arisen cs) : cs.Sound := by
  induction reached with
  | log ran consecutive => exact .of_log ran consecutive
  | commit _ committed sound => exact sound.commit committed
  | serve _ served sound => exact (served.sound sound).1

end CommitState

end MirBft
