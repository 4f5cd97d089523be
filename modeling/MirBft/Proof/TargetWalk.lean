/-
**Every call of an epoch target runs its protocol and moves the log.**

`Proceeds` is the effect of the target's methods: what they do to the view of the state is a run of
`TargetMove`, and what they do to the log are moves of it, with the actions of the method. The
methods are gone through once for both. Those that take a new epoch, an echo or a ready have the
effect where the surroundings provide it, and those that give a message to the active epoch where it
was heard.

* `proceeds_echo`, `proceeds_accept` and the other transitions are one move each. What is logged
  with an echo is what the echo rests on;
* `proceeds_advanceState`: the main loop.
-/

import MirBft.Proof.LogMoves

namespace MirBft

open Proc ActiveEpoch

/-- **The effect of the methods of a target**: they run its protocol, and move the log. -/
def Proceeds (env : Surroundings) (lossy : Prop) (heard : NodeID → Msg → Prop) (my : Stock) :
    Effect EtState Action :=
  (Simulates env).both (TargetLogs lossy heard my)

/-- A method that does so from one state. -/
abbrev ProceedsFrom {α : Type} (env : Surroundings) (lossy : Prop) (heard : NodeID → Msg → Prop)
    (my : Stock) (m : GoProc EtState α) (st : EtState) : Prop :=
  wp m st fun final actions _ => (Proceeds env lossy heard my).rel st final actions

/-- Surroundings that provide everything. -/
def Surroundings.free (networkConfig : NetworkConfig) : Surroundings where
  networkConfig
  newEpoch _ _ := True
  echo _ _ _ := True
  ready _ _ _ := True

namespace EpochTarget

variable {env : Surroundings} {lossy : Prop} {heard : NodeID → Msg → Prop} {my : Stock} {α β : Type}
  {st : EtState} {m : GoProc EtState α} {update : EpochTarget → EpochTarget} {config : NewEpochConfig}
  {source : NodeID} {msg : NewEpochConfig}

/-! ### Parts of the state -/

theorem proceeds_of_quiet (quiet : Keeps Quiet m) : Has (Proceeds env lossy heard my) m :=
  (simulates_of_sharing (shares_of_quiet quiet)).both (logs_of_quiet quiet)

theorem proceeds_quiet_bind {next : α → GoProc EtState β} (quiet : Keeps Quiet m)
    (rest : ∀ mid value, mid.et = st.et → ProceedsFrom env lossy heard my (next value) mid) :
    ProceedsFrom env lossy heard my (m >>= next) st :=
  wp_effect_bind (wp_mono (wp_and (proceeds_of_quiet quiet st) (quiet st).2) fun mid _ value done =>
    ⟨done.1, rest mid value done.2.1.target⟩)

theorem proceeds_assign (config : (update st.et).networkConfig = st.et.networkConfig)
    (alike : LogsAlike st.et (update st.et)) (steps : st.et.networkConfig = env.networkConfig →
      Steps (TargetMove env) st.view (EtState.view ⟨update st.et, st.sh⟩) []) :
    ProceedsFrom env lossy heard my (assign update) st := by
  rw [ProceedsFrom, assign, wp_modify]
  exact ⟨⟨config, steps⟩, logs_of_alike alike (fun _ => id) (.refl _)⟩

theorem proceeds_assign_bind {next : Unit → GoProc EtState α}
    (config : (update st.et).networkConfig = st.et.networkConfig)
    (alike : LogsAlike st.et (update st.et)) (steps : st.et.networkConfig = env.networkConfig →
      Steps (TargetMove env) st.view (EtState.view ⟨update st.et, st.sh⟩) [])
    (rest : ProceedsFrom env lossy heard my (next ()) ⟨update st.et, st.sh⟩) :
    ProceedsFrom env lossy heard my (assign update >>= next) st := by
  refine wp_effect_bind ?_
  rw [assign, wp_modify]
  exact ⟨⟨⟨config, steps⟩, logs_of_alike alike (fun _ => id) (.refl _)⟩, rest⟩

/-! ### The new epoch message -/

theorem proceeds_checkEpochQuorum (prepending : st.et.state = .prepending) :
    ProceedsFrom env lossy heard my checkEpochQuorum st := by
  refine wp_get_bind ?_
  split
  · exact has_pure () st
  refine proceeds_quiet_bind (quiet_constructNewEpoch _) fun mid myNewEpoch same =>
    proceeds_assign_bind rfl ⟨rfl, rfl, rfl⟩ (fun _ => .refl _) ?_
  split
  · exact has_pure () _
  refine proceeds_assign_bind rfl ⟨rfl, rfl, rfl⟩
    (fun _ => .single (.wait mid.view .pending ?_ (by decide))) ?_
  · show mid.et.state.rank < _
    rw [same, prepending]
    decide
  split
  · exact proceeds_of_quiet (quiet_broadcast rfl) _
  · exact has_pure () _

/-- **A verified new epoch**: its configuration is the one its epoch changes lead to. -/
theorem proceeds_verifyNewEpoch (verifying : st.et.state = .verifying) :
    ProceedsFrom env lossy heard my verifyNewEpoch st := by
  refine wp_get_bind ?_
  split
  · exact has_fail _ st
  rename_i newEpoch isLeader
  split
  · exact has_pure _ st
  rename_i epochChanges referenced
  refine proceeds_quiet_bind quiet_pickOrder fun mid order same => wp_lift_bind fun found constructed => ?_
  split
  · rename_i isConfig
    refine proceeds_assign_bind rfl ⟨rfl, rfl, rfl⟩ (fun sameConfig => .single ?_) (has_pure _ _)
    rw [same] at sameConfig
    rw [sameConfig] at referenced constructed
    rw [isConfig] at constructed
    refine .verify mid.view newEpoch epochChanges order ?_ ?_ ?_ constructed
    · show mid.et.state = _
      rw [same, verifying]
    · show mid.et.leaderNewEpoch = _
      rw [same, isLeader]
    · show referencedChanges _ mid.et.changes _ _ = _
      rw [same, referenced]
  · exact has_pure _ mid

/-! ### Echoing -/

/-- **The echo** of the leader's new epoch, with what is logged with it. -/
theorem proceeds_echo {newEpoch : NewEpoch} (fetching : st.et.state = .fetching)
    (isLeader : st.et.leaderNewEpoch = some newEpoch) :
    ProceedsFrom env lossy heard my (echo newEpoch) st := by
  refine wp_get_bind ?_
  rw [wp_bind, assign, wp_modify]
  split
  · exact wp_fail _ _ _
  rw [wp_bind]
  refine wp_mono (safe_logNewEpoch newEpoch.newConfig _).2 ?_
  rintro ⟨et, sh⟩ writes _ ⟨entries, ⟨⟨rfl, _, accepted, retains⟩, appended⟩, isEcho⟩
  unfold broadcast
  simp only [wp_bind, assign, wp_modify, wp_get, wp_emit]
  have wrote : LogSteps lossy st.sh.persisted sh.persisted (writes ++
      [.send st.et.networkConfig.nodes (.newEpochEcho newEpoch.newConfig)]) := by
    refine .write_then appended fun action member => ?_
    rw [List.mem_singleton.mp member]
    exact isEcho.backed
  refine ⟨⟨rfl, fun isConfig => .single ?_⟩, logs_of_alike ⟨rfl, rfl, rfl⟩ retains wrote⟩
  have move : TargetMove env _ _ _ := .echo st.view newEpoch entries writes fetching isLeader isEcho
    appended.writes_eq
  have isView : st.view.log ++ entries = sh.persisted.entries := appended.entries_eq.symm
  have sameAccepted : st.view.accepted = sh.accepted := accepted.symm
  rw [← isConfig, isView, sameAccepted] at move
  exact move

theorem proceeds_fetchNewEpochState (fetching : st.et.state = .fetching) :
    ProceedsFrom env lossy heard my fetchNewEpochState st := by
  refine wp_get_bind ?_
  split
  · exact has_fail _ st
  rename_i newEpoch isLeader
  simp only
  split
  · exact has_pure () st
  split
  · exact (simulates_of_sharing (shares_onShared (Shared.writes_transferTo trivial))).both
      (logs_onShared (Shared.logs_transferTo _ _)) st
  refine proceeds_quiet_bind (quiet_fetchPreprepares _ _ _ _) fun mid fetchPending same => ?_
  split
  · exact has_pure () mid
  split
  · exact has_pure () mid
  · exact proceeds_echo (by rw [same, fetching]) (by rw [same, isLeader])

/-! ### Echos and readies -/

/-- **A node gets ready** when a quorum echoes a configuration. -/
theorem proceeds_checkNewEpochEchoQuorum (echoing : st.et.state = .echoing) :
    ProceedsFrom env lossy heard my checkNewEpochEchoQuorum st := by
  refine proceeds_quiet_bind quiet_pickOrder fun mid order same => wp_get_bind ?_
  split
  · exact has_pure () mid
  rename_i config rest found
  have quorum : intersectionQuorum mid.et.networkConfig ≤ votesFor mid.et.echos config :=
    quorum_of_mem_withQuorum (by rw [found]; exact List.mem_cons_self)
  rw [wp_bind, assign, wp_modify, wp_bind]
  refine wp_mono (safe_logPrepared _ _ _).2 ?_
  rintro ⟨et, sh⟩ writes _ ⟨⟨rfl, _, accepted, retains⟩, appended⟩
  unfold broadcast
  simp only [wp_bind, wp_get, wp_emit]
  have wrote : LogSteps lossy mid.sh.persisted sh.persisted (writes ++
      [.send mid.et.networkConfig.nodes (.newEpochReady config)]) :=
    .write_then appended (by simp [Action.RestsOn, Msg.Backed])
  refine ⟨⟨rfl, fun isConfig => .single ?_⟩, logs_of_alike ⟨rfl, rfl, rfl⟩ retains wrote⟩
  rw [isConfig] at quorum
  have isEchoing : mid.view.state = .echoing := by
    show mid.et.state = _
    rw [same, echoing]
  have move : TargetMove env _ _ _ := .readyByEchos mid.view config writes isEchoing quorum
    appended.writes_eq
  have isView : mid.view.log ++ readyEntries config = sh.persisted.entries := appended.entries_eq.symm
  have sameAccepted : mid.view.accepted = sh.accepted := accepted.symm
  rw [← isConfig, isView, sameAccepted] at move
  exact move

/-- **A configuration is accepted**: it has a quorum of readies, and the log is replayed. -/
theorem proceeds_accept
    (mayAccept : st.et.state = .readying ∨ st.et.state = .resuming ∧ st.et.networkNewEpoch.isSome = true)
    (quorum : intersectionQuorum st.et.networkConfig ≤ votesFor st.et.readies config) :
    wp (accept config) st fun final actions _ => (Proceeds env lossy heard my).rel st final actions ∧
      final.et.state = .resuming ∧ final.et.networkNewEpoch.isSome = true ∧
        final.et.readies = st.et.readies := by
  unfold accept
  rw [wp_bind, assign, wp_modify]
  refine wp_get_bind ?_
  rw [wp_bind]
  refine wp_mono (wp_replay config false _ _) ?_
  rintro ⟨et, sh⟩ actions _ ⟨rfl, accepted, retains, isLog, rfl, rfl⟩
  rw [onShared, wp_zoom, wp_modify]
  have sameLog : sh.persisted = st.sh.persisted := isLog
  refine ⟨⟨⟨rfl, fun isConfig => .single ?_⟩, logs_of_alike ⟨rfl, rfl, rfl⟩ retains
    (sameLog ▸ .refl _)⟩, by simp⟩
  rw [isConfig] at quorum
  have move : TargetMove env _ _ _ := .accept st.view config mayAccept quorum
  have sameAccepted : st.sh.accepted = sh.accepted := accepted.symm
  simp only [EtState.view, ← sameLog, sameAccepted] at move ⊢
  exact move

theorem proceeds_checkNewEpochReadyQuorum (readying : st.et.state = .readying) :
    ProceedsFrom env lossy heard my checkNewEpochReadyQuorum st := by
  refine proceeds_quiet_bind quiet_pickOrder fun mid order same => wp_get_bind ?_
  refine wp_mono (wp_forEach (fun final actions => (Proceeds env lossy heard my).rel mid final actions ∧
    (final.et.state = .readying ∨ final.et.state = .resuming ∧ final.et.networkNewEpoch.isSome = true) ∧
    final.et.readies = mid.et.readies)
    ⟨(Proceeds env lossy heard my).refl mid, Or.inl (by rw [same, readying]), rfl⟩ ?_)
      fun _ _ _ done => done.1
  rintro config member now _ ⟨proceeds, mayAccept, unchanged⟩
  have quorum := quorum_of_mem_withQuorum member
  rw [← unchanged, ← proceeds.1.networkConfig] at quorum
  refine wp_mono (@proceeds_accept env lossy heard my _ _ mayAccept quorum) ?_
  rintro final more _ ⟨accepted, isResuming, isSome, still⟩
  exact ⟨(Proceeds env lossy heard my).trans proceeds accepted, Or.inr ⟨isResuming, isSome⟩,
    still.trans unchanged⟩

theorem proceeds_checkEpochResumed (resuming : st.et.state = .resuming) :
    ProceedsFrom env lossy heard my checkEpochResumed st := by
  refine wp_get_bind ?_
  split
  · exact has_pure () st
  split
  · exact has_pure () st
  · exact proceeds_assign rfl ⟨rfl, rfl, rfl⟩ fun _ => .single (.resume st.view resuming)

/-! ### The epoch begins -/

section Epoch

variable (mayVote : MayVote lossy heard my.id)
include mayVote

theorem proceeds_onActive {method : GoProc AeState α} (writes : ∀ config, Has (ActiveWrites config) method)
    (follows : Has (Follows heard) method) : Has (Proceeds env lossy heard my) (onActive method) :=
  (simulates_onActive writes).both (logs_onActive_of_follows mayVote follows)

theorem proceeds_step {msg : Msg} (isHeard : heard source msg) :
    Has (Proceeds env lossy heard my) (step source msg) := by
  intro st
  refine wp_get_bind ?_
  split
  · split
    · exact has_fail _ st
    rename_i buffer isBuffer
    rw [assign, wp_modify]
    exact ⟨⟨rfl, fun _ => .refl _⟩, fun kept => ⟨⟨kept.stocked, kept.active,
      Authentic.insert kept.prestart ((kept.prestart source buffer isBuffer).store isHeard)⟩, .refl _⟩⟩
  split
  · exact has_pure () st
  · exact proceeds_onActive mayVote (fun _ => (regular_step source msg).writes)
      (follows_step isHeard) st

omit mayVote in
theorem simulates_drainPrestart (id : NodeID) : Has (Simulates env) (drainPrestart id) := by
  refine has_bind has_get fun st => ?_
  split
  · exact has_fail _
  refine has_bind (MsgBuffer.has_iterate (fun id msg => ?_) _) fun left now => ?_
  · exact simulates_onActive fun _ => (regular_step id msg).writes
  · rw [assign, wp_modify]
    exact ⟨rfl, fun _ => .refl _⟩

theorem logs_drainPrestart (id : NodeID) : Has (TargetLogs lossy heard my) (drainPrestart id) := by
  intro st
  refine wp_keeping fun kept => ?_
  refine wp_get_bind ?_
  split
  · exact wp_fail _ _ _
  rename_i buffer isBuffer
  obtain ⟨isId, wereHeard⟩ := kept.prestart id buffer isBuffer
  rw [wp_bind]
  refine wp_mono (@MsgBuffer.wp_iterateFrom buffer.nodeBuffer buffer.buffer _
    (TargetLogs lossy heard my) _ _ st
    fun msg member state _ => logs_onActive_of_follows mayVote
      (follows_step (isId ▸ wereHeard msg member)) state) ?_
  rintro mid actions left ⟨logged, leftId, remaining⟩
  obtain ⟨keptMid, steps⟩ := logged kept
  rw [assign, wp_modify, List.append_nil]
  exact ⟨⟨keptMid.stocked, keptMid.active, Authentic.insert keptMid.prestart
    ⟨leftId.trans isId, fun msg member => wereHeard msg (remaining member)⟩⟩, steps⟩

omit mayVote in
theorem onActive_state (method : GoProc AeState α) (st : EtState) :
    wp (onActive method) st fun final _ _ => final.et.state = st.et.state := by
  refine wp_get_bind ?_
  split
  · exact wp_fail _ _ _
  · rw [wp_zoom]
    exact fun _ _ _ _ => rfl

theorem proceeds_advance : Has (Proceeds env lossy heard my) (onActive ActiveEpoch.advance) :=
  proceeds_onActive mayVote (fun _ => regular_advance.writes) follows_advance

theorem proceeds_begin (ready : st.et.state = .ready) : ProceedsFrom env lossy heard my begin st := by
  refine wp_get_bind ?_
  split
  · exact has_fail _ st
  rename_i config isConfig
  refine wp_effect_bind ?_
  rw [onShared, wp_zoom]
  refine wp_mono (wp_and (writes_new SharedEntry config.config st.sh)
    (@wp_new_fresh heard config.config st.sh)) ?_
  rintro sh actions ae ⟨wrote, fresh⟩
  refine ⟨⟨.of_sharing ⟨rfl, wrote⟩, ?_⟩, wp_effect_bind ?_⟩
  · rw [fresh.actions]
    exact logs_of_alike ⟨rfl, rfl, rfl⟩ (.of_same fresh.parameters) (fresh.persisted ▸ .refl _)
  rw [assign, wp_modify]
  refine ⟨⟨⟨rfl, fun _ => .single ?_⟩, fun kept => ⟨⟨kept.stocked, ?_, kept.prestart⟩, .refl _⟩⟩, ?_⟩
  · rw [show EtState.view ⟨{ st.et with activeEpoch := some ae }, sh⟩ =
        { EtState.view ⟨st.et, sh⟩ with active := some config.config } by
      simp only [EtState.view, Option.map_some, fresh.epochConfig]]
    exact .activate (EtState.view ⟨st.et, sh⟩) config ready isConfig
  · rintro _ ⟨⟩
    refine ⟨fresh.aligned, fun seqNo s found => ?_, fresh.myConfig.trans
      ((congrArg Prod.fst fresh.parameters).symm.trans kept.stocked.1)⟩
    rw [fresh.heap] at found
    cases found
  refine wp_effect_bind (wp_mono (wp_and (@proceeds_advance env _ _ _ mayVote _) (onActive_state _ _)) ?_)
  rintro mid _ _ ⟨proceeds, same⟩
  refine ⟨proceeds, proceeds_assign_bind rfl ⟨rfl, rfl, rfl⟩
    (fun _ => .single (.start mid.view (same.trans ready))) ?_⟩
  exact has_bind (has_forEach fun id _ => (simulates_drainPrestart id).both (logs_drainPrestart mayVote id))
    (fun _ => proceeds_onActive mayVote (fun _ => regular_drainBuffers.writes)
      follows_drainBuffers) _

theorem proceeds_advanceRequests :
    Has (Proceeds env lossy heard my) (onActive ActiveEpoch.advanceRequests) := by
  refine (simulates_onActive fun _ => regular_advanceRequests.writes).both ?_
  exact logs_onActive mayVote fun _ aligned => wp_mono (wp_move_advanceRequests aligned)
    fun _ _ _ done => ⟨done.1, _, _, done.2 []⟩

/-! ### The loop -/

theorem proceeds_advanceOnce {again : GoProc EtState Unit} (loops : Has (Proceeds env lossy heard my) again) :
    Has (Proceeds env lossy heard my) (advanceOnce again) := by
  intro st
  refine wp_get_bind ?_
  split
  · exact proceeds_checkEpochQuorum (by assumption)
  · split
    · exact has_pure () st
    · rename_i pending _
      refine proceeds_assign rfl ⟨rfl, rfl, rfl⟩ fun _ => .single (.wait st.view .verifying ?_ (by decide))
      show st.et.state.rank < _
      rw [pending]
      decide
  · rename_i verifying
    exact wp_bind_has (proceeds_verifyNewEpoch verifying) fun verified => has_ite loops (has_pure ())
  · exact proceeds_fetchNewEpochState (by assumption)
  · exact proceeds_checkNewEpochEchoQuorum (by assumption)
  · exact proceeds_checkNewEpochReadyQuorum (by assumption)
  · exact proceeds_checkEpochResumed (by assumption)
  · exact proceeds_begin mayVote (by assumption)
  · exact has_bind (proceeds_advanceRequests mayVote) (fun _ => proceeds_advance mayVote) st
  · exact has_pure () st
  · exact has_fail _ st

theorem proceeds_advanceState : Has (Proceeds env lossy heard my) advanceState := by
  have loop : ∀ fuel, Has (Proceeds env lossy heard my) (advanceLoop fuel) := by
    intro fuel
    induction fuel with
    | zero => exact has_pure ()
    | succ fuel ih =>
      exact has_bind has_get fun _ => has_bind (proceeds_advanceOnce mayVote ih) fun _ =>
        has_bind has_get fun _ => has_ite (has_pure ()) ih
  exact loop 12

/-! ### Messages -/

theorem proceeds_applyEpochChangeDigest (source origin : NodeID) (msg : EpochChange) (digest : Bytes) :
    Has (Proceeds env lossy heard my) (applyEpochChangeDigest source origin msg digest) := by
  intro st
  refine wp_get_bind (proceeds_assign_bind rfl ⟨rfl, rfl, rfl⟩ (fun isConfig => .single ?_) ?_)
  · have move : TargetMove env _ _ _ := .ack st.view origin source msg digest
    rw [← isConfig] at move
    exact move
  split
  · exact has_pure () _
  split
  · exact has_pure () _
  split
  · exact has_fail _ _
  · exact proceeds_assign_bind rfl ⟨rfl, rfl, rfl⟩ (fun _ => .refl _) (proceeds_advanceState mayVote _)

/-- **The leader's new epoch**, whatever state the target is in. -/
theorem proceeds_applyNewEpochMsg {msg : NewEpoch} (given : env.newEpoch st.view msg) :
    ProceedsFrom env lossy heard my (applyNewEpochMsg msg) st :=
  proceeds_assign_bind rfl ⟨rfl, rfl, rfl⟩ (fun _ => .single (.lead st.view msg given))
    (proceeds_advanceState mayVote _)

theorem proceeds_applyNewEpochEchoMsg (given : env.echo st.view source msg) :
    ProceedsFrom env lossy heard my (applyNewEpochEchoMsg source msg) st :=
  proceeds_assign_bind rfl ⟨rfl, rfl, rfl⟩ (fun _ => .single (.echoVote st.view source msg given))
    (proceeds_advanceState mayVote _)

/-- **A ready**: it is counted, and `someCorrectQuorum` of them make an echoing node ready. -/
theorem proceeds_applyNewEpochReadyMsg (given : env.ready st.view source msg) :
    ProceedsFrom env lossy heard my (applyNewEpochReadyMsg source msg) st := by
  refine wp_get_bind ?_
  split
  · exact has_pure () st
  rename_i notLate
  -- The vote is a move of its own, except where it makes the target ready.
  have afterVote {rest : GoProc EtState Unit} (proceeds : Has (Proceeds env lossy heard my) rest) :
      wp rest ⟨{ st.et with readies := vote st.et.readies msg source }, st.sh⟩
        fun final actions _ => (Proceeds env lossy heard my).rel st final ([] ++ actions) :=
    wp_mono (proceeds _) fun _ _ _ => (Proceeds env lossy heard my).trans
      ⟨⟨rfl, fun _ => .single (.readyVote st.view source msg (Nat.le_of_not_lt notLate) given)⟩,
        logs_of_alike ⟨rfl, rfl, rfl⟩ (fun _ => id) (.refl _)⟩
  rw [wp_bind, assign, wp_modify]
  split
  · exact afterVote (has_pure ())
  rename_i correct
  split
  · exact afterVote (proceeds_advanceState mayVote)
  rename_i notEarly
  split
  · rename_i early
    have echoing : st.et.state = .echoing := by
      cases isState : st.et.state <;> rw [isState] at notEarly early <;>
        simp [EpochTargetState.rank] at notEarly early ⊢
    rw [wp_bind, assign, wp_modify]
    unfold broadcast
    simp only [wp_bind, wp_get, wp_emit]
    -- A ready rests on nothing.
    refine ⟨⟨rfl, fun isConfig => .single ?_⟩, logs_of_alike ⟨rfl, rfl, rfl⟩ (fun _ => id)
      (.write_then (.nil _) (by simp [Action.RestsOn, Msg.Backed]))⟩
    have correct : someCorrectQuorum st.et.networkConfig ≤
        votesFor (vote st.et.readies msg source) msg := Nat.le_of_not_lt correct
    rw [isConfig] at correct
    have move : TargetMove env _ _ _ := .readyByReadies st.view source msg echoing given correct
    rw [← isConfig] at move
    exact move
  · exact afterVote (proceeds_advanceState mayVote)

theorem proceeds_moveLowWatermark (seqNo : Nat) : Has (Proceeds env lossy heard my)
    (moveLowWatermark seqNo) := by
  refine has_bind has_get fun st => has_ite (has_pure ()) (has_bind (proceeds_onActive mayVote
    (fun _ => (regular_moveLowWatermark seqNo).writes) (follows_moveLowWatermark seqNo)) ?_)
  exact fun done => has_ite (fun st => proceeds_assign rfl ⟨rfl, rfl, rfl⟩ fun _ =>
    .single (.finish _)) (has_pure ())

end Epoch

theorem proceeds_applySuspectMsg (source : NodeID) : Has (Proceeds env lossy heard my)
    (applySuspectMsg source) := by
  intro st
  refine wp_get_bind (proceeds_assign_bind rfl ⟨rfl, rfl, rfl⟩ (fun _ => .refl _) ?_)
  split
  · exact proceeds_assign rfl ⟨rfl, rfl, rfl⟩ fun _ => .single (.finish _)
  · exact has_pure () _

/-! ### Ticks -/

/-- **The epoch change is sent again**, as it was recorded. -/
theorem proceeds_repeatEpochChangeBroadcast :
    Has (Proceeds env lossy heard my) repeatEpochChangeBroadcast := by
  intro st
  refine wp_get_bind ?_
  split
  · exact has_fail _ st
  rename_i change isChange
  refine wp_get_bind ?_
  rw [wp_emit]
  refine ⟨.of_sharing ⟨rfl, .of_harmless rfl rfl (by simp [Action.harmless])⟩, fun kept =>
    ⟨kept, .single (.rebroadcast _ ?_)⟩⟩
  show st.et.myEpochChange.map _ = _
  rw [isChange]
  rfl

theorem proceeds_tickPrepending : Has (Proceeds env lossy heard my) tickPrepending := by
  refine has_bind has_get fun st => ?_
  split
  · exact has_ite (has_fail _) (has_ite proceeds_repeatEpochChangeBroadcast (has_pure ()))
  · exact has_ite (proceeds_of_quiet (quiet_broadcast rfl)) (has_pure ())

theorem proceeds_suspectLeader : Has (Proceeds env lossy heard my) suspectLeader := by
  intro st
  refine wp_get_bind ?_
  split
  · exact has_fail _ st
  rename_i newEpoch _
  have shares : Has Sharing (log fun p => p.addSuspect newEpoch.newConfig.config.number) :=
    shares_onShared (Shared.writes_onLog trivial)
  refine wp_and (simulates_of_sharing (has_bind (shares_broadcast fun _ => rfl) fun _ => shares) st) ?_
  rw [wp_bind]
  refine wp_get_bind ?_
  rw [wp_emit, log, onShared, wp_zoom]
  refine wp_get_bind (wp_lift_bind fun result added => ?_)
  simp only [wp_bind, wp_modify, wp_emit]
  exact logs_of_alike ⟨rfl, rfl, rfl⟩ (fun _ => id) (.suspect _ added)

theorem proceeds_tickPending : Has (Proceeds env lossy heard my) tickPending := by
  refine has_bind has_get fun st => has_ite (has_fail _) ?_
  refine has_ite ?_ (has_ite proceeds_suspectLeader
    (has_ite proceeds_repeatEpochChangeBroadcast (has_pure ())))
  split
  · exact has_ite (proceeds_of_quiet (quiet_broadcast rfl)) (has_pure ())
  · exact has_pure ()

theorem proceeds_tick (mayVote : MayVote lossy heard my.id) : Has (Proceeds env lossy heard my) tick :=
  has_bind (fun _ => proceeds_assign rfl ⟨rfl, rfl, rfl⟩ fun _ => .refl _) fun _ => has_bind has_get fun _ =>
    has_ite proceeds_tickPrepending (has_ite proceeds_tickPending (has_ite (proceeds_onActive mayVote
      (fun _ => regular_tick.writes) follows_tick) (has_pure ())))

end EpochTarget

end MirBft
