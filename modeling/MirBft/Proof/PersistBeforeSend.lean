/-
**Persist before send.**

* `Life`: the lives of a node. It loads its log, starts, applies events and crashes, over and over;
  what it loads was written before, or is of the log it had at first.
* `Justified`: of a log and all that was done so far: every epoch change that the node may go on
  with or repeat is recorded, and every message that was sent rests on recorded entries. Every move
  keeps it.
* `Ordered`: in a run of the processor a message goes out only after all the writes of its list and
  a successful sync, and none does if a call has failed.
* **`persist_before_send`**: both hold, in every run.
-/

import MirBft.Model.Processor
import MirBft.Proof.CheckpointMoves
import MirBft.Proof.MachineLogs

namespace MirBft

open Proc List

/-! ### The lives of a node -/

/-- The entry is written by one of the action lists. -/
def Written (lists : List (List Action)) (entry : Persistent) : Prop :=
  ∃ actions ∈ lists, ∃ index, .appendWriteAhead index entry ∈ actions

/-- **The lives of a node** whose log was `first` at first, with the action lists so far. -/
inductive Life (first : List Persistent) : StateMachine → List (List Action) → Prop
  | start : Life first .uninitialized []
  | event {machine machine' : StateMachine} {lists : List (List Action)} {event : Event}
      {actions : List Action} (fuel : Nat) (orders : Nat → MapIter) : Life first machine lists →
      (∀ index entry, event = .loadPersistedEntry index entry → entry ∈ first ∨ Written lists entry) →
      machine.applyEvent fuel orders event = .ok (machine', actions) →
      Life first machine' (lists ++ [actions])
  | crash {machine : StateMachine} {lists : List (List Action)} : Life first machine lists →
      Life first .uninitialized lists

/-! ### What is recorded -/

/-- The epoch change was known before, or the actions record it. -/
def Noted (known : Nat → Prop) (actions : List Action) (number : Nat) : Prop :=
  known number ∨ ∃ index, .appendWriteAhead index (.ecEntry number) ∈ actions

/-- **A log and what was done so far**: the epoch changes are recorded, and the messages rest on
recorded entries. -/
structure Justified (known : Nat → Prop) (v : LogView) (actions : List Action) : Prop where
  log : ∀ number, .ecEntry number ∈ v.persisted.entries → Noted known actions number
  change : ∀ change, v.change = some change → Noted known actions change.newEpoch
  sends : ∀ targets msg, .send targets msg ∈ actions → msg.Backed fun entry =>
    (∃ index, .appendWriteAhead index entry ∈ actions) ∨ ∃ number, entry = .ecEntry number ∧ known number

namespace Justified

variable {known : Nat → Prop} {v after : LogView} {before actions : List Action} {lossy : Prop}

theorem noted_append {number : Nat} (noted : Noted known before number) :
    Noted known (before ++ actions) number :=
  noted.imp id fun ⟨index, member⟩ => ⟨index, mem_append_left _ member⟩

theorem extend (justified : Justified known v before)
    (log : ∀ number, .ecEntry number ∈ after.persisted.entries →
      .ecEntry number ∈ v.persisted.entries ∨ ∃ index, .appendWriteAhead index (.ecEntry number) ∈ actions)
    (change : ∀ change, after.change = some change →
      Noted known (before ++ actions) change.newEpoch)
    (sends : ∀ targets msg, .send targets msg ∈ actions → msg.Backed fun entry =>
      (∃ index, .appendWriteAhead index entry ∈ actions) ∨
        ∃ number, entry = .ecEntry number ∧ Noted known before number) :
    Justified known after (before ++ actions) := by
  refine ⟨fun number member => ?_, change, fun targets msg member => ?_⟩
  · rcases log number member with earlier | ⟨index, written⟩
    · exact noted_append (justified.log number earlier)
    · exact .inr ⟨index, mem_append_right _ written⟩
  · rcases mem_append.mp member with earlier | later
    · exact (justified.sends targets msg earlier).mono fun entry =>
        Or.imp_left fun ⟨index, written⟩ => ⟨index, mem_append_left _ written⟩
    · refine (sends targets msg later).mono ?_
      rintro entry (⟨index, written⟩ | ⟨number, rfl, isKnown | ⟨index, written⟩⟩)
      · exact .inl ⟨index, mem_append_right _ written⟩
      · exact .inr ⟨number, rfl, isKnown⟩
      · exact .inl ⟨index, mem_append_left _ written⟩

theorem shrink (justified : Justified known v before)
    (log : ∀ number, .ecEntry number ∈ after.persisted.entries → .ecEntry number ∈ v.persisted.entries)
    (change : ∀ change, after.change = some change → Noted known before change.newEpoch) :
    Justified known after before :=
  ⟨fun number member => justified.log number (log number member), change, justified.sends⟩

theorem move (justified : Justified known v before) (moved : LogMove lossy v after actions) :
    Justified known after (before ++ actions) := by
  have same (change : EpochChange) (isChange : v.change = some change) :
      Noted known (before ++ actions) change.newEpoch := noted_append (justified.change change isChange)
  cases moved with
  | @write entries p early writes late appended rests =>
    refine justified.extend (fun number member => ?_) same fun targets msg member => ?_
    · rw [appended.entries_eq] at member
      rcases mem_append.mp member with earlier | isNew
      · exact .inl earlier
      · obtain ⟨index, written⟩ := appended.writes_eq.of_mem isNew
        exact .inr ⟨index, mem_append_left _ (mem_append_right _ written)⟩
    · have isSend : .send targets msg ∈ early ++ late := by
        simp only [mem_append] at member ⊢
        rcases member with (isEarly | isWrite) | isLate
        · exact .inl isEarly
        · obtain ⟨_, _, isAppend⟩ := appended.writes_eq.isWrite _ isWrite
          cases isAppend
        · exact .inr isLate
      have backed : msg.Backed (· ∈ entries) := by
        have rest := rests _ isSend
        cases msg with
        | epochChange _ => cases rest
        | _ => exact rest
      refine backed.mono fun entry isNew => .inl ?_
      obtain ⟨index, written⟩ := appended.writes_eq.of_mem isNew
      exact ⟨index, mem_append_left _ (mem_append_right _ written)⟩
  | @announce change p writes targets _ added =>
    obtain ⟨rfl, rfl⟩ := Persisted.appendLogEntry_eq_ok added
    have noted : Noted known (before ++ ([.appendWriteAhead v.persisted.nextIndex
        (.ecEntry change.newEpoch)] ++ [.send targets (.epochChange change)])) change.newEpoch :=
      .inr ⟨v.persisted.nextIndex, by simp⟩
    refine justified.extend (fun number member => ?_) ?_ fun others msg member => ?_
    · simp only [Persisted.entries, map_append, map_cons, map_nil, mem_append,
        mem_singleton] at member
      rcases member with earlier | isNew
      · exact .inl earlier
      · cases isNew
        exact .inr ⟨v.persisted.nextIndex, by simp⟩
    · rintro _ ⟨⟩
      exact noted
    · simp only [mem_append, mem_singleton, reduceCtorEq, false_or] at member
      cases member
      exact .inl ⟨v.persisted.nextIndex, by simp⟩
  | goOn constructed recorded =>
    rw [append_nil]
    refine justified.shrink (fun _ member => member) ?_
    rintro _ ⟨⟩
    exact justified.log _ recorded
  | drop =>
    rw [append_nil]
    exact justified.shrink (fun _ member => member) (by rintro _ ⟨⟩)
  | @rebroadcast change targets isChange =>
    refine justified.extend (fun _ member => .inl member) same fun others msg member => ?_
    cases mem_singleton.mp member
    exact .inr ⟨_, rfl, justified.change change isChange⟩
  | cut low =>
    refine justified.extend (fun _ member => .inl (Persisted.mem_of_truncate member)) same
      fun targets msg member => ?_
    unfold Persisted.truncate at member
    split at member
    · cases member
    split at member
    · cases member
    · cases mem_singleton.mp member
  | @lose entry p writes _ isBatch added =>
    rw [append_nil]
    refine justified.shrink (fun number member => ?_) justified.change
    obtain ⟨rfl, _⟩ := Persisted.appendLogEntry_eq_ok added
    simp only [Persisted.entries, map_append, map_cons, map_nil, mem_append,
      mem_singleton] at member
    rcases member with earlier | isNew
    · exact earlier
    · rw [← isNew] at isBatch
      cases isBatch
  | forget low =>
    rw [append_nil]
    exact justified.shrink (fun _ member => Persisted.mem_of_truncate member) justified.change

theorem steps (justified : Justified known v []) (moved : Steps (LogMove lossy) v after actions) :
    Justified known after actions :=
  moved.invariant (Justified known) (fun _ _ _ _ holds move => holds.move move) justified

end Justified

/-! ### Runs of the machine -/

/-- **Recorded by the action lists**; an epoch change may be of the log the node had at first. -/
def Recorded (first : List Persistent) (lists : List (List Action)) (entry : Persistent) : Prop :=
  Written lists entry ∨ entry ∈ first ∧ ∃ number, entry = .ecEntry number

/-- Every message of an action list rests on entries that the same or an earlier list writes. -/
def SendsRecorded (first : List Persistent) (earlier : List (List Action)) (actions : List Action) : Prop :=
  ∀ targets msg, .send targets msg ∈ actions → msg.Backed (Recorded first (earlier ++ [actions]))

/-- What holds of a machine in every life: the epoch changes it knows of are recorded. -/
def MachineJustified (first : List Persistent) (lists : List (List Action)) : StateMachine → Prop
  | .uninitialized => True
  | .loadingPersisted _ p => ∀ number, .ecEntry number ∈ p.entries → Recorded first lists (.ecEntry number)
  | .initialized st => (∃ my, SmKept (fun _ _ => True) (.of my) st) ∧
      Justified (fun number => Recorded first lists (.ecEntry number)) st.logView []

section Machine

variable {first : List Persistent} {lists : List (List Action)} {actions : List Action} {entry : Persistent}
  {machine : StateMachine}

theorem Written.append (written : Written lists entry) (more : List (List Action)) :
    Written (lists ++ more) entry := by
  obtain ⟨actions, member, isWritten⟩ := written
  exact ⟨actions, mem_append_left _ member, isWritten⟩

theorem Written.last {index : Nat} (member : .appendWriteAhead index entry ∈ actions) :
    Written (lists ++ [actions]) entry :=
  ⟨actions, by simp, index, member⟩

theorem Recorded.append (recorded : Recorded first lists entry)
    (more : List (List Action)) : Recorded first (lists ++ more) entry :=
  recorded.imp_left fun written => written.append more

theorem justified_of_steps {v : LogView} {st : SmState} {my : InitialParameters}
    (justified : Justified (fun number => Recorded first lists (.ecEntry number)) v [])
    (kept : SmKept (fun _ _ => True) (.of my) st) (moved : Steps (LogMove True) v st.logView actions) :
    MachineJustified first (lists ++ [actions]) (.initialized st) ∧ SendsRecorded first lists actions := by
  obtain ⟨log, change, sends⟩ := justified.steps moved
  have recorded {number : Nat}
      (noted : Noted (fun number => Recorded first lists (.ecEntry number)) actions number) :
      Recorded first (lists ++ [actions]) (.ecEntry number) := by
    rcases noted with known | ⟨index, written⟩
    · exact known.append _
    · exact .inl (.last written)
  refine ⟨⟨⟨my, kept⟩, fun number member => .inl (recorded (log number member)),
    fun now isNow => .inl (recorded (change now isNow)), nofun⟩, fun targets msg member => ?_⟩
  refine (sends targets msg member).mono ?_
  rintro entry (⟨index, written⟩ | ⟨number, rfl, known⟩)
  · exact .inl (.last written)
  · exact known.append _

theorem SendsRecorded.nil : SendsRecorded first lists [] := nofun

theorem MachineJustified.append (justified : MachineJustified first lists machine)
    (more : List (List Action)) : MachineJustified first (lists ++ more) machine := by
  cases machine with
  | uninitialized => trivial
  | loadingPersisted my p => exact fun number member => (justified number member).append more
  | initialized st =>
    obtain ⟨kept, log, change, _⟩ := justified
    refine ⟨kept, fun number member => ?_, fun now isNow => ?_, nofun⟩
    · exact (log number member).imp_left fun recorded => recorded.append more
    · exact (change now isNow).imp_left fun recorded => recorded.append more

theorem MachineJustified.event {machine machine' : StateMachine} {event : Event} {fuel : Nat}
    {orders : Nat → MapIter} (justified : MachineJustified first lists machine)
    (loads : ∀ index entry, event = .loadPersistedEntry index entry → entry ∈ first ∨ Written lists entry)
    (applied : machine.applyEvent fuel orders event = .ok (machine', actions)) :
    MachineJustified first (lists ++ [actions]) machine' ∧ SendsRecorded first lists actions := by
  cases machineStep_of_applyEvent applied with
  | begin my => exact ⟨fun number member => (by simp [Persisted.entries, Persisted.empty] at member), .nil⟩
  | received => exact ⟨MachineJustified.append justified _, .nil⟩
  | @load my p p' index entry appended =>
    refine ⟨fun number member => ?_, .nil⟩
    rw [(Persisted.appendInitialLoad_eq_ok appended).1] at member
    simp only [Persisted.entries, map_append, map_cons, map_nil, mem_append,
      mem_singleton] at member
    rcases member with earlier | rfl
    · exact (justified number earlier).append _
    · rcases loads index _ rfl with atFirst | written
      · exact .inr ⟨atFirst, number, rfl⟩
      · exact .inl (written.append _)
  | @complete my p st _ ran =>
    have logged : Has (SmLogs True (fun _ _ => True) (.of my)) SmState.reinitialize :=
      SmState.logs_reinitialize (.inl trivial)
    obtain ⟨kept, moved⟩ := logged _ _ _ _ ran (components_kept _ my p orders)
    refine justified_of_steps ⟨fun number member => .inl ?_, ?_, by simp⟩ kept moved
    · exact justified number member
    · rintro change ⟨⟩
  | apply ran =>
    obtain ⟨⟨my, kept⟩, isJustified⟩ := justified
    obtain ⟨keptFinal, moved⟩ := SmState.logs_applyEvent trivial (fun _ _ _ => trivial) fuel
      (fun _ _ isTracked => False.elim isTracked) _ _ _ ran (kept.orders orders)
    exact justified_of_steps isJustified keptFinal moved

/-- **In every life** the messages rest on entries that were written before. -/
theorem Life.recorded (life : Life first machine lists) :
    MachineJustified first lists machine ∧ EachAfter (SendsRecorded first) lists := by
  induction life with
  | start => exact ⟨trivial, .nil⟩
  | event fuel orders _ loads applied ih =>
    obtain ⟨justified, sends⟩ := ih
    obtain ⟨next, last⟩ := justified.event loads applied
    refine ⟨next, sends.append (.single ?_)⟩
    rw [append_nil]
    exact last
  | crash _ ih => exact ⟨trivial, ih.2⟩

end Machine

/-! ### The processor -/

/-- The calls whose error ends `Process`. -/
def Call.fatal : Call → Bool
  | .transferTo .. | .send .. => false
  | _ => true

/-- No such call has failed. -/
def Clean (backend : Backend) (calls : List Call) : Prop :=
  EachAfter (fun earlier call => call.fatal = true → backend.error earlier call = none) calls

/-- **All writes of the list were made, and then the WAL was synced**; nothing has failed. -/
def Durable (backend : Backend) (actions : List Action) (calls : List Call) : Prop :=
  Clean backend calls ∧ ∃ done sends, calls = done ++ .sync :: sends ∧
    ∀ index entry, .appendWriteAhead index entry ∈ actions → .write index entry ∈ done

/-- **The order of a run of the processor.** A message goes to the link, or back to the node, only
when the list is durable; and when something has failed, none does. -/
structure Ordered (backend : Backend) (nodeID : NodeID) (actions : List Action) : Prop where
  send : ∀ before dest msg after,
    (Processor.process backend nodeID actions).1 = before ++ .send dest msg :: after →
      Durable backend actions before
  step : ∀ events source msg, (Processor.process backend nodeID actions).2 = .ok events →
    .step source msg ∈ events → Durable backend actions (Processor.process backend nodeID actions).1
  failure : ¬ Clean backend (Processor.process backend nodeID actions).1 →
    (∃ error, (Processor.process backend nodeID actions).2 = .error error) ∧
      ∀ dest msg, .send dest msg ∉ (Processor.process backend nodeID actions).1

namespace Processor

variable {backend : Backend} {nodeID : NodeID} {calls extra : List Call} {events more : List Event}
  {action : Action} {rest : List Action} {outcome : Processed} {call : Call}

theorem clean_append (clean : Clean backend calls)
    (succeeds : call.fatal = true → backend.error calls call = none) :
    Clean backend (calls ++ [call]) := by
  refine EachAfter.append clean (.single ?_)
  rw [append_nil]
  exact succeeds

/-- What the first pass does: it sends nothing, and if nothing fails all writes are made. -/
structure Handled (backend : Backend) (calls : List Call) (events : List Event) (actions : List Action)
    (outcome : Processed) : Prop where
  grown : ∃ made, outcome.1 = calls ++ made ∧ (∀ dest msg, .send dest msg ∉ made) ∧
    ∀ events', outcome.2 = .ok events' → ∀ index entry, .appendWriteAhead index entry ∈ actions →
      .write index entry ∈ made
  clean : ∀ events', outcome.2 = .ok events' → Clean backend calls → Clean backend outcome.1
  steps : ∀ events', outcome.2 = .ok events' → ∀ source msg, .step source msg ∈ events' →
    .step source msg ∈ events

theorem Handled.cons (handled : Handled backend (calls ++ extra) (events ++ more) rest outcome)
    (silent : ∀ dest msg, .send dest msg ∉ extra)
    (wrote : ∀ index entry, action = .appendWriteAhead index entry → .write index entry ∈ extra)
    (clean : Clean backend calls → Clean backend (calls ++ extra))
    (steps : ∀ source msg, .step source msg ∉ more) :
    Handled backend calls events (action :: rest) outcome := by
  obtain ⟨made, isMade, quiet, written⟩ := handled.grown
  refine ⟨⟨extra ++ made, ?_, fun dest msg member => ?_, fun events' isOk index entry member => ?_⟩,
    fun events' isOk isClean => handled.clean events' isOk (clean isClean),
    fun events' isOk source msg member => ?_⟩
  · rw [isMade, append_assoc]
  · rcases mem_append.mp member with first | later
    · exact silent dest msg first
    · exact quiet dest msg later
  · rcases mem_cons.mp member with isAction | later
    · exact mem_append_left _ (wrote index entry isAction.symm)
    · exact mem_append_right _ (written events' isOk index entry later)
  · rcases mem_append.mp (handled.steps events' isOk source msg member) with earlier | new
    · exact earlier
    · exact absurd new (steps source msg)

theorem Handled.skip (handled : Handled backend calls (events ++ more) rest outcome)
    (unwritten : ∀ index entry, action ≠ .appendWriteAhead index entry)
    (steps : ∀ source msg, .step source msg ∉ more) :
    Handled backend calls events (action :: rest) outcome := by
  rw [← append_nil calls] at handled
  refine handled.cons (by simp) (fun index entry isAction => absurd isAction (unwritten index entry)) ?_
    steps
  rw [append_nil]
  exact id

theorem Handled.attempt {message : String} {next : List Call → Processed}
    (handled : Handled backend (calls ++ [call]) (events ++ more) rest (next (calls ++ [call])))
    (silent : ∀ dest msg, call ≠ .send dest msg)
    (wrote : ∀ index entry, action = .appendWriteAhead index entry → call = .write index entry)
    (steps : ∀ source msg, .step source msg ∉ more) :
    Handled backend calls events (action :: rest) (attempt backend calls call message next) := by
  unfold Processor.attempt
  split
  · refine ⟨⟨[call], rfl, fun dest msg member => ?_, nofun⟩, nofun, nofun⟩
    exact silent dest msg (mem_singleton.mp member).symm
  · rename_i succeeds
    refine handled.cons (fun dest msg member => ?_) (fun index entry isAction => ?_)
      (fun clean => clean_append clean fun _ => succeeds) steps
    · exact silent dest msg (mem_singleton.mp member).symm
    · rw [wrote index entry isAction]
      exact mem_singleton_self _

theorem handle_spec (calls : List Call) (events : List Event) (actions : List Action) :
    Handled backend calls events actions (handle backend calls events actions) := by
  induction actions generalizing calls events with
  | nil =>
    refine ⟨⟨[], by simp [handle], by simp, by simp⟩, fun _ _ => id, fun events' isOk source msg => ?_⟩
    cases isOk
    exact id
  | cons action rest ih =>
    have plain : Handled backend calls (events ++ []) rest (handle backend calls events rest) := by
      rw [append_nil]
      exact ih calls events
    have after (call : Call) : Handled backend (calls ++ [call]) (events ++ []) rest
        (handle backend (calls ++ [call]) events rest) := by
      rw [append_nil]
      exact ih _ events
    cases action with
    | send targets msg => exact plain.skip (by simp) (by simp)
    | hash data origin => exact (ih calls _).skip (by simp) (by simp)
    | appendWriteAhead index entry =>
      exact (after _).attempt (by simp) (by rintro _ _ ⟨⟩; rfl) (by simp)
    | truncateWriteAhead index => exact (after _).attempt (by simp) (by simp) (by simp)
    | commit batch => exact (after _).attempt (by simp) (by simp) (by simp)
    | checkpoint seqNo networkConfig clientStates =>
      have handled := ih (calls ++ [.snap networkConfig clientStates])
        (events ++ [.checkpointResult seqNo (backend.snap calls networkConfig clientStates).1
          ⟨networkConfig, clientStates, (backend.snap calls networkConfig clientStates).2⟩])
      unfold handle
      exact Handled.attempt handled (by simp) (by simp) (by simp)
    | allocatedRequest _ _ => exact plain.skip (by simp) (by simp)
    | correctRequest _ => exact plain.skip (by simp) (by simp)
    | forwardRequest _ _ => exact plain.skip (by simp) (by simp)
    | stateTransfer seqNo value =>
      refine Handled.cons (ih (calls ++ [.transferTo seqNo value]) (events ++ [_])) (by simp) nofun
        (fun clean => clean_append clean (by simp [Call.fatal])) fun source msg member => ?_
      have isEvent := mem_singleton.mp member
      split at isEvent <;> cases isEvent

theorem transmitTo_calls (msg : Msg) (calls : List Call) (events : List Event) (targets : List NodeID) :
    ∃ sends, (transmitTo nodeID msg calls events targets).1 = calls ++ sends ∧
      ∀ call ∈ sends, call.fatal = false := by
  induction targets generalizing calls events with
  | nil => exact ⟨[], by simp [transmitTo], by simp⟩
  | cons replica others ih =>
    unfold transmitTo
    split
    · exact ih calls _
    · obtain ⟨sends, isCalls, notFatal⟩ := ih (calls ++ [.send replica msg]) events
      refine ⟨.send replica msg :: sends, by rw [isCalls]; simp, fun call member => ?_⟩
      rcases mem_cons.mp member with rfl | later
      · rfl
      · exact notFatal call later

theorem transmit_calls (calls : List Call) (events : List Event) (actions : List Action) :
    ∃ sends, (transmit nodeID calls events actions).1 = calls ++ sends ∧
      ∀ call ∈ sends, call.fatal = false := by
  induction actions generalizing calls events with
  | nil => exact ⟨[], by simp [transmit], by simp⟩
  | cons action rest ih =>
    cases action with
    | send targets msg =>
      obtain ⟨first, isFirst, notFatal⟩ := @transmitTo_calls nodeID msg calls events targets
      obtain ⟨sends, isCalls, alsoNot⟩ := ih (transmitTo nodeID msg calls events targets).1
        (transmitTo nodeID msg calls events targets).2
      refine ⟨first ++ sends, ?_, fun call member => ?_⟩
      · show (transmit nodeID _ _ rest).1 = _
        rw [isCalls, isFirst, append_assoc]
      · rcases mem_append.mp member with earlier | later
        · exact notFatal call earlier
        · exact alsoNot call later
    | _ => exact ih calls events

theorem clean_sends {sends : List Call} (clean : Clean backend calls)
    (notFatal : ∀ call ∈ sends, call.fatal = false) : Clean backend (calls ++ sends) := by
  refine EachAfter.append clean (.of_forall fun call member before isFatal => ?_)
  rw [notFatal call member] at isFatal
  cases isFatal

theorem clean_of_append {later : List Call} (clean : Clean backend (calls ++ later)) :
    Clean backend calls := by
  rintro before call after rfl
  exact clean before call (after ++ later) (by simp)

end Processor

/-- **The processor sends last.** -/
theorem ordered (backend : Backend) (nodeID : NodeID) (actions : List Action) :
    Ordered backend nodeID actions := by
  obtain ⟨⟨made, isMade, quiet, written⟩, clean, steps⟩ :=
    @Processor.handle_spec backend [] [] actions
  rw [nil_append] at isMade
  -- The run ends in the first pass, at the sync, or after the second pass.
  cases passed : Processor.handle backend [] [] actions with
  | mk calls result =>
  rw [passed] at isMade written clean steps
  cases isMade
  cases result with
  | error err =>
    have isRun : Processor.process backend nodeID actions = (calls, .error err) := by
      unfold Processor.process
      rw [passed]
    refine ⟨fun before dest msg after split => ?_, fun events source msg isOk => ?_, fun _ => ?_⟩
    · rw [isRun] at split
      exact absurd (by rw [split]; simp) (quiet dest msg)
    · rw [isRun] at isOk
      cases isOk
    · rw [isRun]
      exact ⟨⟨err, rfl⟩, quiet⟩
  | ok events =>
    have allWritten := written events rfl
    have isClean : Clean backend calls := clean events rfl .nil
    cases synced : backend.error calls .sync with
    | some err =>
      have isRun : Processor.process backend nodeID actions =
          (calls ++ [.sync], .error ("failted to sync WAL" ++ ": " ++ err)) := by
        unfold Processor.process
        rw [passed]
        simp only [Processor.attempt, synced]
        rfl
      have unsent (dest : NodeID) (msg : Msg) : .send dest msg ∉ calls ++ [.sync] := by
        simpa using quiet dest msg
      refine ⟨fun before dest msg after split => ?_, fun events source msg isOk => ?_, fun _ => ?_⟩
      · rw [isRun] at split
        change calls ++ [.sync] = _ at split
        exact absurd (by rw [split]; simp) (unsent dest msg)
      · rw [isRun] at isOk
        cases isOk
      · rw [isRun]
        exact ⟨⟨_, rfl⟩, unsent⟩
    | none =>
      obtain ⟨sends, isSends, notFatal⟩ :=
        @Processor.transmit_calls nodeID (calls ++ [.sync]) events actions
      have isRun : (Processor.process backend nodeID actions).1 = calls ++ .sync :: sends := by
        unfold Processor.process
        rw [passed]
        simp only [Processor.attempt, synced]
        rw [isSends]
        simp
      have allClean : Clean backend (calls ++ .sync :: sends) := by
        have most := Processor.clean_sends (Processor.clean_append isClean fun _ => synced) notFatal
        rwa [append_assoc] at most
      refine ⟨fun before dest msg after split => ?_, fun events' source msg _ _ => ?_, fun unclean => ?_⟩
      · rw [isRun] at split
        refine ⟨Processor.clean_of_append (split ▸ allClean), calls, ?_⟩
        rcases append_eq_append_iff.mp split with ⟨middle, rfl, rest⟩ | ⟨middle, isCalls, rest⟩
        · cases middle with
          | nil => cases rest
          | cons head tail =>
            obtain ⟨rfl, rfl⟩ := List.cons.inj rest
            exact ⟨tail, rfl, allWritten⟩
        · cases middle with
          | nil => cases rest
          | cons head tail =>
            obtain ⟨rfl, _⟩ := List.cons.inj rest
            exact absurd (by rw [isCalls]; simp) (quiet dest msg)
      · rw [isRun]
        exact ⟨allClean, calls, sends, rfl, allWritten⟩
      · rw [isRun] at unclean
        exact absurd allClean unclean

/-- Every message of an action list rests on entries that the same or an earlier list writes. -/
def SendsWritten (earlier : List (List Action)) (actions : List Action) : Prop :=
  ∀ targets msg, .send targets msg ∈ actions → msg.Backed (Written (earlier ++ [actions]))

/-- **Persist before send.** In every life of a node that has joined a fresh network, the messages
rest on entries that were written before or with them; a node that had a log before, may also go on
with an epoch change which that log records. The processor sends the messages of a list after its
writes and a sync. -/
theorem persist_before_send :
    (∀ networkState value machine lists, Life (dummyWAL networkState value) machine lists →
      EachAfter SendsWritten lists) ∧
    (∀ first machine lists, Life first machine lists → EachAfter (SendsRecorded first) lists) ∧
    ∀ backend nodeID actions, Ordered backend nodeID actions := by
  refine ⟨fun networkState value machine lists life => ?_, fun first machine lists life =>
    life.recorded.2, ordered⟩
  refine life.recorded.2.mono fun earlier actions sends targets msg member => ?_
  refine (sends targets msg member).mono ?_
  rintro entry (written | ⟨isFirst, number, rfl⟩)
  · exact written
  · -- The log of a new node has no epoch change.
    simp [dummyWAL] at isFirst

/-! ### A new node -/

/-- The events one after the other, with the action lists. -/
def StateMachine.execute (fuel : Nat) (orders : Nat → MapIter) :
    List Event → StateMachine → List (List Action) → Option (StateMachine × List (List Action))
  | [], machine, lists => some (machine, lists)
  | event :: rest, machine, lists => match machine.applyEvent fuel orders event with
    | .ok (machine, actions) => execute fuel orders rest machine (lists ++ [actions])
    | .error _ => none

theorem Life.of_execute {first : List Persistent} {fuel : Nat} {orders : Nat → MapIter}
    {events : List Event} {machine : StateMachine} {lists : List (List Action)}
    {result : StateMachine × List (List Action)} (life : Life first machine lists)
    (loads : ∀ index entry, .loadPersistedEntry index entry ∈ events → entry ∈ first)
    (executed : StateMachine.execute fuel orders events machine lists = some result) :
    Life first result.1 result.2 := by
  induction events generalizing machine lists with
  | nil =>
    cases executed
    exact life
  | cons event rest ih =>
    unfold StateMachine.execute at executed
    split at executed
    · rename_i machine' actions applied
      refine ih (life.event fuel orders ?_ applied) (fun index entry member => ?_) executed
      · rintro index entry rfl
        exact .inl (loads index entry mem_cons_self)
      · exact loads index entry (mem_cons_of_mem _ member)
    · cases executed

namespace NewNode

/-- Node one starts, and half of the time that it waits for a new epoch goes by. -/
def events : List Event :=
  FourNodes.start 1 FourNodes.firstLog ++ List.replicate 4 .tickElapsed

/-- It sends its epoch change to the first epoch. -/
theorem first_change_persisted : ∃ machine lists, Life FourNodes.firstLog machine lists ∧
    (∃ actions ∈ lists, ∃ targets change, .send targets (.epochChange change) ∈ actions) ∧
    EachAfter SendsWritten lists := by
  have evaluated : ∃ result, StateMachine.execute 10 (fun _ => .inOrder) events .uninitialized [] =
    some result ∧
      ∃ actions ∈ result.2, .send [0, 1, 2, 3] (.epochChange ⟨1, [⟨0, [9]⟩], [], []⟩) ∈ actions := by
    decide +kernel
  obtain ⟨⟨machine, lists⟩, executed, actions, isList, isSent⟩ := evaluated
  have life : Life FourNodes.firstLog machine lists := by
    refine Life.start.of_execute (fun index entry member => ?_) executed
    rcases mem_append.mp member with loaded | ticked
    · exact FourNodes.mem_of_load_mem_start loaded
    · cases eq_of_mem_replicate ticked
  exact ⟨machine, lists, life, ⟨actions, isList, _, _, isSent⟩,
    persist_before_send.1 FourNodes.networkState [9] machine lists life⟩

end NewNode

end MirBft
