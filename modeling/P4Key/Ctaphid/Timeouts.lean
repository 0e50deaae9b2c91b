import P4Key.Ctaphid.Clock

/-! Requests that time out, over every run. -/

namespace P4Key.Ctaphid

open Memory

/-- What the past says about the requests that are received and those that were dropped. -/
structure Timely (past : List Call) (state : Clocked) : Prop where
  valid : Valid state.core
  recent : ∀ i, Assembling state.core i → ∃ last,
    lastAccepted past state.core.activeCid = some last ∧
    (state.core.channels i).lastPacketMs = UInt32.ofNat last ∧
    last ≤ state.time ∧ state.time < last + 500
  waiting : ∀ cid, owed past cid = true ↔ Waiting state.core cid

theorem Timely.start (time : Nat) : Timely [] ⟨coreInit, time⟩ := by
  refine ⟨coreInit_valid, fun i assembling => ?_, fun cid => iff_of_false ?_ ?_⟩
  · exact absurd assembling.phase (by decide : Phase.idle ≠ .rx)
  · simp [owed, Runs.latch]
  · rintro ⟨j, owner, -⟩
    cases owner.1

theorem drops_iff {call : Call} {nowMs : UInt32} (reads : call.event.nowMs = some nowMs)
    (cid : UInt32) :
    call.drops cid = true ↔ call.core.phase = .rx ∧ call.core.activeCid = cid ∧
      (coreCleanup call.core nowMs).phase = .idle := by
  simp [Call.drops, reads, and_assoc]

theorem drops_untimed {call : Call} (reads : call.event.nowMs = none) (cid : UInt32) :
    call.drops cid = false := by
  simp [Call.drops, reads]

section Timed

variable {past : List Call} {state : Clocked} {time : Nat}

theorem Timely.expires (timely : Timely past state) (order : state.time ≤ time)
    (near : time < state.time + (2 ^ 32 - 500)) {i : Fin channelCount}
    (assembling : Assembling state.core i) :
    ∃ last, lastAccepted past state.core.activeCid = some last ∧
      (state.core.channels i).lastPacketMs = UInt32.ofNat last ∧ last ≤ time ∧
      timeExpired (UInt32.ofNat time) (state.core.channels i).lastPacketMs messageTimeoutMs =
        decide (last + 500 ≤ time) := by
  rcases timely.recent i assembling with ⟨last, accepted, stamp, before, young⟩
  refine ⟨last, accepted, stamp, Nat.le_trans before order, ?_⟩
  rw [stamp]
  exact timeExpired_ofNat (by omega) (by omega)

theorem Timely.cleaned (timely : Timely past state) (order : state.time ≤ time)
    (near : time < state.time + (2 ^ 32 - 500)) {i : Fin channelCount}
    (assembling : Assembling (coreCleanup state.core (UInt32.ofNat time)) i) :
    ∃ last, lastAccepted past (coreCleanup state.core (UInt32.ofNat time)).activeCid = some last ∧
      ((coreCleanup state.core (UInt32.ofNat time)).channels i).lastPacketMs = UInt32.ofNat last ∧
      last ≤ time ∧ time < last + 500 := by
  have inTime := coreCleanup_inTime state.core (UInt32.ofNat time) timely.valid i assembling
  rcases coreCleanup_cases state.core (UInt32.ofNat time) timely.valid with
    ⟨same, -⟩ | ⟨j, -, -, result⟩
  · rw [same] at assembling inTime ⊢
    rcases timely.expires order near assembling with ⟨last, accepted, stamp, before, age⟩
    rw [inTime] at age
    have young := of_decide_eq_false age.symm
    exact ⟨last, accepted, stamp, before, by omega⟩
  · rw [result] at assembling
    exact absurd assembling.phase (by decide : Phase.idle ≠ Phase.rx)

theorem Timely.feed (timely : Timely past state) (order : state.time ≤ time)
    (near : time < state.time + (2 ^ 32 - 500)) (report : Report) (draws : Draws) :
    Timely (past ++ [⟨state.core, time, .fed report (UInt32.ofNat time)
        (coreFeed state.core report (UInt32.ofNat time) draws).2⟩])
      ⟨(coreFeed state.core report (UInt32.ofNat time) draws).1, time⟩ := by
  have before := coreCleanup_valid state.core (UInt32.ofNat time) timely.valid
  have inTime := coreCleanup_inTime state.core (UInt32.ofNat time) timely.valid
  refine ⟨coreFeed_valid _ report _ draws timely.valid, ?_, ?_⟩
  · intro i assembling
    have packet := coreFeed_cases state.core report (UInt32.ofNat time) draws timely.valid
    rw [lastAccepted_snoc]
    cases packet.received before assembling with
    | waits earlier active last passed =>
        rcases timely.cleaned order near earlier with ⟨stamp, accepted, same, past, young⟩
        refine ⟨stamp, (if_neg (Bool.eq_false_iff.mp passed)).trans ?_, last.trans same, past, young⟩
        rw [← accepted]
        exact congrArg _ active
    | grows last stored =>
        exact ⟨time, if_pos stored, last, Nat.le_refl _, Nat.lt_add_of_pos_right (by decide)⟩
  · intro cid
    rw [owed_snoc, Bool.and_eq_true, Bool.or_eq_true, Bool.not_eq_true', drops_iff rfl,
      timely.waiting cid, coreFeed, feedPacket_waiting before inTime,
      coreCleanup_waiting timely.valid, or_comm]

theorem Timely.cleanup (timely : Timely past state) (order : state.time ≤ time)
    (near : time < state.time + (2 ^ 32 - 500)) :
    Timely (past ++ [⟨state.core, time, .cleaned (UInt32.ofNat time)⟩])
      ⟨coreCleanup state.core (UInt32.ofNat time), time⟩ := by
  refine ⟨coreCleanup_valid _ _ timely.valid, ?_, ?_⟩
  · intro i assembling
    rw [lastAccepted_snoc, if_neg (by simp [Call.accepts])]
    exact timely.cleaned order near assembling
  · intro cid
    rw [owed_snoc, Bool.and_eq_true, Bool.or_eq_true, Bool.not_eq_true', drops_iff rfl,
      timely.waiting cid, coreCleanup_waiting timely.valid, or_comm]
    exact and_iff_left rfl

end Timed

theorem ClockStep.timely {past : List Call} {state next : Clocked} {call : Call}
    (step : ClockStep state call next) (timely : Timely past state) :
    Timely (past ++ [call]) next := by
  cases step with
  | timed event core step time reads order near =>
      cases step with
      | feed report nowMs draws =>
          cases reads
          exact timely.feed order near report draws
      | cleanup nowMs =>
          cases reads
          exact timely.cleanup order near
      | take cap => cases reads
      | finish cid generation => cases reads
      | clearCancel cid generation => cases reads
      | reset => cases reads
  | untimed event core step reads =>
      refine ⟨step.valid timely.valid, ?_, ?_⟩
      · intro i assembling
        have same := step.untimed_rx timely.valid reads assembling.phase
        have unread : Call.accepts ⟨state.core, state.time, event⟩ core.activeCid = false := by
          cases event <;> first | rfl | cases reads
        rw [lastAccepted_snoc, if_neg (by rw [unread]; decide)]
        subst same
        exact timely.recent i assembling
      · intro cid
        rw [owed_snoc, drops_untimed reads, Bool.false_or, Bool.and_eq_true, Bool.not_eq_true',
          timely.waiting cid]
        exact (step.untimed_waiting reads cid).symm

theorem ClockRun.timely {start : Nat} {past : List Call} {state : Clocked}
    (run : ClockRun start past state) : Timely past state :=
  run.history Timely (.start start) fun _ _ _ _ _ timely step => step.timely timely

theorem ClockStep.fed {state next : Clocked} {report : Report} {nowMs : UInt32} {action : Action}
    {time : Nat} (step : ClockStep state ⟨state.core, time, .fed report nowMs action⟩ next) :
    ∃ draws, action = (coreFeed state.core report nowMs draws).2 ∧
      next.core = (coreFeed state.core report nowMs draws).1 := by
  generalize label : Call.mk state.core time (.fed report nowMs action) = call at step
  cases step with
  | timed event core step time reads order near =>
      cases label
      cases step with
      | feed report nowMs draws => exact ⟨draws, rfl, rfl⟩
  | untimed event core step reads =>
      cases label
      cases reads

theorem Timely.drops_old {past : List Call} {state next : Clocked} {call : Call}
    (timely : Timely past state) (step : ClockStep state call next)
    (reads : call.event.nowMs.isSome = true) (phase : state.core.phase = .rx) :
    ∃ last, lastAccepted past state.core.activeCid = some last ∧
      (call.drops state.core.activeCid = true ↔ last + 500 ≤ call.time) := by
  cases step with
  | untimed event core step none =>
      rw [none] at reads
      cases reads
  | timed event core step time now order near =>
      rcases timely.valid.assembling_of_phase phase with ⟨i, assembling, -⟩
      rcases timely.expires order near assembling with ⟨last, accepted, -, -, age⟩
      refine ⟨last, accepted, ?_⟩
      rw [drops_iff now]
      rcases coreCleanup_cases state.core (UInt32.ofNat time) timely.valid with
        ⟨same, inTime⟩ | ⟨j, other, late, result⟩
      · rw [inTime i assembling] at age
        refine iff_of_false ?_ (of_decide_eq_false age.symm)
        rintro ⟨-, -, idle⟩
        rw [same, phase] at idle
        cases idle
      · have here := assembling.unique other rfl
        subst here
        rw [late] at age
        refine iff_of_true ⟨phase, rfl, ?_⟩ (of_decide_eq_true age.symm)
        rw [result]
        rfl

theorem owed_iff (past : List Call) (cid : UInt32) :
    owed past cid = true ↔ ∃ before drop between, past = before ++ drop :: between ∧
      drop.drops cid = true ∧ settles cid drop.event = false ∧
      ∀ later ∈ between, settles cid later.event = false := by
  constructor
  · intro on
    rcases Runs.latch_true _ _ past on with ⟨before, drop, between, split, set, kept⟩
    rw [Bool.and_eq_true, Bool.not_eq_true'] at set
    exact ⟨before, drop, between, split, set.1, set.2, kept⟩
  · rintro ⟨before, drop, between, rfl, dropped, unsettled, kept⟩
    exact Runs.latch_set _ _ before between drop (by simp [dropped, unsettled]) kept

theorem Timely.tells {past : List Call} {state : Clocked} (timely : Timely past state)
    (report : Report) (nowMs : UInt32) (draws : Draws) (time : Nat) (cid : UInt32) :
    (coreFeed state.core report nowMs draws).2 = timeoutAction cid ↔
      report.cid = cid ∧ report.isInitial = false ∧
      (Call.drops ⟨state.core, time,
          .fed report nowMs (coreFeed state.core report nowMs draws).2⟩ cid = true ∨
        owed past cid = true) := by
  have before := coreCleanup_valid state.core nowMs timely.valid
  have inTime := coreCleanup_inTime state.core nowMs timely.valid
  rw [drops_iff rfl, timely.waiting, coreFeed, feedPacket_timeout before inTime]
  have waiting := coreCleanup_waiting timely.valid nowMs cid
  rw [or_comm] at waiting
  exact and_congr_right fun _ => and_congr_right fun _ => waiting

theorem timeout_leaves_others {core : Core} (valid : Valid core) {report : Report}
    {nowMs : UInt32} (draws : Draws) (busy : core.phase ≠ .idle)
    (foreign : core.activeCid ≠ report.cid)
    (kept : ¬(core.phase = .rx ∧ core.activeCid = core.activeCid ∧
      (coreCleanup core nowMs).phase = .idle)) :
    Undisturbed core (coreFeed core report nowMs draws).1 core.activeCid := by
  have packet := coreFeed_cases core report nowMs draws valid
  rcases coreCleanup_cases core nowMs valid with ⟨same, -⟩ | ⟨i, assembling, -, result⟩
  · rw [same] at packet
    exact (packet.foreign busy foreign).1
  · exact absurd ⟨assembling.phase, rfl, by rw [result]; rfl⟩ kept

/-- A request that is received is less than 500 ms old when the clock was last read, a feed or a
cleanup drops it exactly when it is older, and of a request that was dropped the channel is told
once, in answer to its next continuation. The packet that is told leaves the request of another
channel alone, unless its feed has found that one too old. -/
theorem timeouts_are_exact {start : Nat} {past : List Call} {state : Clocked}
    (run : ClockRun start past state) :
    (state.core.phase = .rx → ∃ last, lastAccepted past state.core.activeCid = some last ∧
      last ≤ state.time ∧ state.time < last + 500) ∧
    (∀ call next, ClockStep state call next → call.event.nowMs.isSome = true →
      state.core.phase = .rx → ∃ last, lastAccepted past state.core.activeCid = some last ∧
      (call.drops state.core.activeCid = true ↔ last + 500 ≤ call.time)) ∧
    (∀ report nowMs action time next cid,
      ClockStep state ⟨state.core, time, .fed report nowMs action⟩ next →
      (action = timeoutAction cid ↔ report.cid = cid ∧ report.isInitial = false ∧
        (Call.drops ⟨state.core, time, .fed report nowMs action⟩ cid = true ∨
          ∃ before drop between, past = before ++ drop :: between ∧ drop.drops cid = true ∧
            settles cid drop.event = false ∧
            ∀ later ∈ between, settles cid later.event = false)) ∧
      (action = timeoutAction cid → state.core.phase ≠ .idle → state.core.activeCid ≠ cid →
        Call.drops ⟨state.core, time, .fed report nowMs action⟩ state.core.activeCid = false →
        Undisturbed state.core next.core state.core.activeCid)) := by
  have timely := run.timely
  refine ⟨?_, ?_, ?_⟩
  · intro phase
    rcases timely.valid.assembling_of_phase phase with ⟨i, assembling, -⟩
    rcases timely.recent i assembling with ⟨last, accepted, -, order, young⟩
    exact ⟨last, accepted, order, young⟩
  · intro call next step reads phase
    exact timely.drops_old step reads phase
  · intro report nowMs action time next cid step
    rcases step.fed with ⟨draws, answered, core⟩
    subst answered
    have tells := timely.tells report nowMs draws time cid
    refine ⟨?_, ?_⟩
    · rw [tells, owed_iff]
    · intro told busy foreign kept
      rw [core]
      rw [← (tells.mp told).1] at foreign
      refine timeout_leaves_others timely.valid draws busy foreign ?_
      rw [Bool.eq_false_iff, ne_eq, drops_iff rfl] at kept
      exact kept

def droppedCore : Core := coreCleanup busyCore 505

def nextReport : Report := load reportBytes [0, 0, 0, 1, 0] 0

def droppedCalls : List Call :=
  [⟨coreInit, 0, .fed openingReport 0 (coreFeed coreInit openingReport 0 drawOne).2⟩,
    ⟨openedCore, 5, .fed requestReport 5 (coreFeed openedCore requestReport 5 drawOne).2⟩,
    ⟨busyCore, 505, .cleaned 505⟩]

theorem droppedCalls_run : ClockRun 0 droppedCalls ⟨droppedCore, 505⟩ := by
  have opened := Runs.Run.nil.snoc (ClockStep.timed ⟨coreInit, 0⟩ _ _
    (CoreStep.feed coreInit openingReport 0 drawOne) 0 rfl (by decide) (by decide))
  have begun := opened.snoc (ClockStep.timed ⟨openedCore, 0⟩ _ _
    (CoreStep.feed openedCore requestReport 5 drawOne) 5 rfl (by decide) (by decide))
  exact begun.snoc (ClockStep.timed ⟨busyCore, 5⟩ _ _ (CoreStep.cleanup busyCore 505) 505 rfl
    (by decide) (by decide))

/-- A request of channel 1 is dropped at 500 ms, and the continuation that comes next is told. -/
theorem dropped_request_is_told :
    (coreFeed droppedCore nextReport 506 drawOne).2 = timeoutAction 1 := by
  have step := ClockStep.timed ⟨droppedCore, 505⟩ _ _
    (CoreStep.feed droppedCore nextReport 506 drawOne) 506 rfl (by decide) (by decide)
  refine ((timeouts_are_exact droppedCalls_run).2.2 _ _ _ _ _ 1 step).1.mpr ⟨by decide, by decide, ?_⟩
  right
  exact ⟨droppedCalls.take 2, ⟨busyCore, 505, .cleaned 505⟩, [], rfl, by decide, by decide, by simp⟩

end P4Key.Ctaphid
