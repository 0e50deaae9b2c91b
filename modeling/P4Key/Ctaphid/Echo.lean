import P4Key.Ctaphid.Completion
import P4Key.Ctaphid.Stale

/-! The number that the echo of a PING carries.

It is the generation of the channel, which an initial packet and an INIT advance. It wraps, so
every value comes back, 0 with them. -/

namespace P4Key.Ctaphid

open Memory

/-- The number of the request that a packet on channel `i` belongs to. -/
def requestNumber (core : Core) (i : Fin channelCount) (report : Report) : UInt32 :=
  if report.isInitial then (core.channels i).generation + 1 else (core.channels i).generation

structure Echo (action : Action) : Prop where
  send : action.kind = .send
  ping : action.command = cmdPing

structure Echoed (core : Core) (report : Report) (result : Core × Action) (middle : Core)
    (i : Fin channelCount) : Prop where
  registered : Registered middle
  assembling : Assembling middle i
  ping : middle.activeCommand = cmdPing
  owner : Owns core i report.cid
  number : (middle.channels i).generation = requestNumber core i report
  result : result = completeMessage middle i

theorem Answers.not_echo {cid : UInt32} {action : Action} (answer : Answers cid action) :
    ¬ Echo action := by
  intro echo
  rcases answer with silent | ⟨error, reply⟩
  · have send := echo.send
    rw [silent] at send
    cases send
  · have ping := echo.ping
    rw [reply] at ping
    exact absurd ping (by decide : cmdError ≠ cmdPing)

theorem init_not_echo (cid : UInt32) (data : List UInt8) : ¬ Echo (sendAction cid cmdInit data) :=
  fun echo => absurd echo.ping (by decide : cmdInit ≠ cmdPing)

theorem Assembling.ping_of_echo {core : Core} {i : Fin channelCount}
    (assembling : Assembling core i) (echo : Echo (completeMessage core i).2) :
    core.activeCommand = cmdPing := by
  by_contra cbor
  have send := echo.send
  rw [assembling.completeMessage_eq, if_neg cbor] at send
  cases send

theorem Packet.echoed {core : Core} {report : Report} {nowMs : UInt32} {result : Core × Action}
    (packet : Packet core report nowMs result) (valid : Valid core) (echo : Echo result.2) :
    ∃ middle i, Echoed core report result middle i := by
  cases packet with
  | ignored control count action answer harmless => exact absurd echo answer.not_echo
  | settled i owns control count action answer elsewhere => exact absurd echo answer.not_echo
  | allocated i cid control data broadcast free proper fresh =>
      exact absurd echo (init_not_echo broadcastCid data)
  | cancelled i running active cbor command empty => cases echo.send
  | resynced i owns control data free command eight middle ended =>
      exact absurd echo (init_not_echo report.cid data)
  | aborted i assembling active control error cancel init =>
      exact absurd echo (@Answers.not_echo report.cid _ (Or.inr ⟨error, rfl⟩))
  | started i idle owns known bounded nonempty =>
      have stored := idle.storeFirst report.initData nowMs valid.registered owns known bounded
      have number : ((storeFirst core i report.command report.declaredLen report.initData
          nowMs).channels i).generation = requestNumber core i report := by
        rw [storeFirst_owner, requestNumber, if_pos (isInitial_of_known known)]
      rw [startMessage] at echo ⊢
      split at echo
      · rename_i whole
        rw [if_pos whole]
        exact ⟨_, i, stored.1, stored.2, stored.2.ping_of_echo echo, owns, number, rfl⟩
      · cases echo.send
  | appended i assembling progress active continuation due inTime =>
      have stored := assembling.storeNext report.contData nowMs valid.registered
      have owner := assembling.owner
      rw [active] at owner
      have number : ((storeNext core i report.contData nowMs).channels i).generation =
          requestNumber core i report := by
        rw [storeNext_owner, requestNumber, if_neg (by rw [continuation]; decide)]
      rw [appendPacket] at echo ⊢
      split at echo
      · rename_i whole
        rw [if_pos whole]
        exact ⟨_, i, stored.1, stored.2, stored.2.ping_of_echo echo, owner, number, rfl⟩
      · cases echo.send

theorem coreFeed_echoed {core : Core} (valid : Valid core) {report : Report} {nowMs : UInt32}
    {draws : Draws} (echo : Echo (coreFeed core report nowMs draws).2) :
    ∃ middle i, Echoed core report (coreFeed core report nowMs draws) middle i := by
  rcases (coreFeed_cases core report nowMs draws valid).echoed
    (coreCleanup_valid core nowMs valid) echo with ⟨middle, i, echoed⟩
  have lasts := coreCleanup_lasts core nowMs i
  refine ⟨middle, i, echoed.registered, echoed.assembling, echoed.ping, ?_, ?_, echoed.result⟩
  · exact ⟨lasts.allocated.symm.trans echoed.owner.1, lasts.cid.symm.trans echoed.owner.2⟩
  · rw [echoed.number, requestNumber, requestNumber, lasts.generation]

/-! The number of a PING. A PING is finished by it, and 0 is no number. -/

/-- The request that the packet begins or continues has the number 0. -/
def Unnumbered (core : Core) (report : Report) : Prop :=
  ∃ i, Owns core i report.cid ∧
    (core.channels i).generation = if report.isInitial then 0xffffffff else 0

theorem next_generation_ne_zero (generation : UInt32) (more : generation ≠ 0xffffffff) :
    generation + 1 ≠ 0 := by
  grind

theorem requestNumber_zero {core : Core} {i : Fin channelCount} {report : Report} :
    requestNumber core i report = 0 ↔
      (core.channels i).generation = if report.isInitial then 0xffffffff else 0 := by
  rw [requestNumber]
  split
  · constructor
    · intro wrapped
      by_contra more
      exact next_generation_ne_zero _ more wrapped
    · intro last
      rw [last]
      decide
  · exact Iff.rfl

theorem completeMessage_finished {core : Core} {i : Fin channelCount}
    (registered : Registered core) (assembling : Assembling core i)
    (number : (core.channels i).generation ≠ 0) (ping : core.activeCommand = cmdPing) :
    (completeMessage core i).2.kind = .send ∧
      (completeMessage core i).2.data.length ≤ maxPayload ∧
      (completeMessage core i).2.generation ≠ 0 ∧
      coreFinishResponse (completeMessage core i).1 (completeMessage core i).2.cid
        (completeMessage core i).2.generation = clearActive (completeMessage core i).1 true := by
  have running := assembling.echoed registered
  have owner := running.2.owner.chanFind running.1
  rw [assembling.completeMessage_eq, if_pos ping]
  refine ⟨rfl, ?_, number, ?_⟩
  · have short : (echoAction core i).data.length ≤ (core.channels i).declaredLen := by
      simp [echoAction]
    exact Nat.le_trans short assembling.declared
  · have active : (echoed core i).activeCid = (echoAction core i).cid := rfl
    have same : ((echoed core i).channels i).generation = (echoAction core i).generation := by
      have channel : (echoed core i).channels i =
          { core.channels i with partialActive := false } := setChannel_same core i _
      rw [channel]
      rfl
    rw [active] at owner
    simp only
    rw [coreFinishResponse, if_neg (by simp [running.2.phase, active]), owner]
    simp only
    rw [if_neg (not_not.mpr same)]

/-- An echo is answered at once, unless its number is 0. -/
theorem coreFeed_finished {core : Core} (valid : Valid core) {report : Report} {nowMs : UInt32}
    {draws : Draws} (echo : Echo (coreFeed core report nowMs draws).2)
    (numbered : ¬ Unnumbered core report) :
    (coreFeed core report nowMs draws).2.kind = .send ∧
      (coreFeed core report nowMs draws).2.data.length ≤ maxPayload ∧
      (coreFeed core report nowMs draws).2.generation ≠ 0 ∧
      coreFinishResponse (coreFeed core report nowMs draws).1
        (coreFeed core report nowMs draws).2.cid (coreFeed core report nowMs draws).2.generation =
          clearActive (coreFeed core report nowMs draws).1 true := by
  rcases coreFeed_echoed valid echo with ⟨middle, i, echoed⟩
  have number : (middle.channels i).generation ≠ 0 := by
    rw [echoed.number]
    exact fun zero => numbered ⟨i, echoed.owner, requestNumber_zero.mp zero⟩
  rw [echoed.result]
  exact completeMessage_finished echoed.registered echoed.assembling number echoed.ping

/-! The generation of a channel takes every value. -/

theorem openedCore_run : ∃ events, CoreRun events openedCore :=
  ⟨_, .snoc .nil (.feed coreInit openingReport 0 drawOne)⟩

theorem CoreRun.advance {events : List Event} {core : Core} (run : CoreRun events core)
    {i : Fin channelCount} (owner : Owns core i 1) (idle : core.phase = .idle) :
    ∃ events' next, CoreRun events' next ∧ Owns next i 1 ∧ next.phase = .idle ∧
      (next.channels i).generation = (core.channels i).generation + 1 := by
  have cid : restartReport.cid = 1 := by decide
  have command : restartReport.command = cmdInit := by decide
  have eight : restartReport.declaredLen = 8 := by decide
  have step := CoreStep.feed core restartReport 0 drawOne
  have resynced := feed_init_resynced run.valid run.scrubbed (cid.symm ▸ owner) (Or.inl idle)
    command eight 0 drawOne
  have renewal := step.renewal run.valid (by intro reset; cases reset) owner
  have renewed : renews 1 (.fed restartReport 0 (coreFeed core restartReport 0 drawOne).2) = true := by
    rw [resynced.1]
    simp [renews, resyncs, cid, command, sendAction]
  rw [renewed] at renewal
  exact ⟨_, _, .snoc run step, renewal.owner, resynced.2.phase, renewal.generation⟩

theorem generation_reached (n : Nat) : ∃ events core, CoreRun events core ∧ Owns core 0 1 ∧
    core.phase = .idle ∧ (core.channels 0).generation = UInt32.ofNat n := by
  induction n with
  | zero =>
      rcases openedCore_run with ⟨events, run⟩
      exact ⟨events, openedCore, run, by decide, by decide, by decide⟩
  | succ n ih =>
      rcases ih with ⟨events, core, run, owner, idle, generation⟩
      rcases run.advance owner idle with ⟨later, next, run', owner', idle', next'⟩
      refine ⟨later, next, run', owner', idle', ?_⟩
      calc
        (next.channels 0).generation = (core.channels 0).generation + 1 := next'
        _ = UInt32.ofNat n + 1 := by rw [generation]
        _ = UInt32.ofNat (n + 1) := by rw [UInt32.ofNat_add]; rfl

end P4Key.Ctaphid
