import P4Key.Ctaphid.Operations

/-! What a caller can rely on in any reachable core: its fields agree with each
other, and the packets of one channel leave the transaction of another alone. -/

namespace P4Key.Ctaphid

open Memory

structure WellFormed (core : Core) : Prop where
  rxBuffer : core.rxBuffer = 0 ∨ core.rxBuffer = 1
  distinct : ∀ i j, (core.channels i).allocated = true → (core.channels j).allocated = true →
    i ≠ j → (core.channels i).cid ≠ (core.channels j).cid
  proper : ∀ i, (core.channels i).allocated = true →
    (core.channels i).cid ≠ 0 ∧ (core.channels i).cid ≠ 0xffffffff
  idle : core.phase = .idle →
    core.activeCid = 0 ∧ (∀ j, (core.channels j).partialActive = false) ∧ core.messageReady = false
  rx : core.phase = .rx → ∃ i, Owns core i core.activeCid ∧
    (∀ j, (core.channels j).partialActive = true ↔ j = i) ∧
    (core.channels i).command = core.activeCommand ∧
    (core.activeCommand = cmdPing ∨ core.activeCommand = cmdCbor) ∧
    (core.channels i).received = 57 + 59 * (core.channels i).nextSequence.toNat ∧
    (core.channels i).received < (core.channels i).declaredLen ∧
    (core.channels i).declaredLen ≤ 2048
  processing : core.phase = .processing →
    (∃ i, Owns core i core.activeCid) ∧ ∀ j, (core.channels j).partialActive = false
  ready : core.messageReady = true ↔ core.completeBuffer ≠ 0xff
  handOff : core.messageReady = true →
    core.completeBuffer = 1 - core.rxBuffer ∧ core.phase = .processing ∧
    core.completeCid = core.activeCid ∧ core.completeCommand = core.activeCommand ∧
    core.completeCommand = cmdCbor ∧ ∃ i, Owns core i core.activeCid ∧
      core.completeLen = (core.channels i).declaredLen ∧
      core.completeGeneration = (core.channels i).generation

theorem Valid.wellFormed {core : Core} (valid : Valid core) : WellFormed core := by
  have registered := valid.registered
  have ready : core.messageReady = true ↔ core.completeBuffer ≠ 0xff := by
    rcases valid.handOff with nothing | held
    · rw [nothing.1, nothing.2]
      decide
    · rw [held.1]
      refine ⟨fun _ full => ?_, fun _ => rfl⟩
      have small := held.2
      rw [full] at small
      exact absurd small (by decide)
  refine ⟨registered.rxBuffer, ?_, registered.assigned, ?_, ?_, ?_, ready, ?_⟩
  · intro i j first second differ same
    exact differ (registered.distinct i j first second same)
  · intro phase
    have state := valid.idle_of_phase phase
    exact ⟨state.activeCid, state.partialActive, state.messageReady⟩
  · intro phase
    rcases valid.assembling_of_phase phase with ⟨i, state, progress⟩
    exact ⟨i, state.owner, state.partialActive, state.command, state.known, progress.received,
      progress.more, state.declared⟩
  · intro phase
    rcases valid.running_of_phase phase with ⟨i, state⟩
    exact ⟨⟨i, state.owner⟩, state.partialActive⟩
  · intro full
    rcases valid.messageReady_iff.mp full with ⟨i, state, held⟩
    exact ⟨held.completeBuffer, state.phase, held.completeCid, held.completeCommand,
      held.completeCommand.trans held.activeCommand, i, state.owner, held.completeLen,
      held.completeGeneration⟩

theorem reachable_wellFormed {events : List Event} {core : Core} (run : CoreRun events core) :
    WellFormed core :=
  run.valid.wellFormed

/-! Channel 1 is opened and sends a request of 100 bytes, channel 2 is opened between its two
reports. -/

def openingReport : Report := load reportBytes [0xff, 0xff, 0xff, 0xff, 0x86, 0, 8] 0

def requestReport : Report := load reportBytes [0, 0, 0, 1, 0x90, 0, 100] 0

def smallReport : Report := load reportBytes [0, 0, 0, 1, 0x90, 0, 1, 4] 0

def drawOne : Draws := fun _ => some (load 4 [0, 0, 0, 1] 0)

def drawTwo : Draws := fun _ => some (load 4 [0, 0, 0, 2] 0)

def openedCore : Core := (coreFeed coreInit openingReport 0 drawOne).1

def busyCore : Core := (coreFeed openedCore requestReport 5 drawOne).1

def sharedCore : Core := (coreFeed busyCore openingReport 6 drawTwo).1

def requestData : List UInt8 := zeros 57 ++ (List.range 43).map fun k => UInt8.ofNat (k + 1)

def restReport : Report := load reportBytes ([0, 0, 0, 1, 0] ++ requestData.drop 57) 0

def completedCore : Core := (coreFeed sharedCore restReport 7 drawOne).1

theorem busyCore_run : CoreRun
    [.fed openingReport 0 (coreFeed coreInit openingReport 0 drawOne).2,
      .fed requestReport 5 (coreFeed openedCore requestReport 5 drawOne).2] busyCore :=
  (Runs.Run.nil.snoc (CoreStep.feed coreInit openingReport 0 drawOne)).snoc
    (CoreStep.feed openedCore requestReport 5 drawOne)

theorem sharedCore_run : CoreRun
    [.fed openingReport 0 (coreFeed coreInit openingReport 0 drawOne).2,
      .fed requestReport 5 (coreFeed openedCore requestReport 5 drawOne).2,
      .fed openingReport 6 (coreFeed busyCore openingReport 6 drawTwo).2] sharedCore :=
  busyCore_run.snoc (CoreStep.feed busyCore openingReport 6 drawTwo)

theorem completed_request_wellFormed :
    (sharedCore.phase = .rx ∧ Owns sharedCore 0 1 ∧ Owns sharedCore 1 2 ∧ WellFormed sharedCore) ∧
      completedCore.phase = .processing ∧ completedCore.messageReady = true ∧
      completedCore.completeLen = 100 ∧ WellFormed completedCore :=
  ⟨⟨by decide, by decide, by decide, reachable_wellFormed sharedCore_run⟩,
    by decide +kernel, by decide +kernel, by decide +kernel,
    reachable_wellFormed (sharedCore_run.snoc (CoreStep.feed sharedCore restReport 7 drawOne))⟩

/-- Everything that the transaction of `cid` consists of is as it was. -/
structure Undisturbed (core after : Core) (cid : UInt32) : Prop where
  channel : ∀ i, Owns core i cid → after.channels i = core.channels i
  phase : after.phase = core.phase
  activeCid : after.activeCid = core.activeCid
  activeCommand : after.activeCommand = core.activeCommand
  rxBuffer : after.rxBuffer = core.rxBuffer
  buffers : after.buffers = core.buffers
  messageReady : after.messageReady = core.messageReady
  completeBuffer : after.completeBuffer = core.completeBuffer
  completeCid : after.completeCid = core.completeCid
  completeCommand : after.completeCommand = core.completeCommand
  completeLen : after.completeLen = core.completeLen
  completeGeneration : after.completeGeneration = core.completeGeneration

/-- The action does not finish a transaction. -/
def Passive (cid : UInt32) (action : Action) : Prop :=
  action.kind = .none ∨ action.kind = .send ∧ action.cid = cid ∧ action.generation = 0

theorem Answers.passive {cid : UInt32} {action : Action} (answer : Answers cid action) :
    Passive cid action := by
  rcases answer with nothing | ⟨error, sent⟩
  · rw [nothing]
    exact Or.inl rfl
  · rw [sent]
    exact Or.inr ⟨rfl, rfl, rfl⟩

theorem undisturbed_note (core : Core) (cid : UInt32) (control : Bytes 17) (count : UInt32) :
    Undisturbed core (core.note control count) cid :=
  ⟨fun _ _ => rfl, rfl, rfl, rfl, rfl, rfl, rfl, rfl, rfl, rfl, rfl, rfl⟩

theorem undisturbed_setChannel (core : Core) (cid : UInt32) (i : Fin channelCount)
    (channel : Channel) (apart : ¬ Owns core i cid) (control : Bytes 17) (count : UInt32) :
    Undisturbed core ((core.setChannel i channel).note control count) cid := by
  refine ⟨?_, rfl, rfl, rfl, rfl, rfl, rfl, rfl, rfl, rfl, rfl, rfl⟩
  intro j owns
  apply setChannel_other
  intro same
  rw [same] at owns
  exact apart owns

/-- A packet of another channel finds no effect that touches the transaction. -/
theorem Packet.foreign {core : Core} {report : Report} {nowMs : UInt32} {result : Core × Action}
    (packet : Packet core report nowMs result) (busy : core.phase ≠ .idle)
    (foreign : core.activeCid ≠ report.cid) :
    Undisturbed core result.1 core.activeCid ∧ Passive report.cid result.2 := by
  cases packet with
  | ignored control count action answer harmless =>
      exact ⟨undisturbed_note core _ control count, answer.passive⟩
  | settled i owns control count action answer elsewhere =>
      refine ⟨undisturbed_setChannel core _ i _ ?_ control count, answer.passive⟩
      intro owner
      exact foreign (owner.2.symm.trans owns.2)
  | allocated i cid control data broadcast free proper fresh =>
      refine ⟨undisturbed_setChannel core _ i _ ?_ control _, Or.inr ⟨rfl, broadcast.symm, rfl⟩⟩
      intro owner
      rw [Owns, free] at owner
      cases owner.1
  | cancelled i running active cbor command empty => exact absurd active foreign
  | resynced i owns control data free command eight middle ended =>
      rcases free with idle | active
      · exact absurd idle busy
      · exact absurd active foreign
  | aborted i assembling active control error cancel init => exact absurd active foreign
  | started i idle owns known bounded nonempty => exact absurd idle.phase busy
  | appended i assembling progress active continuation due inTime => exact absurd active foreign

theorem coreCleanup_of_inTime {core : Core} (valid : Valid core) (nowMs : UInt32)
    (inTime : core.phase = .rx → ∀ i, Owns core i core.activeCid →
      timeExpired nowMs (core.channels i).lastPacketMs messageTimeoutMs = false) :
    coreCleanup core nowMs = core := by
  rcases coreCleanup_cases core nowMs valid with ⟨same, -⟩ | ⟨i, assembling, late, -⟩
  · exact same
  · rw [inTime assembling.phase i assembling.owner] at late
    cases late

theorem Valid.foreign_feed {core : Core} (valid : Valid core) (busy : core.phase ≠ .idle)
    (report : Report) (nowMs : UInt32) (draws : Draws) (foreign : core.activeCid ≠ report.cid)
    (inTime : core.phase = .rx → ∀ i, Owns core i core.activeCid →
      timeExpired nowMs (core.channels i).lastPacketMs messageTimeoutMs = false) :
    Undisturbed core (coreFeed core report nowMs draws).1 core.activeCid ∧
      Passive report.cid (coreFeed core report nowMs draws).2 := by
  have packet := coreFeed_cases core report nowMs draws valid
  rw [coreCleanup_of_inTime valid nowMs inTime] at packet
  exact packet.foreign busy foreign

theorem foreign_report_leaves_transaction {events : List Event} {core : Core}
    (run : CoreRun events core) (cid : UInt32) (busy : core.phase = .rx ∨ core.phase = .processing)
    (active : core.activeCid = cid) (report : Report) (foreign : report.cid ≠ cid) (nowMs : UInt32)
    (draws : Draws)
    (inTime : core.phase = .rx → ∀ i, Owns core i cid →
      timeExpired nowMs (core.channels i).lastPacketMs messageTimeoutMs = false) :
    (∃ i, Owns core i cid) ∧ Undisturbed core (coreFeed core report nowMs draws).1 cid ∧
      Passive report.cid (coreFeed core report nowMs draws).2 := by
  have valid := run.valid
  have notIdle : core.phase ≠ .idle := by
    intro idle
    rw [idle] at busy
    simp at busy
  subst active
  refine ⟨?_, valid.foreign_feed notIdle report nowMs draws (Ne.symm foreign) inTime⟩
  rcases busy with receiving | processing
  · rcases valid.assembling_of_phase receiving with ⟨i, state, -⟩
    exact ⟨i, state.owner⟩
  · rcases valid.running_of_phase processing with ⟨i, state⟩
    exact ⟨i, state.owner⟩

structure Continues (core : Core) (report : Report) (result : Core × Action) : Prop where
  activeCid : result.1.activeCid = core.activeCid
  activeCommand : result.1.activeCommand = core.activeCommand
  messageReady : result.1.messageReady = core.messageReady
  kind : result.2.kind ≠ .message
  generation : result.2.kind = .send → result.2.generation = 0
  resync : report.cid = core.activeCid → result.2.command ≠ cmdInit

theorem Answers.not_init {cid : UInt32} {action : Action} (answer : Answers cid action) :
    action.command ≠ cmdInit := by
  rcases answer with nothing | ⟨error, sent⟩
  · rw [nothing]
    decide
  · rw [sent]
    exact (by decide : cmdError ≠ cmdInit)

theorem Answers.continues {core : Core} {report : Report} {action : Action} {after : Core}
    (answer : Answers report.cid action) (activeCid : after.activeCid = core.activeCid)
    (activeCommand : after.activeCommand = core.activeCommand)
    (messageReady : after.messageReady = core.messageReady) :
    Continues core report (after, action) := by
  refine ⟨activeCid, activeCommand, messageReady, ?_, ?_, fun _ => answer.not_init⟩
  · rcases answer with nothing | ⟨error, sent⟩
    · rw [nothing]
      exact (by decide : noAction.kind ≠ .message)
    · rw [sent]
      simp [sendAction]
  · intro _
    rcases answer with nothing | ⟨error, sent⟩
    · rw [nothing]
      rfl
    · rw [sent]
      rfl

theorem resynced_idle {core middle : Core} (valid : Valid core) {cid : UInt32}
    (free : core.phase = .idle ∨ core.activeCid = cid)
    (ended : middle = if core.activeCid = cid then clearActive core true else core) :
    middle.phase = .idle := by
  by_cases active : core.activeCid = cid
  · rw [ended, if_pos active]
    exact valid.clearActive_idle.phase
  · rw [ended, if_neg active]
    exact free.resolve_right active

theorem Packet.continues {core : Core} {report : Report} {nowMs : UInt32} {result : Core × Action}
    (packet : Packet core report nowMs result) (valid : Valid core)
    (phase : core.phase = .processing) (still : result.1.phase = .processing) :
    Continues core report result := by
  cases packet with
  | ignored control count action answer harmless => exact answer.continues rfl rfl rfl
  | settled i owns control count action answer elsewhere => exact answer.continues rfl rfl rfl
  | allocated i cid control data broadcast free proper fresh =>
      refine ⟨rfl, rfl, rfl, by simp [sendAction], fun _ => rfl, ?_⟩
      intro active
      exact absurd (active.symm.trans broadcast) valid.active_ne_broadcast
  | cancelled i running active cbor command empty =>
      exact ⟨rfl, rfl, rfl, by simp, by simp, fun _ => (by decide : cmdCancel ≠ cmdInit)⟩
  | resynced i owns control data free command eight middle ended =>
      exact absurd ((resynced_idle valid free ended).symm.trans still) (by decide)
  | aborted i assembling active control error cancel init =>
      exact absurd (assembling.phase.symm.trans phase) (by decide)
  | started i idle owns known bounded nonempty =>
      exact absurd (idle.phase.symm.trans phase) (by decide)
  | appended i assembling progress active continuation due inTime =>
      exact absurd (assembling.phase.symm.trans phase) (by decide)

theorem Valid.feed_continues {core : Core} (valid : Valid core) (phase : core.phase = .processing)
    (report : Report) (nowMs : UInt32) (draws : Draws)
    (still : (coreFeed core report nowMs draws).1.phase = .processing) :
    Continues core report (coreFeed core report nowMs draws) := by
  have packet := coreFeed_cases core report nowMs draws valid
  rw [coreCleanup_of_processing phase nowMs] at packet
  exact packet.continues valid phase still

theorem second_opening_leaves_request :
    (∃ i, Owns busyCore i 1) ∧ Undisturbed busyCore (coreFeed busyCore openingReport 6 drawOne).1 1 ∧
      Passive openingReport.cid (coreFeed busyCore openingReport 6 drawOne).2 :=
  foreign_report_leaves_transaction busyCore_run 1 (by decide) (by decide) openingReport (by decide) 6 drawOne (by decide)

end P4Key.Ctaphid
