import P4Key.Ctaphid.Transactions
import P4Key.Library.Runs

/-! Every operation of the core keeps it valid, so every run does. -/

namespace P4Key.Ctaphid

open Memory

/-! Expired requests. -/

theorem coreCleanup_cases (core : Core) (nowMs : UInt32) (valid : Valid core) :
    (coreCleanup core nowMs = core ∧ ∀ i, Assembling core i →
      timeExpired nowMs (core.channels i).lastPacketMs messageTimeoutMs = false) ∨
    ∃ i, Assembling core i ∧
      timeExpired nowMs (core.channels i).lastPacketMs messageTimeoutMs = true ∧
      coreCleanup core nowMs = expired core i := by
  rw [coreCleanup]
  by_cases quiet : core.phase ≠ .rx
  · rw [if_pos quiet]
    exact Or.inl ⟨rfl, fun i assembling => absurd assembling.phase quiet⟩
  rw [if_neg quiet]
  rcases valid.assembling_of_phase (not_not.mp quiet) with ⟨i, assembling, -⟩
  rw [assembling.owner.chanFind valid.registered]
  simp only
  by_cases late : timeExpired nowMs (core.channels i).lastPacketMs messageTimeoutMs = true
  · rw [if_pos late]
    exact Or.inr ⟨i, assembling, late, rfl⟩
  · have early := Bool.eq_false_iff.mpr late
    rw [if_neg late]
    refine Or.inl ⟨rfl, ?_⟩
    intro j other
    have here := (assembling.partialActive j).mp ((other.partialActive j).mpr rfl)
    rw [here]
    exact early

theorem coreCleanup_of_processing {core : Core} (phase : core.phase = .processing)
    (nowMs : UInt32) : coreCleanup core nowMs = core := by
  rw [coreCleanup, if_pos (by rw [phase]; decide)]

theorem Assembling.expired_valid {core : Core} {i : Fin channelCount}
    (assembling : Assembling core i) (registered : Registered core) :
    Registered (expired core i) ∧ Idle (expired core i) := by
  have same : (expired core i).channels i =
      clearChannelRx { core.channels i with timeoutPending := true } :=
    setChannel_same core i _
  have other : ∀ j, j ≠ i → (expired core i).channels j = core.channels j :=
    fun j => setChannel_other core i j _
  constructor
  · refine registered.update rfl other ?_ ?_
    · rw [same]
      rfl
    · rw [same]
      rfl
  · refine ⟨rfl, rfl, ?_, ?_, assembling.messageReady, assembling.completeBuffer⟩
    · intro j
      by_cases here : j = i
      · subst here
        rw [same]
        rfl
      · rw [other j here]
        by_contra active
        exact here ((assembling.partialActive j).mp (by simpa using active))
    · refine flag_false Channel.cancel other ?_ assembling.cancel
      rw [same]
      exact assembling.cancel i

theorem coreCleanup_valid (core : Core) (nowMs : UInt32) (valid : Valid core) :
    Valid (coreCleanup core nowMs) := by
  rcases coreCleanup_cases core nowMs valid with ⟨same, -⟩ | ⟨i, assembling, -, result⟩
  · rw [same]
    exact valid
  · rw [result]
    have left := assembling.expired_valid valid.registered
    exact .idle left.1 left.2

theorem coreCleanup_inTime (core : Core) (nowMs : UInt32) (valid : Valid core)
    (i : Fin channelCount) (assembling : Assembling (coreCleanup core nowMs) i) :
    timeExpired nowMs ((coreCleanup core nowMs).channels i).lastPacketMs messageTimeoutMs = false := by
  rcases coreCleanup_cases core nowMs valid with ⟨same, inTime⟩ | ⟨j, other, -, result⟩
  · rw [same] at assembling ⊢
    exact inTime i assembling
  · rw [result] at assembling
    exact absurd assembling.phase (by decide : Phase.idle ≠ Phase.rx)

/-! One packet. -/

theorem Running.cancelled {core : Core} {i : Fin channelCount} (running : Running core i)
    (registered : Registered core) (cbor : core.activeCommand = cmdCbor) :
    Valid (core.setChannel i { core.channels i with cancel := true }) := by
  have other : ∀ j, j ≠ i → (core.setChannel i { core.channels i with cancel := true }).channels j =
      core.channels j := fun j => setChannel_other core i j _
  refine .processing (registered.setChannel i _ rfl rfl) i ⟨running.phase, ?_, ?_, ?_, ?_,
    running.known, ?_, ?_, ?_⟩
  · rw [Owns, setChannel_same]
    exact running.owner
  · refine flag_false Channel.partialActive other ?_ running.partialActive
    rw [setChannel_same]
    exact running.partialActive i
  · intro j cancel
    by_cases here : j = i
    · exact ⟨here, cbor⟩
    · rw [other j here] at cancel
      exact running.cancel j cancel
  · rw [setChannel_same]
    exact running.command
  · rw [setChannel_same]
    exact running.declared
  · rw [setChannel_same]
    exact running.timeoutPending
  · rcases running.handOff with nothing | held
    · exact Or.inl nothing
    · refine Or.inr ⟨held.messageReady, held.completeBuffer, held.completeCid, held.completeCommand,
        held.activeCommand, ?_, ?_⟩
      · rw [setChannel_same]
        exact held.completeLen
      · rw [setChannel_same]
        exact held.completeGeneration

theorem Packet.valid {core : Core} {report : Report} {nowMs : UInt32} {result : Core × Action}
    (packet : Packet core report nowMs result) (valid : Valid core) : Valid result.1 := by
  cases packet with
  | ignored control count action answer harmless => exact valid.note control count
  | settled i owns control count action answer elsewhere =>
      exact (valid.setChannel i _ (Channel.Agrees.settle _)).note control count
  | allocated i cid control data broadcast free proper fresh =>
      exact (valid.allocate i cid free proper fresh).note control _
  | cancelled i running active cbor command empty => exact running.cancelled valid.registered cbor
  | resynced i owns control data free command eight middle ended =>
      apply Valid.note
      by_cases active : core.activeCid = report.cid
      · rw [if_pos active] at ended
        subst ended
        exact valid.clearActive_idle.restart valid.clearActive.registered i _
      · rw [if_neg active] at ended
        subst ended
        exact (valid.idle_of_phase (free.resolve_right active)).restart valid.registered i _
  | aborted i assembling active control error cancel init => exact valid.clearActive.note control _
  | started i idle owns known bounded nonempty =>
      exact idle.startMessage_valid valid.registered owns known bounded _ nowMs
  | appended i assembling progress active continuation due inTime =>
      exact assembling.appendPacket_valid valid.registered progress _ nowMs

theorem coreFeed_cases (core : Core) (report : Report) (nowMs : UInt32) (draws : Draws)
    (valid : Valid core) :
    Packet (coreCleanup core nowMs) report nowMs (coreFeed core report nowMs draws) :=
  feedPacket_cases _ report nowMs draws (coreCleanup_valid core nowMs valid)
    (coreCleanup_inTime core nowMs valid)

theorem coreFeed_valid (core : Core) (report : Report) (nowMs : UInt32) (draws : Draws)
    (valid : Valid core) : Valid (coreFeed core report nowMs draws).1 :=
  (coreFeed_cases core report nowMs draws valid).valid (coreCleanup_valid core nowMs valid)

/-! The other operations. -/

theorem Valid.messageReady_iff {core : Core} (valid : Valid core) :
    core.messageReady = true ↔ ∃ i, Running core i ∧ HandedOff core i := by
  constructor
  · intro ready
    cases valid with
    | idle registered state =>
        rw [state.messageReady] at ready
        cases ready
    | rx registered i state progress =>
        rw [state.messageReady] at ready
        cases ready
    | processing registered i state =>
        rcases state.handOff with nothing | held
        · rw [nothing.1] at ready
          cases ready
        · exact ⟨i, state, held⟩
  · intro held
    rcases held with ⟨i, -, held⟩
    exact held.messageReady

theorem Valid.not_ready {core : Core} (valid : Valid core) (phase : core.phase ≠ .processing) :
    core.messageReady = false := by
  rw [Bool.eq_false_iff]
  intro ready
  rcases valid.messageReady_iff.mp ready with ⟨i, running, -⟩
  exact phase running.phase

def handOffMessage (core : Core) : Message :=
  ⟨core.completeCid, core.completeCommand,
    (core.buffers core.completeBuffer).toList.take core.completeLen, core.completeGeneration⟩

/-- What a take returns, in a core whose hand-off record is well formed. -/
theorem coreTakeMessage_eq {core : Core} (valid : Valid core) (cap : Nat) :
    coreTakeMessage core cap =
      if core.messageReady = true then
        if core.completeLen > cap then (.error .small, core)
        else (.ok (handOffMessage core), releaseComplete core)
      else (.error .empty, core) := by
  rw [coreTakeMessage]
  rcases valid.handOff with nothing | held
  · rw [if_pos (by simp [nothing.1]), if_neg (by simp [nothing.1])]
  · have open' : ¬ ((!core.messageReady) = true ∨ core.completeBuffer ≥ bufferCount) := by
      intro closed
      rcases closed with unready | outside
      · simp [held.1] at unready
      · exact absurd held.2 (UInt8.not_lt.mpr outside)
    rw [if_neg open', if_pos held.1]
    rfl

/-- A take fails and changes nothing, or gives the message out and releases the record. -/
theorem coreTakeMessage_cases {core : Core} (valid : Valid core) (cap : Nat) :
    (∃ error, coreTakeMessage core cap = (.error error, core)) ∨
    (core.messageReady = true ∧
      coreTakeMessage core cap = (.ok (handOffMessage core), releaseComplete core)) := by
  rw [coreTakeMessage_eq valid]
  by_cases ready : core.messageReady = true
  · rw [if_pos ready]
    by_cases small : core.completeLen > cap
    · rw [if_pos small]
      exact Or.inl ⟨.small, rfl⟩
    · rw [if_neg small]
      exact Or.inr ⟨ready, rfl⟩
  · rw [if_neg ready]
    exact Or.inl ⟨.empty, rfl⟩

theorem releaseComplete_valid {core : Core} (valid : Valid core) (ready : core.messageReady = true) :
    Valid (releaseComplete core) := by
  rcases valid.messageReady_iff.mp ready with ⟨i, running, -⟩
  have registered := valid.registered
  exact .processing ⟨registered.rxBuffer, registered.assigned, registered.distinct⟩ i
    ⟨running.phase, running.owner, running.partialActive, running.cancel, running.command,
      running.known, running.declared, running.timeoutPending, Or.inl ⟨rfl, rfl⟩⟩

theorem coreTakeMessage_valid (core : Core) (cap : Nat) (valid : Valid core) :
    Valid (coreTakeMessage core cap).2 := by
  rcases coreTakeMessage_cases valid cap with ⟨error, same⟩ | ⟨ready, taken⟩
  · rw [same]
    exact valid
  · rw [taken]
    exact releaseComplete_valid valid ready

theorem coreFinishResponse_cases (core : Core) (cid generation : UInt32) :
    coreFinishResponse core cid generation = core ∨
    (∃ i, core.phase = .processing ∧ core.activeCid = cid ∧ chanFind core cid = some i ∧
      (core.channels i).generation = generation ∧
      coreFinishResponse core cid generation = clearActive core true) := by
  rw [coreFinishResponse]
  by_cases idle : core.phase ≠ .processing ∨ core.activeCid ≠ cid
  · rw [if_pos idle]
    exact Or.inl rfl
  rw [if_neg idle]
  simp only [ne_eq, not_or, not_not] at idle
  cases found : chanFind core cid with
  | none => exact Or.inl rfl
  | some i =>
      simp only
      by_cases other : (core.channels i).generation ≠ generation
      · rw [if_pos other]
        exact Or.inl rfl
      · rw [if_neg other]
        exact Or.inr ⟨i, idle.1, idle.2, rfl, not_not.mp other, rfl⟩

theorem coreFinishResponse_valid (core : Core) (cid generation : UInt32) (valid : Valid core) :
    Valid (coreFinishResponse core cid generation) := by
  rcases coreFinishResponse_cases core cid generation with same | ⟨i, -, -, -, -, ended⟩
  · rw [same]
    exact valid
  · rw [ended]
    exact valid.clearActive

theorem coreClearCancel_cases (core : Core) (cid generation : UInt32) :
    coreClearCancel core cid generation = core ∨
    ∃ i, core.phase = .processing ∧ core.activeCid = cid ∧ chanFind core cid = some i ∧
      (core.channels i).generation = generation ∧
      coreClearCancel core cid generation =
        core.setChannel i { core.channels i with cancel := false } := by
  rw [coreClearCancel]
  by_cases idle : core.phase ≠ .processing ∨ core.activeCid ≠ cid
  · rw [if_pos idle]
    exact Or.inl rfl
  rw [if_neg idle]
  simp only [ne_eq, not_or, not_not] at idle
  cases found : chanFind core cid with
  | none => exact Or.inl rfl
  | some i =>
      simp only
      by_cases match' : (core.channels i).generation = generation
      · rw [if_pos match']
        exact Or.inr ⟨i, idle.1, idle.2, rfl, match', rfl⟩
      · rw [if_neg match']
        exact Or.inl rfl

theorem coreClearCancel_valid (core : Core) (cid generation : UInt32) (valid : Valid core) :
    Valid (coreClearCancel core cid generation) := by
  rcases coreClearCancel_cases core cid generation with same | ⟨i, -, -, -, -, cleared⟩
  · rw [same]
    exact valid
  · rw [cleared]
    exact valid.setChannel i _ (Channel.Agrees.uncancel _)

/-! Runs of the core. -/

/-- A call of the core, with what it returned. -/
inductive Event where
  | fed (report : Report) (nowMs : UInt32) (action : Action)
  | cleaned (nowMs : UInt32)
  | took (cap : Nat) (result : Except TakeError Message)
  | finished (cid generation : UInt32)
  | uncancelled (cid generation : UInt32)
  | reset

inductive CoreStep : Core → Event → Core → Prop where
  | feed (core : Core) (report : Report) (nowMs : UInt32) (draws : Draws) :
      CoreStep core (.fed report nowMs (coreFeed core report nowMs draws).2)
        (coreFeed core report nowMs draws).1
  | cleanup (core : Core) (nowMs : UInt32) :
      CoreStep core (.cleaned nowMs) (coreCleanup core nowMs)
  | take (core : Core) (cap : Nat) :
      CoreStep core (.took cap (coreTakeMessage core cap).1) (coreTakeMessage core cap).2
  | finish (core : Core) (cid generation : UInt32) :
      CoreStep core (.finished cid generation) (coreFinishResponse core cid generation)
  | clearCancel (core : Core) (cid generation : UInt32) :
      CoreStep core (.uncancelled cid generation) (coreClearCancel core cid generation)
  | reset (core : Core) : CoreStep core .reset (coreReset core)

abbrev CoreRun : List Event → Core → Prop := Runs.Run CoreStep coreInit

theorem CoreStep.took_message {core next : Core} {cap : Nat} {message : Message}
    (step : CoreStep core (.took cap (.ok message)) next) (valid : Valid core) :
    core.messageReady = true ∧ message = handOffMessage core ∧ next = releaseComplete core := by
  generalize given : Except.ok message = result at step
  cases step
  rcases coreTakeMessage_cases valid cap with ⟨error, same⟩ | ⟨ready, taken⟩
  · rw [same] at given
    cases given
  · rw [taken] at given ⊢
    cases given
    exact ⟨ready, rfl, rfl⟩

theorem CoreStep.valid {core next : Core} {event : Event} (step : CoreStep core event next)
    (valid : Valid core) : Valid next := by
  cases step with
  | feed report nowMs draws => exact coreFeed_valid core report nowMs draws valid
  | cleanup nowMs => exact coreCleanup_valid core nowMs valid
  | take cap => exact coreTakeMessage_valid core cap valid
  | finish cid generation => exact coreFinishResponse_valid core cid generation valid
  | clearCancel cid generation => exact coreClearCancel_valid core cid generation valid
  | reset => exact coreInit_valid

theorem CoreRun.valid {events : List Event} {core : Core} (run : CoreRun events core) :
    Valid core :=
  run.invariant Valid coreInit_valid fun _ _ _ valid step => step.valid valid

end P4Key.Ctaphid
