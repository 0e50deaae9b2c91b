import P4Key.Ctaphid.Fragments

/-! The hand-off record is a mailbox with room for one message. -/

namespace P4Key.Ctaphid

open Memory

def messageOf : Event → Option Message
  | .fed _ _ action =>
    if action.kind = .message then
      some ⟨action.cid, action.command, action.data, action.generation⟩
    else none
  | _ => none

/-- The calls after which the message can no longer be taken: it was taken, its channel was
resynchronised, its response was finished, or everything was reset. -/
def discards (message : Message) : Event → Bool
  | .fed report _ action =>
    report.cid == message.cid && report.command == cmdInit && action.command == cmdInit
  | .took _ (.ok _) => true
  | .finished cid generation => cid == message.cid && generation == message.generation
  | .reset => true
  | _ => false

/-- The message that can be taken, as the calls alone tell it. -/
def waiting (past : List Event) : Option Message := Runs.slot messageOf discards past

def held (core : Core) : Option Message :=
  if core.messageReady = true then some (handOffMessage core) else none

theorem held_none {core : Core} (nothing : core.messageReady = false) : held core = none := by
  simp [held, nothing]

theorem deliver_quiet (slot : Option Message) (event : Event) (quiet : messageOf event = none)
    (kept : ∀ message, slot = some message → discards message event = false) :
    Runs.slotStep messageOf discards slot event = slot := by
  cases slot with
  | none => simp [Runs.slotStep, quiet]
  | some message => exact Runs.slotStep_kept _ _ message event quiet (kept message rfl)

theorem messageOf_fed {report : Report} {nowMs : UInt32} {action : Action}
    (other : action.kind ≠ .message) : messageOf (.fed report nowMs action) = none := by
  simp [messageOf, other]

theorem Answers.quiet {cid : UInt32} {action : Action} (answer : Answers cid action)
    (slot : Option Message) (report : Report) (nowMs : UInt32) :
    Runs.slotStep messageOf discards slot (.fed report nowMs action) = slot := by
  apply deliver_quiet
  · apply messageOf_fed
    rcases answer with nothing | ⟨error, answered⟩
    · rw [nothing]
      decide
    · rw [answered]
      simp [sendAction]
  · intro message full
    rcases answer with nothing | ⟨error, answered⟩
    · rw [nothing]
      simp [discards, noAction, cmdInit]
    · rw [answered]
      simp [discards, sendAction, cmdInit, cmdError]

theorem Valid.held_cid {core : Core} (valid : Valid core) {message : Message}
    (full : held core = some message) :
    ∃ i, Running core i ∧ HandedOff core i ∧ message = handOffMessage core := by
  rw [held] at full
  by_cases ready : core.messageReady = true
  · rw [if_pos ready] at full
    rcases valid.messageReady_iff.mp ready with ⟨i, running, record⟩
    exact ⟨i, running, record, (Option.some.inj full).symm⟩
  · rw [if_neg ready] at full
    cases full

theorem Assembling.held_completed {core : Core} {i : Fin channelCount}
    (assembling : Assembling core i) (report : Report) (nowMs : UInt32) :
    held (completeMessage core i).1 =
      Runs.slotStep messageOf discards none (.fed report nowMs (completeMessage core i).2) := by
  rw [assembling.completeMessage_eq]
  by_cases ping : core.activeCommand = cmdPing
  · rw [if_pos ping]
    exact held_none assembling.messageReady
  · have cbor := assembling.known.resolve_left ping
    rw [if_neg ping]
    have record : held (P4Key.Ctaphid.handedOff core i) = some ⟨core.activeCid, cmdCbor,
        (core.buffers core.rxBuffer).toList.take (core.channels i).declaredLen,
        (core.channels i).generation⟩ := by
      rw [← assembling.owner.2, ← cbor, ← assembling.command]
      rfl
    exact record

theorem Packet.held_step {core : Core} {report : Report} {nowMs : UInt32} {result : Core × Action}
    (packet : Packet core report nowMs result) (valid : Valid core) :
    held result.1 =
      Runs.slotStep messageOf discards (held core) (.fed report nowMs result.2) := by
  cases packet with
  | ignored control count action answer harmless => exact (answer.quiet _ report nowMs).symm
  | settled i owns control count action answer elsewhere => exact (answer.quiet _ report nowMs).symm
  | allocated i cid control data broadcast free proper fresh =>
      refine (deliver_quiet _ _ (messageOf_fed (by simp [sendAction])) ?_).symm
      intro message full
      rcases valid.held_cid full with ⟨j, running, record, same⟩
      have other : report.cid ≠ message.cid := by
        rw [same, broadcast]
        exact fun equal => valid.active_ne_broadcast (record.completeCid.symm.trans equal.symm)
      simp [discards, other]
  | cancelled i running active cbor command empty =>
      refine (deliver_quiet _ _ (messageOf_fed (by simp)) ?_).symm
      intro message full
      simp [discards, cmdCancel, cmdInit]
  | resynced i owns control data free command eight middle ended =>
      have quiet : messageOf (.fed report nowMs (sendAction report.cid cmdInit data)) = none :=
        messageOf_fed (by simp [sendAction])
      by_cases active : core.activeCid = report.cid
      · rw [if_pos active] at ended
        have after : held middle = none := by
          rw [ended]
          exact held_none valid.clearActive_dropped.1
        refine after.trans ?_
        cases full : held core with
        | none => simp [Runs.slotStep, quiet]
        | some message =>
            rcases valid.held_cid full with ⟨j, running, record, same⟩
            have owner : report.cid = message.cid := by
              rw [same, ← active]
              exact record.completeCid.symm
            refine (Runs.slotStep_emptied _ _ message _ quiet ?_).symm
            simp [discards, owner, command, sendAction]
      · rw [if_neg active] at ended
        have idle := valid.idle_of_phase (free.resolve_right active)
        have before : held core = none := held_none idle.messageReady
        have after : held middle = none := by
          rw [ended]
          exact before
        rw [before]
        refine after.trans ?_
        simp [Runs.slotStep, quiet]
  | aborted i assembling active control error cancel init =>
      rw [held_none assembling.messageReady]
      exact held_none valid.clearActive_dropped.1
  | started i idle owns known bounded nonempty =>
      have stored := idle.storeFirst report.initData nowMs valid.registered owns known bounded
      rw [held_none idle.messageReady, startMessage]
      by_cases whole : ((storeFirst core i report.command report.declaredLen report.initData
          nowMs).channels i).received = report.declaredLen
      · rw [if_pos whole]
        exact stored.2.held_completed report nowMs
      · rw [if_neg whole, held_none stored.2.messageReady]
        rfl
  | appended i assembling progress active continuation due inTime =>
      have stored := assembling.storeNext report.contData nowMs valid.registered
      rw [held_none assembling.messageReady, appendPacket]
      by_cases whole : ((storeNext core i report.contData nowMs).channels i).received =
          ((storeNext core i report.contData nowMs).channels i).declaredLen
      · rw [if_pos whole]
        exact stored.2.held_completed report nowMs
      · rw [if_neg whole, held_none stored.2.messageReady]
        rfl

theorem Packet.full {core : Core} {report : Report} {nowMs : UInt32} {result : Core × Action}
    (packet : Packet core report nowMs result) (ready : core.messageReady = true) :
    result.2.kind ≠ .message := by
  cases packet with
  | ignored control count action answer harmless =>
      exact fun delivered => answer.not_delivers (Or.inl delivered)
  | settled i owns control count action answer elsewhere =>
      exact fun delivered => answer.not_delivers (Or.inl delivered)
  | allocated i cid control data broadcast free proper fresh => simp [sendAction]
  | cancelled i running active cbor command empty => simp
  | resynced i owns control data free command eight middle ended => simp [sendAction]
  | aborted i assembling active control error cancel init => simp [sendAction]
  | started i idle owns known bounded nonempty =>
      rw [idle.messageReady] at ready
      cases ready
  | appended i assembling progress active continuation due inTime =>
      rw [assembling.messageReady] at ready
      cases ready

theorem coreCleanup_held (core : Core) (nowMs : UInt32) (valid : Valid core) :
    held (coreCleanup core nowMs) = held core := by
  rcases coreCleanup_cases core nowMs valid with ⟨same, -⟩ | ⟨i, assembling, -, result⟩
  · rw [same]
  · rw [result, held_none assembling.messageReady]
    exact held_none assembling.messageReady

theorem coreFinishResponse_held (core : Core) (cid generation : UInt32) (valid : Valid core) :
    held (coreFinishResponse core cid generation) =
      Runs.slotStep messageOf discards (held core) (.finished cid generation) := by
  cases full : held core with
  | none =>
      refine Eq.trans ?_ (show none = _ from rfl)
      rcases coreFinishResponse_cases core cid generation with same | ⟨i, -, -, -, -, ended⟩
      · rw [same, full]
      · rw [ended]
        exact held_none valid.clearActive_dropped.1
  | some message =>
      rcases valid.held_cid full with ⟨i, running, record, same⟩
      have owner := running.owner.chanFind valid.registered
      by_cases matches' : cid = message.cid ∧ generation = message.generation
      · have active : core.activeCid = cid := by
          rw [matches'.1, same]
          exact record.completeCid.symm
        have current : (core.channels i).generation = generation := by
          rw [matches'.2, same]
          exact record.completeGeneration.symm
        have ended : coreFinishResponse core cid generation = clearActive core true := by
          rw [active] at owner
          rw [coreFinishResponse, if_neg (by simp [running.phase, active]), owner]
          simp [current]
        have matched : discards message (.finished cid generation) = true := by
          simp [discards, matches'.1, matches'.2]
        rw [ended, held_none valid.clearActive_dropped.1]
        exact (Runs.slotStep_emptied _ _ message _ rfl matched).symm
      · have kept : discards message (.finished cid generation) = false := by
          simpa [discards] using matches'
        rw [Runs.slotStep_kept _ _ _ _ rfl kept, ← full]
        rcases coreFinishResponse_cases core cid generation with unchanged | ⟨j, -, active, found, current, -⟩
        · rw [unchanged]
        · rw [← active, owner] at found
          cases found
          refine absurd ⟨?_, ?_⟩ matches'
          · rw [← active, same]
            exact record.completeCid.symm
          · rw [← current, same]
            exact record.completeGeneration.symm

theorem coreTakeMessage_held (core : Core) (cap : Nat) (valid : Valid core) :
    held (coreTakeMessage core cap).2 =
      Runs.slotStep messageOf discards (held core) (.took cap (coreTakeMessage core cap).1) := by
  rcases coreTakeMessage_cases valid cap with ⟨error, same⟩ | ⟨ready, taken⟩
  · rw [same]
    exact (deliver_quiet _ _ rfl fun message full => rfl).symm
  · have released : held (releaseComplete core) = none := held_none rfl
    rw [taken, released, held, if_pos ready]
    rfl

theorem CoreStep.held_step {core next : Core} {event : Event} (step : CoreStep core event next)
    (valid : Valid core) : held next = Runs.slotStep messageOf discards (held core) event := by
  cases step with
  | feed report nowMs draws =>
      have packet := coreFeed_cases core report nowMs draws valid
      rw [packet.held_step (coreCleanup_valid core nowMs valid), coreCleanup_held core nowMs valid]
  | cleanup nowMs =>
      rw [coreCleanup_held core nowMs valid]
      exact (deliver_quiet _ _ rfl fun message full => rfl).symm
  | take cap => exact coreTakeMessage_held core cap valid
  | finish cid generation => exact coreFinishResponse_held core cid generation valid
  | clearCancel cid generation =>
      rw [deliver_quiet _ _ rfl fun message full => rfl]
      rcases coreClearCancel_cases core cid generation with same | ⟨i, -, -, -, -, cleared⟩
      · rw [same]
      · rw [cleared]
        rfl
  | reset =>
      cases full : held core with
      | none => rfl
      | some message => rfl

theorem CoreRun.held_eq {past : List Event} {core : Core} (run : CoreRun past core) :
    held core = waiting past := by
  apply run.history fun past core => held core = waiting past
  · rfl
  · intro past state event next before same step
    rw [waiting, Runs.slot_snoc, ← waiting, ← same]
    exact step.held_step (CoreRun.valid before)

theorem coreTakeMessage_mailbox {core : Core} (valid : Valid core) (cap : Nat) :
    (coreTakeMessage core cap).1 = match held core with
      | none => .error .empty
      | some message => if message.data.length > cap then .error .small else .ok message := by
  rw [coreTakeMessage_eq valid, held]
  by_cases ready : core.messageReady = true
  · rcases valid.messageReady_iff.mp ready with ⟨i, running, record⟩
    have bounded : core.completeLen ≤ maxPayload := by
      rw [record.completeLen]
      exact running.declared
    have length : (handOffMessage core).data.length = core.completeLen := by
      rw [handOffMessage, List.length_take, List.Vector.toList_length]
      exact Nat.min_eq_left bounded
    rw [if_pos ready, if_pos ready]
    simp only
    rw [length]
    split <;> rfl
  · rw [if_neg ready, if_neg ready]

theorem CoreStep.quiet_when_full {core next : Core} {event : Event}
    (step : CoreStep core event next) (valid : Valid core) {message : Message}
    (full : held core = some message) : messageOf event = none := by
  cases step with
  | feed report nowMs draws =>
      have packet := coreFeed_cases core report nowMs draws valid
      apply messageOf_fed
      apply packet.full
      rcases valid.held_cid full with ⟨i, running, record, -⟩
      rcases coreCleanup_cases core nowMs valid with ⟨same, -⟩ | ⟨j, assembling, -, -⟩
      · rw [same]
        exact record.messageReady
      · exact absurd (assembling.phase.symm.trans running.phase) (by decide)
  | cleanup nowMs => rfl
  | take cap => rfl
  | finish cid generation => rfl
  | clearCancel cid generation => rfl
  | reset => rfl

theorem CoreStep.held_kept {core next : Core} {event : Event} (step : CoreStep core event next)
    (valid : Valid core) {message : Message} (full : held core = some message)
    (kept : discards message event = false) : held next = some message := by
  rw [step.held_step valid, full]
  exact Runs.slotStep_kept _ _ message event (step.quiet_when_full valid full) kept

theorem CoreRun.held_kept {before between : List Event} {event : Event} {core : Core}
    {message : Message} (run : CoreRun (before ++ event :: between) core)
    (put : messageOf event = some message)
    (kept : ∀ later ∈ between, discards message later = false) :
    held core = some message := by
  induction between using List.reverseRecOn generalizing core with
  | nil =>
      rcases run.last_step with ⟨state, past, step⟩
      rw [step.held_step (CoreRun.valid past), Runs.slotStep, put]
  | append_singleton between last ih =>
      rw [← List.cons_append, ← List.append_assoc] at run
      rcases run.last_step with ⟨state, past, step⟩
      have earlier := ih past fun later member => kept later (List.mem_append_left _ member)
      apply step.held_kept (CoreRun.valid past) earlier
      exact kept last (List.mem_append_right _ (List.mem_singleton.mpr rfl))

theorem CoreStep.of_took {core next : Core} {cap : Nat} {result : Except TakeError Message}
    (step : CoreStep core (.took cap result) next) : (coreTakeMessage core cap).1 = result := by
  cases step
  rfl

/-- What was taken had been delivered, and nothing ended it in between. -/
theorem CoreRun.taken {before after : List Event} {core : Core} {cap : Nat} {message : Message}
    (run : CoreRun (before ++ .took cap (.ok message) :: after) core) :
    ∃ earlier event between, before = earlier ++ event :: between ∧ messageOf event = some message ∧
      ∀ later ∈ between, discards message later = false := by
  rcases run.at_event with ⟨state, next, past, step, -⟩
  have result := step.of_took
  rw [coreTakeMessage_mailbox (CoreRun.valid past), CoreRun.held_eq past] at result
  cases full : waiting before with
  | none =>
      rw [full] at result
      cases result
  | some put =>
      rw [full] at result
      simp only at result
      by_cases small : put.data.length > cap
      · rw [if_pos small] at result
        cases result
      · rw [if_neg small] at result
        cases result
        rcases Runs.slot_some _ _ before message full with ⟨earlier, event, between, parts, put, later⟩
        exact ⟨earlier, event, between, parts, put, fun event member => (later event member).2⟩

/-- Delivery is sound: a message is put together from what its channel sent, and it is
handed over at most once and unchanged. -/
theorem delivery_sound {past : List Event} {core : Core} (run : CoreRun past core) :
    (∀ report nowMs draws, Delivers (coreFeed core report nowMs draws).2 →
      Delivery past report nowMs (coreFeed core report nowMs draws).2) ∧
    (∀ before cap message after, past = before ++ .took cap (.ok message) :: after →
      ∃ earlier event between, before = earlier ++ event :: between ∧
        messageOf event = some message ∧ ∀ later ∈ between, discards message later = false) ∧
    (∀ earlier event between message, past = earlier ++ event :: between →
      messageOf event = some message → (∀ later ∈ between, discards message later = false) →
      ∀ cap, (coreTakeMessage core cap).1 =
        if message.data.length > cap then .error .small else .ok message) := by
  refine ⟨?_, ?_, ?_⟩
  · intro report nowMs draws delivers
    exact run.delivery report nowMs draws delivers
  · intro before cap message after split
    rw [split] at run
    exact CoreRun.taken run
  · intro earlier event between message split put kept cap
    rw [coreTakeMessage_mailbox run.valid]
    rw [split] at run
    rw [CoreRun.held_kept run put kept]

theorem woven_request_is_taken :
    Delivery [.fed openingReport 0 (coreFeed coreInit openingReport 0 drawOne).2,
        .fed requestReport 5 (coreFeed openedCore requestReport 5 drawOne).2,
        .fed openingReport 6 (coreFeed busyCore openingReport 6 drawTwo).2]
      restReport 7 (coreFeed sharedCore restReport 7 drawOne).2 ∧
    (coreTakeMessage (coreTakeMessage completedCore 99).2 100).1 =
      .ok ⟨1, cmdCbor, requestData, 1⟩ :=
  ⟨(delivery_sound sharedCore_run).1 restReport 7 drawOne
      (Or.inl (by decide +kernel)),
    (delivery_sound ((sharedCore_run.snoc (CoreStep.feed sharedCore restReport 7 drawOne)).snoc
      (CoreStep.take completedCore 99))).2.2
      [.fed openingReport 0 (coreFeed coreInit openingReport 0 drawOne).2,
        .fed requestReport 5 (coreFeed openedCore requestReport 5 drawOne).2,
        .fed openingReport 6 (coreFeed busyCore openingReport 6 drawTwo).2] _
      [.took 99 (coreTakeMessage completedCore 99).1] ⟨1, cmdCbor, requestData, 1⟩ rfl
      (by decide +kernel) (by decide +kernel) 100⟩

end P4Key.Ctaphid
