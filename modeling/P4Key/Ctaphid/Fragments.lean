import P4Key.Ctaphid.Isolation

/-! Where the bytes of a delivered message come from.

While a request is received, the buffer holds the data areas of a tail of the
reports that its channel sent. -/

namespace P4Key.Ctaphid

open Memory

/-- The reports that `cid` has sent since the last reset, with their times. -/
def record (cid : UInt32) (seen : List (Report × UInt32)) : Event → List (Report × UInt32)
  | .fed report nowMs _ => if report.cid = cid then seen ++ [(report, nowMs)] else seen
  | .reset => []
  | _ => seen

def addressed (cid : UInt32) (past : List Event) : List (Report × UInt32) :=
  past.foldl (record cid) []

theorem addressed_snoc (cid : UInt32) (past : List Event) (event : Event) :
    addressed cid (past ++ [event]) = record cid (addressed cid past) event := by
  simp [addressed]

/-- A packet that a channel may send in the middle of its request. -/
def harmless (report : Report) : Bool :=
  report.command == cmdCancel || (report.command == cmdInit && report.declaredLen != 8)

/-- An initial packet and the continuation packets `0`, ..., `count - 1`, in this order,
each less than 500 ms after the one before it, and their data areas put together. -/
inductive Fragments (command : UInt8) (declaredLen : Nat) :
    List (Report × UInt32) → Nat → List UInt8 → UInt32 → Prop where
  | initial (report : Report) (nowMs : UInt32) (kind : report.command = command)
      (length : report.declaredLen = declaredLen) :
      Fragments command declaredLen [(report, nowMs)] 0 report.initData nowMs
  | between {sent : List (Report × UInt32)} {count : Nat} {data : List UInt8} {lastMs : UInt32}
      (earlier : Fragments command declaredLen sent count data lastMs) (report : Report)
      (nowMs : UInt32) (skipped : harmless report = true) :
      Fragments command declaredLen (sent ++ [(report, nowMs)]) count data lastMs
  | continuation {sent : List (Report × UInt32)} {count : Nat} {data : List UInt8}
      {lastMs : UInt32} (earlier : Fragments command declaredLen sent count data lastMs)
      (report : Report) (nowMs : UInt32) (follows : report.isInitial = false)
      (number : report.command.toNat = count) (inTime : nowMs - lastMs < messageTimeoutMs) :
      Fragments command declaredLen (sent ++ [(report, nowMs)]) (count + 1)
        (data ++ report.contData) nowMs

/-- Of what the channel has sent, the buffer holds the data areas of the last fragments. -/
def Collected (seen : List (Report × UInt32)) (core : Core) (i : Fin channelCount) : Prop :=
  ∃ before sent data, seen = before ++ sent ∧
    Fragments core.activeCommand (core.channels i).declaredLen sent
      (core.channels i).nextSequence.toNat data (core.channels i).lastPacketMs ∧
    (core.buffers core.rxBuffer).toList.take (core.channels i).received =
      data.take (core.channels i).declaredLen ∧
    (core.channels i).received = min (core.channels i).declaredLen data.length

/-- What a report that delivers a message says about the past of its channel. -/
def Delivery (past : List Event) (report : Report) (nowMs : UInt32) (action : Action) : Prop :=
  report.cid = action.cid ∧ harmless report = false ∧
  ∃ before sent count data,
    addressed action.cid past ++ [(report, nowMs)] = before ++ sent ∧
    Fragments action.command action.data.length sent count data nowMs ∧
    action.data = data.take action.data.length

def Delivers (action : Action) : Prop :=
  action.kind = .message ∨ action.kind = .send ∧ action.command = cmdPing

theorem Answers.not_delivers {cid : UInt32} {action : Action} (answer : Answers cid action) :
    ¬ Delivers action := by
  rcases answer with nothing | ⟨error, answered⟩
  · rw [nothing]
    simp [Delivers, noAction]
  · rw [answered]
    simp [Delivers, sendAction, cmdError, cmdPing]

theorem init_not_delivers (cid : UInt32) (data : List UInt8) :
    ¬ Delivers (sendAction cid cmdInit data) := by
  simp [Delivers, sendAction, cmdInit, cmdPing]

theorem harmless_of_ignored {report : Report}
    (kind : report.command = cmdCancel ∨ report.command = cmdInit ∧ report.declaredLen ≠ 8) :
    harmless report = true := by
  rcases kind with cancel | init
  · simp [harmless, cancel]
  · simp [harmless, init.1, init.2]

theorem not_harmless {report : Report} (cancel : report.command ≠ cmdCancel)
    (init : report.command ≠ cmdInit) : harmless report = false := by
  simp [harmless, cancel, init]

/-! The two ways in which the buffer fills. -/

theorem collected_first (seen : List (Report × UInt32)) (core : Core) (i : Fin channelCount)
    (report : Report) (nowMs : UInt32) :
    Collected (seen ++ [(report, nowMs)])
      (storeFirst core i report.command report.declaredLen report.initData nowMs) i := by
  have size : report.initData.length = initDataBytes := report.length_initData
  have cut : report.initData.take (min report.declaredLen initDataBytes) =
      report.initData.take report.declaredLen := by
    rw [← size, ← List.take_eq_take_min]
  refine ⟨seen, [(report, nowMs)], report.initData, rfl, ?_, ?_, ?_⟩
  · rw [storeFirst_owner]
    exact .initial report nowMs rfl rfl
  · have stored := storeFirst_buffer core i report.command report.declaredLen report.initData nowMs
    have index : (storeFirst core i report.command report.declaredLen report.initData
        nowMs).rxBuffer = core.rxBuffer := rfl
    rw [storeFirst_owner, index, stored, storeInto_toList, cut]
    have length : (report.initData.take report.declaredLen).length =
        min report.declaredLen initDataBytes := by
      rw [List.length_take, size]
    simp only
    rw [← length]
    apply take_store
    rw [length, List.Vector.toList_length]
    simp only [initDataBytes, maxPayload]
    omega
  · rw [storeFirst_owner, size]

theorem collected_next {seen : List (Report × UInt32)} {core : Core} {i : Fin channelCount}
    (collected : Collected seen core i) (progress : Progress (core.channels i))
    (declared : (core.channels i).declaredLen ≤ maxPayload) (report : Report) (nowMs : UInt32)
    (follows : report.isInitial = false) (due : report.command = (core.channels i).nextSequence)
    (inTime : timeExpired nowMs (core.channels i).lastPacketMs messageTimeoutMs = false) :
    Collected (seen ++ [(report, nowMs)]) (storeNext core i report.contData nowMs) i := by
  rcases collected with ⟨before, sent, data, split, fragments, held, received⟩
  have size : report.contData.length = contDataBytes := report.length_contData
  have more := progress.more
  have place := progress.received
  have whole : data.length = (core.channels i).received := by omega
  refine ⟨before, sent ++ [(report, nowMs)], data ++ report.contData, ?_, ?_, ?_, ?_⟩
  · rw [split, List.append_assoc]
  · have small := toNat_succ_of_small (core.channels i).nextSequence (by
      simp only [maxPayload, initDataBytes, contDataBytes] at *
      omega)
    rw [storeNext_owner]
    simp only
    rw [small]
    refine fragments.continuation report nowMs follows (by rw [due]) ?_
    simpa [timeExpired] using inTime
  · have stored := storeNext_buffer core i report.contData nowMs
    have index : (storeNext core i report.contData nowMs).rxBuffer = core.rxBuffer := rfl
    have length : (report.contData.take (min ((core.channels i).declaredLen -
        (core.channels i).received) contDataBytes)).length =
        min ((core.channels i).declaredLen - (core.channels i).received) contDataBytes := by
      rw [List.length_take, size]
      omega
    rw [storeNext_owner, index, stored, storeInto_toList]
    simp only
    have append := take_store_at (core.buffers core.rxBuffer).toList (core.channels i).received
      (report.contData.take (min ((core.channels i).declaredLen - (core.channels i).received)
        contDataBytes)) (by
          rw [length, List.Vector.toList_length]
          omega)
    rw [length] at append
    rw [append, held, List.take_append, ← size, ← List.take_eq_take_min, whole]
  · rw [storeNext_owner, List.length_append, size]
    simp only
    omega

theorem Collected.delivery {seen : List (Report × UInt32)} {core : Core} {i : Fin channelCount}
    (collected : Collected seen core i)
    (complete : (core.channels i).received = (core.channels i).declaredLen) :
    ∃ before sent count data, seen = before ++ sent ∧
      Fragments core.activeCommand
        ((core.buffers core.rxBuffer).toList.take (core.channels i).declaredLen).length sent count
        data (core.channels i).lastPacketMs ∧
      (core.buffers core.rxBuffer).toList.take (core.channels i).declaredLen =
        data.take ((core.buffers core.rxBuffer).toList.take (core.channels i).declaredLen).length := by
  rcases collected with ⟨before, sent, data, split, fragments, held, received⟩
  rw [complete] at held received
  have length : ((core.buffers core.rxBuffer).toList.take (core.channels i).declaredLen).length =
      (core.channels i).declaredLen := by
    rw [held, List.length_take, ← received]
  rw [length]
  exact ⟨before, sent, _, data, split, fragments, held⟩

/-- Both kinds of completion deliver the buffer under the name of the request. -/
theorem completeMessage_action {core : Core} {i : Fin channelCount}
    (assembling : Assembling core i) :
    (completeMessage core i).2.cid = core.activeCid ∧
    (completeMessage core i).2.command = core.activeCommand ∧
    (completeMessage core i).2.data =
      (core.buffers core.rxBuffer).toList.take (core.channels i).declaredLen := by
  rw [assembling.completeMessage_eq]
  by_cases ping : core.activeCommand = cmdPing
  · rw [if_pos ping]
    exact ⟨rfl, ping.symm, rfl⟩
  · rw [if_neg ping]
    exact ⟨rfl, (assembling.known.resolve_left ping).symm, rfl⟩

theorem Collected.completed {past : List Event} {core : Core} {i : Fin channelCount}
    {report : Report} {nowMs : UInt32} (assembling : Assembling core i)
    (collected : Collected (addressed report.cid past ++ [(report, nowMs)]) core i)
    (complete : (core.channels i).received = (core.channels i).declaredLen)
    (active : core.activeCid = report.cid) (last : (core.channels i).lastPacketMs = nowMs)
    (relevant : harmless report = false) :
    Delivery past report nowMs (completeMessage core i).2 := by
  rcases completeMessage_action assembling with ⟨cid, command, data⟩
  refine ⟨(cid.trans active).symm, relevant, ?_⟩
  rw [cid, command, data, active, ← last]
  rw [← last] at collected
  exact collected.delivery complete

/-! Every run. -/

/-- Whoever is receiving a request has its packets in the buffer. -/
def Sourced (past : List Event) (core : Core) : Prop :=
  ∀ i, Assembling core i → Collected (addressed core.activeCid past) core i

theorem Sourced.of_not_rx {past : List Event} {core : Core} (phase : core.phase ≠ .rx) :
    Sourced past core := by
  intro i assembling
  exact absurd assembling.phase phase

theorem Sourced.keep {past : List Event} {core : Core} (sourced : Sourced past core) (event : Event)
    (same : ∀ cid, addressed cid (past ++ [event]) = addressed cid past) :
    Sourced (past ++ [event]) core := by
  intro i assembling
  rw [same]
  exact sourced i assembling

theorem addressed_fed (past : List Event) (report : Report) (nowMs : UInt32) (action : Action)
    (cid : UInt32) (sender : report.cid = cid) :
    addressed cid (past ++ [.fed report nowMs action]) = addressed cid past ++ [(report, nowMs)] := by
  rw [addressed_snoc, record, if_pos sender]

theorem Undisturbed.sourced {past : List Event} {core after : Core} (valid : Valid core)
    (sourced : Sourced past core) (frame : Undisturbed core after core.activeCid) (report : Report)
    (nowMs : UInt32) (action : Action) (foreign : core.activeCid ≠ report.cid) :
    Sourced (past ++ [.fed report nowMs action]) after := by
  intro j assembling
  have phase : core.phase = .rx := frame.phase.symm.trans assembling.phase
  rcases valid.assembling_of_phase phase with ⟨i, before, -⟩
  have channel := frame.channel i before.owner
  have active : (after.channels i).partialActive = true := by
    rw [channel]
    exact (before.partialActive i).mpr rfl
  have here : i = j := (assembling.partialActive i).mp active
  subst here
  have collected := sourced i before
  rw [Collected, channel, frame.buffers, frame.rxBuffer, frame.activeCommand, frame.activeCid,
    addressed_snoc, record, if_neg (Ne.symm foreign)]
  exact collected

theorem startMessage_sourced {core : Core} {i : Fin channelCount} {report : Report}
    (idle : Idle core) (registered : Registered core) (owns : Owns core i report.cid)
    (known : report.command = cmdPing ∨ report.command = cmdCbor)
    (bounded : report.declaredLen ≤ maxPayload) (past : List Event) (nowMs : UInt32) :
    Sourced (past ++ [.fed report nowMs
        (startMessage core i report.command report.declaredLen report.initData nowMs).2])
      (startMessage core i report.command report.declaredLen report.initData nowMs).1 := by
  have stored := idle.storeFirst report.initData nowMs registered owns known bounded
  rw [startMessage]
  by_cases whole : ((storeFirst core i report.command report.declaredLen report.initData
      nowMs).channels i).received = report.declaredLen
  · rw [if_pos whole]
    apply Sourced.of_not_rx
    rw [stored.2.completeMessage_phase]
    decide
  · rw [if_neg whole]
    intro j assembling
    have here : i = j := (assembling.partialActive i).mp ((stored.2.partialActive i).mpr rfl)
    subst here
    have active : (storeFirst core i report.command report.declaredLen report.initData
        nowMs).activeCid = report.cid := owns.2
    rw [active, addressed_fed past report nowMs _ _ rfl]
    exact collected_first _ core i report nowMs

theorem appendPacket_sourced {core : Core} {i : Fin channelCount} {report : Report}
    {nowMs : UInt32} (assembling : Assembling core i) (registered : Registered core)
    (progress : Progress (core.channels i)) (active : core.activeCid = report.cid)
    (continuation : report.isInitial = false)
    (due : report.command = (core.channels i).nextSequence)
    (inTime : timeExpired nowMs (core.channels i).lastPacketMs messageTimeoutMs = false)
    {past : List Event} (sourced : Sourced past core) :
    Sourced (past ++ [.fed report nowMs (appendPacket core i report.contData nowMs).2])
      (appendPacket core i report.contData nowMs).1 := by
  have stored := assembling.storeNext report.contData nowMs registered
  rw [appendPacket]
  by_cases whole : ((storeNext core i report.contData nowMs).channels i).received =
      ((storeNext core i report.contData nowMs).channels i).declaredLen
  · rw [if_pos whole]
    apply Sourced.of_not_rx
    rw [stored.2.completeMessage_phase]
    decide
  · rw [if_neg whole]
    intro j later
    have here : i = j := (later.partialActive i).mp ((stored.2.partialActive i).mpr rfl)
    subst here
    have kept : (storeNext core i report.contData nowMs).activeCid = core.activeCid := rfl
    rw [kept, addressed_fed past report nowMs _ _ active.symm]
    exact collected_next (sourced i assembling) progress assembling.declared report nowMs
      continuation due inTime

theorem Packet.sourced {core : Core} {report : Report} {nowMs : UInt32} {result : Core × Action}
    (packet : Packet core report nowMs result) (valid : Valid core) {past : List Event}
    (sourced : Sourced past core) : Sourced (past ++ [.fed report nowMs result.2]) result.1 := by
  by_cases apart : core.phase ≠ .idle ∧ core.activeCid ≠ report.cid
  · exact (packet.foreign apart.1 apart.2).1.sourced valid sourced report nowMs _ apart.2
  -- what is left comes from the channel of the transaction, or there is none
  have near : core.phase = .rx → core.activeCid = report.cid := by
    intro phase
    by_contra differs
    exact apart ⟨by rw [phase]; decide, differs⟩
  cases packet with
  | ignored control count action answer harmless =>
      intro i assembling
      have phase : core.phase = .rx := assembling.phase
      have active := near phase
      rcases sourced i ⟨phase, assembling.owner, assembling.partialActive, assembling.cancel,
        assembling.command, assembling.known, assembling.declared, assembling.timeoutPending,
        assembling.messageReady, assembling.completeBuffer⟩ with ⟨before, sent, data, split, fragments,
          held, received⟩
      have skipped := harmless_of_ignored (harmless phase active)
      have longer : addressed core.activeCid (past ++ [.fed report nowMs action]) =
          before ++ (sent ++ [(report, nowMs)]) := by
        rw [addressed_fed past report nowMs action _ active.symm, split, List.append_assoc]
      exact ⟨before, sent ++ [(report, nowMs)], data, longer,
        fragments.between report nowMs skipped, held, received⟩
  | settled i owns control count action answer elsewhere =>
      apply Sourced.of_not_rx
      intro phase
      exact elsewhere ⟨phase, near phase⟩
  | allocated i cid control data broadcast free proper fresh =>
      apply Sourced.of_not_rx
      intro phase
      exact valid.active_ne_broadcast ((near phase).trans broadcast)
  | cancelled i running active cbor command empty =>
      apply Sourced.of_not_rx
      intro phase
      exact absurd (running.phase.symm.trans phase) (by decide)
  | resynced i owns control data free command eight middle ended =>
      apply Sourced.of_not_rx
      intro phase
      replace phase : middle.phase = .rx := phase
      by_cases active : core.activeCid = report.cid
      · rw [if_pos active] at ended
        rw [ended] at phase
        exact absurd (valid.clearActive_idle.phase.symm.trans phase) (by decide)
      · rw [if_neg active] at ended
        rw [ended] at phase
        exact active (near phase)
  | aborted i assembling active control error cancel init =>
      apply Sourced.of_not_rx
      intro phase
      exact absurd (valid.clearActive_idle.phase.symm.trans phase) (by decide)
  | started i idle owns known bounded nonempty =>
      exact startMessage_sourced idle valid.registered owns known bounded past nowMs
  | appended i assembling progress active continuation due inTime =>
      exact appendPacket_sourced assembling valid.registered progress active continuation due inTime
        sourced

theorem Packet.delivery {core : Core} {report : Report} {nowMs : UInt32} {result : Core × Action}
    (packet : Packet core report nowMs result) (valid : Valid core) {past : List Event}
    (sourced : Sourced past core) (delivers : Delivers result.2) :
    Delivery past report nowMs result.2 := by
  cases packet with
  | ignored control count action answer harmless => exact absurd delivers answer.not_delivers
  | settled i owns control count action answer elsewhere =>
      exact absurd delivers answer.not_delivers
  | allocated i cid control data broadcast free proper fresh =>
      exact absurd delivers (init_not_delivers _ data)
  | cancelled i running active cbor command empty => simp [Delivers] at delivers
  | resynced i owns control data free command eight middle ended =>
      exact absurd delivers (init_not_delivers _ data)
  | aborted i assembling active control error cancel init =>
      exact absurd delivers (Answers.not_delivers (Or.inr ⟨error, rfl⟩))
  | started i idle owns known bounded nonempty =>
      have stored := idle.storeFirst report.initData nowMs valid.registered owns known bounded
      have owner := storeFirst_owner core i report.command report.declaredLen report.initData nowMs
      have relevant : harmless report = false := by
        rcases known with ping | cbor
        · exact not_harmless (by rw [ping]; decide) (by rw [ping]; decide)
        · exact not_harmless (by rw [cbor]; decide) (by rw [cbor]; decide)
      rw [startMessage] at delivers ⊢
      by_cases whole : ((storeFirst core i report.command report.declaredLen report.initData
          nowMs).channels i).received = report.declaredLen
      · rw [if_pos whole]
        refine (collected_first _ core i report nowMs).completed stored.2 ?_ owns.2 ?_ relevant
        · rw [whole, owner]
        · rw [owner]
      · rw [if_neg whole] at delivers
        exact absurd delivers (@Answers.not_delivers report.cid _ (Or.inl rfl))
  | appended i assembling progress active continuation due inTime =>
      have stored := assembling.storeNext report.contData nowMs valid.registered
      have collected := collected_next (sourced i assembling) progress assembling.declared report
        nowMs continuation due inTime
      have relevant : harmless report = false := by
        apply not_harmless
        · intro cancel
          rw [isInitial_of_cancel report cancel] at continuation
          cases continuation
        · intro init
          rw [isInitial_of_init report init] at continuation
          cases continuation
      rw [active] at collected
      rw [appendPacket] at delivers ⊢
      by_cases whole : ((storeNext core i report.contData nowMs).channels i).received =
          ((storeNext core i report.contData nowMs).channels i).declaredLen
      · rw [if_pos whole]
        refine collected.completed stored.2 whole active ?_ relevant
        rw [storeNext_owner]
      · rw [if_neg whole] at delivers
        exact absurd delivers (@Answers.not_delivers report.cid _ (Or.inl rfl))

/-! The other calls. -/

theorem Sourced.cleaned {past : List Event} {core : Core} (sourced : Sourced past core)
    (valid : Valid core) (nowMs : UInt32) : Sourced past (coreCleanup core nowMs) := by
  rcases coreCleanup_cases core nowMs valid with ⟨same, -⟩ | ⟨i, assembling, -, result⟩
  · rw [same]
    exact sourced
  · rw [result]
    apply Sourced.of_not_rx
    exact (by decide : Phase.idle ≠ Phase.rx)

theorem CoreStep.sourced {core next : Core} {event : Event} (step : CoreStep core event next)
    (valid : Valid core) {past : List Event} (sourced : Sourced past core) :
    Sourced (past ++ [event]) next := by
  cases step with
  | feed report nowMs draws =>
      exact (coreFeed_cases core report nowMs draws valid).sourced
        (coreCleanup_valid core nowMs valid) (sourced.cleaned valid nowMs)
  | cleanup nowMs =>
      exact (sourced.cleaned valid nowMs).keep _ fun cid => addressed_snoc cid past _
  | take cap =>
      rcases coreTakeMessage_cases valid cap with ⟨error, same⟩ | ⟨ready, taken⟩
      · rw [same]
        exact sourced.keep _ fun cid => addressed_snoc cid past _
      · rw [taken]
        rcases valid.messageReady_iff.mp ready with ⟨i, running, -⟩
        apply Sourced.of_not_rx
        intro after
        exact absurd (running.phase.symm.trans after) (by decide)
  | finish cid generation =>
      rcases coreFinishResponse_cases core cid generation with same | ⟨i, -, -, -, -, ended⟩
      · rw [same]
        exact sourced.keep _ fun cid => addressed_snoc cid past _
      · rw [ended]
        apply Sourced.of_not_rx
        rw [valid.clearActive_idle.phase]
        decide
  | clearCancel cid generation =>
      rcases coreClearCancel_cases core cid generation with same | ⟨i, processing, -, -, -, cleared⟩
      · rw [same]
        exact sourced.keep _ fun cid => addressed_snoc cid past _
      · rw [cleared]
        apply Sourced.of_not_rx
        intro after
        exact absurd (processing.symm.trans after) (by decide)
  | reset =>
      apply Sourced.of_not_rx
      exact (by decide : Phase.idle ≠ Phase.rx)

theorem CoreRun.sourced {past : List Event} {core : Core} (run : CoreRun past core) :
    Sourced past core := by
  apply run.history Sourced
  · apply Sourced.of_not_rx
    exact (by decide : Phase.idle ≠ Phase.rx)
  · intro past state event next before sourced step
    exact step.sourced (CoreRun.valid before) sourced

/-- Every delivery goes back to the reports that its channel has sent. -/
theorem CoreRun.delivery {past : List Event} {core : Core} (run : CoreRun past core)
    (report : Report) (nowMs : UInt32) (draws : Draws)
    (delivers : Delivers (coreFeed core report nowMs draws).2) :
    Delivery past report nowMs (coreFeed core report nowMs draws).2 :=
  (coreFeed_cases core report nowMs draws run.valid).delivery
    (coreCleanup_valid core nowMs run.valid) (run.sourced.cleaned run.valid nowMs) delivers

end P4Key.Ctaphid
