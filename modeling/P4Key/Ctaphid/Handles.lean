import P4Key.Ctaphid.Resync

/-! What gives a channel a new generation, and what makes it the active one. -/

namespace P4Key.Ctaphid

open Memory

def Report.requests (report : Report) : Bool :=
  report.isInitial && report.command != cmdCancel && report.command != cmdInit

def begins (cid : UInt32) : Event → Bool
  | .fed report _ action => report.cid == cid && report.requests && action.command != cmdError
  | _ => false

def resyncs (cid : UInt32) : Event → Bool
  | .fed report _ action => report.cid == cid && report.command == cmdInit && action.command == cmdInit
  | _ => false

def renews (cid : UInt32) (event : Event) : Bool := begins cid event || resyncs cid event

section Renews

variable {cid : UInt32} {report : Report} {nowMs : UInt32} {action : Action}

theorem renews_other (other : report.cid ≠ cid) : renews cid (.fed report nowMs action) = false := by
  simp [renews, begins, resyncs, other]

theorem renews_error (error : action.command = cmdError) :
    renews cid (.fed report nowMs action) = false := by
  simp [renews, begins, resyncs, error, (by decide : cmdError ≠ cmdInit)]

theorem renews_neither (request : report.requests = false) (init : action.command ≠ cmdInit) :
    renews cid (.fed report nowMs action) = false := by
  simp [renews, begins, resyncs, request, init]

theorem renews_answer (answer : Answers report.cid action)
    (silent : report.requests = true → action ≠ noAction) :
    renews cid (.fed report nowMs action) = false := by
  rcases answer with nothing | ⟨error, sent⟩
  · apply renews_neither
    · rw [Bool.eq_false_iff]
      exact fun request => silent request nothing
    · rw [nothing]
      decide
  · apply renews_error
    rw [sent]
    rfl

end Renews

theorem requests_cancel {report : Report} (command : report.command = cmdCancel) :
    report.requests = false := by
  simp [Report.requests, command]

theorem requests_init {report : Report} (command : report.command = cmdInit) :
    report.requests = false := by
  simp [Report.requests, command]

theorem requests_continuation {report : Report} (continuation : report.isInitial = false) :
    report.requests = false := by
  simp [Report.requests, continuation]

theorem requests_known {report : Report}
    (known : report.command = cmdPing ∨ report.command = cmdCbor) : report.requests = true := by
  rw [Report.requests, isInitial_of_known known]
  rcases known with command | command
  · rw [command]
    decide
  · rw [command]
    decide

/-! A request is answered or it starts a transaction. -/

theorem completeMessage_answers (core : Core) (i : Fin channelCount) :
    (completeMessage core i).2 ≠ noAction := by
  have apart : ∀ action : Action, action.kind ≠ .none → action ≠ noAction := by
    intro action kind same
    rw [same] at kind
    exact kind rfl
  apply apart
  rw [completeMessage]
  simp only
  split
  · simp [sendAction]
  · split
    · simp [errorAction, sendAction]
    · simp

theorem startMessage_silent {core : Core} {i : Fin channelCount} {command : UInt8}
    {declaredLen : Nat} {data : List UInt8} {nowMs : UInt32}
    (silent : (startMessage core i command declaredLen data nowMs).2 = noAction) :
    (startMessage core i command declaredLen data nowMs).1.phase = .rx := by
  rw [startMessage] at silent ⊢
  split at silent
  · exact absurd silent (completeMessage_answers _ i)
  · rename_i more
    rw [if_neg more]
    rfl

theorem errorAction_answers (core : Core) (cid : UInt32) (error : UInt8) :
    (errorAction core cid error).2 ≠ noAction := by
  intro same
  have kinds := congrArg Action.kind same
  cases kinds

theorem feedRequest_silent {core : Core} {i : Fin channelCount} {report : Report} {nowMs : UInt32}
    (silent : (feedRequest core i report nowMs).2 = noAction) :
    core.phase = .idle ∧ (feedRequest core i report nowMs).1.phase = .rx := by
  rw [feedRequest] at silent ⊢
  simp only at silent ⊢
  by_cases busy : (core.setChannel i (core.channels i).settle).phase ≠ .idle
  · exfalso
    rw [if_pos busy] at silent
    split_ifs at silent <;> exact errorAction_answers _ _ _ silent
  · rw [if_neg busy] at silent ⊢
    refine ⟨not_not.mp busy, ?_⟩
    split at silent
    · exact absurd silent (errorAction_answers _ _ _)
    · rename_i short
      split at silent
      · exact absurd silent (errorAction_answers _ _ _)
      · rename_i known
        split at silent
        · exact absurd silent (errorAction_answers _ _ _)
        · rename_i filled
          rw [if_neg short, if_neg known, if_neg filled]
          exact startMessage_silent silent

/-- A request that gets no answer has started a transaction. -/
theorem feedPacket_silent {core : Core} {report : Report} {nowMs : UInt32} {draws : Draws}
    (request : report.requests = true)
    (silent : (feedPacket core report nowMs draws).2 = noAction) :
    core.phase = .idle ∧ (feedPacket core report nowMs draws).1.phase = .rx := by
  simp only [Report.requests, Bool.and_eq_true, bne_iff_ne, ne_eq] at request
  rcases request with ⟨⟨initial, cancel⟩, init⟩
  rw [feedPacket, if_pos initial, feedInitial, if_neg cancel, if_neg init] at silent ⊢
  by_cases invalid : report.cid = 0 ∨ report.cid = broadcastCid
  · rw [if_pos invalid] at silent
    exact absurd silent (errorAction_answers _ _ _)
  rw [if_neg invalid] at silent ⊢
  cases found : chanFind core report.cid with
  | none =>
      rw [found] at silent
      exact absurd silent (errorAction_answers _ _ _)
  | some i =>
      rw [found] at silent
      exact feedRequest_silent silent

/-! What a step does to the generation of a channel. -/

structure Channel.Lasts (new old : Channel) : Prop where
  cid : new.cid = old.cid
  allocated : new.allocated = old.allocated
  generation : new.generation = old.generation

theorem Channel.Lasts.refl (channel : Channel) : channel.Lasts channel := ⟨rfl, rfl, rfl⟩

theorem setChannel_lasts {core : Core} {i : Fin channelCount} (channel : Channel)
    (lasts : channel.Lasts (core.channels i)) (j : Fin channelCount) :
    ((core.setChannel i channel).channels j).Lasts (core.channels j) :=
  setChannel_relates (R := Channel.Lasts) j .refl lasts

theorem clearActive_lasts (core : Core) (dropComplete : Bool) (j : Fin channelCount) :
    ((clearActive core dropComplete).channels j).Lasts (core.channels j) := by
  rw [clearActive_channels]
  split
  · exact ⟨rfl, rfl, rfl⟩
  · exact .refl _

theorem coreCleanup_lasts (core : Core) (nowMs : UInt32) (j : Fin channelCount) :
    ((coreCleanup core nowMs).channels j).Lasts (core.channels j) := by
  rw [coreCleanup]
  split
  · exact .refl _
  · cases chanFind core core.activeCid with
    | none => exact .refl _
    | some i =>
        simp only
        split
        · exact setChannel_lasts (clearChannelRx { core.channels i with timeoutPending := true })
            ⟨rfl, rfl, rfl⟩ j
        · exact .refl _

theorem startMessage_channels {core : Core} (idle : Idle core) (registered : Registered core)
    {i : Fin channelCount} {cid : UInt32} (owns : Owns core i cid) {command : UInt8}
    (known : command = cmdPing ∨ command = cmdCbor) {declaredLen : Nat}
    (bounded : declaredLen ≤ maxPayload) (data : List UInt8) (nowMs : UInt32)
    (j : Fin channelCount) :
    ((startMessage core i command declaredLen data nowMs).1.channels j).Lasts
      ((storeFirst core i command declaredLen data nowMs).channels j) := by
  have stored := idle.storeFirst data nowMs registered owns known bounded
  rw [startMessage]
  split
  · rw [stored.2.completeMessage_channels]
    exact setChannel_lasts { (storeFirst core i command declaredLen data nowMs).channels i with
      partialActive := false } ⟨rfl, rfl, rfl⟩ j
  · exact .refl _

theorem appendPacket_channels {core : Core} {i : Fin channelCount} (assembling : Assembling core i)
    (registered : Registered core) (data : List UInt8) (nowMs : UInt32) (j : Fin channelCount) :
    ((appendPacket core i data nowMs).1.channels j).Lasts (core.channels j) := by
  have stored := assembling.storeNext data nowMs registered
  have next : ((storeNext core i data nowMs).channels j).Lasts (core.channels j) := by
    by_cases here : j = i
    · subst here
      rw [storeNext_owner]
      exact ⟨rfl, rfl, rfl⟩
    · rw [storeNext_other core i data nowMs j here]
      exact .refl _
  rw [appendPacket]
  split
  · rw [stored.2.completeMessage_channels]
    have last := @setChannel_lasts (storeNext core i data nowMs) i
      { (storeNext core i data nowMs).channels i with partialActive := false } ⟨rfl, rfl, rfl⟩ j
    exact ⟨last.cid.trans next.cid, last.allocated.trans next.allocated,
      last.generation.trans next.generation⟩
  · exact next

structure Renewed (core next : Core) (i : Fin channelCount) (cid : UInt32) (renewed : Bool) :
    Prop where
  owner : Owns next i cid
  generation : (next.channels i).generation =
    (core.channels i).generation + if renewed then 1 else 0

theorem Renewed.of_lasts {core next : Core} {i : Fin channelCount} {cid : UInt32}
    (owns : Owns core i cid) (lasts : (next.channels i).Lasts (core.channels i)) :
    Renewed core next i cid false :=
  ⟨⟨lasts.allocated.trans owns.1, lasts.cid.trans owns.2⟩, by simp [lasts.generation]⟩

theorem completeMessage_accepts {core : Core} {i : Fin channelCount}
    (assembling : Assembling core i) : (completeMessage core i).2.command ≠ cmdError := by
  rw [assembling.completeMessage_eq]
  split
  · exact (by decide : cmdPing ≠ cmdError)
  · exact (by decide : cmdCbor ≠ cmdError)

theorem startMessage_accepts {core : Core} (idle : Idle core) (registered : Registered core)
    {i : Fin channelCount} {cid : UInt32} (owns : Owns core i cid) {command : UInt8}
    (known : command = cmdPing ∨ command = cmdCbor) {declaredLen : Nat}
    (bounded : declaredLen ≤ maxPayload) (data : List UInt8) (nowMs : UInt32) :
    (startMessage core i command declaredLen data nowMs).2.command ≠ cmdError := by
  have stored := idle.storeFirst data nowMs registered owns known bounded
  rw [startMessage]
  split
  · exact completeMessage_accepts stored.2
  · exact (by decide : noAction.command ≠ cmdError)

theorem resynced_renewal {core middle : Core} {i j : Fin channelCount} {cid own : UInt32}
    (registered : Registered core) (owns : Owns core i cid) (owner : Owns core j own)
    (ended : middle = if core.activeCid = own then clearActive core true else core)
    (control : Bytes 17) (count : UInt32) :
    Renewed core ((restarted middle j).note control count) i cid (decide (own = cid)) := by
  have before : (middle.channels i).Lasts (core.channels i) := by
    rw [ended]
    split
    · exact clearActive_lasts core true i
    · exact .refl _
  by_cases here : i = j
  · subst here
    have same : own = cid := owner.2.symm.trans owns.2
    have next : ((restarted middle i).note control count).channels i =
        { clearChannelRx (middle.channels i) with
          cancel := false, timeoutPending := false,
          generation := (middle.channels i).generation + 1 } := setChannel_same middle i _
    rw [decide_eq_true same]
    refine ⟨?_, ?_⟩
    · rw [Owns, next]
      exact ⟨before.allocated.trans owns.1, before.cid.trans owns.2⟩
    · rw [next, ← before.generation]
      rfl
  · have other : own ≠ cid := fun same => here (owns.unique (same ▸ owner) registered)
    rw [decide_eq_false other]
    apply Renewed.of_lasts owns
    have next : ((restarted middle j).note control count).channels i = middle.channels i :=
      setChannel_other middle j i _ here
    rw [next]
    exact before

theorem Packet.renewal {core : Core} {report : Report} {nowMs : UInt32} {result : Core × Action}
    (packet : Packet core report nowMs result) (valid : Valid core)
    (silent : report.requests = true → result.2 = noAction → result.1.phase ≠ core.phase)
    {i : Fin channelCount} {cid : UInt32} (owns : Owns core i cid) :
    Renewed core result.1 i cid (renews cid (.fed report nowMs result.2)) := by
  cases packet with
  | ignored control count action answer harmless =>
      rw [renews_answer answer fun request nothing => silent request nothing rfl]
      exact .of_lasts owns (.refl _)
  | settled j owner control count action answer elsewhere =>
      rw [renews_answer answer fun request nothing => silent request nothing rfl]
      exact .of_lasts owns (setChannel_lasts (core.channels j).settle ⟨rfl, rfl, rfl⟩ i)
  | allocated j new control data broadcast free proper fresh =>
      have given := valid.registered.assigned i owns.1
      rw [owns.2] at given
      rw [renews_other (broadcast ▸ given.2.symm)]
      have apart : i ≠ j := by
        intro here
        rw [← here, owns.1] at free
        cases free
      refine .of_lasts owns ?_
      simp only [Core.note, setChannel_other core j i _ apart]
      exact .refl _
  | cancelled j running active cbor command empty =>
      rw [renews_neither (requests_cancel command) (by decide : cmdCancel ≠ cmdInit)]
      exact .of_lasts owns (setChannel_lasts { core.channels j with cancel := true }
        ⟨rfl, rfl, rfl⟩ i)
  | resynced j owner control data free command eight middle ended =>
      have renewed : renews cid (.fed report nowMs (sendAction report.cid cmdInit data)) =
          decide (report.cid = cid) := by
        simp [renews, begins, resyncs, requests_init command, command, sendAction, beq_eq_decide]
      rw [renewed]
      exact resynced_renewal valid.registered owns owner ended control _
  | aborted j assembling active control error cancel init =>
      rw [renews_error rfl]
      exact .of_lasts owns (clearActive_lasts core true i)
  | started j idle owner known bounded nonempty =>
      have accepted := startMessage_accepts idle valid.registered owner known bounded
        report.initData nowMs
      have later := startMessage_channels idle valid.registered owner known bounded
        report.initData nowMs i
      have init : report.command ≠ cmdInit := by
        rcases known with command | command
        · rw [command]
          decide
        · rw [command]
          decide
      have renewed : renews cid (.fed report nowMs
          (startMessage core j report.command report.declaredLen report.initData nowMs).2) =
          decide (report.cid = cid) := by
        simp [renews, begins, resyncs, requests_known known, init, accepted, beq_eq_decide]
      rw [renewed]
      by_cases here : i = j
      · subst here
        rw [storeFirst_owner] at later
        rw [decide_eq_true (owner.2.symm.trans owns.2)]
        exact ⟨⟨later.allocated.trans owns.1, later.cid.trans owns.2⟩, later.generation⟩
      · have other : report.cid ≠ cid :=
          fun same => here (owns.unique (same ▸ owner) valid.registered)
        rw [storeFirst_other core j _ _ _ _ i here] at later
        rw [decide_eq_false other]
        exact .of_lasts owns later
  | appended j assembling progress active continuation due inTime =>
      have init : report.command ≠ cmdInit := by
        intro command
        rw [isInitial_of_init report command] at continuation
        cases continuation
      have renewed : renews cid (.fed report nowMs
          (appendPacket core j report.contData nowMs).2) = false := by
        simp [renews, begins, resyncs, requests_continuation continuation, init]
      rw [renewed]
      exact .of_lasts owns (appendPacket_channels assembling valid.registered _ nowMs i)

theorem Owns.lasts {core next : Core} {i : Fin channelCount} {cid : UInt32}
    (owns : Owns core i cid) (lasts : (next.channels i).Lasts (core.channels i)) :
    Owns next i cid :=
  ⟨lasts.allocated.trans owns.1, lasts.cid.trans owns.2⟩

theorem coreFeed_silent {core : Core} {report : Report} {nowMs : UInt32} {draws : Draws}
    (request : report.requests = true) (silent : (coreFeed core report nowMs draws).2 = noAction) :
    (coreFeed core report nowMs draws).1.phase ≠ (coreCleanup core nowMs).phase := by
  have started := feedPacket_silent request silent
  rw [started.1]
  exact fun idle => absurd (started.2.symm.trans idle) (by decide)

theorem CoreStep.renewal {core next : Core} {event : Event} (step : CoreStep core event next)
    (valid : Valid core) (alive : event ≠ .reset) {i : Fin channelCount} {cid : UInt32}
    (owns : Owns core i cid) : Renewed core next i cid (renews cid event) := by
  cases step with
  | feed report nowMs draws =>
      have cleaned := coreCleanup_lasts core nowMs i
      have renewal := (coreFeed_cases core report nowMs draws valid).renewal
        (coreCleanup_valid core nowMs valid) coreFeed_silent (owns.lasts cleaned)
      refine ⟨renewal.owner, ?_⟩
      rw [renewal.generation, cleaned.generation]
  | cleanup nowMs => exact .of_lasts owns (coreCleanup_lasts core nowMs i)
  | take cap =>
      refine .of_lasts owns ?_
      rw [coreTakeMessage]
      split_ifs <;> exact .refl _
  | finish cid' generation =>
      refine .of_lasts owns ?_
      rcases coreFinishResponse_cases core cid' generation with same | ⟨j, -, -, -, -, ended⟩
      · rw [same]
        exact .refl _
      · rw [ended]
        exact clearActive_lasts core true i
  | clearCancel cid' generation =>
      refine .of_lasts owns ?_
      rcases coreClearCancel_cases core cid' generation with same | ⟨j, -, -, -, -, cleared⟩
      · rw [same]
        exact .refl _
      · rw [cleared]
        exact setChannel_lasts { core.channels j with cancel := false }
          ⟨rfl, rfl, rfl⟩ i
  | reset => exact absurd rfl alive

/-! No channel becomes active but by a transaction that begins on it. -/

theorem Valid.inactive {core : Core} (valid : Valid core) {cid : UInt32} (proper : cid ≠ 0)
    (phase : core.phase = .idle) : core.activeCid ≠ cid := by
  rw [(valid.idle_of_phase phase).activeCid]
  exact proper.symm

theorem Packet.activates {core : Core} {report : Report} {nowMs : UInt32} {result : Core × Action}
    (packet : Packet core report nowMs result) (valid : Valid core) {cid : UInt32}
    (proper : cid ≠ 0) (now : result.1.activeCid = cid) :
    core.activeCid = cid ∨ renews cid (.fed report nowMs result.2) = true := by
  have after := packet.valid valid
  cases packet with
  | ignored control count action answer harmless => exact Or.inl now
  | settled j owner control count action answer elsewhere => exact Or.inl now
  | allocated j new control data broadcast free proper' fresh => exact Or.inl now
  | cancelled j running active cbor command empty => exact Or.inl now
  | resynced j owner control data free command eight middle ended =>
      have idle := resynced_idle valid free ended
      exact absurd now (after.inactive proper idle)
  | aborted j assembling active control error cancel init =>
      exact absurd now (after.inactive proper valid.clearActive_idle.phase)
  | started j idle owner known bounded nonempty =>
      have stored := idle.storeFirst report.initData nowMs valid.registered owner known bounded
      have accepted := startMessage_accepts idle valid.registered owner known bounded
        report.initData nowMs
      have active : (startMessage core j report.command report.declaredLen report.initData
          nowMs).1.activeCid = report.cid := by
        have first : (storeFirst core j report.command report.declaredLen report.initData
            nowMs).activeCid = report.cid := owner.2
        rw [startMessage]
        split
        · rw [stored.2.completeMessage_activeCid, first]
        · exact first
      have same : report.cid = cid := active.symm.trans now
      right
      simp [renews, begins, requests_known known, accepted, same]
  | appended j assembling progress active continuation due inTime =>
      have stored := assembling.storeNext report.contData nowMs valid.registered
      left
      rw [appendPacket] at now
      split at now
      · rw [stored.2.completeMessage_activeCid] at now
        exact now
      · exact now

theorem CoreStep.activates {core next : Core} {event : Event} (step : CoreStep core event next)
    (valid : Valid core) {cid : UInt32} (proper : cid ≠ 0) (now : next.activeCid = cid) :
    core.activeCid = cid ∨ renews cid event = true := by
  have after := step.valid valid
  have cleanup : ∀ nowMs, (coreCleanup core nowMs).activeCid = cid → core.activeCid = cid := by
    intro nowMs active
    rcases coreCleanup_cases core nowMs valid with ⟨same, -⟩ | ⟨i, -, -, result⟩
    · rw [same] at active
      exact active
    · rw [result] at active
      exact absurd active.symm proper
  cases step with
  | feed report nowMs draws =>
      have packet := coreFeed_cases core report nowMs draws valid
      rcases packet.activates (coreCleanup_valid core nowMs valid) proper now with before | renewed
      · exact Or.inl (cleanup nowMs before)
      · exact Or.inr renewed
  | cleanup nowMs => exact Or.inl (cleanup nowMs now)
  | take cap =>
      left
      rw [coreTakeMessage] at now
      split_ifs at now <;> exact now
  | finish cid' generation =>
      rcases coreFinishResponse_cases core cid' generation with same | ⟨j, -, -, -, -, ended⟩
      · rw [same] at now
        exact Or.inl now
      · rw [ended] at now
        exact absurd now.symm proper
  | clearCancel cid' generation =>
      rcases coreClearCancel_cases core cid' generation with same | ⟨j, -, -, -, -, cleared⟩
      · rw [same] at now
        exact Or.inl now
      · rw [cleared] at now
        exact Or.inl now
  | reset => exact absurd now.symm proper

end P4Key.Ctaphid
