import P4Key.Ctaphid.Handles

/-! The timeouts that channels are still to be told of. -/

namespace P4Key.Ctaphid

open Memory

def Core.pending (core : Core) (k : Fin channelCount) : Bool := (core.channels k).timeoutPending

/-! What leaves them alone. -/

theorem pending_setChannel (core : Core) (i : Fin channelCount) (channel : Channel)
    (k : Fin channelCount) : (core.setChannel i channel).pending k =
      if k = i then channel.timeoutPending else core.pending k := by
  rw [Core.pending]
  by_cases here : k = i
  · rw [if_pos here, here, setChannel_same]
  · rw [if_neg here, setChannel_other core i k channel here]
    rfl

theorem pending_replaced {core : Core} {i : Fin channelCount} (channel : Channel)
    (same : channel.timeoutPending = core.pending i) (k : Fin channelCount) :
    (core.setChannel i channel).pending k = core.pending k := by
  rw [pending_setChannel]
  split
  · rename_i here
    rw [here, same]
  · rfl

theorem pending_clearActive (core : Core) (dropComplete : Bool) (k : Fin channelCount) :
    (clearActive core dropComplete).pending k = core.pending k := by
  rw [Core.pending, clearActive_channels]
  split <;> rfl

theorem pending_countQueueFull (core : Core) (k : Fin channelCount) :
    (countQueueFull core).pending k = core.pending k := by
  rw [countQueueFull]
  split <;> rfl

theorem pending_errorAction (core : Core) (cid : UInt32) (error : UInt8) (k : Fin channelCount) :
    (errorAction core cid error).1.pending k = core.pending k := rfl

theorem pending_completeMessage (core : Core) (i k : Fin channelCount) :
    (completeMessage core i).1.pending k = core.pending k := by
  have ended : ∀ after : Core,
      after.channels = (core.setChannel i { core.channels i with partialActive := false }).channels →
      after.pending k = core.pending k := by
    intro after channels
    rw [Core.pending, channels]
    exact pending_replaced { core.channels i with partialActive := false } rfl k
  rw [completeMessage]
  simp only
  split
  · exact ended _ rfl
  · split
    · rw [pending_errorAction, pending_clearActive, pending_countQueueFull]
      exact ended _ rfl
    · exact ended _ rfl

theorem pending_startMessage (core : Core) (i : Fin channelCount) (command : UInt8)
    (declaredLen : Nat) (data : List UInt8) (nowMs : UInt32) (k : Fin channelCount) :
    (startMessage core i command declaredLen data nowMs).1.pending k =
      if k = i then false else core.pending k := by
  have first : (storeFirst core i command declaredLen data nowMs).pending k =
      if k = i then false else core.pending k := by
    rw [Core.pending]
    by_cases here : k = i
    · rw [if_pos here, here, storeFirst_owner]
    · rw [if_neg here, storeFirst_other core i command declaredLen data nowMs k here]
      rfl
  rw [startMessage]
  split
  · rw [pending_completeMessage, first]
  · exact first

theorem pending_appendPacket (core : Core) (i : Fin channelCount) (data : List UInt8)
    (nowMs : UInt32) (k : Fin channelCount) :
    (appendPacket core i data nowMs).1.pending k = core.pending k := by
  have next : (storeNext core i data nowMs).pending k = core.pending k := by
    rw [Core.pending]
    by_cases here : k = i
    · rw [here, storeNext_owner]
      rfl
    · rw [storeNext_other core i data nowMs k here]
      rfl
  rw [appendPacket]
  split
  · rw [pending_completeMessage, next]
  · exact next

/-! What each kind of packet does. -/

theorem pending_handleCancel (core : Core) (cid : UInt32) (declaredLen : Nat)
    (k : Fin channelCount) : (handleCancel core cid declaredLen).1.pending k = core.pending k := by
  rw [handleCancel]
  split
  · rfl
  · split
    · rfl
    · cases chanFind core cid with
      | none => rfl
      | some i => exact pending_replaced { core.channels i with cancel := true } rfl k

theorem pending_feedRequest (core : Core) (i : Fin channelCount) (report : Report)
    (nowMs : UInt32) (k : Fin channelCount) :
    (feedRequest core i report nowMs).1.pending k = if k = i then false else core.pending k := by
  have settled : (core.setChannel i (core.channels i).settle).pending k =
      if k = i then false else core.pending k := pending_setChannel core i _ k
  have started : ∀ declaredLen data, (startMessage (core.setChannel i (core.channels i).settle) i
      report.command declaredLen data nowMs).1.pending k =
      (core.setChannel i (core.channels i).settle).pending k := by
    intro declaredLen data
    rw [pending_startMessage, settled]
    split <;> rfl
  rw [feedRequest, ← settled]
  simp only
  split
  · split_ifs <;> simp only [pending_errorAction, pending_clearActive, pending_countQueueFull]
  · split_ifs <;> simp only [pending_errorAction, started]

theorem pending_feedContinuation (core : Core) (report : Report) (nowMs : UInt32)
    (k : Fin channelCount) :
    (feedContinuation core report nowMs).1.pending k =
      if chanFind core report.cid = some k then false else core.pending k := by
  rw [feedContinuation]
  cases found : chanFind core report.cid with
  | none => rfl
  | some i =>
      simp only [Option.some.injEq]
      by_cases told : (core.channels i).timeoutPending = true
      · rw [if_pos told, pending_errorAction, pending_setChannel]
        simp only [eq_comm]
        rfl
      · have same : core.pending k = if i = k then false else core.pending k := by
          by_cases here : i = k
          · rw [if_pos here, ← here]
            exact Bool.eq_false_iff.mpr told
          · rw [if_neg here]
        rw [if_neg told, ← same]
        split_ifs <;> simp only [pending_errorAction, pending_clearActive, pending_appendPacket]

theorem pending_restarted (core : Core) (i k : Fin channelCount) :
    (restarted core i).pending k = if k = i then false else core.pending k :=
  pending_setChannel core i _ k

theorem pending_resync {core : Core} (registered : Registered core) {i k : Fin channelCount}
    {own : UInt32} (owner : Owns core i own) (nonce : List UInt8) (draws : Draws) :
    (handleInit core own 8 nonce draws).1.pending k =
      if k = i ∧ (handleInit core own 8 nonce draws).2.command = cmdInit then false
      else core.pending k := by
  by_cases free : core.phase = .idle ∨ core.activeCid = own
  · have middle : (if core.activeCid = own then clearActive core true else core).pending k =
        core.pending k := by
      split
      · exact pending_clearActive core true k
      · rfl
    have replied : ∀ after : Core, (initReply after own own nonce).1.pending k = after.pending k ∧
        (initReply after own own nonce).2.command = cmdInit := fun after => ⟨rfl, rfl⟩
    rw [handleInit_free registered owner free, (replied _).1, (replied _).2, pending_restarted, middle]
    simp only [and_true]
  · have proper := registered.assigned i owner.1
    rw [owner.2] at proper
    rcases countIfReady_eq core with ⟨count, counted⟩
    rw [handleInit, if_neg (by decide), if_neg proper.2, owner.chanFind registered]
    simp only [if_pos (not_or.mp free), counted]
    rw [if_neg fun both => absurd both.2 (by decide : cmdError ≠ cmdInit)]
    rfl

theorem pending_opening {core : Core} {k : Fin channelCount}
    (held : (core.channels k).allocated = true) (nonce : List UInt8) (draws : Draws) :
    (handleInit core broadcastCid 8 nonce draws).1.pending k = core.pending k := by
  rw [handleInit, if_neg (by decide), if_pos rfl]
  rcases allocation : chanAllocate core draws with ⟨status, after, drawn⟩
  have kept : after.pending k = core.pending k := by
    rcases chanAllocate_cases core draws with ⟨same, -⟩ | ⟨i, new, -, free, -, result⟩
    · rw [allocation] at same
      exact congrArg (fun core : Core => core.pending k) same
    · rw [allocation] at result
      have apart : k ≠ i := by
        intro here
        rw [← here, held] at free
        cases free
      replace result : after = core.setChannel i { cid := new, allocated := true } := result
      rw [result, pending_setChannel, if_neg apart]
  cases status with
  | error failure => cases failure <;> exact kept
  | ok new => exact kept

theorem pending_handleInit {core : Core} (registered : Registered core) {k : Fin channelCount}
    {cid : UInt32} (owns : Owns core k cid) (own : UInt32) (declaredLen : Nat)
    (nonce : List UInt8) (draws : Draws) :
    (handleInit core own declaredLen nonce draws).1.pending k =
      if own = cid ∧ (handleInit core own declaredLen nonce draws).2.command = cmdInit then false
      else core.pending k := by
  have refused : ∀ error,
      (errorAction core own error).1.pending k =
        if own = cid ∧ (errorAction core own error).2.command = cmdInit then false
        else core.pending k := by
    intro error
    rw [if_neg fun both => absurd both.2 (by decide : cmdError ≠ cmdInit)]
    rfl
  by_cases eight : declaredLen = 8
  · subst eight
    by_cases broadcast : own = broadcastCid
    · have proper := registered.assigned k owns.1
      rw [owns.2] at proper
      subst broadcast
      rw [if_neg fun both => proper.2 both.1.symm]
      exact pending_opening owns.1 nonce draws
    · cases found : chanFind core own with
      | none =>
          rw [handleInit, if_neg (by decide), if_neg broadcast, found]
          exact refused _
      | some i =>
          have owner := chanFind_some found
          have here : k = i ↔ own = cid :=
            ⟨fun same => owner.2.symm.trans (same ▸ owns.2),
              fun same => owns.unique (same ▸ owner) registered⟩
          rw [pending_resync registered owner]
          simp only [here]
  · rw [handleInit, if_pos eight]
    exact refused _

def settles (cid : UInt32) : Event → Bool
  | .fed report nowMs action =>
      report.cid == cid && (!report.isInitial || report.requests) ||
        resyncs cid (.fed report nowMs action)
  | .reset => true
  | _ => false

theorem settles_neither {cid : UInt32} {report : Report} {nowMs : UInt32} {action : Action}
    (initial : report.isInitial = true) (request : report.requests = false)
    (init : report.command ≠ cmdInit) : settles cid (.fed report nowMs action) = false := by
  simp [settles, resyncs, initial, request, init]

theorem settles_init {cid : UInt32} {report : Report} {nowMs : UInt32} {action : Action}
    (init : report.command = cmdInit) :
    settles cid (.fed report nowMs action) =
      decide (report.cid = cid ∧ action.command = cmdInit) := by
  have initial := isInitial_of_init report init
  simp [settles, resyncs, initial, requests_init init, init, beq_eq_decide]

theorem settles_packet {cid : UInt32} {report : Report} {nowMs : UInt32} {action : Action}
    (packet : report.isInitial = false ∨ report.requests = true) (init : report.command ≠ cmdInit) :
    settles cid (.fed report nowMs action) = decide (report.cid = cid) := by
  rcases packet with continuation | request
  · simp [settles, resyncs, continuation, init, beq_eq_decide]
  · simp [settles, resyncs, request, init, beq_eq_decide]

/-- A PING, a message or an unknown command settles its own channel and no other. -/
theorem pending_feedInitial {core : Core} (registered : Registered core) {k : Fin channelCount}
    {cid : UInt32} (owns : Owns core k cid) (report : Report) (nowMs : UInt32) (draws : Draws)
    (cancel : report.command ≠ cmdCancel) (init : report.command ≠ cmdInit) :
    (feedInitial core report nowMs draws).1.pending k =
      (core.pending k && !decide (report.cid = cid)) := by
  have foreign : chanFind core report.cid = none → report.cid ≠ cid := by
    intro missing here
    rw [here, owns.chanFind registered] at missing
    cases missing
  rw [feedInitial, if_neg cancel, if_neg init]
  by_cases invalid : report.cid = 0 ∨ report.cid = broadcastCid
  · have other := foreign (by rw [chanFind, if_pos invalid])
    rw [if_pos invalid, decide_eq_false other]
    simp [pending_errorAction]
  rw [if_neg invalid]
  cases found : chanFind core report.cid with
  | none =>
      rw [decide_eq_false (foreign found)]
      simp [pending_errorAction]
  | some i =>
      have owner := chanFind_some found
      simp only
      rw [pending_feedRequest]
      by_cases own : report.cid = cid
      · have same : k = i := owns.unique (own ▸ owner) registered
        rw [if_pos same, decide_eq_true own]
        simp
      · have apart : k ≠ i := fun same => own (owner.2.symm.trans (same ▸ owns.2))
        rw [if_neg apart, decide_eq_false own]
        simp

theorem pending_feedPacket {core : Core} (registered : Registered core) {k : Fin channelCount}
    {cid : UInt32} (owns : Owns core k cid) (report : Report) (nowMs : UInt32) (draws : Draws) :
    (feedPacket core report nowMs draws).1.pending k =
      (core.pending k && !settles cid (.fed report nowMs (feedPacket core report nowMs draws).2)) := by
  by_cases continuation : report.isInitial = false
  · have init : report.command ≠ cmdInit := by
      intro command
      rw [isInitial_of_init report command] at continuation
      cases continuation
    rw [settles_packet (Or.inl continuation) init, feedPacket,
      if_neg (by rw [continuation]; decide), pending_feedContinuation]
    by_cases here : report.cid = cid
    · rw [if_pos (by rw [here]; exact owns.chanFind registered), decide_eq_true here]
      simp
    · have missing : chanFind core report.cid ≠ some k :=
        fun found => here ((chanFind_some found).2.symm.trans owns.2)
      rw [if_neg missing, decide_eq_false here]
      simp
  have initial : report.isInitial = true := by simpa using continuation
  rw [feedPacket, if_pos initial]
  by_cases cancel : report.command = cmdCancel
  · have init : report.command ≠ cmdInit := by
      rw [cancel]
      decide
    rw [feedInitial, if_pos cancel, settles_neither initial (requests_cancel cancel) init,
      pending_handleCancel]
    simp
  by_cases init : report.command = cmdInit
  · rw [feedInitial, if_neg cancel, if_pos init, settles_init init, pending_handleInit registered owns]
    split
    · rename_i accepted
      rw [decide_eq_true accepted]
      simp
    · rename_i refused
      rw [decide_eq_false refused]
      simp
  have request : report.requests = true := by
    simp [Report.requests, initial, cancel, init]
  rw [settles_packet (Or.inr request) init]
  exact pending_feedInitial registered owns report nowMs draws cancel init

/-! Who is told. -/

def timeoutAction (cid : UInt32) : Action := sendAction cid cmdError [errMsgTimeout]

theorem error_other {core : Core} {own : UInt32} {error : UInt8} (other : error ≠ errMsgTimeout)
    (cid : UInt32) : (errorAction core own error).2 ≠ timeoutAction cid := by
  intro same
  have bytes := congrArg Action.data same
  injection bytes with byte
  exact other byte

theorem kind_other {action : Action} (other : action.kind ≠ .send) (cid : UInt32) :
    action ≠ timeoutAction cid := by
  intro same
  rw [same] at other
  exact other rfl

theorem command_other {action : Action} (other : action.command ≠ cmdError) (cid : UInt32) :
    action ≠ timeoutAction cid := by
  intro same
  rw [same] at other
  exact other rfl

theorem completeMessage_other (core : Core) (i : Fin channelCount) (cid : UInt32) :
    (completeMessage core i).2 ≠ timeoutAction cid := by
  rw [completeMessage]
  simp only
  split
  · exact command_other (by decide : cmdPing ≠ cmdError) cid
  · split
    · exact error_other (by decide) cid
    · exact kind_other (by decide : ActionKind.message ≠ .send) cid

theorem nothing_other (cid : UInt32) : noAction ≠ timeoutAction cid :=
  kind_other (by decide : ActionKind.none ≠ .send) cid

theorem startMessage_other (core : Core) (i : Fin channelCount) (command : UInt8)
    (declaredLen : Nat) (data : List UInt8) (nowMs : UInt32) (cid : UInt32) :
    (startMessage core i command declaredLen data nowMs).2 ≠ timeoutAction cid := by
  rw [startMessage]
  split
  · exact completeMessage_other _ i cid
  · exact nothing_other cid

theorem handleInit_other (core : Core) (own : UInt32) (declaredLen : Nat) (nonce : List UInt8)
    (draws : Draws) (cid : UInt32) :
    (handleInit core own declaredLen nonce draws).2 ≠ timeoutAction cid := by
  have replied : ∀ after given assigned, (initReply after given assigned nonce).2 ≠
      timeoutAction cid := fun after given assigned => command_other (by decide : cmdInit ≠ cmdError) cid
  rw [handleInit]
  split
  · exact error_other (by decide) cid
  · split
    · rcases chanAllocate core draws with ⟨status, after, drawn⟩
      cases status with
      | error failure => cases failure <;> exact error_other (by decide) cid
      | ok new => exact replied after own new
    · cases chanFind core own with
      | none => exact error_other (by decide) cid
      | some i =>
          simp only
          split
          · exact error_other (by decide) cid
          · exact replied _ own own

theorem feedInitial_other (core : Core) (report : Report) (nowMs : UInt32) (draws : Draws)
    (cid : UInt32) : (feedInitial core report nowMs draws).2 ≠ timeoutAction cid := by
  rw [feedInitial]
  split
  · rw [handleCancel]
    split
    · exact nothing_other cid
    · split
      · exact nothing_other cid
      · cases chanFind core report.cid with
        | none => exact nothing_other cid
        | some i => exact kind_other (by decide : ActionKind.cancel ≠ .send) cid
  · split
    · exact handleInit_other core _ _ _ draws cid
    · split
      · exact error_other (by decide) cid
      · cases chanFind core report.cid with
        | none => exact error_other (by decide) cid
        | some i =>
            simp only [feedRequest]
            split
            · split_ifs <;> exact error_other (by decide) cid
            · split_ifs
              · exact error_other (by decide) cid
              · exact error_other (by decide) cid
              · exact error_other (by decide) cid
              · exact startMessage_other _ i _ _ _ nowMs cid

theorem feedContinuation_timeout {core : Core} (valid : Valid core) {report : Report}
    {nowMs : UInt32} (inTime : ∀ i, Assembling core i →
      timeExpired nowMs (core.channels i).lastPacketMs messageTimeoutMs = false) (cid : UInt32) :
    (feedContinuation core report nowMs).2 = timeoutAction cid ↔
      report.cid = cid ∧ ∃ k, Owns core k cid ∧ core.pending k = true := by
  rw [feedContinuation]
  cases found : chanFind core report.cid with
  | none =>
      constructor
      · exact fun same => absurd same (nothing_other cid)
      · rintro ⟨rfl, k, owns, -⟩
        exact absurd owns (chanFind_none found valid.registered k)
  | some i =>
      have owner := chanFind_some found
      simp only
      by_cases told : (core.channels i).timeoutPending = true
      · rw [if_pos told]
        constructor
        · intro same
          have own : report.cid = cid := congrArg Action.cid same
          exact ⟨own, i, own ▸ owner, told⟩
        · rintro ⟨rfl, -⟩
          rfl
      · rw [if_neg told]
        have nobody : ¬(report.cid = cid ∧ ∃ k, Owns core k cid ∧ core.pending k = true) := by
          rintro ⟨rfl, k, owns, waiting⟩
          rw [owns.unique owner valid.registered] at waiting
          exact told waiting
        refine iff_of_false ?_ nobody
        by_cases spurious : !(core.channels i).partialActive ∨ core.phase ≠ .rx ∨
            core.activeCid ≠ report.cid
        · rw [if_pos spurious]
          exact nothing_other cid
        · rw [if_neg spurious]
          simp only [not_or, Bool.not_eq_true, Bool.not_eq_false', ne_eq, not_not] at spurious
          rcases valid.assembling_of_phase spurious.2.1 with ⟨j, assembling, -⟩
          have here : i = j := (assembling.partialActive i).mp spurious.1
          subst here
          rw [inTime i assembling, if_neg (by decide)]
          split
          · exact error_other (by decide) cid
          · rw [appendPacket]
            split
            · exact completeMessage_other _ i cid
            · exact nothing_other cid

/-- A timeout is reported to continuations of a channel that is still to be told, and to nobody
else. -/
theorem feedPacket_timeout {core : Core} (valid : Valid core) {report : Report} {nowMs : UInt32}
    {draws : Draws} (inTime : ∀ i, Assembling core i →
      timeExpired nowMs (core.channels i).lastPacketMs messageTimeoutMs = false) (cid : UInt32) :
    (feedPacket core report nowMs draws).2 = timeoutAction cid ↔
      report.cid = cid ∧ report.isInitial = false ∧
        ∃ k, Owns core k cid ∧ core.pending k = true := by
  rw [feedPacket]
  by_cases initial : report.isInitial = true
  · rw [if_pos initial]
    refine iff_of_false (feedInitial_other core report nowMs draws cid) ?_
    rintro ⟨-, continuation, -⟩
    rw [initial] at continuation
    cases continuation
  · rw [if_neg initial, feedContinuation_timeout valid inTime]
    simp only [Bool.eq_false_iff.mpr initial, true_and]

end P4Key.Ctaphid
