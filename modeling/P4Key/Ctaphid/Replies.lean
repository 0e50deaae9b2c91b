import P4Key.Ctaphid.Operations
import P4Key.Ctaphid.Tx

/-! The replies that the receiver decides on, and the check that the sender makes of them.

The two agree on the command and the length. They differ on CID 0: the receiver answers it
like any other channel that is not open, and the sender refuses it. -/

namespace P4Key.Ctaphid

open Memory

/-! The sender. -/

theorem txContinue_not_arg (cid : UInt32) (emits : Emits) (data : List UInt8) (sequence : UInt8)
    (sent : Nat) : (txContinue cid emits data sequence sent).1 ≠ .arg := by
  fun_induction txContinue cid emits data sequence sent with
  | case1 sequence sent => decide
  | case2 data sequence sent more report accepted rest ih => exact ih
  | case3 data sequence sent more refused => decide

theorem txContinue_ok (cid : UInt32) (data : List UInt8) (sequence : UInt8) (sent : Nat) :
    (txContinue cid (fun _ => true) data sequence sent).1 = .ok := by
  have accepts : ∀ k, (fun _ => true : Emits) k = true := fun _ => rfl
  generalize (fun _ => true : Emits) = emits at accepts
  fun_induction txContinue cid emits data sequence sent with
  | case1 sequence sent => rfl
  | case2 data sequence sent more report accepted rest ih => exact ih
  | case3 data sequence sent more refused => exact absurd (accepts sent) refused

/-- A message that `p4_ctaphid_tx_send` does not refuse, and sends if all its reports are taken. -/
structure Sendable (action : Action) : Prop where
  accepted : ∀ emits, (txSend action.cid action.command action.data emits).1 ≠ .arg
  sent : (txSend action.cid action.command action.data fun _ => true).1 = .ok

structure Formed (action : Action) : Prop where
  command : action.command &&& 0x80 ≠ 0
  length : action.data.length ≤ maxPayload

theorem txSend_formed {action : Action} (formed : Formed action) (proper : action.cid ≠ 0)
    (emits : Emits) : txSend action.cid action.command action.data emits =
      if emits 0 then
        ((txContinue action.cid emits (action.data.drop initDataBytes) 0 1).1,
          initialReport action.cid action.command action.data ::
            (txContinue action.cid emits (action.data.drop initDataBytes) 0 1).2)
      else (.send, []) := by
  have valid : ¬ (action.cid = 0 ∨ action.command &&& 0x80 = 0 ∨
      action.data.length > maxPayload) := by
    rw [not_or, not_or, Nat.not_lt]
    exact ⟨proper, formed.command, formed.length⟩
  rw [txSend, if_neg valid]

theorem txSend_zero (command : UInt8) (data : List UInt8) (emits : Emits) :
    txSend 0 command data emits = (.arg, []) := if_pos (Or.inl rfl)

theorem Formed.sendable_iff {action : Action} (formed : Formed action) :
    Sendable action ↔ action.cid ≠ 0 := by
  constructor
  · intro sendable zero
    have refused := sendable.accepted fun _ => true
    rw [zero, txSend_zero] at refused
    exact refused rfl
  · intro proper
    constructor
    · intro emits
      rw [txSend_formed formed proper]
      split
      · exact txContinue_not_arg action.cid emits _ 0 1
      · decide
    · rw [txSend_formed formed proper, if_pos rfl]
      exact txContinue_ok action.cid _ 0 1

/-! The receiver. -/

def Outgoing (action : Action) : Prop := action.kind = .send → Formed action

theorem errorAction_outgoing (core : Core) (cid : UInt32) (error : UInt8) :
    Outgoing (errorAction core cid error).2 := by
  intro _
  constructor
  · exact (by decide : cmdError &&& 0x80 ≠ 0)
  · exact (by decide : 1 ≤ maxPayload)

theorem noAction_outgoing : Outgoing noAction := by
  intro send
  cases send

theorem initReply_outgoing (core : Core) (responseCid assignedCid : UInt32) (nonce : List UInt8) :
    Outgoing (initReply core responseCid assignedCid nonce).2 := by
  intro _
  constructor
  · exact (by decide : cmdInit &&& 0x80 ≠ 0)
  · have size : (initReply core responseCid assignedCid nonce).2.data.length = 17 :=
      List.Vector.toList_length _
    rw [size]
    decide

theorem completeMessage_outgoing (core : Core) (i : Fin channelCount) :
    Outgoing (completeMessage core i).2 := by
  rw [completeMessage]
  simp only
  split
  · intro _
    constructor
    · exact (by decide : cmdPing &&& 0x80 ≠ 0)
    · rw [sendAction, List.length_take]
      exact Nat.le_trans (Nat.min_le_right _ _) (List.Vector.toList_length _).le
  · split
    · exact errorAction_outgoing _ _ _
    · intro send
      cases send

theorem handleInit_outgoing (core : Core) (cid : UInt32) (declaredLen : Nat) (nonce : List UInt8)
    (draws : Draws) : Outgoing (handleInit core cid declaredLen nonce draws).2 := by
  rw [handleInit]
  split
  · exact errorAction_outgoing core cid _
  split
  · split
    · exact errorAction_outgoing _ cid _
    · exact errorAction_outgoing _ cid _
    · exact initReply_outgoing _ cid _ nonce
  split
  · exact errorAction_outgoing core cid _
  · simp only
    split
    · exact errorAction_outgoing _ cid _
    · exact initReply_outgoing _ cid cid nonce

theorem handleCancel_outgoing (core : Core) (cid : UInt32) (declaredLen : Nat) :
    Outgoing (handleCancel core cid declaredLen).2 := by
  have silent : (handleCancel core cid declaredLen).2.kind ≠ .send := by
    rw [handleCancel]
    repeat' split
    all_goals intro send; cases send
  exact fun send => absurd send silent

theorem startMessage_outgoing (core : Core) (i : Fin channelCount) (command : UInt8)
    (declaredLen : Nat) (data : List UInt8) (nowMs : UInt32) :
    Outgoing (startMessage core i command declaredLen data nowMs).2 := by
  rw [startMessage]
  split
  · exact completeMessage_outgoing _ i
  · exact noAction_outgoing

theorem feedRequest_outgoing (core : Core) (i : Fin channelCount) (report : Report)
    (nowMs : UInt32) : Outgoing (feedRequest core i report nowMs).2 := by
  rw [feedRequest]
  simp only
  split_ifs
  all_goals first
    | exact errorAction_outgoing _ report.cid _
    | exact startMessage_outgoing _ i report.command report.declaredLen report.initData nowMs

theorem feedInitial_outgoing (core : Core) (report : Report) (nowMs : UInt32) (draws : Draws) :
    Outgoing (feedInitial core report nowMs draws).2 := by
  rw [feedInitial]
  split
  · exact handleCancel_outgoing core report.cid report.declaredLen
  split
  · exact handleInit_outgoing core report.cid report.declaredLen _ draws
  split
  · exact errorAction_outgoing core report.cid _
  · split
    · exact errorAction_outgoing core report.cid _
    · exact feedRequest_outgoing core _ report nowMs

theorem feedContinuation_outgoing (core : Core) (report : Report) (nowMs : UInt32) :
    Outgoing (feedContinuation core report nowMs).2 := by
  rw [feedContinuation]
  split
  · exact noAction_outgoing
  · simp only
    split
    · exact errorAction_outgoing _ report.cid _
    split
    · exact noAction_outgoing
    split
    · exact errorAction_outgoing _ report.cid _
    split
    · exact errorAction_outgoing _ report.cid _
    · rw [appendPacket]
      split
      · exact completeMessage_outgoing _ _
      · exact noAction_outgoing

theorem coreFeed_outgoing (core : Core) (report : Report) (nowMs : UInt32) (draws : Draws) :
    Outgoing (coreFeed core report nowMs draws).2 := by
  rw [coreFeed, feedPacket]
  split
  · exact feedInitial_outgoing _ report nowMs draws
  · exact feedContinuation_outgoing _ report nowMs

/-! The channel of a reply. -/

theorem Answers.cid {cid : UInt32} {action : Action} (answer : Answers cid action)
    (send : action.kind = .send) : action.cid = cid := by
  rcases answer with silent | ⟨error, reply⟩
  · rw [silent] at send
    cases send
  · rw [reply]
    rfl

theorem Assembling.completeMessage_cid {core : Core} {i : Fin channelCount}
    (assembling : Assembling core i) : (completeMessage core i).2.cid = core.activeCid := by
  rw [assembling.completeMessage_eq]
  split <;> rfl

theorem Packet.reply_cid {core : Core} {report : Report} {nowMs : UInt32} {result : Core × Action}
    (packet : Packet core report nowMs result) (valid : Valid core)
    (send : result.2.kind = .send) : result.2.cid = report.cid := by
  cases packet with
  | ignored control count action answer harmless => exact answer.cid send
  | settled i owns control count action answer elsewhere => exact answer.cid send
  | allocated i cid control data broadcast free proper fresh => exact broadcast.symm
  | cancelled i running active cbor command empty => rfl
  | resynced i owns control data free command eight middle ended => rfl
  | aborted i assembling active control error cancel init => rfl
  | started i idle owns known bounded nonempty =>
      have stored := idle.storeFirst report.initData nowMs valid.registered owns known bounded
      rw [startMessage] at send ⊢
      split at send
      · rename_i whole
        rw [if_pos whole, stored.2.completeMessage_cid]
        exact owns.2
      · cases send
  | appended i assembling progress active continuation due inTime =>
      have stored := assembling.storeNext report.contData nowMs valid.registered
      rw [appendPacket] at send ⊢
      split at send
      · rename_i whole
        rw [if_pos whole, stored.2.completeMessage_cid]
        exact active
      · cases send

def Report.answeredOnZero (report : Report) : Prop :=
  report.isInitial = true ∧ report.cid = 0 ∧ report.command ≠ cmdCancel

theorem chanFind_zero (core : Core) : chanFind core 0 = none := if_pos (Or.inl rfl)

theorem handleInit_zero (core : Core) (declaredLen : Nat) (nonce : List UInt8) (draws : Draws) :
    ∃ error, handleInit core 0 declaredLen nonce draws = errorAction core 0 error := by
  rw [handleInit]
  by_cases eight : declaredLen ≠ 8
  · rw [if_pos eight]
    exact ⟨_, rfl⟩
  · rw [if_neg eight, if_neg (by decide), chanFind_zero]
    exact ⟨_, rfl⟩

theorem feedPacket_zero {core : Core} {report : Report} (answered : report.answeredOnZero)
    (nowMs : UInt32) (draws : Draws) :
    ∃ error, feedPacket core report nowMs draws = errorAction core 0 error := by
  rcases answered with ⟨initial, zero, command⟩
  rw [feedPacket, if_pos initial, feedInitial, if_neg command, zero]
  by_cases init : report.command = cmdInit
  · rw [if_pos init]
    exact handleInit_zero core report.declaredLen _ draws
  · rw [if_neg init, if_pos (Or.inl rfl)]
    exact ⟨_, rfl⟩

theorem feedPacket_zero_silent {core : Core} {report : Report} (zero : report.cid = 0)
    (nowMs : UInt32) (draws : Draws) (send : (feedPacket core report nowMs draws).2.kind = .send) :
    report.answeredOnZero := by
  rw [feedPacket] at send
  by_cases initial : report.isInitial = true
  · refine ⟨initial, zero, ?_⟩
    intro command
    rw [if_pos initial, feedInitial, if_pos command, zero, handleCancel, chanFind_zero] at send
    repeat' split at send
    all_goals cases send
  · rw [if_neg initial, feedContinuation, zero, chanFind_zero] at send
    cases send

/-- The sender accepts every reply but those to CID 0. -/
theorem replies_are_sendable_off_zero {events : List Event} {core : Core}
    (run : CoreRun events core) (report : Report) (nowMs : UInt32) (draws : Draws) :
    ((coreFeed core report nowMs draws).2.kind = .send →
        Sendable (coreFeed core report nowMs draws).2) ↔ ¬ report.answeredOnZero := by
  have packet := coreFeed_cases core report nowMs draws run.valid
  have valid := coreCleanup_valid core nowMs run.valid
  constructor
  · intro sendable answered
    rcases feedPacket_zero answered nowMs draws with ⟨error, result⟩
    have reply : (coreFeed core report nowMs draws).2 = sendAction 0 cmdError [error] :=
      congrArg Prod.snd result
    rw [reply] at sendable
    exact (sendable rfl).accepted (fun _ => true) rfl
  · intro unanswered send
    rw [(coreFeed_outgoing core report nowMs draws send).sendable_iff,
      packet.reply_cid valid send]
    intro zero
    exact unanswered (feedPacket_zero_silent zero nowMs draws send)

/-- A PING on the broadcast CID gets an error that is sent. -/
theorem reply_to_broadcast_is_sent :
    (coreFeed coreInit (initialReport broadcastCid cmdPing []) 0 fun _ => none).2 =
        sendAction broadcastCid cmdError [errInvalidChannel] ∧
      Sendable (coreFeed coreInit (initialReport broadcastCid cmdPing []) 0 fun _ => none).2 := by
  have elsewhere : ¬ (initialReport broadcastCid cmdPing []).answeredOnZero :=
    fun answered => absurd answered.2.1 (by decide)
  have sendable := (replies_are_sendable_off_zero .nil (initialReport broadcastCid cmdPing []) 0
    fun _ => none).mpr elsewhere
  exact ⟨by decide, sendable (by decide)⟩

/-- A PING on CID 0 meets a reply that cannot leave the device. -/
theorem reply_to_zero_is_refused :
    ¬ ∀ events core, CoreRun events core → ∀ report nowMs draws,
      (coreFeed core report nowMs draws).2.kind = .send →
        Sendable (coreFeed core report nowMs draws).2 := by
  intro always
  have sendable := always [] coreInit .nil (initialReport 0 cmdPing []) 0 fun _ => none
  exact (sendable (by decide)).accepted (fun _ => true) (by decide)

end P4Key.Ctaphid
