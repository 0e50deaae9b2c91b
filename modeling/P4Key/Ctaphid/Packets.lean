import P4Key.Ctaphid.Invariant

/-! What one packet can do to a valid core.

Twenty branches of `p4_ctaphid_core_feed` come down to eight effects. Everything
later is proved from these, and no later proof looks into the branches again. -/

namespace P4Key.Ctaphid

open Memory

/-- The two fields that no other field depends on. -/
def Core.note (core : Core) (control : Bytes 17) (queueFullCount : UInt32) : Core :=
  { core with control := control, queueFullCount := queueFullCount }

/-- Nothing, or an error for the sender that finishes no transaction. -/
def Answers (cid : UInt32) (action : Action) : Prop :=
  action = noAction ∨ ∃ error, action = sendAction cid cmdError [error]

/-- The effects of a packet on a valid core in which no request has expired. -/
inductive Packet (core : Core) (report : Report) (nowMs : UInt32) : Core × Action → Prop where
  /-- Rejected without a trace. -/
  | ignored (control : Bytes 17) (count : UInt32) (action : Action)
      (answer : Answers report.cid action)
      (harmless : core.phase = .rx → core.activeCid = report.cid →
        report.command = cmdCancel ∨ report.command = cmdInit ∧ report.declaredLen ≠ 8) :
      Packet core report nowMs (core.note control count, action)
  /-- Rejected, and an earlier timeout of the channel is no longer pending. -/
  | settled (i : Fin channelCount) (owns : Owns core i report.cid) (control : Bytes 17)
      (count : UInt32) (action : Action) (answer : Answers report.cid action)
      (elsewhere : ¬ (core.phase = .rx ∧ core.activeCid = report.cid)) :
      Packet core report nowMs
        ((core.setChannel i (core.channels i).settle).note control count, action)
  /-- A broadcast INIT got a channel. -/
  | allocated (i : Fin channelCount) (cid : UInt32) (control : Bytes 17) (data : List UInt8)
      (broadcast : report.cid = broadcastCid) (free : (core.channels i).allocated = false)
      (proper : cid ≠ 0 ∧ cid ≠ broadcastCid) (fresh : ∀ j, ¬ Owns core j cid) :
      Packet core report nowMs
        ((core.setChannel i { cid := cid, allocated := true }).note control core.queueFullCount,
          sendAction broadcastCid cmdInit data)
  | cancelled (i : Fin channelCount) (running : Running core i) (active : core.activeCid = report.cid)
      (cbor : core.activeCommand = cmdCbor) (command : report.command = cmdCancel)
      (empty : report.declaredLen = 0) :
      Packet core report nowMs
        (core.setChannel i { core.channels i with cancel := true },
          { kind := .cancel, cid := report.cid, command := cmdCancel,
            generation := (core.channels i).generation })
  /-- An INIT on a channel that is free to use the transport. -/
  | resynced (i : Fin channelCount) (owns : Owns core i report.cid) (control : Bytes 17)
      (data : List UInt8) (free : core.phase = .idle ∨ core.activeCid = report.cid)
      (command : report.command = cmdInit) (eight : report.declaredLen = 8) (middle : Core)
      (ended : middle = if core.activeCid = report.cid then clearActive core true else core) :
      Packet core report nowMs
        ((middle.setChannel i { clearChannelRx (middle.channels i) with
            cancel := false
            timeoutPending := false
            generation := (middle.channels i).generation + 1 }).note control core.queueFullCount,
          sendAction report.cid cmdInit data)
  /-- A packet of the sender that does not continue its own request. -/
  | aborted (i : Fin channelCount) (assembling : Assembling core i)
      (active : core.activeCid = report.cid) (control : Bytes 17) (error : UInt8)
      (cancel : report.command ≠ cmdCancel) (init : report.command ≠ cmdInit) :
      Packet core report nowMs
        ((clearActive core true).note control core.queueFullCount,
          sendAction report.cid cmdError [error])
  | started (i : Fin channelCount) (idle : Idle core) (owns : Owns core i report.cid)
      (known : report.command = cmdPing ∨ report.command = cmdCbor)
      (bounded : report.declaredLen ≤ maxPayload)
      (nonempty : report.command = cmdCbor → report.declaredLen ≠ 0) :
      Packet core report nowMs
        (startMessage core i report.command report.declaredLen report.initData nowMs)
  | appended (i : Fin channelCount) (assembling : Assembling core i)
      (progress : Progress (core.channels i)) (active : core.activeCid = report.cid)
      (continuation : report.isInitial = false)
      (due : report.command = (core.channels i).nextSequence)
      (inTime : timeExpired nowMs (core.channels i).lastPacketMs messageTimeoutMs = false) :
      Packet core report nowMs (appendPacket core i report.contData nowMs)

theorem countQueueFull_eq (core : Core) :
    ∃ count, countQueueFull core = core.note core.control count := by
  rw [countQueueFull]
  split
  · exact ⟨_, rfl⟩
  · exact ⟨core.queueFullCount, rfl⟩

theorem errorAction_eq (core : Core) (cid : UInt32) (error : UInt8) :
    errorAction core cid error =
      (core.note (core.control.set 0 error) core.queueFullCount, sendAction cid cmdError [error]) := rfl

theorem clearActive_queueFullCount (core : Core) (dropComplete : Bool) :
    (clearActive core dropComplete).queueFullCount = core.queueFullCount := by
  rw [clearActive]
  cases chanFind core core.activeCid <;> simp only <;> split <;> rfl

theorem countIfReady_eq (core : Core) :
    ∃ count, (if core.messageReady then countQueueFull core else core) =
      core.note core.control count := by
  split
  · exact countQueueFull_eq core
  · exact ⟨core.queueFullCount, rfl⟩

theorem allocateLoop_cases (core : Core) (free : Fin channelCount) (draws : Draws)
    (attempts attempt : Nat) :
    ((allocateLoop core free draws attempts attempt).2.1 = core ∧
      ∃ error, (allocateLoop core free draws attempts attempt).1 = .error error) ∨
    ∃ cid, (allocateLoop core free draws attempts attempt).1 = .ok cid ∧
      (cid ≠ 0 ∧ cid ≠ broadcastCid ∧ chanFind core cid = none) ∧
      (allocateLoop core free draws attempts attempt).2.1 =
        core.setChannel free { cid := cid, allocated := true } := by
  induction attempts generalizing attempt with
  | zero => exact Or.inl ⟨rfl, _, rfl⟩
  | succ attempts ih =>
      rw [allocateLoop]
      cases draws attempt with
      | none => exact Or.inl ⟨rfl, _, rfl⟩
      | some raw =>
          simp only
          by_cases taken : loadU32 raw.toList = 0 ∨ loadU32 raw.toList = broadcastCid ∨
              (chanFind core (loadU32 raw.toList)).isSome
          · rw [if_pos taken]
            exact ih (attempt + 1)
          · rw [if_neg taken]
            simp only [not_or, Bool.not_eq_true, Option.isSome_eq_false_iff,
              Option.isNone_iff_eq_none] at taken
            exact Or.inr ⟨_, rfl, taken, rfl⟩

theorem freeChannel_some {core : Core} {i : Fin channelCount} (free : freeChannel core = some i) :
    (core.channels i).allocated = false := by
  have unused := List.find?_some free
  simpa using unused

theorem chanAllocate_cases (core : Core) (draws : Draws) :
    ((chanAllocate core draws).2.1 = core ∧ ∃ error, (chanAllocate core draws).1 = .error error) ∨
    ∃ i cid, (chanAllocate core draws).1 = .ok cid ∧ (core.channels i).allocated = false ∧
      (cid ≠ 0 ∧ cid ≠ broadcastCid ∧ chanFind core cid = none) ∧
      (chanAllocate core draws).2.1 = core.setChannel i { cid := cid, allocated := true } := by
  rw [chanAllocate]
  cases free : freeChannel core with
  | none => exact Or.inl ⟨rfl, _, rfl⟩
  | some i =>
      rcases allocateLoop_cases core i draws cidRetries 0 with failed | ⟨cid, ok, proper, result⟩
      · exact Or.inl failed
      · exact Or.inr ⟨i, cid, ok, freeChannel_some free, proper, result⟩

theorem Valid.active_ne_broadcast {core : Core} (valid : Valid core) :
    core.activeCid ≠ broadcastCid := by
  cases valid with
  | idle registered state =>
      rw [state.activeCid]
      decide
  | rx registered i state progress =>
      have proper := registered.assigned i state.owner.1
      rw [state.owner.2] at proper
      exact proper.2
  | processing registered i state =>
      have proper := registered.assigned i state.owner.1
      rw [state.owner.2] at proper
      exact proper.2

theorem Valid.active_found {core : Core} (valid : Valid core) (phase : core.phase = .rx)
    {cid : UInt32} (missing : chanFind core cid = none) : core.activeCid ≠ cid := by
  rcases valid.assembling_of_phase phase with ⟨i, assembling, -⟩
  intro active
  have owner := assembling.owner
  rw [active] at owner
  exact chanFind_none missing valid.registered i owner

theorem handleInit_cases (core : Core) (report : Report) (nowMs : UInt32) (draws : Draws)
    (valid : Valid core) (command : report.command = cmdInit) :
    Packet core report nowMs
      (handleInit core report.cid report.declaredLen (slice report.toList 7 8) draws) := by
  rw [handleInit]
  by_cases eight : report.declaredLen ≠ 8
  · rw [if_pos eight, errorAction_eq]
    exact .ignored _ _ _ (Or.inr ⟨_, rfl⟩) (fun _ _ => Or.inr ⟨command, eight⟩)
  rw [if_neg eight]
  rw [ne_eq, not_not] at eight
  by_cases broadcast : report.cid = broadcastCid
  · have foreign : core.activeCid ≠ report.cid := by
      rw [broadcast]
      exact valid.active_ne_broadcast
    rw [if_pos broadcast]
    rcases chanAllocate_cases core draws with ⟨same, error, failed⟩ | ⟨i, cid, ok, free, proper, result⟩
    · rcases allocation : chanAllocate core draws with ⟨status, after, drawn⟩
      rw [allocation] at same failed
      simp only at same failed
      replace same := same.symm
      subst same
      subst failed
      have rejected : ∀ code, Packet core report nowMs (errorAction core report.cid code) := by
        intro code
        rw [errorAction_eq]
        exact .ignored _ _ _ (Or.inr ⟨_, rfl⟩) (fun _ active => absurd active foreign)
      cases error <;> exact rejected _
    · rcases allocation : chanAllocate core draws with ⟨status, after, drawn⟩
      rw [allocation] at ok result
      simp only at ok result
      subst ok
      subst result
      have answer := @Packet.allocated core report nowMs i cid
        (load 17 (initReplyBytes cid (slice report.toList 7 8)) 0)
        (load 17 (initReplyBytes cid (slice report.toList 7 8)) 0).toList broadcast free
        ⟨proper.1, proper.2.1⟩ (chanFind_none proper.2.2 valid.registered)
      rw [← broadcast] at answer
      exact answer
  rw [if_neg broadcast]
  cases found : chanFind core report.cid with
  | none =>
      rw [errorAction_eq]
      exact .ignored _ _ _ (Or.inr ⟨_, rfl⟩)
        (fun phase active => absurd active (valid.active_found phase found))
  | some i =>
      have owns := chanFind_some found
      by_cases busy : core.phase ≠ .idle ∧ core.activeCid ≠ report.cid
      · simp only [if_pos busy]
        rcases countIfReady_eq core with ⟨count, counted⟩
        rw [counted, errorAction_eq]
        exact .ignored _ _ _ (Or.inr ⟨_, rfl⟩) (fun _ active => absurd active busy.2)
      · simp only [if_neg busy]
        have free : core.phase = .idle ∨ core.activeCid = report.cid := by
          by_cases idle : core.phase = .idle
          · exact Or.inl idle
          · exact Or.inr (by_contra fun other => busy ⟨idle, other⟩)
        have effect := @Packet.resynced core report nowMs i owns
          (load 17 (initReplyBytes report.cid (slice report.toList 7 8)) 0)
          (load 17 (initReplyBytes report.cid (slice report.toList 7 8)) 0).toList free command
          eight _ rfl
        have queue : (if core.activeCid = report.cid then clearActive core true else core).queueFullCount =
            core.queueFullCount := by
          split
          · exact clearActive_queueFullCount core true
          · rfl
        rw [← queue] at effect
        exact effect

theorem handleCancel_cases (core : Core) (report : Report) (nowMs : UInt32) (valid : Valid core)
    (command : report.command = cmdCancel) :
    Packet core report nowMs (handleCancel core report.cid report.declaredLen) := by
  have nothing : Packet core report nowMs (core, noAction) :=
    .ignored core.control core.queueFullCount _ (Or.inl rfl) (fun _ _ => Or.inl command)
  rw [handleCancel]
  by_cases empty : report.declaredLen ≠ 0
  · rw [if_pos empty]
    exact nothing
  rw [if_neg empty]
  rw [ne_eq, not_not] at empty
  by_cases other : core.phase ≠ .processing ∨ core.activeCid ≠ report.cid ∨
      core.activeCommand ≠ cmdCbor
  · rw [if_pos other]
    exact nothing
  rw [if_neg other]
  simp only [ne_eq, not_or, not_not] at other
  rcases other with ⟨phase, active, cbor⟩
  rcases valid.running_of_phase phase with ⟨i, running⟩
  have owner := running.owner
  rw [active] at owner
  rw [owner.chanFind valid.registered]
  simp only [setChannel_same]
  exact .cancelled i running active cbor command empty

theorem isInitial_of_cancel (report : Report) (command : report.command = cmdCancel) :
    report.isInitial = true := by
  rw [Report.isInitial, command]
  decide

theorem isInitial_of_init (report : Report) (command : report.command = cmdInit) :
    report.isInitial = true := by
  rw [Report.isInitial, command]
  decide

theorem isInitial_of_known {report : Report}
    (known : report.command = cmdPing ∨ report.command = cmdCbor) : report.isInitial = true := by
  rw [Report.isInitial]
  rcases known with ping | cbor
  · rw [ping]
    decide
  · rw [cbor]
    decide

theorem setChannel_settle {core : Core} {i : Fin channelCount}
    (none : (core.channels i).timeoutPending = false) :
    core.setChannel i (core.channels i).settle = core := by
  have same : (core.channels i).settle = core.channels i := by
    rw [Channel.settle, ← none]
  rw [same, setChannel_self]

theorem startMessage_settle (core : Core) (i : Fin channelCount) (command : UInt8)
    (declaredLen : Nat) (data : List UInt8) (nowMs : UInt32) :
    startMessage (core.setChannel i (core.channels i).settle) i command declaredLen data nowMs =
      startMessage core i command declaredLen data nowMs := by
  have begun : beginMessage (core.setChannel i (core.channels i).settle) i command declaredLen
      nowMs = beginMessage core i command declaredLen nowMs := by
    simp [beginMessage, Core.setChannel, Core.wipe, Core.setBuffer, Channel.settle]
  rw [startMessage, startMessage, storeFirst, storeFirst, begun]

theorem Owns.unique {core : Core} {cid : UInt32} {i j : Fin channelCount} (first : Owns core i cid)
    (second : Owns core j cid) (registered : Registered core) : i = j :=
  registered.distinct i j first.1 second.1 (first.2.trans second.2.symm)

theorem feedRequest_cases (core : Core) (i : Fin channelCount) (report : Report) (nowMs : UInt32)
    (valid : Valid core) (owns : Owns core i report.cid) (cancel : report.command ≠ cmdCancel)
    (init : report.command ≠ cmdInit) :
    Packet core report nowMs (feedRequest core i report nowMs) := by
  -- every answer but an abort leaves the channel settled
  have settle : ¬ (core.phase = .rx ∧ core.activeCid = report.cid) → ∀ control count error,
      Packet core report nowMs
        ((core.setChannel i (core.channels i).settle).note control count,
          sendAction report.cid cmdError [error]) := by
    intro elsewhere control count error
    exact .settled i owns control count _ (Or.inr ⟨_, rfl⟩) elsewhere
  rw [feedRequest]
  by_cases busy : core.phase ≠ .idle
  · rcases countIfReady_eq (core.setChannel i (core.channels i).settle) with ⟨count, counted⟩
    have enter : (core.setChannel i (core.channels i).settle).phase ≠ .idle := busy
    rw [if_pos enter]
    simp only [counted]
    have activeCid : ((core.setChannel i (core.channels i).settle).note
        (core.setChannel i (core.channels i).settle).control count).activeCid = core.activeCid := rfl
    have phase : ((core.setChannel i (core.channels i).settle).note
        (core.setChannel i (core.channels i).settle).control count).phase = core.phase := rfl
    rw [activeCid, phase]
    by_cases foreign : core.activeCid ≠ report.cid
    · rw [if_pos foreign, errorAction_eq]
      exact settle (fun both => foreign both.2) _ _ _
    rw [if_neg foreign]
    rw [ne_eq, not_not] at foreign
    by_cases receiving : core.phase = .rx
    · rw [if_pos receiving]
      rcases valid.assembling_of_phase receiving with ⟨j, assembling, -⟩
      have here : j = i := (foreign ▸ assembling.owner).unique owns valid.registered
      subst here
      clear activeCid phase
      rw [setChannel_settle assembling.timeoutPending] at counted ⊢
      have uncounted : core.note core.control count = core := by
        rw [← counted, assembling.messageReady]
        rfl
      rw [uncounted, errorAction_eq, clearActive_queueFullCount]
      exact .aborted j assembling foreign _ _ cancel init
    · rw [if_neg receiving, errorAction_eq]
      exact settle (fun both => receiving both.1) _ _ _
  · have skip : ¬ (core.setChannel i (core.channels i).settle).phase ≠ .idle := busy
    rw [if_neg skip]
    rw [ne_eq, not_not] at busy
    have idle := valid.idle_of_phase busy
    have elsewhere : ¬ (core.phase = .rx ∧ core.activeCid = report.cid) := by
      rw [busy]
      simp
    by_cases long : report.declaredLen > maxPayload
    · rw [if_pos long, errorAction_eq]
      exact settle elsewhere _ _ _
    rw [if_neg long]
    by_cases unknown : report.command ≠ cmdPing ∧ report.command ≠ cmdCbor
    · rw [if_pos unknown, errorAction_eq]
      exact settle elsewhere _ _ _
    rw [if_neg unknown]
    by_cases hollow : report.command = cmdCbor ∧ report.declaredLen = 0
    · rw [if_pos hollow, errorAction_eq]
      exact settle elsewhere _ _ _
    rw [if_neg hollow, startMessage_settle]
    refine .started i idle owns ?_ (by omega) (fun cbor zero => hollow ⟨cbor, zero⟩)
    by_cases ping : report.command = cmdPing
    · exact Or.inl ping
    · exact Or.inr (by_contra fun other => unknown ⟨ping, other⟩)

theorem feedInitial_cases (core : Core) (report : Report) (nowMs : UInt32) (draws : Draws)
    (valid : Valid core) : Packet core report nowMs (feedInitial core report nowMs draws) := by
  rw [feedInitial]
  by_cases cancel : report.command = cmdCancel
  · rw [if_pos cancel]
    exact handleCancel_cases core report nowMs valid cancel
  by_cases init : report.command = cmdInit
  · rw [if_neg cancel, if_pos init]
    exact handleInit_cases core report nowMs draws valid init
  rw [if_neg cancel, if_neg init]
  have rejected : chanFind core report.cid = none → Packet core report nowMs
      (errorAction core report.cid errInvalidChannel) := by
    intro missing
    rw [errorAction_eq]
    exact .ignored _ _ _ (Or.inr ⟨_, rfl⟩)
      (fun phase active => absurd active (valid.active_found phase missing))
  by_cases invalid : report.cid = 0 ∨ report.cid = broadcastCid
  · rw [if_pos invalid]
    exact rejected (by rw [chanFind, if_pos invalid])
  rw [if_neg invalid]
  cases found : chanFind core report.cid with
  | none => exact rejected found
  | some i => exact feedRequest_cases core i report nowMs valid (chanFind_some found) cancel init

theorem feedContinuation_cases (core : Core) (report : Report) (nowMs : UInt32) (valid : Valid core)
    (continuation : report.isInitial = false)
    (inTime : ∀ i, Assembling core i →
      timeExpired nowMs (core.channels i).lastPacketMs messageTimeoutMs = false) :
    Packet core report nowMs (feedContinuation core report nowMs) := by
  have cancel : report.command ≠ cmdCancel := by
    intro command
    rw [isInitial_of_cancel report command] at continuation
    cases continuation
  have init : report.command ≠ cmdInit := by
    intro command
    rw [isInitial_of_init report command] at continuation
    cases continuation
  have nothing : ¬ (core.phase = .rx ∧ core.activeCid = report.cid) →
      Packet core report nowMs (core, noAction) := by
    intro elsewhere
    exact .ignored core.control core.queueFullCount _ (Or.inl rfl)
      (fun phase active => absurd ⟨phase, active⟩ elsewhere)
  rw [feedContinuation]
  cases found : chanFind core report.cid with
  | none =>
      apply nothing
      intro both
      exact valid.active_found both.1 found both.2
  | some i =>
      have owns := chanFind_some found
      simp only
      by_cases tombstone : (core.channels i).timeoutPending = true
      · rw [if_pos tombstone, errorAction_eq]
        refine .settled i owns _ _ _ (Or.inr ⟨_, rfl⟩) ?_
        intro both
        rcases valid.assembling_of_phase both.1 with ⟨j, assembling, -⟩
        have here : j = i := (both.2 ▸ assembling.owner).unique owns valid.registered
        subst here
        rw [assembling.timeoutPending] at tombstone
        cases tombstone
      rw [if_neg tombstone]
      by_cases spurious : !(core.channels i).partialActive ∨ core.phase ≠ .rx ∨
          core.activeCid ≠ report.cid
      · rw [if_pos spurious]
        apply nothing
        intro both
        rcases valid.assembling_of_phase both.1 with ⟨j, assembling, -⟩
        have here : j = i := (both.2 ▸ assembling.owner).unique owns valid.registered
        subst here
        simp [(assembling.partialActive j).mpr rfl, both.1, both.2] at spurious
      · rw [if_neg spurious]
        simp only [not_or, Bool.not_eq_true, Bool.not_eq_false', ne_eq, not_not] at spurious
        rcases spurious with ⟨partialActive, phase, active⟩
        rcases valid.assembling_of_phase phase with ⟨j, assembling, progress⟩
        have here : i = j := (assembling.partialActive i).mp partialActive
        subst here
        rw [inTime i assembling, if_neg (by decide)]
        by_cases wrong : report.command ≠ (core.channels i).nextSequence
        · rw [if_pos wrong, errorAction_eq, clearActive_queueFullCount]
          exact .aborted i assembling active _ _ cancel init
        · rw [if_neg wrong]
          exact .appended i assembling progress active continuation (not_not.mp wrong)
            (inTime i assembling)

theorem feedPacket_cases (core : Core) (report : Report) (nowMs : UInt32) (draws : Draws)
    (valid : Valid core)
    (inTime : ∀ i, Assembling core i →
      timeExpired nowMs (core.channels i).lastPacketMs messageTimeoutMs = false) :
    Packet core report nowMs (feedPacket core report nowMs draws) := by
  rw [feedPacket]
  by_cases initial : report.isInitial = true
  · rw [if_pos initial]
    exact feedInitial_cases core report nowMs draws valid
  · rw [if_neg initial]
    exact feedContinuation_cases core report nowMs valid (by simpa using initial) inTime

end P4Key.Ctaphid
