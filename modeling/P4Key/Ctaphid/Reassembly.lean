import P4Key.Ctaphid.Mailbox
import P4Key.Ctaphid.Tx

/-! A message that was cut into reports is put together again, whatever the other
channels send in between. -/

namespace P4Key.Ctaphid

open Memory

/-! The reports of a message, with anything behind the payload. -/

def usedBytes (length : Nat) : Nat → Nat
  | 0 => 7 + min length initDataBytes
  | k + 1 => 5 + min (length - room k) contDataBytes

theorem matches_load (used : List UInt8) (short : used.length ≤ reportBytes) (report : Report)
    (same : report.toList.take used.length =
      (load reportBytes used 0).toList.take used.length) :
    ∃ padding, report.toList = used ++ padding := by
  rw [load_short reportBytes used short, List.take_left] at same
  refine ⟨report.toList.drop used.length, ?_⟩
  calc report.toList
    _ = report.toList.take used.length ++ report.toList.drop used.length :=
        (List.take_append_drop _ _).symm
    _ = used ++ report.toList.drop used.length := by rw [same]

theorem initial_matches {cid : UInt32} {command : UInt8} {data : List UInt8} {report : Report}
    (same : report.toList.take (usedBytes data.length 0) =
      (initialReport cid command data).toList.take (usedBytes data.length 0)) :
    ∃ padding, report.toList =
      storeU32 cid ++ command :: (storeBE 2 data.length ++ (data.take initDataBytes ++ padding)) := by
  have size : (storeU32 cid ++ command :: (storeBE 2 data.length ++ data.take initDataBytes)).length =
      usedBytes data.length 0 := by
    simp only [storeU32, usedBytes, List.length_append, length_storeBE, List.length_cons,
      List.length_take]
    omega
  rw [← size] at same
  rcases matches_load _
    (by rw [size, usedBytes]; simp only [initDataBytes, reportBytes]; omega) report same
    with ⟨padding, bytes⟩
  exact ⟨padding, by rw [bytes]; simp⟩

theorem continuation_matches {cid : UInt32} {sequence : UInt8} {data : List UInt8} {k : Nat}
    {report : Report}
    (same : report.toList.take (usedBytes data.length (k + 1)) =
      (continuationReport cid sequence (data.drop (room k))).toList.take
        (usedBytes data.length (k + 1))) :
    ∃ padding, report.toList =
      storeU32 cid ++ sequence :: ((data.drop (room k)).take contDataBytes ++ padding) := by
  have size : (storeU32 cid ++ sequence :: (data.drop (room k)).take contDataBytes).length =
      usedBytes data.length (k + 1) := by
    simp only [storeU32, usedBytes, List.length_append, length_storeBE, List.length_cons,
      List.length_take, List.length_drop]
    omega
  rw [← size] at same
  rcases matches_load _
    (by rw [size, usedBytes]; simp only [contDataBytes, reportBytes]; omega) report same
    with ⟨padding, bytes⟩
  exact ⟨padding, by rw [bytes]; simp⟩

/-! The two packets that the channel of a request is expected to send. -/

theorem feedPacket_first {core : Core} {i : Fin channelCount} {report : Report} (idle : Idle core)
    (registered : Registered core) (owns : Owns core i report.cid)
    (known : report.command = cmdPing ∨ report.command = cmdCbor)
    (bounded : report.declaredLen ≤ maxPayload)
    (nonempty : report.command = cmdCbor → report.declaredLen ≠ 0) (nowMs : UInt32)
    (draws : Draws) :
    feedPacket core report nowMs draws =
      startMessage core i report.command report.declaredLen report.initData nowMs := by
  have initial := isInitial_of_known known
  have other : report.command ≠ cmdCancel ∧ report.command ≠ cmdInit := by
    rcases known with ping | cbor
    · rw [ping]
      decide
    · rw [cbor]
      decide
  have proper : ¬ (report.cid = 0 ∨ report.cid = broadcastCid) := by
    have assigned := registered.assigned i owns.1
    rw [owns.2] at assigned
    exact not_or.mpr assigned
  have accepted : ¬ (report.command ≠ cmdPing ∧ report.command ≠ cmdCbor) := by
    intro unknown
    rcases known with ping | cbor
    · exact unknown.1 ping
    · exact unknown.2 cbor
  have quiet : ¬ (core.setChannel i (core.channels i).settle).phase ≠ .idle := not_not.mpr idle.phase
  rw [feedPacket, if_pos initial, feedInitial]
  rw [if_neg other.1, if_neg other.2, if_neg proper, owns.chanFind registered]
  simp only
  rw [feedRequest, if_neg quiet, if_neg (Nat.not_lt.mpr bounded),
    if_neg accepted, if_neg (fun both => nonempty both.1 both.2), startMessage_settle]

theorem feedPacket_next {core : Core} {i : Fin channelCount} {report : Report}
    (assembling : Assembling core i) (registered : Registered core)
    (active : core.activeCid = report.cid) (follows : report.isInitial = false)
    (due : report.command = (core.channels i).nextSequence) {nowMs : UInt32}
    (inTime : timeExpired nowMs (core.channels i).lastPacketMs messageTimeoutMs = false)
    (draws : Draws) :
    feedPacket core report nowMs draws = appendPacket core i report.contData nowMs := by
  have found := assembling.owner.chanFind registered
  have owner := (assembling.partialActive i).mpr rfl
  rw [active] at found
  rw [feedPacket, if_neg (by rw [follows]; decide), feedContinuation, found]
  simp only
  rw [if_neg (by rw [assembling.timeoutPending]; decide),
    if_neg (by simp [owner, assembling.phase, active]), if_neg (by rw [inTime]; decide),
    if_neg (not_not.mpr due)]

/-! A core that holds the first part of the message. -/

structure Holding (cid : UInt32) (command : UInt8) (data : List UInt8) (k : Nat) (lastMs : UInt32)
    (core : Core) (i : Fin channelCount) : Prop where
  assembling : Assembling core i
  activeCid : core.activeCid = cid
  activeCommand : core.activeCommand = command
  declaredLen : (core.channels i).declaredLen = data.length
  nextSequence : (core.channels i).nextSequence = UInt8.ofNat k
  received : (core.channels i).received = min data.length (room k)
  stored : (core.buffers core.rxBuffer).toList.take (min data.length (room k)) = data.take (room k)
  lastPacketMs : (core.channels i).lastPacketMs = lastMs

theorem holding_first {cid : UInt32} {command : UInt8} {data : List UInt8} {core : Core}
    {i : Fin channelCount} {report : Report} (idle : Idle core) (registered : Registered core)
    (owns : Owns core i cid) (known : command = cmdPing ∨ command = cmdCbor)
    (bounded : data.length ≤ maxPayload) {padding : List UInt8}
    (initData : report.initData = data.take initDataBytes ++ padding) (nowMs : UInt32) :
    Holding cid command data 0 nowMs
      (storeFirst core i command data.length report.initData nowMs) i := by
  have stored := idle.storeFirst report.initData nowMs registered owns known bounded
  have owner := storeFirst_owner core i command data.length report.initData nowMs
  have first : room 0 = initDataBytes := rfl
  have size : (data.take initDataBytes).length = min data.length initDataBytes := by
    rw [List.length_take, Nat.min_comm]
  have cut : report.initData.take (min data.length initDataBytes) = data.take initDataBytes := by
    rw [initData, ← size, List.take_left]
  refine ⟨stored.2, owns.2, rfl, ?_, ?_, ?_, ?_, ?_⟩
  · rw [owner]
  · rw [owner]
    rfl
  · rw [owner, first]
  · have buffer := storeFirst_buffer core i command data.length report.initData nowMs
    rw [cut] at buffer
    have index : (storeFirst core i command data.length report.initData nowMs).rxBuffer =
        core.rxBuffer := rfl
    rw [index, buffer, storeInto_toList, first, ← size]
    apply take_store
    rw [size, List.Vector.toList_length]
    omega
  · rw [owner]

theorem room_succ (k : Nat) : room (k + 1) = room k + contDataBytes := by
  rw [room, room, Nat.mul_succ, Nat.add_assoc]

theorem holding_next {cid : UInt32} {command : UInt8} {data : List UInt8} {k : Nat}
    {lastMs : UInt32} {core : Core} {i : Fin channelCount} {report : Report}
    (holding : Holding cid command data k lastMs core i) (registered : Registered core)
    (more : room k < data.length) {padding : List UInt8}
    (contData : report.contData = (data.drop (room k)).take contDataBytes ++ padding)
    (nowMs : UInt32) :
    Holding cid command data (k + 1) nowMs (storeNext core i report.contData nowMs) i := by
  have stored := holding.assembling.storeNext report.contData nowMs registered
  have owner := storeNext_owner core i report.contData nowMs
  have received : (core.channels i).received = room k := by
    rw [holding.received]
    omega
  have declared := holding.declaredLen
  have bounded := holding.assembling.declared
  have size : ((data.drop (room k)).take contDataBytes).length =
      min (data.length - room k) contDataBytes := by
    rw [List.length_take, List.length_drop, Nat.min_comm]
  have cut : report.contData.take (min (data.length - room k) contDataBytes) =
      (data.drop (room k)).take contDataBytes := by
    rw [contData, ← size, List.take_left]
  have reached : min data.length (room (k + 1)) =
      room k + min (data.length - room k) contDataBytes := by
    rw [room_succ]
    omega
  refine ⟨stored.2, holding.activeCid, holding.activeCommand, ?_, ?_, ?_, ?_, ?_⟩
  · rw [owner]
    exact declared
  · rw [owner]
    simp only
    rw [holding.nextSequence, UInt8.ofNat_add]
    rfl
  · rw [owner, reached, received, declared]
  · have buffer := storeNext_buffer core i report.contData nowMs
    have index : (storeNext core i report.contData nowMs).rxBuffer = core.rxBuffer := rfl
    have before : (core.buffers core.rxBuffer).toList.take (room k) = data.take (room k) := by
      rw [← holding.stored]
      congr 1
      omega
    rw [received, declared, cut] at buffer
    rw [index, buffer, storeInto_toList, reached, ← size]
    rw [take_store_at _ _ _ (by rw [size, List.Vector.toList_length]; omega), before, room_succ,
      List.take_add]
  · rw [owner]

def Carried (cid : UInt32) (command : UInt8) (data : List UInt8) (action : Action) : Prop :=
  action.kind = (if command = cmdPing then .send else .message) ∧ action.cid = cid ∧
    action.command = command ∧ action.data = data

theorem Holding.completed {cid : UInt32} {command : UInt8} {data : List UInt8} {k : Nat}
    {lastMs : UInt32} {core : Core} {i : Fin channelCount}
    (holding : Holding cid command data k lastMs core i) (all : data.length ≤ room k)
    (report : Report) (nowMs : UInt32) :
    Carried cid command data (completeMessage core i).2 ∧
    (command = cmdCbor → ∃ generation,
      held (completeMessage core i).1 = some ⟨cid, cmdCbor, data, generation⟩) := by
  have assembling := holding.assembling
  have whole : (core.buffers core.rxBuffer).toList.take (core.channels i).declaredLen = data := by
    have stored := holding.stored
    rw [Nat.min_eq_left all, List.take_of_length_le all] at stored
    rw [holding.declaredLen, stored]
  rcases completeMessage_action assembling with ⟨actionCid, actionCommand, actionData⟩
  rw [holding.activeCid] at actionCid
  rw [holding.activeCommand] at actionCommand
  rw [whole] at actionData
  refine ⟨⟨?_, actionCid, actionCommand, actionData⟩, ?_⟩
  · rw [assembling.completeMessage_eq, holding.activeCommand]
    split <;> rfl
  · intro cbor
    have kind : (completeMessage core i).2.kind = .message := by
      rw [assembling.completeMessage_eq, holding.activeCommand, if_neg (by rw [cbor]; decide)]
      rfl
    refine ⟨(completeMessage core i).2.generation, ?_⟩
    have delivered := assembling.held_completed report nowMs
    rw [delivered, Runs.slotStep, messageOf, if_pos kind, actionCid, actionCommand, actionData, cbor]

def Outcome (cid : UInt32) (command : UInt8) (data : List UInt8) (k : Nat) (action : Action) :
    Prop :=
  (room k < data.length → action = noAction) ∧
    (data.length ≤ room k → Carried cid command data action)

def Reached (cid : UInt32) (command : UInt8) (data : List UInt8) (k : Nat) (lastMs : UInt32)
    (core : Core) : Prop :=
  (room k < data.length → ∃ i, Holding cid command data k lastMs core i) ∧
    (data.length ≤ room k → command = cmdCbor → ∃ generation,
      held core = some ⟨cid, cmdCbor, data, generation⟩)

theorem Holding.result {cid : UInt32} {command : UInt8} {data : List UInt8} {k : Nat}
    {lastMs : UInt32} {core : Core} {i : Fin channelCount}
    (holding : Holding cid command data k lastMs core i) (report : Report) {result : Core × Action}
    (same : result = if (core.channels i).received = data.length then completeMessage core i
      else (core, noAction)) :
    Reached cid command data k lastMs result.1 ∧ Outcome cid command data k result.2 := by
  rw [holding.received] at same
  by_cases all : data.length ≤ room k
  · rw [if_pos (Nat.min_eq_left all)] at same
    rw [same]
    rcases holding.completed all report lastMs with ⟨carried, message⟩
    exact ⟨⟨fun more => absurd more (by omega), fun _ => message⟩,
      fun more => absurd more (by omega), fun _ => carried⟩
  · rw [if_neg (by omega)] at same
    rw [same]
    exact ⟨⟨fun _ => ⟨i, holding⟩, fun whole => absurd whole all⟩,
      fun _ => rfl, fun whole => absurd whole all⟩

/-! The reports of the message, woven into other calls. -/

section Message

variable {cid : UInt32} {command : UInt8} {data : List UInt8}

/-- The `k`th report of the message, but for what follows the payload. -/
def IsFrame (cid : UInt32) (command : UInt8) (data : List UInt8) (k : Nat) (report : Report) :
    Prop :=
  ∃ frame, (frames cid command data)[k]? = some frame ∧
    report.toList.take (usedBytes data.length k) = frame.toList.take (usedBytes data.length k)

theorem isFrame_first {report : Report} (frame : IsFrame cid command data 0 report)
    (proper : cid ≠ 0) (initial : command &&& 0x80 ≠ 0) (bounded : data.length ≤ maxPayload) :
    report.cid = cid ∧ report.command = command ∧ report.declaredLen = data.length ∧
      ∃ padding, report.initData = data.take initDataBytes ++ padding := by
  rcases frame with ⟨sent, found, same⟩
  rw [frames_zero proper initial bounded] at found
  cases found
  rcases initial_matches same with ⟨padding, bytes⟩
  have fields := report.initial_of cid command data.length _ (by
    simp only [maxPayload] at bounded
    omega) bytes
  exact ⟨report.cid_of cid _ bytes, report.command_of cid command _ bytes, fields.1, padding, fields.2⟩

theorem isFrame_next {k : Nat} {report : Report} (frame : IsFrame cid command data (k + 1) report)
    (proper : cid ≠ 0) (initial : command &&& 0x80 ≠ 0) (bounded : data.length ≤ maxPayload) :
    room k < data.length ∧ report.cid = cid ∧ report.command = UInt8.ofNat k ∧
      ∃ padding, report.contData = (data.drop (room k)).take contDataBytes ++ padding := by
  rcases frame with ⟨sent, found, same⟩
  rw [frames_succ proper initial bounded] at found
  by_cases more : room k < data.length
  · rw [if_pos more] at found
    cases found
    rcases continuation_matches same with ⟨padding, bytes⟩
    exact ⟨more, report.cid_of cid _ bytes, report.command_of cid _ _ bytes, padding,
      report.contData_of cid _ _ bytes⟩
  · rw [if_neg more] at found
    cases found

theorem feed_first {core : Core} {i : Fin channelCount} {report : Report} (valid : Valid core)
    (phase : core.phase = .idle) (owns : Owns core i cid)
    (known : command = cmdPing ∨ command = cmdCbor) (bounded : data.length ≤ maxPayload)
    (nonempty : command = cmdCbor → data ≠ []) (initial : command &&& 0x80 ≠ 0)
    (frame : IsFrame cid command data 0 report) (nowMs : UInt32) (draws : Draws) :
    Reached cid command data 0 nowMs (coreFeed core report nowMs draws).1 ∧
      Outcome cid command data 0 (coreFeed core report nowMs draws).2 := by
  have idle := valid.idle_of_phase phase
  have registered := valid.registered
  have proper := (registered.assigned i owns.1).1
  rw [owns.2] at proper
  rcases isFrame_first frame proper initial bounded with ⟨sender, kind, length, padding, initData⟩
  have holding := holding_first idle registered owns known bounded initData nowMs
  have quiet : coreCleanup core nowMs = core := by
    rw [coreCleanup, if_pos (by rw [phase]; decide)]
  have owner : Owns core i report.cid := by
    rw [sender]
    exact owns
  have started := feedPacket_first idle registered owner (by rw [kind]; exact known)
    (by rw [length]; exact bounded)
    (by rw [kind, length]; exact fun cbor empty => nonempty cbor (List.length_eq_zero_iff.mp empty))
    nowMs draws
  rw [kind, length] at started
  apply holding.result report
  rw [coreFeed, quiet, started, startMessage]

/-- A sequence number of a message is no command. -/
theorem sequence_below : ∀ k : Fin 128, (UInt8.ofNat k &&& 0x80 != 0) = false := by
  decide

theorem Reached.next {k : Nat} {lastMs : UInt32} {core : Core} {report : Report}
    (reached : Reached cid command data k lastMs core) (valid : Valid core) (proper : cid ≠ 0)
    (initial : command &&& 0x80 ≠ 0) (bounded : data.length ≤ maxPayload)
    (frame : IsFrame cid command data (k + 1) report) {nowMs : UInt32}
    (inTime : nowMs - lastMs < messageTimeoutMs) (draws : Draws) :
    Reached cid command data (k + 1) nowMs (coreFeed core report nowMs draws).1 ∧
      Outcome cid command data (k + 1) (coreFeed core report nowMs draws).2 := by
  rcases isFrame_next frame proper initial bounded with ⟨more, sender, number, padding, contData⟩
  rcases reached.1 more with ⟨i, holding⟩
  have registered := valid.registered
  have assembling := holding.assembling
  have next := holding_next holding registered more contData nowMs
  have early : timeExpired nowMs (core.channels i).lastPacketMs messageTimeoutMs = false := by
    rw [holding.lastPacketMs]
    simpa [timeExpired] using inTime
  have small : k < 128 := by
    simp only [room, initDataBytes, contDataBytes, maxPayload] at more bounded
    omega
  have follows : report.isInitial = false := by
    rw [Report.isInitial, number]
    exact sequence_below ⟨k, small⟩
  have quiet : coreCleanup core nowMs = core := by
    apply coreCleanup_of_inTime valid
    intro _ j owner
    rw [owner.unique assembling.owner registered]
    exact early
  have appended := feedPacket_next assembling registered (by rw [holding.activeCid, sender]) follows
    (by rw [number, holding.nextSequence]) early draws
  apply next.result report
  rw [coreFeed, quiet, appended, appendPacket, next.declaredLen]

theorem Holding.undisturbed {k : Nat} {lastMs : UInt32} {core after : Core} {i : Fin channelCount}
    (holding : Holding cid command data k lastMs core i) (frame : Undisturbed core after cid)
    (valid : Valid after) : Holding cid command data k lastMs after i := by
  have owner := holding.assembling.owner
  rw [holding.activeCid] at owner
  have channel := frame.channel i owner
  rcases valid.assembling_of_phase (frame.phase.trans holding.assembling.phase) with
    ⟨j, assembling, -⟩
  have active : (after.channels i).partialActive = true := by
    rw [channel]
    exact (holding.assembling.partialActive i).mpr rfl
  have here : i = j := (assembling.partialActive i).mp active
  subst here
  refine ⟨assembling, frame.activeCid.trans holding.activeCid,
    frame.activeCommand.trans holding.activeCommand, ?_, ?_, ?_, ?_, ?_⟩
  · rw [channel]
    exact holding.declaredLen
  · rw [channel]
    exact holding.nextSequence
  · rw [channel]
    exact holding.received
  · rw [frame.buffers, frame.rxBuffer]
    exact holding.stored
  · rw [channel]
    exact holding.lastPacketMs

theorem Holding.inTime {k : Nat} {lastMs : UInt32} {core : Core} {i : Fin channelCount}
    (holding : Holding cid command data k lastMs core i) (valid : Valid core) {nowMs : UInt32}
    (inTime : nowMs - lastMs < messageTimeoutMs) (j : Fin channelCount)
    (owner : Owns core j core.activeCid) :
    timeExpired nowMs (core.channels j).lastPacketMs messageTimeoutMs = false := by
  rw [owner.unique holding.assembling.owner valid.registered, holding.lastPacketMs]
  simpa [timeExpired] using inTime

theorem Reached.other {k : Nat} {lastMs : UInt32} {core : Core} {report : Report}
    (reached : Reached cid command data k lastMs core) (valid : Valid core)
    (foreign : report.cid ≠ cid) {nowMs : UInt32} (inTime : nowMs - lastMs < messageTimeoutMs)
    (draws : Draws) : Reached cid command data k lastMs (coreFeed core report nowMs draws).1 := by
  constructor
  · intro more
    rcases reached.1 more with ⟨i, holding⟩
    have busy : core.phase ≠ .idle := by
      rw [holding.assembling.phase]
      decide
    have frame := valid.foreign_feed busy report nowMs draws
      (by rw [holding.activeCid]; exact Ne.symm foreign)
      (fun _ => holding.inTime valid inTime)
    rw [holding.activeCid] at frame
    exact ⟨i, holding.undisturbed frame.1 (coreFeed_valid core report nowMs draws valid)⟩
  · intro whole cbor
    rcases reached.2 whole cbor with ⟨generation, full⟩
    refine ⟨generation, (CoreStep.feed core report nowMs draws).held_kept valid full ?_⟩
    simp [discards, foreign]

theorem Reached.cleaned {k : Nat} {lastMs : UInt32} {core : Core}
    (reached : Reached cid command data k lastMs core) (valid : Valid core) {nowMs : UInt32}
    (inTime : nowMs - lastMs < messageTimeoutMs) :
    Reached cid command data k lastMs (coreCleanup core nowMs) := by
  constructor
  · intro more
    rcases reached.1 more with ⟨i, holding⟩
    rw [coreCleanup_of_inTime valid nowMs fun _ => holding.inTime valid inTime]
    exact ⟨i, holding⟩
  · intro whole cbor
    rw [coreCleanup_held core nowMs valid]
    exact reached.2 whole cbor

/-- A take before the message is complete, or with too little room for it. -/
theorem Reached.took {k : Nat} {lastMs : UInt32} {core : Core}
    (reached : Reached cid command data k lastMs core) (valid : Valid core) {cap : Nat}
    (early : room k < data.length ∨ cap < data.length) :
    Reached cid command data k lastMs (coreTakeMessage core cap).2 := by
  constructor
  · intro more
    rcases reached.1 more with ⟨i, holding⟩
    rw [coreTakeMessage_eq valid, if_neg (by rw [holding.assembling.messageReady]; decide)]
    exact ⟨i, holding⟩
  · intro whole cbor
    rcases reached.2 whole cbor with ⟨generation, full⟩
    have small := early.resolve_left (by omega)
    have result := coreTakeMessage_mailbox valid cap
    rw [full] at result
    simp only at result
    rw [if_pos small] at result
    refine ⟨generation, (CoreStep.take core cap).held_kept valid full ?_⟩
    rw [result]
    rfl

/-- The calls after the `k`th report of the message, which was fed at `lastMs`: the other
reports of the message in their order, reports of other channels, cleanups, and takes that
come too early. No call is 500 ms behind the last report of the message. -/
inductive Weave (cid : UInt32) (command : UInt8) (data : List UInt8) :
    Nat → UInt32 → List Event → Prop where
  | done {k : Nat} {lastMs : UInt32} (whole : (frames cid command data).length = k + 1) :
      Weave cid command data k lastMs []
  | next {k : Nat} {lastMs nowMs : UInt32} {report : Report} {action : Action} {rest : List Event}
      (frame : IsFrame cid command data (k + 1) report) (inTime : nowMs - lastMs < messageTimeoutMs)
      (later : Weave cid command data (k + 1) nowMs rest) :
      Weave cid command data k lastMs (.fed report nowMs action :: rest)
  | other {k : Nat} {lastMs nowMs : UInt32} {report : Report} {action : Action} {rest : List Event}
      (foreign : report.cid ≠ cid) (inTime : nowMs - lastMs < messageTimeoutMs)
      (later : Weave cid command data k lastMs rest) :
      Weave cid command data k lastMs (.fed report nowMs action :: rest)
  | cleaned {k : Nat} {lastMs nowMs : UInt32} {rest : List Event}
      (inTime : nowMs - lastMs < messageTimeoutMs) (later : Weave cid command data k lastMs rest) :
      Weave cid command data k lastMs (.cleaned nowMs :: rest)
  | took {k : Nat} {lastMs : UInt32} {cap : Nat} {result : Except TakeError Message}
      {rest : List Event} (early : k + 1 < (frames cid command data).length ∨ cap < data.length)
      (later : Weave cid command data k lastMs rest) :
      Weave cid command data k lastMs (.took cap result :: rest)

def sentBy (cid : UInt32) : Event → Bool
  | .fed report _ _ => report.cid == cid
  | _ => false

/-- Every report of the message but the last is swallowed, and the last one delivers it. -/
def Answered (cid : UInt32) (command : UInt8) (data : List UInt8) (k : Nat) (events : List Event) :
    Prop :=
  ∀ before report nowMs action after, events = before ++ .fed report nowMs action :: after →
    report.cid = cid → Outcome cid command data (k + before.countP (sentBy cid)) action

theorem Answered.cons {k : Nat} {event : Event} {events : List Event}
    (head : ∀ report nowMs action, event = .fed report nowMs action → report.cid = cid →
      Outcome cid command data k action)
    (tail : Answered cid command data (k + if sentBy cid event then 1 else 0) events) :
    Answered cid command data k (event :: events) := by
  intro before report nowMs action after split sender
  cases before with
  | nil =>
      cases split
      exact head report nowMs action rfl sender
  | cons first before =>
      cases split
      have outcome := tail before report nowMs action after rfl sender
      rw [List.countP_cons, Nat.add_comm (before.countP _), ← Nat.add_assoc]
      exact outcome

theorem Weave.answered {k : Nat} {lastMs : UInt32} {events : List Event}
    (weave : Weave cid command data k lastMs events) (proper : cid ≠ 0)
    (initial : command &&& 0x80 ≠ 0) (bounded : data.length ≤ maxPayload) {core last : Core}
    (valid : Valid core) (reached : Reached cid command data k lastMs core)
    (run : Runs.Run CoreStep core events last) :
    Answered cid command data (k + 1) events ∧
      ∃ final finalMs, (frames cid command data).length = final + 1 ∧ Valid last ∧
        Reached cid command data final finalMs last := by
  induction weave generalizing core with
  | done whole =>
      rw [run.of_nil]
      refine ⟨?_, _, _, whole, valid, reached⟩
      intro before report nowMs action after split
      simp at split
  | @next k lastMs nowMs report action rest frame inTime later ih =>
      rcases run.first_step with ⟨middle, step, after⟩
      have nextValid := step.valid valid
      have sender := (isFrame_next frame proper initial bounded).2.1
      cases step with
      | feed _ _ draws =>
          have stepped := reached.next valid proper initial bounded frame inTime draws
          rcases ih nextValid stepped.1 after with ⟨answered, final⟩
          refine ⟨Answered.cons ?_ ?_, final⟩
          · intro _ _ _ same _
            cases same
            exact stepped.2
          · rw [sentBy, sender]
            simpa using answered
  | @other k lastMs nowMs report action rest foreign inTime later ih =>
      rcases run.first_step with ⟨middle, step, after⟩
      have nextValid := step.valid valid
      cases step with
      | feed _ _ draws =>
          rcases ih nextValid (reached.other valid foreign inTime draws) after with ⟨answered, final⟩
          refine ⟨Answered.cons ?_ ?_, final⟩
          · intro _ _ _ same sender
            cases same
            exact absurd sender foreign
          · rw [sentBy]
            simpa [foreign] using answered
  | cleaned inTime later ih =>
      rcases run.first_step with ⟨middle, step, after⟩
      have nextValid := step.valid valid
      cases step with
      | cleanup _ =>
          rcases ih nextValid (reached.cleaned valid inTime) after with ⟨answered, final⟩
          refine ⟨Answered.cons ?_ answered, final⟩
          intro _ _ _ same
          cases same
  | @took k lastMs cap result rest early later ih =>
      rcases run.first_step with ⟨middle, step, after⟩
      have nextValid := step.valid valid
      have soon : room k < data.length ∨ cap < data.length := by
        rcases early with more | small
        · refine Or.inl (by_contra fun whole => ?_)
          have missing := frames_succ proper initial bounded k
          rw [if_neg whole, List.getElem?_eq_none_iff] at missing
          omega
        · exact Or.inr small
      cases step with
      | take _ =>
          rcases ih nextValid (reached.took valid soon) after with ⟨answered, final⟩
          refine ⟨Answered.cons ?_ answered, final⟩
          intro _ _ _ same
          cases same

end Message

theorem frames_more {cid : UInt32} {command : UInt8} {data : List UInt8} (proper : cid ≠ 0)
    (initial : command &&& 0x80 ≠ 0) (bounded : data.length ≤ maxPayload) (k : Nat) :
    k + 1 < (frames cid command data).length ↔ room k < data.length := by
  have found := frames_succ proper initial bounded k
  by_cases more : room k < data.length
  · rw [if_pos more] at found
    exact ⟨fun _ => more, fun _ => (List.getElem?_eq_some_iff.mp found).1⟩
  · rw [if_neg more, List.getElem?_eq_none_iff] at found
    exact ⟨fun inside => absurd inside (by omega), fun yes => absurd yes more⟩

theorem command_initial {command : UInt8} (known : command = cmdPing ∨ command = cmdCbor) :
    command &&& 0x80 ≠ 0 := by
  rcases known with ping | cbor
  · rw [ping]
    decide
  · rw [cbor]
    decide

/-- Reassembly undoes fragmentation: the reports of a message, woven into other traffic of
an idle core, are swallowed up to the last one, which delivers the message. -/
theorem message_reassembled {past : List Event} {core : Core} (run : CoreRun past core)
    (phase : core.phase = .idle) {i : Fin channelCount} {cid : UInt32} (owns : Owns core i cid)
    {command : UInt8} (known : command = cmdPing ∨ command = cmdCbor) {data : List UInt8}
    (bounded : data.length ≤ 2048) (nonempty : command = cmdCbor → 1 ≤ data.length)
    {first : Report} {nowMs : UInt32} {action : Action} {rest : List Event} {last : Core}
    (frame : IsFrame cid command data 0 first) (weave : Weave cid command data 0 nowMs rest)
    (later : Runs.Run CoreStep core (.fed first nowMs action :: rest) last) :
    (∀ before report nowMs' action' after,
      .fed first nowMs action :: rest = before ++ .fed report nowMs' action' :: after →
      report.cid = cid →
      (before.countP (sentBy cid) + 1 < (frames cid command data).length → action' = noAction) ∧
      (before.countP (sentBy cid) + 1 = (frames cid command data).length →
        Carried cid command data action')) ∧
    (command = cmdCbor → ∀ cap, data.length ≤ cap → ∃ generation,
      (coreTakeMessage last cap).1 = .ok ⟨cid, cmdCbor, data, generation⟩) := by
  have initial := command_initial known
  have proper := (run.valid.registered.assigned i owns.1).1
  rw [owns.2] at proper
  rcases later.first_step with ⟨middle, step, remaining⟩
  have nextValid := step.valid run.valid
  cases step with
  | feed _ _ draws =>
      have started := feed_first run.valid phase owns known bounded
        (fun cbor empty => absurd (nonempty cbor) (by rw [empty]; decide)) initial frame nowMs draws
      have sender := (isFrame_first frame proper initial bounded).1
      rcases weave.answered proper initial bounded nextValid started.1 remaining with
        ⟨answered, final, finalMs, length, lastValid, reached⟩
      constructor
      · have every : Answered cid command data 0
            (.fed first nowMs (coreFeed core first nowMs draws).2 :: rest) := by
          apply Answered.cons
          · intro _ _ _ same _
            cases same
            exact started.2
          · rw [sentBy, sender]
            simpa using answered
        intro before report nowMs' action' after split own
        have outcome := every before report nowMs' action' after split own
        rw [Nat.zero_add] at outcome
        have more := frames_more proper initial bounded (before.countP (sentBy cid))
        constructor
        · intro inner
          exact outcome.1 (more.mp inner)
        · intro final
          exact outcome.2 (by omega)
      · intro cbor cap enough
        have whole : data.length ≤ room final := by
          have more := frames_more proper initial bounded final
          omega
        rcases reached.2 whole cbor with ⟨generation, full⟩
        refine ⟨generation, ?_⟩
        rw [coreTakeMessage_mailbox lastValid, full]
        simp only
        rw [if_neg (by omega)]

theorem requestReport_isFrame : IsFrame 1 cmdCbor requestData 0 requestReport :=
  ⟨_, frames_zero (by decide) (by decide) (by decide), by decide +kernel⟩

theorem restReport_isFrame : IsFrame 1 cmdCbor requestData 1 restReport :=
  ⟨_, (frames_succ (by decide) (by decide) (by decide) 0).trans (if_pos (by decide)),
    by decide +kernel⟩

theorem length_request_frames : (frames 1 cmdCbor requestData).length = 2 := by
  have inner := @frames_more 1 cmdCbor requestData (by decide) (by decide) (by decide)
  have first := (inner 0).mpr (by decide)
  have second := mt (inner 1).mp (by decide)
  omega

/-- Between the two reports of the request came an INIT of somebody else, a cleanup and a take
that found nothing. -/
def wovenCore : Core := (coreTakeMessage (coreCleanup sharedCore 6) 2048).2

def deliveredCore : Core := (coreFeed wovenCore restReport 7 drawOne).1

theorem woven_request_is_reassembled :
    (coreFeed openedCore requestReport 5 drawOne).2 = noAction ∧
      Carried 1 cmdCbor requestData (coreFeed wovenCore restReport 7 drawOne).2 ∧
      ∃ generation, (coreTakeMessage (coreTakeMessage deliveredCore 99).2 100).1 =
        .ok ⟨1, cmdCbor, requestData, generation⟩ := by
  have early : 0 + 1 < (frames 1 cmdCbor requestData).length := by
    rw [length_request_frames]
    decide
  have later := (((((Runs.Run.nil.snoc (CoreStep.feed openedCore requestReport 5 drawOne)).snoc
    (CoreStep.feed busyCore openingReport 6 drawTwo)).snoc (CoreStep.cleanup sharedCore 6)).snoc
    (CoreStep.take (coreCleanup sharedCore 6) 2048)).snoc
    (CoreStep.feed wovenCore restReport 7 drawOne)).snoc (CoreStep.take deliveredCore 99)
  have woven := message_reassembled
    (Runs.Run.nil.snoc (CoreStep.feed coreInit openingReport 0 drawOne)) (by decide)
    (show Owns openedCore 0 1 by decide) (Or.inr rfl) (by decide) (by decide)
    requestReport_isFrame
    (.other (by decide) (by decide) (.cleaned (by decide) (.took (Or.inl early)
      (.next restReport_isFrame (by decide) (.took (Or.inr (by decide))
        (.done length_request_frames)))))) later
  refine ⟨?_, ?_, woven.2 rfl 100 (by decide)⟩
  · refine (woven.1 [] requestReport 5 _ _ rfl (by decide)).1 ?_
    exact early
  · refine (woven.1 [.fed requestReport 5 _, .fed openingReport 6 _, .cleaned 6, .took 2048 _]
      restReport 7 _ _ rfl (by decide +kernel)).2 ?_
    rw [length_request_frames]
    decide +kernel

end P4Key.Ctaphid
