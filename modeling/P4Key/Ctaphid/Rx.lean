import P4Key.Ctaphid.Core

/-! p4_ctaphid_rx.c. -/

namespace P4Key.Ctaphid

open Memory

inductive ActionKind where
  | none
  | send
  | message
  | cancel
  deriving DecidableEq, Repr

/-- `p4_ctaphid_action_t`, with the `data_len` bytes behind its `data` pointer. -/
structure Action where
  kind : ActionKind := .none
  cid : UInt32 := 0
  command : UInt8 := 0
  generation : UInt32 := 0
  data : List UInt8 := []
  deriving DecidableEq, Repr

def noAction : Action := {}

def sendAction (cid : UInt32) (command : UInt8) (data : List UInt8) : Action :=
  { kind := .send, cid := cid, command := command, data := data }

/-- `error_action`: the error byte goes through the control buffer. -/
def errorAction (core : Core) (cid : UInt32) (error : UInt8) : Core × Action :=
  let core := { core with control := core.control.set 0 error }
  (core, sendAction cid cmdError [error])

/-- `count_queue_full`, which saturates. -/
def countQueueFull (core : Core) : Core :=
  if core.queueFullCount ≠ 0xffffffff then
    { core with queueFullCount := core.queueFullCount + 1 }
  else core

def clearChannelRx (channel : Channel) : Channel :=
  { channel with
    partialActive := false
    command := 0
    declaredLen := 0
    received := 0
    nextSequence := 0
    lastPacketMs := 0 }

def clearTransaction (channel : Channel) : Channel :=
  { clearChannelRx channel with
    cancel := false
    keepaliveSent := false
    lastKeepaliveMs := 0
    lastKeepaliveStatus := 0 }

def clearActive (core : Core) (dropComplete : Bool) : Core :=
  let core := match chanFind core core.activeCid with
    | none => core
    | some i => core.setChannel i (clearTransaction (core.channels i))
  let core := core.wipe core.rxBuffer
  let core :=
    if dropComplete ∧ core.messageReady ∧ core.completeBuffer < bufferCount then
      releaseComplete core
    else core
  { core with phase := .idle, activeCid := 0, activeCommand := 0 }

def coreFinishResponse (core : Core) (cid generation : UInt32) : Core :=
  if core.phase ≠ .processing ∨ core.activeCid ≠ cid then core
  else
    match chanFind core cid with
    | none => core
    | some i =>
      if (core.channels i).generation ≠ generation then core else clearActive core true

def beginMessage (core : Core) (i : Fin channelCount) (command : UInt8) (declaredLen : Nat)
    (nowMs : UInt32) : Core :=
  let channel := core.channels i
  let core := { core with phase := .rx, activeCid := channel.cid, activeCommand := command }
  let core := core.setChannel i
    { channel with
      partialActive := true
      command := command
      declaredLen := declaredLen
      received := 0
      nextSequence := 0
      lastPacketMs := nowMs
      cancel := false
      timeoutPending := false
      keepaliveSent := false
      generation := channel.generation + 1 }
  core.wipe core.rxBuffer

def completeMessage (core : Core) (i : Fin channelCount) : Core × Action :=
  let core := core.setChannel i { core.channels i with partialActive := false }
  let core := { core with phase := .processing }
  let channel := core.channels i
  if channel.command = cmdPing then
    (core, { sendAction channel.cid cmdPing
        ((core.buffers core.rxBuffer).toList.take channel.declaredLen) with
      generation := channel.generation })
  else if core.messageReady then
    errorAction (clearActive (countQueueFull core) false) channel.cid errChannelBusy
  else
    let core := { core with
      completeBuffer := core.rxBuffer
      completeCid := channel.cid
      completeCommand := channel.command
      completeLen := channel.declaredLen
      completeGeneration := channel.generation
      rxBuffer := 1 - core.rxBuffer
      messageReady := true }
    (core, { kind := .message, cid := channel.cid, command := channel.command,
             generation := channel.generation,
             data := (core.buffers core.completeBuffer).toList.take channel.declaredLen })

def initReplyBytes (assignedCid : UInt32) (nonce : List UInt8) : List UInt8 :=
  nonce ++ storeU32 assignedCid ++
    [protocolVersion, versionMajor, versionMinor, versionBuild, capabilities]

def initReply (core : Core) (responseCid assignedCid : UInt32) (nonce : List UInt8) :
    Core × Action :=
  let core := { core with control := load 17 (initReplyBytes assignedCid nonce) 0 }
  (core, sendAction responseCid cmdInit core.control.toList)

def handleInit (core : Core) (cid : UInt32) (declaredLen : Nat) (nonce : List UInt8)
    (draws : Draws) : Core × Action :=
  if declaredLen ≠ 8 then errorAction core cid errInvalidLen
  else if cid = broadcastCid then
    match chanAllocate core draws with
    | (.error .full, core, _) => errorAction core cid errChannelBusy
    | (.error _, core, _) => errorAction core cid errOther
    | (.ok newCid, core, _) => initReply core cid newCid nonce
  else
    match chanFind core cid with
    | none => errorAction core cid errInvalidChannel
    | some i =>
      if core.phase ≠ .idle ∧ core.activeCid ≠ cid then
        let core := if core.messageReady then countQueueFull core else core
        errorAction core cid errChannelBusy
      else
        let core := if core.activeCid = cid then clearActive core true else core
        let channel := clearChannelRx (core.channels i)
        let core := core.setChannel i
          { channel with
            cancel := false
            timeoutPending := false
            generation := channel.generation + 1 }
        initReply core cid cid nonce

def handleCancel (core : Core) (cid : UInt32) (declaredLen : Nat) : Core × Action :=
  if declaredLen ≠ 0 then (core, noAction)
  else if core.phase ≠ .processing ∨ core.activeCid ≠ cid ∨ core.activeCommand ≠ cmdCbor then
    (core, noAction)
  else
    match chanFind core cid with
    | none => (core, noAction)
    | some i =>
      let core := core.setChannel i { core.channels i with cancel := true }
      (core, { kind := .cancel, cid := cid, command := cmdCancel,
               generation := (core.channels i).generation })

def storeFirst (core : Core) (i : Fin channelCount) (command : UInt8) (declaredLen : Nat)
    (data : List UInt8) (nowMs : UInt32) : Core :=
  let core := beginMessage core i command declaredLen nowMs
  let take := min declaredLen initDataBytes
  let core := core.setBuffer core.rxBuffer
    (storeInto (core.buffers core.rxBuffer) 0 (data.take take))
  core.setChannel i { core.channels i with received := take }

def startMessage (core : Core) (i : Fin channelCount) (command : UInt8) (declaredLen : Nat)
    (data : List UInt8) (nowMs : UInt32) : Core × Action :=
  let core := storeFirst core i command declaredLen data nowMs
  if (core.channels i).received = declaredLen then completeMessage core i else (core, noAction)

def Channel.settle (channel : Channel) : Channel := { channel with timeoutPending := false }

def feedRequest (core : Core) (i : Fin channelCount) (report : Report) (nowMs : UInt32) :
    Core × Action :=
  let cid := report.cid
  let command := report.command
  let declaredLen := report.declaredLen
  let core := core.setChannel i (core.channels i).settle
  if core.phase ≠ .idle then
    let core := if core.messageReady then countQueueFull core else core
    if core.activeCid ≠ cid then errorAction core cid errChannelBusy
    else if core.phase = .rx then errorAction (clearActive core true) cid errInvalidSeq
    else errorAction core cid errChannelBusy
  else if declaredLen > maxPayload then errorAction core cid errInvalidLen
  else if command ≠ cmdPing ∧ command ≠ cmdCbor then errorAction core cid errInvalidCmd
  else if command = cmdCbor ∧ declaredLen = 0 then errorAction core cid errInvalidLen
  else startMessage core i command declaredLen report.initData nowMs

def feedInitial (core : Core) (report : Report) (nowMs : UInt32) (draws : Draws) :
    Core × Action :=
  let cid := report.cid
  let command := report.command
  if command = cmdCancel then handleCancel core cid report.declaredLen
  else if command = cmdInit then
    handleInit core cid report.declaredLen (slice report.toList 7 8) draws
  else if cid = 0 ∨ cid = broadcastCid then errorAction core cid errInvalidChannel
  else
    match chanFind core cid with
    | none => errorAction core cid errInvalidChannel
    | some i => feedRequest core i report nowMs

def storeNext (core : Core) (i : Fin channelCount) (data : List UInt8) (nowMs : UInt32) : Core :=
  let channel := core.channels i
  let take := min (channel.declaredLen - channel.received) contDataBytes
  let core := core.setBuffer core.rxBuffer
    (storeInto (core.buffers core.rxBuffer) channel.received (data.take take))
  core.setChannel i
    { channel with
      received := channel.received + take
      lastPacketMs := nowMs
      nextSequence := channel.nextSequence + 1 }

/-- The end of `feed_continuation`: the packet that was due is appended. -/
def appendPacket (core : Core) (i : Fin channelCount) (data : List UInt8) (nowMs : UInt32) :
    Core × Action :=
  let core := storeNext core i data nowMs
  if (core.channels i).received = (core.channels i).declaredLen then completeMessage core i
  else (core, noAction)

def feedContinuation (core : Core) (report : Report) (nowMs : UInt32) : Core × Action :=
  let cid := report.cid
  match chanFind core cid with
  | none => (core, noAction)
  | some i =>
    let channel := core.channels i
    if channel.timeoutPending then
      errorAction (core.setChannel i channel.settle) cid errMsgTimeout
    else if !channel.partialActive ∨ core.phase ≠ .rx ∨ core.activeCid ≠ cid then (core, noAction)
    else if timeExpired nowMs channel.lastPacketMs messageTimeoutMs then
      errorAction (clearActive core true) cid errMsgTimeout
    else if report.command ≠ channel.nextSequence then
      errorAction (clearActive core true) cid errInvalidSeq
    else appendPacket core i report.contData nowMs

/-- What is left of an expired request: a tombstone that the channel will be told of. -/
def expired (core : Core) (i : Fin channelCount) : Core :=
  let core := core.setChannel i (clearChannelRx { core.channels i with timeoutPending := true })
  { core.wipe core.rxBuffer with phase := .idle, activeCid := 0, activeCommand := 0 }

def coreCleanup (core : Core) (nowMs : UInt32) : Core :=
  if core.phase ≠ .rx then core
  else
    match chanFind core core.activeCid with
    | none => core
    | some i =>
      if timeExpired nowMs (core.channels i).lastPacketMs messageTimeoutMs then expired core i
      else core

/-- `p4_ctaphid_core_feed` behind its cleanup. -/
def feedPacket (core : Core) (report : Report) (nowMs : UInt32) (draws : Draws) : Core × Action :=
  if report.isInitial then feedInitial core report nowMs draws
  else feedContinuation core report nowMs

/-- `p4_ctaphid_core_feed` with pointers that are not NULL. -/
def coreFeed (core : Core) (report : Report) (nowMs : UInt32) (draws : Draws) : Core × Action :=
  feedPacket (coreCleanup core nowMs) report nowMs draws

end P4Key.Ctaphid
