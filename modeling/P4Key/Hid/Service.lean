import P4Key.Ctaphid.Mailbox
import P4Key.Ctaphid.Tx
import P4Key.Usb.Bus

/-! p4_ctaphid.c: what its functions do while they hold `s_core_mutex`.

The values that other tasks or the bus can change are read one by one; each
function takes what its reads return, in the order of the source. -/

namespace P4Key.Hid

open Memory P4Key.Ctaphid P4Key.Usb

abbrev Task : Type := Nat

inductive HidResult where
  | ok
  | arg
  | state
  | timeout
  | disconnected
  | small
  | driver
  | rate
  deriving DecidableEq, Repr

/-- `p4_ctaphid_claim_t`, while it is valid. -/
structure Claim where
  cid : UInt32
  operationGeneration : UInt32
  usbGeneration : UInt32
  command : UInt8
  owner : Task
  deriving DecidableEq, Repr

/-- The variables that `s_core_mutex` guards. -/
structure Service where
  core : Core := coreInit
  claim : Option Claim := none
  messageUsbGeneration : UInt32 := 0
  seenUsbGeneration : UInt32
  resetEpoch : UInt32 := 0

structure ClaimReads where
  resetPending : Bool
  usbGeneration : UInt32
  busReady : Bool
  deriving DecidableEq, Repr

/-- `claim_matches_locked`; the caller is given when the owner is required. -/
def claimMatches (service : Service) (cid : UInt32) (caller : Option Task) (reads : ClaimReads) :
    Bool :=
  match service.claim with
  | none => false
  | some claim =>
    if reads.resetPending ∨ claim.cid ≠ cid ∨ service.core.phase ≠ .processing ∨
        service.core.activeCid ≠ cid ∨ service.seenUsbGeneration ≠ claim.usbGeneration ∨
        reads.usbGeneration ≠ claim.usbGeneration ∨ !reads.busReady then false
    else
      match chanFind service.core cid with
      | none => false
      | some i =>
        if (service.core.channels i).generation ≠ claim.operationGeneration then false
        else
          match caller with
          | none => true
          | some task => claim.owner == task

def clearClaim (service : Service) : Service := { service with claim := none }

def clearStaleClaim (service : Service) (reads : ClaimReads) : Service :=
  match service.claim with
  | none => service
  | some claim =>
    if claimMatches service claim.cid none reads then service else clearClaim service

def resetCore (service : Service) : Service :=
  { clearClaim service with
    core := coreReset service.core
    messageUsbGeneration := 0
    resetEpoch := service.resetEpoch + 1 }

def mapUsbError : UsbResult → HidResult
  | .timeout => .timeout
  | .disconnected => .disconnected
  | .stale => .disconnected
  | .arg => .arg
  | _ => .driver

/-- What `send_locked` meets: whether it gets `s_tx_mutex`, and what `emit_usb_report` stores
as its error for each report. -/
structure SendReads where
  locked : Bool
  usb : Nat → UsbResult

def sendLocked (cid : UInt32) (command : UInt8) (data : List UInt8) (reads : SendReads) :
    HidResult × List Report :=
  if !reads.locked then (.timeout, [])
  else
    let sent := txSend cid command data fun k => reads.usb k == .ok
    match sent.1 with
    | .arg => (.arg, sent.2)
    | .send => (mapUsbError (reads.usb sent.2.length), sent.2)
    | .ok => (.ok, sent.2)

/-! The transport task. -/

/-- A generation of the bus is seen, and unless a reset has raced with it the core is reset. -/
def observeUsb (service : Service) (generation : UInt32) (raced : Bool) : Service × Bool :=
  if generation ≠ service.seenUsbGeneration then
    let service := { service with seenUsbGeneration := generation }
    if !raced then (resetCore service, true) else (service, false)
  else (service, false)

def syncUsbBeforeTake (service : Service) (generation : UInt32) : Service × Bool :=
  observeUsb service generation false

inductive Outcome where
  | discarded
  | fed (action : Action) (sent : List Report)

structure FeedReads where
  currentUsbGeneration : UInt32
  resetRequested : Bool
  nowMs : UInt32
  draws : Draws
  claim : ClaimReads
  send : SendReads

/-- The part of the region that decides on the report: whether it is accepted, and whether the
core was reset here. -/
def admitReport (service : Service) (epoch usbGeneration : UInt32) (reads : FeedReads) :
    Service × Bool × Bool :=
  let raced := decide (service.resetEpoch ≠ epoch) || reads.resetRequested
  let service := if reads.resetRequested then resetCore service else service
  if reads.currentUsbGeneration ≠ usbGeneration then
    -- a report from the old connection
    let observed := observeUsb service reads.currentUsbGeneration raced
    (observed.1, false, reads.resetRequested || observed.2)
  else
    let observed := observeUsb service usbGeneration raced
    (observed.1, !raced, reads.resetRequested || observed.2)

/-- The part of the region that feeds the report and answers it. -/
def handleReport (service : Service) (report : Report) (usbGeneration : UInt32)
    (reads : FeedReads) : Service × Action × List Report :=
  let fed := coreFeed service.core report reads.nowMs reads.draws
  let action := fed.2
  let service := clearStaleClaim { service with core := fed.1 } reads.claim
  if action.kind = .send ∧ action.data.length ≤ maxPayload then
    let sent := (sendLocked action.cid action.command action.data reads.send).2
    let service :=
      if action.generation ≠ 0 then
        { service with core := coreFinishResponse service.core action.cid action.generation }
      else service
    (service, action, sent)
  else if action.kind = .message then
    ({ service with messageUsbGeneration := usbGeneration }, action, [])
  else (service, action, [])

def transportReport (service : Service) (epoch : UInt32) (report : Report)
    (usbGeneration : UInt32) (reads : FeedReads) : Service × Bool × Outcome :=
  match admitReport service epoch usbGeneration reads with
  | (service, accepted, reset) =>
    if accepted then
      match handleReport service report usbGeneration reads with
      | (service, action, sent) => (service, reset, .fed action sent)
    else (service, reset, .discarded)

/-! The calls of the other tasks. -/

/-- The reads of one turn of the loop in `hid_take_msg`. -/
structure TakeReads where
  resetPending : Bool
  busReady : Bool
  usbGeneration : UInt32
  messageGeneration : UInt32
  deriving DecidableEq, Repr

/-- How a turn of the loop in `hid_take_msg` ends. After a refusal with `timeout` it waits for
the next turn; a reset is reported as `disconnected`. -/
inductive TakeOutcome where
  | refused (result : HidResult)
  | reset
  | taken (message : Message)
  deriving DecidableEq, Repr

/-- The function returns P4_HID_ERR_DISCONNECTED. -/
def TakeOutcome.disconnected : TakeOutcome → Bool
  | .refused .disconnected => true
  | .reset => true
  | _ => false

def hidTakeMsg (service : Service) (task : Task) (cap : Nat) (reads : TakeReads) :
    Service × TakeOutcome :=
  if reads.resetPending then (service, .refused .disconnected)
  else if service.claim.isSome then (service, .refused .state)
  else if !reads.busReady ∨ reads.usbGeneration ≠ service.seenUsbGeneration then
    (service, .refused .disconnected)
  else if service.core.messageReady ∧ reads.messageGeneration ≠ service.messageUsbGeneration then
    (resetCore service, .reset)
  else
    match coreTakeMessage service.core cap with
    | (.ok message, core) =>
      ({ service with
          core := core
          claim := some
            { cid := message.cid
              operationGeneration := message.generation
              usbGeneration := service.messageUsbGeneration
              command := message.command
              owner := task }
          messageUsbGeneration := 0 },
        .taken message)
    | (.error .small, _) => (service, .refused .small)
    | (.error .empty, _) => (service, .refused .timeout)

def sendArguments (cid : UInt32) (command : UInt8) (data : List UInt8) : Bool :=
  !(cid == 0 || command &&& 0x80 == 0 || decide (data.length > maxPayload))

/-- What a response carries: the final decision about a cancellation is made under the mutex. -/
def responseData (service : Service) (claim : Claim) (cid : UInt32) (command : UInt8)
    (data : List UInt8) : List UInt8 :=
  if command = cmdCbor ∧ coreCancelled service.core cid claim.operationGeneration then
    [keepaliveCancelStatus]
  else data

/-- `hid_send_msg`, with the reports that it sent. -/
def hidSendMsg (service : Service) (task : Task) (cid : UInt32) (command : UInt8)
    (data : List UInt8) (reads : ClaimReads) (send : SendReads) :
    Service × HidResult × List Report :=
  match service.claim with
  | none => (service, .state, [])
  | some claim =>
    if !claimMatches service cid (some task) reads ∨ claim.command ≠ command then
      (service, .state, [])
    else
      let sent := sendLocked cid command (responseData service claim cid command data) send
      (clearClaim { service with
          core := coreFinishResponse service.core cid claim.operationGeneration },
        sent.1, sent.2)

def keepaliveProcessing : UInt8 := 0x01
def keepaliveUpNeeded : UInt8 := 0x02

/-- `hid_keepalive`, with the reports that it sent. The clock is read before and after. -/
def hidKeepalive (service : Service) (task : Task) (cid : UInt32) (status : UInt8)
    (reads : ClaimReads) (currentMs sentMs : UInt32) (send : SendReads) :
    Service × HidResult × List Report :=
  if status ≠ keepaliveProcessing ∧ status ≠ keepaliveUpNeeded then (service, .arg, [])
  else
    match service.claim with
    | none => (service, .state, [])
    | some claim =>
      if !claimMatches service cid (some task) reads ∨ claim.command ≠ cmdCbor ∨
          coreCancelled service.core cid claim.operationGeneration then (service, .state, [])
      else
        match chanFind service.core cid with
        | none => (service, .rate, [])
        | some i =>
          let channel := service.core.channels i
          if channel.keepaliveSent ∧ channel.lastKeepaliveStatus = status ∧
              !timeExpired currentMs channel.lastKeepaliveMs keepaliveMs then (service, .rate, [])
          else
            let sent := sendLocked cid cmdKeepalive [status] send
            let service :=
              if sent.1 = .ok then
                { service with
                  core := service.core.setChannel i
                    { channel with
                      keepaliveSent := true
                      lastKeepaliveMs := sentMs
                      lastKeepaliveStatus := status } }
              else service
            (service, sent.1, sent.2)

def hidCancelled (service : Service) (task : Task) (cid : UInt32) (reads : ClaimReads) : Bool :=
  match service.claim with
  | none => true
  | some claim =>
    !claimMatches service cid (some task) reads ||
      coreCancelled service.core cid claim.operationGeneration

/-- `hid_clear_cancel`, and whether its caller still has the request. -/
def hidClearCancel (service : Service) (task : Task) (cid : UInt32) (reads : ClaimReads) :
    Service × Bool :=
  match service.claim with
  | none => (service, false)
  | some claim =>
    if claimMatches service cid (some task) reads then
      ({ service with core := coreClearCancel service.core cid claim.operationGeneration }, true)
    else (service, false)

end P4Key.Hid
