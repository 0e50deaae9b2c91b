import P4Key.Hid.Service
import P4Key.Library.Runs

/-! The transport task, its callers and the bus.

What a task does while it holds `s_core_mutex` is one step. The bus, and the first
half of `hid_reset_all`, may move between any two reads inside such a step. -/

namespace P4Key.Hid

open Memory P4Key.Ctaphid P4Key.Usb

/-- Where `transport_task` is: before the read of the reset request, before the mutex in
`process_requested_reset`, before the read of the generation, before the mutex in
`sync_usb_before_take`, in `usb_take_with_generation`, and before the mutex with or
without a report. -/
inductive Transport where
  | top
  | reset
  | observe
  | sync (generation : UInt32)
  | receive (epoch : UInt32)
  | cleanup
  | feed (epoch : UInt32) (report : Report) (usbGeneration : UInt32)

/-- A wait here has a time limit, or the bus can fail. -/
def Transport.waits : Transport → Bool
  | .top => false
  | .observe => false
  | _ => true

structure State where
  service : Service
  flags : Flags
  transport : Transport := .top

def started (bus : Bus) : State :=
  { service := { seenUsbGeneration := usbUnmountGeneration bus }
    flags := { bus := bus, resetRequested := false } }

/-! The reads of a step, while the bus moves on. -/

def ClaimReads.Along (reads : ClaimReads) (start last : Flags) : Prop :=
  ∃ first second third, Drifts start first ∧ reads.resetPending = first.resetRequested ∧
    Drifts first second ∧ reads.usbGeneration = usbUnmountGeneration second.bus ∧
    Drifts second third ∧ reads.busReady = usbReady third.bus ∧ Drifts third last

def TakeReads.Along (reads : TakeReads) (start last : Flags) : Prop :=
  ∃ first second third fourth, Drifts start first ∧ reads.resetPending = first.resetRequested ∧
    Drifts first second ∧ reads.busReady = usbReady second.bus ∧
    Drifts second third ∧ reads.usbGeneration = usbUnmountGeneration third.bus ∧
    Drifts third fourth ∧ reads.messageGeneration = usbUnmountGeneration fourth.bus ∧
    Drifts fourth last

def FeedReads.Along (reads : FeedReads) (start last : Flags) : Prop :=
  ∃ first second, Drifts start first ∧
    reads.currentUsbGeneration = usbUnmountGeneration first.bus ∧
    Drifts first second ∧ reads.resetRequested = second.resetRequested ∧
    reads.claim.Along second.taken last

/-- What a step does for the outside. A core reset is part of the events that can make one. -/
inductive Event where
  | quiet
  | bus (event : BusEvent)
  | requested
  | swept (reset : Bool)
  | cleaned (nowMs : UInt32)
  | reported (report : Report) (reset : Bool) (outcome : Outcome)
  | took (task : Task) (cap : Nat) (outcome : TakeOutcome)
  | sent (task : Task) (cid : UInt32) (command : UInt8) (data : List UInt8) (result : HidResult)
      (reports : List Report)
  | sendTimedOut (task : Task) (cid : UInt32) (command : UInt8)
  | keptAlive (task : Task) (cid : UInt32) (status : UInt8) (result : HidResult)
      (reports : List Report)
  | asked (task : Task) (cid : UInt32) (cancelled : Bool)
  | uncancelled (task : Task) (cid : UInt32) (cleared : Bool)

inductive Step : State → Event → State → Prop where
  | bus (state : State) (event : BusEvent) :
      Step state (.bus event) { state with flags := state.flags.onBus event }
  /-- `hid_reset_all` publishes its request. -/
  | request (state : State) : Step state .requested { state with flags := state.flags.request }
  /-- `hid_reset_all` got the mutex. -/
  | resetAll (state : State) (middle last : Flags) (before : Drifts state.flags middle)
      (after : Drifts middle.taken last) :
      Step state (.swept true) { state with service := resetCore state.service, flags := last }
  | notRequested (state : State) (here : state.transport = .top)
      (flag : state.flags.resetRequested = false) :
      Step state .quiet { state with transport := .observe }
  | isRequested (state : State) (here : state.transport = .top)
      (flag : state.flags.resetRequested = true) :
      Step state .quiet { state with transport := .reset }
  /-- `process_requested_reset` finds the request in its region. -/
  | processed (state : State) (here : state.transport = .reset) (middle last : Flags)
      (before : Drifts state.flags middle) (flag : middle.resetRequested = true)
      (after : Drifts middle.taken last) :
      Step state (.swept true)
        { service := resetCore state.service, flags := last, transport := .observe }
  /-- Somebody else has taken the request. -/
  | overtaken (state : State) (here : state.transport = .reset) (last : Flags)
      (before : Drifts state.flags last) (flag : last.resetRequested = false) :
      Step state (.swept false) { state with flags := last, transport := .observe }
  | observed (state : State) (here : state.transport = .observe) :
      Step state .quiet
        { state with transport := .sync (usbUnmountGeneration state.flags.bus) }
  | synced (state : State) (generation : UInt32) (here : state.transport = .sync generation) :
      Step state (.swept (syncUsbBeforeTake state.service generation).2)
        { state with
          service := (syncUsbBeforeTake state.service generation).1
          transport := .receive (syncUsbBeforeTake state.service generation).1.resetEpoch }
  /-- `usb_take_with_generation` returns a report only on a connection that is ready. -/
  | received (state : State) (epoch : UInt32) (here : state.transport = .receive epoch)
      (report : Report) (ready : usbReady state.flags.bus = true) :
      Step state .quiet
        { state with transport := .feed epoch report (usbUnmountGeneration state.flags.bus) }
  | receivedNothing (state : State) (epoch : UInt32) (here : state.transport = .receive epoch) :
      Step state .quiet { state with transport := .cleanup }
  | cleaned (state : State) (here : state.transport = .cleanup) (nowMs : UInt32) :
      Step state (.cleaned nowMs)
        { state with
          service := { state.service with core := coreCleanup state.service.core nowMs }
          transport := .top }
  | reported (state : State) (epoch : UInt32) (report : Report) (usbGeneration : UInt32)
      (here : state.transport = .feed epoch report usbGeneration) (reads : FeedReads)
      (last : Flags) (along : reads.Along state.flags last) :
      Step state
        (.reported report (transportReport state.service epoch report usbGeneration reads).2.1
          (transportReport state.service epoch report usbGeneration reads).2.2)
        { service := (transportReport state.service epoch report usbGeneration reads).1
          flags := last
          transport := .top }
  /-- The transport task did not get the mutex, or the bus failed. -/
  | gaveUp (state : State) (here : state.transport.waits = true) :
      Step state .quiet { state with transport := .top }
  | took (state : State) (task : Task) (cap : Nat) (reads : TakeReads) (last : Flags)
      (along : reads.Along state.flags last) :
      Step state (.took task cap (hidTakeMsg state.service task cap reads).2)
        { state with service := (hidTakeMsg state.service task cap reads).1, flags := last }
  | sent (state : State) (task : Task) (cid : UInt32) (command : UInt8) (data : List UInt8)
      (arguments : sendArguments cid command data = true) (reads : ClaimReads) (send : SendReads)
      (last : Flags) (along : reads.Along state.flags last) :
      Step state
        (.sent task cid command data
          (hidSendMsg state.service task cid command data reads send).2.1
          (hidSendMsg state.service task cid command data reads send).2.2)
        { state with
          service := (hidSendMsg state.service task cid command data reads send).1
          flags := last }
  /-- `hid_send_msg` did not get the mutex. -/
  | sendTimedOut (state : State) (task : Task) (cid : UInt32) (command : UInt8) :
      Step state (.sendTimedOut task cid command) state
  | keptAlive (state : State) (task : Task) (cid : UInt32) (status : UInt8) (reads : ClaimReads)
      (currentMs sentMs : UInt32) (send : SendReads) (last : Flags)
      (along : reads.Along state.flags last) :
      Step state
        (.keptAlive task cid status
          (hidKeepalive state.service task cid status reads currentMs sentMs send).2.1
          (hidKeepalive state.service task cid status reads currentMs sentMs send).2.2)
        { state with
          service := (hidKeepalive state.service task cid status reads currentMs sentMs send).1
          flags := last }
  | asked (state : State) (task : Task) (cid : UInt32) (reads : ClaimReads) (last : Flags)
      (along : reads.Along state.flags last) :
      Step state (.asked task cid (hidCancelled state.service task cid reads))
        { state with flags := last }
  | uncancelled (state : State) (task : Task) (cid : UInt32) (reads : ClaimReads) (last : Flags)
      (along : reads.Along state.flags last) :
      Step state (.uncancelled task cid (hidClearCancel state.service task cid reads).2)
        { state with
          service := (hidClearCancel state.service task cid reads).1
          flags := last }
  /-- A call that fails its argument checks or does not get the mutex, and changes nothing. -/
  | refused (state : State) : Step state .quiet state

abbrev SystemRun (bus : Bus) : List Event → State → Prop := Runs.Run Step (started bus)

end P4Key.Hid
