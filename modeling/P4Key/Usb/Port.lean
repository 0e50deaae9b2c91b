import P4Key.Library.Memory
import P4Key.Library.RingBuffer
import P4Key.Usb.Bus

/-! p4_usb_queue.c and the receive path of p4_usb.c. A function of the port is what the source
does in one critical section. -/

namespace P4Key.Usb

open Memory

abbrev reportBytes : Nat := 64
abbrev rxQueueDepth : Nat := 8

/-- `p4_usb_queue_item_t`. The generation counts on, as it does in `Bus`. -/
structure Item where
  report : Bytes reportBytes
  generation : Nat
  deriving DecidableEq

abbrev Queue : Type := RingBuffer Item rxQueueDepth

/-- `p4_usb_queue_reset`, which is `p4_usb_queue_init`. -/
def queueReset : Queue := RingBuffer.fresh ⟨List.Vector.replicate reportBytes 0, 0⟩ 0

def queuePush (queue : Queue) (report : Bytes reportBytes) (generation : Nat) : Queue × Bool :=
  if room : queue.count < rxQueueDepth then (queue.push ⟨report, generation⟩ room, true)
  else (queue, false)

def queuePop (queue : Queue) : Option Item × Queue :=
  if queue.count = 0 then (none, queue) else (some queue.pop.1, queue.pop.2)

theorem queuePush_room {queue : Queue} (report : Bytes reportBytes) (generation : Nat)
    (room : queue.count < rxQueueDepth) :
    queuePush queue report generation = (queue.push ⟨report, generation⟩ room, true) := dif_pos room

theorem queuePush_full {queue : Queue} (report : Bytes reportBytes) (generation : Nat)
    (full : ¬queue.count < rxQueueDepth) : queuePush queue report generation = (queue, false) :=
  dif_neg full

theorem queuePop_none {queue rest : Queue} (popped : queuePop queue = (none, rest)) :
    queue.toList = [] ∧ rest = queue := by
  rw [queuePop] at popped
  split at popped
  · rename_i empty
    cases popped
    exact ⟨queue.toList_eq_nil.mpr empty, rfl⟩
  · cases popped

theorem queuePop_some {queue rest : Queue} {item : Item} (popped : queuePop queue = (some item, rest)) :
    queue.toList = item :: rest.toList := by
  rw [queuePop] at popped
  split at popped
  · cases popped
  · rename_i full
    cases popped
    exact queue.toList_pop full

/-- The variables that `s_lock` guards, once `usb_start` has returned. -/
structure Port where
  started : Bool := true
  bus : Bus := busAtStart
  rxQueue : Queue := queueReset
  haveTakeGeneration : Bool := false
  takeGeneration : Nat := 0

def usbStarted : Port := {}

/-- The section of `usb_event`. -/
def Port.event (port : Port) (event : BusEvent) : Port :=
  match event with
  | .attached =>
    { port with bus := usbEvent port.bus .attached, rxQueue := queueReset, haveTakeGeneration := false }
  | .detached =>
    { port with bus := usbEvent port.bus .detached, rxQueue := queueReset, haveTakeGeneration := false }
  | .suspended =>
    { port with bus := usbEvent port.bus .suspended, rxQueue := queueReset, haveTakeGeneration := false }
  | .resumed => { port with bus := usbEvent port.bus .resumed }

theorem Port.event_bus (port : Port) (event : BusEvent) :
    (port.event event).bus = usbEvent port.bus event := by
  cases event <;> rfl

def usbDropPending (port : Port) : Port :=
  { port with rxQueue := queueReset, haveTakeGeneration := false }

inductive ReportType where
  | invalid
  | input
  | output
  | feature
  deriving DecidableEq, Repr

/-- The arguments of `tud_hid_set_report_cb`. No buffer is NULL. -/
structure SetReport where
  instanceId : UInt8 := 0
  reportId : UInt8 := 0
  reportType : ReportType := .output
  buffer : Option (List UInt8)
  deriving DecidableEq

/-- What the queue is given: an output report of the right size for the one interface. -/
def SetReport.report (call : SetReport) : Option (Bytes reportBytes) :=
  if call.instanceId ≠ 0 ∨ call.reportId ≠ 0 then none
  else if call.reportType ≠ .output then none
  else
    match call.buffer with
    | none => none
    | some bytes => if bytes.length ≠ reportBytes then none else some (load reportBytes bytes 0)

/-- `tud_hid_set_report_cb`, and what it has queued. -/
def tudHidSetReportCb (port : Port) (call : SetReport) : Port × Option Item :=
  match call.report with
  | none => (port, none)
  | some report =>
    if port.bus.ready then
      let pushed := queuePush port.rxQueue report port.bus.generation
      ({ port with rxQueue := pushed.1 },
        if pushed.2 then some ⟨report, port.bus.generation⟩ else none)
    else (port, none)

/-- A section of the task of TinyUSB. -/
inductive DriverStep where
  | bus (event : BusEvent)
  | setReport (call : SetReport)
  deriving DecidableEq

def Port.driverStep (port : Port) : DriverStep → Port
  | .bus event => port.event event
  | .setReport call => (tudHidSetReportCb port call).1

def Port.driven (port : Port) (steps : List DriverStep) : Port := steps.foldl Port.driverStep port

/-! The three sections of `usb_take_common`. `remember` is `remember_for_legacy_send`. -/

def takeStart (port : Port) (remember : Bool) : Port × Bool :=
  (if remember then { port with haveTakeGeneration := false } else port, port.started)

inductive Popped where
  | held (item : Item)
  | failed (result : UsbResult)
  | empty
  deriving DecidableEq

def takePop (port : Port) : Port × Popped :=
  match queuePop port.rxQueue with
  | (some item, rest) =>
    ({ port with rxQueue := rest },
      if !port.bus.ready ∨ UInt32.ofNat item.generation ≠ usbUnmountGeneration port.bus then
        .failed .stale
      else .held item)
  | (none, rest) =>
    ({ port with rxQueue := rest }, if !port.bus.ready then .failed .disconnected else .empty)

def takeCheck (port : Port) (item : Item) (remember : Bool) : Port × Bool :=
  if !port.bus.ready ∨ usbUnmountGeneration port.bus ≠ UInt32.ofNat item.generation then (port, false)
  else
    (if remember then { port with takeGeneration := item.generation, haveTakeGeneration := true }
      else port, true)

end P4Key.Usb
