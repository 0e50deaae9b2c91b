import P4Key.Usb.Receive

/-! The send path of p4_usb.c.

A critical section, an operation on a semaphore and a call of TinyUSB is one step each. Other
senders only matter for whether the mutex and the endpoint are free. -/

namespace P4Key.Usb.Send

open Memory
open P4Key.Usb.Receive (generation_inj)

inductive Auth where
  | legacy
  | generation
  deriving DecidableEq, Repr

/-- What `usb_send_common` was called with, and the generation that it expects. -/
structure Sending where
  report : Bytes reportBytes
  expectedGeneration : UInt32
  zeroWait : Bool
  auth : Auth

/-- `send_state`: whether the port is ready, its generation, and whether the last take matches. -/
def sendState (port : Port) : Bool × UInt32 × Bool :=
  (port.started && port.bus.ready, usbUnmountGeneration port.bus,
    port.haveTakeGeneration &&
      UInt32.ofNat port.takeGeneration == usbUnmountGeneration port.bus)

def sendCheck (port : Port) (sending : Sending) : Option UsbResult :=
  match sendState port with
  | (ready, generation, takeMatches) =>
    if !ready then some .disconnected
    else if generation ≠ sending.expectedGeneration ∨ (sending.auth = .legacy ∧ !takeMatches) then
      some .stale
    else none

/-- The first section: a legacy send expects the generation that it finds. -/
def sendExpect (port : Port) (sending : Sending) : Sending :=
  match sending.auth with
  | .legacy => { sending with expectedGeneration := (sendState port).2.1 }
  | .generation => sending

def usbSendForGeneration (report : Bytes reportBytes) (generation : UInt32) (zeroWait : Bool) :
    Sending :=
  ⟨report, generation, zeroWait, .generation⟩

/-- Where the sender is: outside, or in `usb_send_common` before it takes the mutex, before its
first section, before the section in the loop, before `tud_hid_n_ready`, before
`tud_hid_n_report`, before its wait, or before it gives the mutex back. -/
inductive Place where
  | idle
  | locking (sending : Sending)
  | entering (sending : Sending)
  | looping (sending : Sending)
  | polling (sending : Sending)
  | submitting (sending : Sending)
  | full (sending : Sending)
  | unlocking (result : UsbResult)

structure State where
  port : Port
  place : Place

inductive Event where
  | quiet
  | bus (event : BusEvent)
  | ended (result : UsbResult)
  /-- The section in the loop has let the report pass. -/
  | checked (sending : Sending)
  | submitted (sending : Sending) (accepted : Bool)

inductive Step : State → Event → State → Prop where
  | bus (state : State) (event : BusEvent) :
      Step state (.bus event) { state with port := state.port.event event }
  /-- The report is NULL, or there is no mutex. -/
  | refused (state : State) (here : state.place = .idle) (result : UsbResult)
      (kind : result = .arg ∨ result = .state) : Step state (.ended result) state
  | began (state : State) (here : state.place = .idle) (report : Bytes reportBytes)
      (generation : UInt32) (zeroWait : Bool) :
      Step state .quiet
        { state with place := .locking (usbSendForGeneration report generation zeroWait) }
  | locked (state : State) (sending : Sending) (here : state.place = .locking sending) :
      Step state .quiet { state with place := .entering sending }
  | notLocked (state : State) (sending : Sending) (here : state.place = .locking sending) :
      Step state (.ended .timeout) { state with place := .idle }
  | entered (state : State) (sending : Sending) (here : state.place = .entering sending)
      (good : sendCheck state.port (sendExpect state.port sending) = none) :
      Step state .quiet { state with place := .looping (sendExpect state.port sending) }
  | enteredLate (state : State) (sending : Sending) (here : state.place = .entering sending)
      (good : sendCheck state.port (sendExpect state.port sending) = none)
      (waits : sending.zeroWait = false) :
      Step state .quiet { state with place := .unlocking .timeout }
  | notEntered (state : State) (sending : Sending) (here : state.place = .entering sending)
      (result : UsbResult) (bad : sendCheck state.port (sendExpect state.port sending) = some result) :
      Step state .quiet { state with place := .unlocking result }
  | checked (state : State) (sending : Sending) (here : state.place = .looping sending)
      (good : sendCheck state.port sending = none) :
      Step state (.checked sending) { state with place := .polling sending }
  | notChecked (state : State) (sending : Sending) (here : state.place = .looping sending)
      (result : UsbResult) (bad : sendCheck state.port sending = some result) :
      Step state .quiet { state with place := .unlocking result }
  | endpointReady (state : State) (sending : Sending) (here : state.place = .polling sending) :
      Step state .quiet { state with place := .submitting sending }
  | endpointBusy (state : State) (sending : Sending) (here : state.place = .polling sending) :
      Step state .quiet { state with place := .full sending }
  | submitted (state : State) (sending : Sending) (here : state.place = .submitting sending) :
      Step state (.submitted sending true) { state with place := .unlocking .ok }
  | notSubmitted (state : State) (sending : Sending) (here : state.place = .submitting sending) :
      Step state (.submitted sending false) { state with place := .full sending }
  | woke (state : State) (sending : Sending) (here : state.place = .full sending)
      (waits : sending.zeroWait = false) :
      Step state .quiet { state with place := .looping sending }
  | timedOut (state : State) (sending : Sending) (here : state.place = .full sending) :
      Step state .quiet { state with place := .unlocking .timeout }
  | unlocked (state : State) (result : UsbResult) (here : state.place = .unlocking result) :
      Step state (.ended result) { state with place := .idle }

abbrev History : List Event → State → Prop := Runs.Run Step ⟨usbStarted, .idle⟩

def Event.onBus : Event → Bool
  | .bus _ => true
  | _ => false

def Event.renews : Event → Bool
  | .bus event => event.renews
  | _ => false

def checking (since : List Event) (event : Event) : List Event :=
  match event with
  | .checked _ => []
  | _ => since ++ [event]

def sinceCheck (past : List Event) : List Event := past.foldl checking []

theorem sinceCheck_snoc (past : List Event) (event : Event) :
    sinceCheck (past ++ [event]) = checking (sinceCheck past) event := by
  simp [sinceCheck]

structure Connected (port : Port) (sending : Sending) : Prop where
  started : port.started = true
  ready : port.bus.ready = true
  generation : usbUnmountGeneration port.bus = sending.expectedGeneration

theorem sendCheck_none {port : Port} {sending : Sending} (good : sendCheck port sending = none) :
    Connected port sending := by
  by_cases ready : (port.started && port.bus.ready) = true
  · by_cases same : usbUnmountGeneration port.bus = sending.expectedGeneration
    · rw [Bool.and_eq_true] at ready
      exact ⟨ready.1, ready.2, same⟩
    · simp [sendCheck, sendState, ready, same] at good
  · simp [sendCheck, sendState, ready] at good

def Place.passed : Place → Option Sending
  | .polling sending => some sending
  | .submitting sending => some sending
  | _ => none

structure Passed (since : List Event) (port : Port) (sending : Sending) (checked : Nat) : Prop where
  started : port.started = true
  generation : UInt32.ofNat checked = sending.expectedGeneration
  counted : port.bus.generation = checked + since.countP Event.renews
  ready : port.bus.generation = checked → port.bus.ready = true

theorem Passed.first {port : Port} {sending : Sending} (connected : Connected port sending) :
    Passed [] port sending port.bus.generation :=
  ⟨connected.started, connected.generation, rfl, fun _ => connected.ready⟩

theorem Passed.later {since : List Event} {port : Port} {sending : Sending} {checked : Nat}
    (passed : Passed since port sending checked) {event : Event} (still : event.renews = false) :
    Passed (since ++ [event]) port sending checked := by
  refine ⟨passed.started, passed.generation, ?_, passed.ready⟩
  rw [passed.counted, List.countP_append, List.countP_singleton, still]
  rfl

theorem Passed.bus {since : List Event} {port : Port} {sending : Sending} {checked : Nat}
    (passed : Passed since port sending checked) (event : BusEvent) :
    Passed (since ++ [.bus event]) (port.event event) sending checked := by
  have started : (port.event event).started = port.started := by cases event <;> rfl
  have counted := usbEvent_renews port.bus event
  refine ⟨started.trans passed.started, passed.generation, ?_, ?_⟩
  · rw [Port.event_bus, counted, passed.counted, List.countP_append, List.countP_singleton]
    change checked + _ + event.renews.toNat = checked + (_ + if event.renews = true then 1 else 0)
    cases event.renews <;> simp [Nat.add_assoc]
  · rw [Port.event_bus]
    intro same
    have grows := usbEvent_generation port.bus event
    have before : port.bus.generation = checked := by
      have above : checked ≤ port.bus.generation := by rw [passed.counted]; exact Nat.le_add_right _ _
      omega
    exact usbEvent_ready port.bus event (passed.ready before) (same.trans before.symm)

def Followed (past : List Event) (state : State) : Prop :=
  ∀ sending, state.place.passed = some sending →
    ∃ checked, Passed (sinceCheck past) state.port sending checked

theorem Followed.move {past : List Event} {state : State} (followed : Followed past state)
    {event : Event} {place : Place}
    (other : checking (sinceCheck past) event = sinceCheck past ++ [event])
    (still : event.renews = false)
    (from_ : ∀ sending, place.passed = some sending → state.place.passed = some sending) :
    Followed (past ++ [event]) { state with place := place } := by
  intro sending now
  rcases followed sending (from_ sending now) with ⟨checked, passed⟩
  rw [sinceCheck_snoc, other]
  exact ⟨checked, passed.later still⟩

theorem Step.followed {past : List Event} {state next : State} {event : Event}
    (step : Step state event next) (followed : Followed past state) :
    Followed (past ++ [event]) next := by
  have nothing : ∀ sending : Sending, none = some sending → state.place.passed = some sending :=
    fun _ impossible => by cases impossible
  cases step with
  | bus event =>
      intro sending now
      rcases followed sending now with ⟨checked, passed⟩
      rw [sinceCheck_snoc]
      exact ⟨checked, passed.bus event⟩
  | refused here result kind => exact followed.move rfl rfl (fun _ now => now)
  | checked sending here good =>
      intro other now
      cases now
      rw [sinceCheck_snoc]
      exact ⟨_, .first (sendCheck_none good)⟩
  | endpointReady sending here =>
      refine followed.move rfl rfl ?_
      intro other now
      rw [here]
      exact now
  | _ => exact followed.move rfl rfl nothing

theorem History.followed {past : List Event} {state : State} (run : History past state) :
    Followed past state := by
  refine Runs.Run.history run Followed ?_ (fun _ _ _ _ _ followed step => step.followed followed)
  intro sending impossible
  cases impossible

theorem Step.submits {state next : State} {sending : Sending} {accepted : Bool}
    (step : Step state (.submitted sending accepted) next) : state.place = .submitting sending := by
  generalize whole : Event.submitted sending accepted = event at step
  cases step with
  | submitted other here =>
      cases whole
      exact here
  | notSubmitted other here =>
      cases whole
      exact here
  | _ => cases whole

theorem Step.generation {state next : State} {event : Event} (step : Step state event next) :
    next.port.bus.generation = state.port.bus.generation + event.renews.toNat := by
  cases step with
  | bus event =>
      simp only [Port.event_bus]
      exact usbEvent_renews _ event
  | _ => rfl

theorem Event.renews_onBus (event : Event) (renews : event.renews = true) : event.onBus = true := by
  cases event <;> first | rfl | cases renews

theorem History.bound {past : List Event} {state : State} (run : History past state)
    (fewer : past.countP Event.onBus < 2 ^ 32) : state.port.bus.generation < 2 ^ 32 :=
  run.counted_lt (fun state => state.port.bus.generation) _ (fun _ _ _ step => step.generation) rfl
    Event.renews_onBus fewer

/-- A report is handed over on its own connection exactly when no attach, detach or suspend has
come between the last check and the call. The connection is the one that its number was read
from. -/
theorem report_stays_on_connection {past : List Event} {state next : State} {sending : Sending}
    {accepted : Bool} (run : History past state)
    (step : Step state (.submitted sending accepted) next) :
    ((∀ event ∈ sinceCheck past, event.renews = false) → Connected state.port sending) ∧
    (past.countP Event.onBus < 2 ^ 32 → Connected state.port sending →
      (∀ event ∈ sinceCheck past, event.renews = false) ∧
      ∀ connection, UInt32.ofNat connection = sending.expectedGeneration →
        connection ≤ state.port.bus.generation → connection = state.port.bus.generation) := by
  rcases History.followed run sending (by rw [step.submits]; rfl) with ⟨checked, passed⟩
  constructor
  · intro quiet
    have none : (sinceCheck past).countP Event.renews = 0 := by
      rw [List.countP_eq_zero]
      intro event member
      rw [quiet event member]
      exact Bool.false_ne_true
    have same : state.port.bus.generation = checked := by rw [passed.counted, none, Nat.add_zero]
    refine ⟨passed.started, passed.ready same, ?_⟩
    rw [usbUnmountGeneration, same]
    exact passed.generation
  · intro fewer connected
    have own : ∀ connection, UInt32.ofNat connection = sending.expectedGeneration →
        connection ≤ state.port.bus.generation → connection = state.port.bus.generation :=
      fun connection number past => generation_inj past (run.bound fewer)
        (number.trans connected.generation.symm)
    refine ⟨?_, own⟩
    have order : checked ≤ state.port.bus.generation := by
      rw [passed.counted]
      exact Nat.le_add_right _ _
    have same := own checked passed.generation order
    have zero : (sinceCheck past).countP Event.renews = 0 := by
      have counted := passed.counted
      omega
    intro event member
    rw [List.countP_eq_zero] at zero
    exact Bool.eq_false_iff.mpr (zero event member)

def pingSending : Sending := usbSendForGeneration (List.Vector.replicate 64 0) 1 false

theorem passed_run :
    ∃ state, History [.bus .attached, .quiet, .quiet, .quiet, .checked pingSending, .quiet] state ∧
      state.place = .submitting pingSending ∧ state.port = usbStarted.event .attached := by
  have attached := Runs.Run.nil.snoc (Step.bus ⟨usbStarted, .idle⟩ .attached)
  have began := attached.snoc (Step.began _ rfl (List.Vector.replicate 64 0) 1 false)
  have locked := began.snoc (Step.locked _ pingSending rfl)
  have entered := locked.snoc (Step.entered _ pingSending rfl rfl)
  have checked := entered.snoc (Step.checked _ pingSending rfl rfl)
  have polled := checked.snoc (Step.endpointReady _ pingSending rfl)
  exact ⟨_, polled, rfl, rfl⟩

/-- A detach after the check: the report goes out on a bus that has lost its connection. -/
theorem detached_report_is_submitted :
    ∃ past state next, History past state ∧ past.countP Event.onBus = 2 ∧
      Step state (.submitted pingSending true) next ∧ state.port.bus.ready = false ∧
      usbUnmountGeneration state.port.bus ≠ pingSending.expectedGeneration := by
  rcases passed_run with ⟨state, run, here, port⟩
  have detached := run.snoc (Step.bus state .detached)
  refine ⟨_, _, _, detached, rfl, Step.submitted _ pingSending here, rfl, ?_⟩
  simp only [Port.event_bus, port]
  decide

theorem checked_report_is_submitted :
    ∃ past state next, History past state ∧ Step state (.submitted pingSending true) next ∧
      Connected state.port pingSending := by
  rcases passed_run with ⟨state, run, here, -⟩
  have step := Step.submitted state pingSending here
  refine ⟨_, state, _, run, step, (report_stays_on_connection run step).1 ?_⟩
  decide

end P4Key.Usb.Send
