import P4Key.Hid.Pairing
import P4Key.Usb.Sections

/-! The transport task with the queue that it takes its reports from.

Here a critical section of the port, and everything that a task does while it holds
`s_core_mutex`, is one step. -/

namespace P4Key.Hid.Intake

open Memory P4Key.Ctaphid P4Key.Usb

/-- Where `transport_task` is: `hid_start` has not read the generation yet, or the places of
`Transport`, where `usb_take_with_generation` is before its first section, before the section that
pops, before the section that checks the generation again, or in its wait. -/
inductive Place where
  | starting
  | top
  | reset
  | observe
  | sync (generation : UInt32)
  | receive (epoch : UInt32)
  | polling (epoch : UInt32)
  | holding (epoch : UInt32) (item : Item)
  | waiting (epoch : UInt32)
  | cleanup
  | feed (epoch : UInt32) (item : Item)

def Place.waits : Place → Bool
  | .reset => true
  | .sync _ => true
  | .cleanup => true
  | .feed _ _ => true
  | _ => false

structure State where
  service : Service
  port : Port
  resetRequested : Bool
  place : Place

def State.claimReads (state : State) (resetPending : Bool) : ClaimReads :=
  ⟨resetPending, usbUnmountGeneration state.port.bus, usbReady state.port.bus⟩

def State.takeReads (state : State) : TakeReads :=
  ⟨state.resetRequested, usbReady state.port.bus, usbUnmountGeneration state.port.bus,
    usbUnmountGeneration state.port.bus⟩

def State.feedReads (state : State) (nowMs : UInt32) (draws : Draws) (send : SendReads) :
    FeedReads where
  currentUsbGeneration := usbUnmountGeneration state.port.bus
  resetRequested := state.resetRequested
  nowMs := nowMs
  draws := draws
  claim := state.claimReads false
  send := send

def State.transported (state : State) (epoch : UInt32) (item : Item) (reads : FeedReads) :
    Service × Bool × Outcome :=
  transportReport state.service epoch item.report (UInt32.ofNat item.generation) reads

def State.swept (state : State) : State :=
  { state with
    service := resetCore state.service
    port := usbDropPending state.port
    resetRequested := false }

inductive Event where
  | quiet
  | bus (event : BusEvent)
  | arrived (call : SetReport) (queued : Option Item)
  | requested
  | swept (reset : Bool)
  | synced (reset : Bool)
  | popped (item : Item)
  | cleaned (nowMs : UInt32)
  | reported (item : Item) (reset : Bool) (nowMs : UInt32) (outcome : Outcome)
  | took (task : Task) (cap : Nat) (outcome : TakeOutcome)

inductive Step : State → Event → State → Prop where
  | bus (state : State) (event : BusEvent) :
      Step state (.bus event) { state with port := state.port.event event }
  | arrived (state : State) (call : SetReport) :
      Step state (.arrived call (tudHidSetReportCb state.port call).2)
        { state with port := (tudHidSetReportCb state.port call).1 }
  /-- The end of `hid_start`. -/
  | opened (state : State) (here : state.place = .starting) :
      Step state .quiet
        { state with
          service := { state.service with
            seenUsbGeneration := usbUnmountGeneration state.port.bus }
          place := .top }
  | request (state : State) (open_ : state.place ≠ .starting) :
      Step state .requested { state with resetRequested := true }
  | resetAll (state : State) (open_ : state.place ≠ .starting) : Step state (.swept true) state.swept
  | notRequested (state : State) (here : state.place = .top) (flag : state.resetRequested = false) :
      Step state .quiet { state with place := .observe }
  | isRequested (state : State) (here : state.place = .top) (flag : state.resetRequested = true) :
      Step state .quiet { state with place := .reset }
  | processed (state : State) (here : state.place = .reset) (flag : state.resetRequested = true) :
      Step state (.swept true) { state.swept with place := .observe }
  | overtaken (state : State) (here : state.place = .reset) (flag : state.resetRequested = false) :
      Step state (.swept false) { state with place := .observe }
  | observed (state : State) (here : state.place = .observe) :
      Step state .quiet { state with place := .sync (usbUnmountGeneration state.port.bus) }
  | synced (state : State) (generation : UInt32) (here : state.place = .sync generation) :
      Step state (.synced (syncUsbBeforeTake state.service generation).2)
        { state with
          service := (syncUsbBeforeTake state.service generation).1
          place := .receive (syncUsbBeforeTake state.service generation).1.resetEpoch }
  | began (state : State) (epoch : UInt32) (here : state.place = .receive epoch)
      (started : (takeStart state.port false).2 = true) :
      Step state .quiet
        { state with port := (takeStart state.port false).1, place := .polling epoch }
  | stopped (state : State) (epoch : UInt32) (here : state.place = .receive epoch)
      (stopped : (takeStart state.port false).2 = false) :
      Step state .quiet { state with port := (takeStart state.port false).1, place := .top }
  | popped (state : State) (epoch : UInt32) (here : state.place = .polling epoch) (item : Item)
      (found : (takePop state.port).2 = .held item) :
      Step state (.popped item)
        { state with port := (takePop state.port).1, place := .holding epoch item }
  | popFailed (state : State) (epoch : UInt32) (here : state.place = .polling epoch)
      (result : UsbResult) (failed : (takePop state.port).2 = .failed result) :
      Step state .quiet { state with port := (takePop state.port).1, place := .top }
  | empty (state : State) (epoch : UInt32) (here : state.place = .polling epoch)
      (nothing : (takePop state.port).2 = .empty) :
      Step state .quiet { state with port := (takePop state.port).1, place := .waiting epoch }
  | woke (state : State) (epoch : UInt32) (here : state.place = .waiting epoch) :
      Step state .quiet { state with place := .polling epoch }
  | timedOut (state : State) (epoch : UInt32) (here : state.place = .waiting epoch) :
      Step state .quiet { state with place := .cleanup }
  | checked (state : State) (epoch : UInt32) (item : Item) (here : state.place = .holding epoch item)
      (good : (takeCheck state.port item false).2 = true) :
      Step state .quiet
        { state with port := (takeCheck state.port item false).1, place := .feed epoch item }
  | stale (state : State) (epoch : UInt32) (item : Item) (here : state.place = .holding epoch item)
      (bad : (takeCheck state.port item false).2 = false) :
      Step state .quiet { state with port := (takeCheck state.port item false).1, place := .top }
  | cleaned (state : State) (here : state.place = .cleanup) (nowMs : UInt32) :
      Step state (.cleaned nowMs)
        { state with
          service := { state.service with core := coreCleanup state.service.core nowMs }
          place := .top }
  | reported (state : State) (epoch : UInt32) (item : Item) (here : state.place = .feed epoch item)
      (nowMs : UInt32) (draws : Draws) (send : SendReads) :
      Step state
        (.reported item (state.transported epoch item (state.feedReads nowMs draws send)).2.1 nowMs
          (state.transported epoch item (state.feedReads nowMs draws send)).2.2)
        { service := (state.transported epoch item (state.feedReads nowMs draws send)).1
          port := if state.resetRequested then usbDropPending state.port else state.port
          resetRequested := false
          place := .top }
  /-- The mutex was not free in time. -/
  | gaveUp (state : State) (here : state.place.waits = true) :
      Step state .quiet { state with place := .top }
  | took (state : State) (open_ : state.place ≠ .starting) (task : Task) (cap : Nat) :
      Step state (.took task cap (hidTakeMsg state.service task cap state.takeReads).2)
        { state with service := (hidTakeMsg state.service task cap state.takeReads).1 }

def started : State := ⟨{ seenUsbGeneration := 0 }, usbStarted, false, .starting⟩

abbrev History : List Event → State → Prop := Runs.Run Step started

/-! The transport system without the queue. -/

def Place.transport : Place → Transport
  | .starting => .top
  | .top => .top
  | .reset => .reset
  | .observe => .observe
  | .sync generation => .sync generation
  | .receive epoch => .receive epoch
  | .polling epoch => .receive epoch
  | .holding epoch _ => .receive epoch
  | .waiting epoch => .receive epoch
  | .cleanup => .cleanup
  | .feed epoch item => .feed epoch item.report (UInt32.ofNat item.generation)

def State.view (state : State) : Hid.State where
  service := state.service
  flags := ⟨state.port.bus, state.resetRequested⟩
  transport := state.place.transport

def Event.view : Event → Hid.Event
  | .quiet => .quiet
  | .bus event => .bus event
  | .arrived _ _ => .quiet
  | .requested => .requested
  | .swept reset => .swept reset
  | .synced reset => .swept reset
  | .popped _ => .quiet
  | .cleaned nowMs => .cleaned nowMs
  | .reported item reset _ outcome => .reported item.report reset outcome
  | .took task cap outcome => .took task cap outcome

theorem claimReads_along (state : State) (pending : Bool) :
    (state.claimReads pending).Along ⟨state.port.bus, pending⟩ ⟨state.port.bus, pending⟩ :=
  ⟨_, _, _, .refl, rfl, .refl, rfl, .refl, rfl, .refl⟩

theorem takeReads_along (state : State) : state.takeReads.Along state.view.flags state.view.flags :=
  ⟨_, _, _, _, .refl, rfl, .refl, rfl, .refl, rfl, .refl, rfl, .refl⟩

theorem feedReads_along (state : State) (nowMs : UInt32) (draws : Draws) (send : SendReads) :
    (state.feedReads nowMs draws send).Along state.view.flags ⟨state.port.bus, false⟩ :=
  ⟨_, _, .refl, rfl, .refl, rfl, claimReads_along state false⟩

theorem unseen {state next : State} (same : next.view = state.view) :
    Hid.Step state.view .quiet next.view := by
  rw [same]
  exact .refused _

theorem view_popped (state : State) (epoch : UInt32) (here : state.place = .polling epoch)
    (place : Place) (there : place.transport = .receive epoch) :
    State.view { state with port := (takePop state.port).1, place := place } = state.view := by
  have before : state.place.transport = .receive epoch := by rw [here]; rfl
  simp only [State.view, takePop_bus, there, before]

/-- After `hid_start` every step is a step of the transport system. -/
theorem Step.view {state next : State} {event : Event} (step : Step state event next)
    (open_ : state.place ≠ .starting) : Hid.Step state.view event.view next.view := by
  cases step with
  | bus event =>
      have seen := Hid.Step.bus state.view event
      simp only [State.view, Port.event_bus]
      exact seen
  | arrived call =>
      apply unseen
      simp only [State.view, tudHidSetReportCb_bus]
  | opened here => exact absurd here open_
  | request _ => exact .request state.view
  | resetAll _ => exact .resetAll state.view _ _ .refl .refl
  | notRequested here flag => exact .notRequested state.view (by rw [State.view, here]; rfl) flag
  | isRequested here flag => exact .isRequested state.view (by rw [State.view, here]; rfl) flag
  | processed here flag =>
      exact .processed state.view (by rw [State.view, here]; rfl) _ _ .refl flag .refl
  | overtaken here flag =>
      exact .overtaken state.view (by rw [State.view, here]; rfl) _ .refl flag
  | observed here => exact .observed state.view (by rw [State.view, here]; rfl)
  | synced generation here => exact .synced state.view generation (by rw [State.view, here]; rfl)
  | began epoch here started =>
      apply unseen
      simp only [State.view, (takeStart_port false).1, here, Place.transport]
  | stopped epoch here stopped =>
      have seen := Hid.Step.gaveUp state.view (by rw [State.view, here]; rfl)
      simp only [State.view, (takeStart_port false).1] at seen ⊢
      exact seen
  | popped epoch here item found => exact unseen (view_popped state epoch here _ rfl)
  | popFailed epoch here result failed =>
      have seen := Hid.Step.gaveUp state.view (by rw [State.view, here]; rfl)
      simp only [State.view, takePop_bus] at seen ⊢
      exact seen
  | empty epoch here nothing => exact unseen (view_popped state epoch here _ rfl)
  | woke epoch here =>
      apply unseen
      simp only [State.view, here, Place.transport]
  | timedOut epoch here =>
      exact .receivedNothing state.view epoch (by rw [State.view, here]; rfl)
  | checked epoch item here good =>
      rcases takeCheck_ok.mp good with ⟨ready, same⟩
      have seen := Hid.Step.received state.view epoch (by rw [State.view, here]; rfl) item.report ready
      simp only [State.view, (takeCheck_port item false).1, Place.transport, ← same] at seen ⊢
      exact seen
  | stale epoch item here bad =>
      have seen := Hid.Step.gaveUp state.view (by rw [State.view, here]; rfl)
      simp only [State.view, (takeCheck_port item false).1] at seen ⊢
      exact seen
  | cleaned here nowMs => exact .cleaned state.view (by rw [State.view, here]; rfl) nowMs
  | reported epoch item here nowMs draws send =>
      have seen := Hid.Step.reported state.view epoch item.report (UInt32.ofNat item.generation)
        (by rw [State.view, here]; rfl) _ _ (feedReads_along state nowMs draws send)
      have bus : (if state.resetRequested then usbDropPending state.port else state.port).bus =
          state.port.bus := by
        split <;> rfl
      simp only [State.view, bus]
      exact seen
  | gaveUp here =>
      refine .gaveUp state.view ?_
      have waits : state.place.transport.waits = true := by
        revert here
        cases state.place <;> intro here <;> first | rfl | cases here
      exact waits
  | took _ task cap => exact .took state.view task cap _ _ (takeReads_along state)

end P4Key.Hid.Intake
