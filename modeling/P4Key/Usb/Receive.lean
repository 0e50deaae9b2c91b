import P4Key.Library.Runs
import P4Key.Usb.Sections

/-! The receive path of p4_usb.c with one consumer.

Callbacks, the bus and the consumer share the port; each critical section is one step. -/

namespace P4Key.Usb.Receive

open Memory

/-- Where the consumer is: outside, before the section that pops, before the section that checks
the generation again, or in the wait for `s_rx_wake`. -/
inductive Consumer where
  | idle
  | looping (remember : Bool)
  | holding (remember : Bool) (item : Item)
  | waiting (remember : Bool)

structure State where
  port : Port
  consumer : Consumer

inductive Event where
  | quiet
  | bus (event : BusEvent)
  | reported (call : SetReport) (queued : Option Item)
  | dropped
  | failed (result : UsbResult)
  /-- `P4_USB_OK`. Unless it remembers the generation the call stores it for its caller. -/
  | returned (remember : Bool) (item : Item)

inductive Step : State → Event → State → Prop where
  | bus (state : State) (event : BusEvent) :
      Step state (.bus event) { state with port := state.port.event event }
  | reported (state : State) (call : SetReport) :
      Step state (.reported call (tudHidSetReportCb state.port call).2)
        { state with port := (tudHidSetReportCb state.port call).1 }
  | dropped (state : State) : Step state .dropped { state with port := usbDropPending state.port }
  /-- A call with a NULL argument. -/
  | argument (state : State) : Step state (.failed .arg) state
  | refused (state : State) (here : state.consumer = .idle) (remember : Bool)
      (stopped : (takeStart state.port remember).2 = false) :
      Step state (.failed .state) { state with port := (takeStart state.port remember).1 }
  | began (state : State) (here : state.consumer = .idle) (remember : Bool)
      (started : (takeStart state.port remember).2 = true) :
      Step state .quiet { port := (takeStart state.port remember).1, consumer := .looping remember }
  | held (state : State) (remember : Bool) (here : state.consumer = .looping remember) (item : Item)
      (popped : (takePop state.port).2 = .held item) :
      Step state .quiet { port := (takePop state.port).1, consumer := .holding remember item }
  | popFailed (state : State) (remember : Bool) (here : state.consumer = .looping remember)
      (result : UsbResult) (popped : (takePop state.port).2 = .failed result) :
      Step state (.failed result) { port := (takePop state.port).1, consumer := .idle }
  | empty (state : State) (remember : Bool) (here : state.consumer = .looping remember)
      (popped : (takePop state.port).2 = .empty) :
      Step state .quiet { port := (takePop state.port).1, consumer := .waiting remember }
  | woke (state : State) (remember : Bool) (here : state.consumer = .waiting remember) :
      Step state .quiet { state with consumer := .looping remember }
  | timedOut (state : State) (remember : Bool) (here : state.consumer = .waiting remember) :
      Step state (.failed .timeout) { state with consumer := .idle }
  | returned (state : State) (remember : Bool) (item : Item)
      (here : state.consumer = .holding remember item)
      (good : (takeCheck state.port item remember).2 = true) :
      Step state (.returned remember item)
        { port := (takeCheck state.port item remember).1, consumer := .idle }
  | stale (state : State) (remember : Bool) (item : Item)
      (here : state.consumer = .holding remember item)
      (bad : (takeCheck state.port item remember).2 = false) :
      Step state (.failed .stale)
        { port := (takeCheck state.port item remember).1, consumer := .idle }

abbrev History : List Event → State → Prop := Runs.Run Step ⟨usbStarted, .idle⟩

def Event.accepted : Event → Option Item
  | .reported _ queued => queued
  | _ => none

def Event.delivered : Event → Option Item
  | .returned _ item => some item
  | _ => none

def Event.onBus : Event → Bool
  | .bus _ => true
  | _ => false

def Event.renews : Event → Bool
  | .bus event => event.renews
  | _ => false

/-- Reports may be lost here. -/
def Event.flushes : Event → Bool
  | .dropped => true
  | event => event.renews

/-! What holds in every state. -/

structure Valid (state : State) : Prop where
  port : state.port.Valid
  held : ∀ remember item, state.consumer = .holding remember item →
    item.generation ≤ state.port.bus.generation ∧
      (item.generation = state.port.bus.generation → state.port.bus.ready = true)

theorem Valid.empty_handed {state : State} (port : state.port.Valid)
    (nothing : ∀ remember item, state.consumer ≠ .holding remember item) : Valid state :=
  ⟨port, fun remember item holds => absurd holds (nothing remember item)⟩

theorem Step.valid {state next : State} {event : Event} (step : Step state event next)
    (valid : Valid state) : Valid next := by
  have port := valid.port
  cases step with
  | bus event =>
      refine ⟨port.event event, ?_⟩
      intro remember item holds
      simp only [Port.event_bus]
      have grows := usbEvent_generation state.port.bus event
      rcases valid.held remember item holds with ⟨past, ready⟩
      refine ⟨Nat.le_trans past grows, ?_⟩
      intro same
      have stays := Nat.le_antisymm (same ▸ past) grows
      exact usbEvent_ready state.port.bus event (ready (same.trans stays)) stays
  | reported call =>
      refine ⟨port.report call, ?_⟩
      simp only [tudHidSetReportCb_bus]
      exact valid.held
  | dropped => exact ⟨.drop _, valid.held⟩
  | argument => exact valid
  | refused here remember stopped =>
      refine ⟨port.start remember, ?_⟩
      simp only [(takeStart_port remember).1]
      exact valid.held
  | began here remember started => exact .empty_handed (port.start remember) (by simp)
  | held remember here item popped =>
      refine ⟨port.pop, ?_⟩
      intro remember' item' holds
      cases holds
      rcases port.held popped with ⟨current, ready⟩
      simp only [takePop_bus]
      exact ⟨Nat.le_of_eq current, fun _ => ready⟩
  | popFailed remember here result popped => exact .empty_handed port.pop (by simp)
  | empty remember here popped => exact .empty_handed port.pop (by simp)
  | woke remember here => exact .empty_handed port (by simp)
  | timedOut remember here => exact .empty_handed port (by simp)
  | returned remember item here good =>
      exact .empty_handed (port.check remember (valid.held remember item here).1) (by simp)
  | stale remember item here bad =>
      exact .empty_handed (port.check remember (valid.held remember item here).1) (by simp)

theorem Valid.start : Valid ⟨usbStarted, .idle⟩ := .empty_handed (.of_empty rfl rfl) (by simp)

theorem History.valid {past : List Event} {state : State} (run : History past state) : Valid state :=
  Runs.Run.invariant run Valid .start fun _ _ _ valid step => step.valid valid

/-! Order. -/

def Consumer.item : Consumer → List Item
  | .holding _ item => [item]
  | _ => []

def State.inside (state : State) : List Item := state.consumer.item ++ state.port.rxQueue.toList

/-- What a step takes in and gives out. Reports may get lost in it. -/
theorem Step.keeps_order {state next : State} {event : Event} (step : Step state event next)
    (valid : Valid state) :
    (event.delivered.toList ++ next.inside).Sublist (state.inside ++ event.accepted.toList) := by
  have port := valid.port
  cases step with
  | bus event =>
      simp only [Event.delivered, Event.accepted, State.inside, Option.toList_none, List.nil_append,
        List.append_nil]
      apply List.Sublist.append_left
      cases event with
      | resumed => exact List.Sublist.refl _
      | attached => exact List.nil_sublist _
      | detached => exact List.nil_sublist _
      | suspended => exact List.nil_sublist _
  | reported call =>
      simp only [Event.delivered, Event.accepted, State.inside, Option.toList_none, List.nil_append,
        List.append_assoc]
      apply List.Sublist.append_left
      cases queued : (tudHidSetReportCb state.port call).2 with
      | none =>
          rw [(tudHidSetReportCb_none call).2 queued]
          exact List.sublist_append_left _ _
      | some item =>
          rw [(tudHidSetReportCb_some queued).2.2.2]
          exact List.Sublist.refl _
  | dropped =>
      simp only [Event.delivered, Event.accepted, State.inside, Option.toList_none, List.nil_append,
        List.append_nil]
      exact List.Sublist.append_left (List.nil_sublist _) _
  | argument => simp [Event.delivered, Event.accepted]
  | refused here remember stopped =>
      simp [Event.delivered, Event.accepted, State.inside, (takeStart_port remember).2]
  | began here remember started =>
      simp [Event.delivered, Event.accepted, State.inside, (takeStart_port remember).2, here,
        Consumer.item]
  | held remember here item popped =>
      simp [Event.delivered, Event.accepted, State.inside, here, Consumer.item, takePop_held popped]
  | popFailed remember here result popped =>
      have same := takePop_other port.ready port.queued (by simp [popped])
      simp [Event.delivered, Event.accepted, State.inside, here, Consumer.item, same.2]
  | empty remember here popped =>
      have same := takePop_other port.ready port.queued (by simp [popped])
      simp [Event.delivered, Event.accepted, State.inside, here, Consumer.item, same.2]
  | woke remember here =>
      simp [Event.delivered, Event.accepted, State.inside, here, Consumer.item]
  | timedOut remember here =>
      simp [Event.delivered, Event.accepted, State.inside, here, Consumer.item]
  | returned remember item here good =>
      simp [Event.delivered, Event.accepted, State.inside, here, Consumer.item,
        (takeCheck_port item remember).2]
  | stale remember item here bad =>
      simp [Event.delivered, Event.accepted, State.inside, here, Consumer.item,
        (takeCheck_port item remember).2]

theorem filterMap_snoc {Item' : Type} (f : Event → Option Item') (past : List Event) (event : Event) :
    (past ++ [event]).filterMap f = past.filterMap f ++ (f event).toList := by
  rw [List.filterMap_append]
  cases found : f event <;> simp [found]

theorem History.in_order {past : List Event} {state : State} (run : History past state) :
    (past.filterMap Event.delivered ++ state.inside).Sublist (past.filterMap Event.accepted) := by
  refine Runs.Run.history run (fun past state =>
    (past.filterMap Event.delivered ++ state.inside).Sublist (past.filterMap Event.accepted)) ?_ ?_
  · exact List.Sublist.refl _
  · intro past state event next before order step
    have one := step.keeps_order (History.valid before)
    rw [filterMap_snoc, filterMap_snoc, List.append_assoc]
    have first := List.Sublist.append_left one (past.filterMap Event.delivered)
    refine first.trans ?_
    rw [← List.append_assoc]
    exact order.append_right _

/-! Loss. -/

/-- The counter does not come back to a generation within 2^32 events of the bus. -/
theorem generation_inj {first second : Nat} (order : first ≤ second) (bound : second < 2 ^ 32)
    (same : UInt32.ofNat first = UInt32.ofNat second) : first = second := by
  have values := congrArg UInt32.toNat same
  rw [UInt32.toNat_ofNat', UInt32.toNat_ofNat', Nat.mod_eq_of_lt (Nat.lt_of_le_of_lt order bound),
    Nat.mod_eq_of_lt bound] at values
  exact values

def State.holds (state : State) : List Item :=
  state.consumer.item.filter fun item => item.generation = state.port.bus.generation

def State.waiting (state : State) : List Item := state.holds ++ state.port.rxQueue.toList

theorem State.waiting_empty_handed {state : State} (nothing : state.consumer.item = []) :
    state.waiting = state.port.rxQueue.toList := by
  rw [State.waiting, State.holds, nothing]
  rfl

theorem State.waiting_current {state : State} {remember : Bool} {item : Item}
    (here : state.consumer = .holding remember item)
    (current : item.generation = state.port.bus.generation) :
    state.waiting = item :: state.port.rxQueue.toList := by
  rw [State.waiting, State.holds, here]
  simp [Consumer.item, current]

theorem State.waiting_stale {state : State} {remember : Bool} {item : Item}
    (here : state.consumer = .holding remember item)
    (stale : item.generation ≠ state.port.bus.generation) :
    state.waiting = state.port.rxQueue.toList := by
  rw [State.waiting, State.holds, here]
  simp [Consumer.item, stale]

theorem Step.conserves {state next : State} {event : Event} (step : Step state event next)
    (valid : Valid state) (bound : state.port.bus.generation < 2 ^ 32)
    (keeps : event.flushes = false) :
    state.waiting ++ event.accepted.toList = event.delivered.toList ++ next.waiting := by
  have port := valid.port
  cases step with
  | bus event =>
      cases event with
      | resumed => exact List.append_nil _
      | attached => cases keeps
      | detached => cases keeps
      | suspended => cases keeps
  | reported call =>
      simp only [Event.accepted, Event.delivered, State.waiting, State.holds, tudHidSetReportCb_bus,
        Option.toList_none, List.nil_append, List.append_assoc]
      congr 1
      cases queued : (tudHidSetReportCb state.port call).2 with
      | none =>
          rw [(tudHidSetReportCb_none call).2 queued]
          exact List.append_nil _
      | some item => exact (tudHidSetReportCb_some queued).2.2.2.symm
  | dropped => cases keeps
  | argument => exact List.append_nil _
  | refused here remember stopped =>
      simp [Event.delivered, Event.accepted, State.waiting, State.holds, takeStart_port remember]
  | began here remember started =>
      simp [Event.delivered, Event.accepted, State.waiting, State.holds, takeStart_port remember, here,
        Consumer.item]
  | held remember here item popped =>
      rw [State.waiting_empty_handed (by rw [here]; rfl), takePop_held popped,
        State.waiting_current rfl (by rw [takePop_bus]; exact (port.held popped).1)]
      exact List.append_nil _
  | popFailed remember here result popped =>
      have same := takePop_other port.ready port.queued (by simp [popped])
      rw [State.waiting_empty_handed (by rw [here]; rfl), State.waiting_empty_handed rfl, same.2]
      exact List.append_nil _
  | empty remember here popped =>
      have same := takePop_other port.ready port.queued (by simp [popped])
      rw [State.waiting_empty_handed (by rw [here]; rfl), State.waiting_empty_handed rfl, same.2]
      exact List.append_nil _
  | woke remember here =>
      rw [State.waiting_empty_handed (by rw [here]; rfl), State.waiting_empty_handed rfl]
      exact List.append_nil _
  | timedOut remember here =>
      rw [State.waiting_empty_handed (by rw [here]; rfl), State.waiting_empty_handed rfl]
      exact List.append_nil _
  | returned remember item here good =>
      have same := generation_inj (valid.held remember item here).1 bound (takeCheck_ok.mp good).2.symm
      rw [State.waiting_current here same, State.waiting_empty_handed rfl,
        (takeCheck_port item remember).2]
      exact List.append_nil _
  | stale remember item here bad =>
      have stale : item.generation ≠ state.port.bus.generation := by
        intro same
        have good : (takeCheck state.port item remember).2 = true := by
          rw [takeCheck_ok, same]
          exact ⟨(valid.held remember item here).2 same, rfl⟩
        rw [bad] at good
        cases good
      rw [State.waiting_stale here stale, State.waiting_empty_handed rfl,
        (takeCheck_port item remember).2]
      exact List.append_nil _

theorem Step.generation {state next : State} {event : Event} (step : Step state event next) :
    next.port.bus.generation = state.port.bus.generation + event.renews.toNat := by
  cases step with
  | bus event =>
      simp only [Port.event_bus]
      exact usbEvent_renews _ event
  | reported call => simp only [tudHidSetReportCb_bus]; rfl
  | dropped => rfl
  | argument => rfl
  | refused here remember stopped => simp only [(takeStart_port remember).1]; rfl
  | began here remember started => simp only [(takeStart_port remember).1]; rfl
  | held remember here item popped => simp only [takePop_bus]; rfl
  | popFailed remember here result popped => simp only [takePop_bus]; rfl
  | empty remember here popped => simp only [takePop_bus]; rfl
  | woke remember here => rfl
  | timedOut remember here => rfl
  | returned remember item here good => simp only [(takeCheck_port item remember).1]; rfl
  | stale remember item here bad => simp only [(takeCheck_port item remember).1]; rfl

theorem generation_run {start state : State} {past : List Event}
    (run : Runs.Run Step start past state) :
    state.port.bus.generation = start.port.bus.generation + past.countP Event.renews :=
  run.counted (fun state => state.port.bus.generation) _ fun _ _ _ step => step.generation

theorem conserves_run {start state : State} {past : List Event}
    (run : Runs.Run Step start past state) (valid : Valid start)
    (bound : state.port.bus.generation < 2 ^ 32) (keeps : ∀ event ∈ past, event.flushes = false) :
    start.waiting ++ past.filterMap Event.accepted =
      past.filterMap Event.delivered ++ state.waiting := by
  induction run with
  | nil => exact List.append_nil _
  | @snoc past middle next event run step ih =>
      have before : middle.port.bus.generation < 2 ^ 32 :=
        Nat.lt_of_le_of_lt (by rw [step.generation]; exact Nat.le_add_right _ _) bound
      have first := ih before fun event member => keeps event (List.mem_append_left _ member)
      have middle_valid := run.invariant Valid valid fun _ _ _ valid step => step.valid valid
      have last := step.conserves middle_valid before
        (keeps event (List.mem_append_right _ (List.mem_singleton.mpr rfl)))
      calc start.waiting ++ (past ++ [event]).filterMap Event.accepted
          = (start.waiting ++ past.filterMap Event.accepted) ++ event.accepted.toList := by
            rw [filterMap_snoc, List.append_assoc]
        _ = past.filterMap Event.delivered ++ (middle.waiting ++ event.accepted.toList) := by
            rw [first, List.append_assoc]
        _ = (past ++ [event]).filterMap Event.delivered ++ next.waiting := by
            rw [last, filterMap_snoc, List.append_assoc]

theorem History.generation {past : List Event} {state : State} (run : History past state) :
    state.port.bus.generation = past.countP Event.renews := by
  have counted := generation_run run
  rw [counted]
  exact Nat.zero_add _

theorem Event.renews_onBus (event : Event) (renews : event.renews = true) : event.onBus = true := by
  cases event <;> first | rfl | cases renews

theorem History.bound {past : List Event} {state : State} (run : History past state)
    (fewer : past.countP Event.onBus < 2 ^ 32) : state.port.bus.generation < 2 ^ 32 :=
  run.counted_lt (fun state => state.port.bus.generation) _ (fun _ _ _ step => step.generation) rfl
    Event.renews_onBus fewer

/-- What was accepted is the buffer of the call, and carries the generation of that moment. -/
theorem History.accepts {past front back : List Event} {state : State} {call : SetReport} {item : Item}
    (run : History past state) (split : past = front ++ .reported call (some item) :: back) :
    call.buffer = some item.report.toList ∧ item.generation = front.countP Event.renews := by
  subst split
  rcases run.at_event with ⟨before, after, first, step, -⟩
  generalize whole : Event.reported call (some item) = event at step
  cases step with
  | reported call' =>
      injection whole with sameCall queued
      subst sameCall
      rcases tudHidSetReportCb_some queued.symm with ⟨carried, current, -, -⟩
      exact ⟨SetReport.report_bytes carried, current.trans (History.generation first)⟩
  | _ => cases whole

/-- In every state the port belongs to one connection. What is given out was accepted, in this
order and at most once, with the generation of its arrival; between two flushes nothing is lost;
and a call is refused only without a report, on a connection that is not ready, or when eight
reports wait, which then stay as they are. -/
theorem receive_path_is_a_queue {past : List Event} {state : State} (run : History past state)
    (fewer : past.countP Event.onBus < 2 ^ 32) :
    (state.port.bus.ready = true → state.port.bus.mounted = true) ∧
    (state.port.rxQueue.toList ≠ [] → state.port.bus.ready = true) ∧
    (∀ item ∈ state.port.rxQueue.toList, item.generation = state.port.bus.generation) ∧
    (state.port.haveTakeGeneration = true → state.port.takeGeneration = state.port.bus.generation) ∧
    (past.filterMap Event.delivered).Sublist (past.filterMap Event.accepted) ∧
    (∀ front call item back, past = front ++ .reported call (some item) :: back →
      call.buffer = some item.report.toList ∧ item.generation = front.countP Event.renews) ∧
    (∀ front back middle, past = front ++ back → History front middle →
      Runs.Run Step middle back state → (∀ event ∈ back, event.flushes = false) →
      middle.waiting ++ back.filterMap Event.accepted =
        back.filterMap Event.delivered ++ state.waiting) ∧
    (∀ call, (tudHidSetReportCb state.port call).2 = none →
      (call.report = none ∨ state.port.bus.ready = false ∨
        state.port.rxQueue.toList.length = rxQueueDepth) ∧
      (tudHidSetReportCb state.port call).1 = state.port) := by
  have valid := History.valid run
  have bound := run.bound fewer
  refine ⟨state.port.bus.mounted_of_ready, valid.port.ready, valid.port.queued, ?_, ?_, ?_, ?_, ?_⟩
  · intro taken
    rcases valid.port.taken taken with ⟨same, past⟩
    exact generation_inj past bound same
  · exact (List.sublist_append_left _ _).trans run.in_order
  · intro front call item back split
    exact run.accepts split
  · intro front back middle split first second keeps
    exact conserves_run second (History.valid first) bound keeps
  · intro call refused
    exact ⟨(tudHidSetReportCb_none call).1.mp refused, (tudHidSetReportCb_none call).2 refused⟩

def pingCall : SetReport := { buffer := some (zeros reportBytes) }

/-- A report of eight bytes is refused by a port that is ready and has nothing waiting. -/
theorem short_report_is_refused :
    ∃ past state call, History past state ∧ past.countP Event.onBus < 2 ^ 32 ∧
      (tudHidSetReportCb state.port call).2 = none ∧ state.port.bus.ready = true ∧
      state.port.rxQueue.toList = [] :=
  ⟨_, _, { buffer := some (zeros 8) }, Runs.Run.nil.snoc (.bus _ .attached), by decide, rfl, rfl, rfl⟩

/-- A report that arrives on a new connection is accepted and waits. -/
theorem first_report_waits :
    ∃ state, History [.bus .attached, .reported pingCall (tudHidSetReportCb
        (usbStarted.event .attached) pingCall).2] state ∧
      (tudHidSetReportCb (usbStarted.event .attached) pingCall).2.isSome ∧
      (∀ item ∈ state.port.rxQueue.toList, item.generation = state.port.bus.generation) := by
  have attached := Runs.Run.nil.snoc (Step.bus ⟨usbStarted, .idle⟩ .attached)
  have reported := attached.snoc (Step.reported _ pingCall)
  exact ⟨_, reported, by decide, (receive_path_is_a_queue reported (by decide)).2.2.1⟩

end P4Key.Usb.Receive
