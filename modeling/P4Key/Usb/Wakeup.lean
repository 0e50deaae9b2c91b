import P4Key.Library.Wakeup
import P4Key.Usb.Receive

/-! `s_rx_wake`: who waits for a report is woken by it, and by every change of the bus. -/

namespace P4Key.Usb.Receive

open Memory

/-- An event of the receive path, or a way out of the wait that takes the semaphore. -/
inductive Stir where
  | port (event : Event)
  | woke
  /-- The time was over when the semaphore had been taken. -/
  | lapsed

def Consumer.asleep : Consumer → Bool
  | .waiting _ => true
  | _ => false

def State.asleep (state : State) : Bool := state.consumer.asleep

inductive Move : State → Stir → State → Prop where
  | port {state next : State} {event : Event} (step : Step state event next)
      (unwoken : state.asleep = true → ∀ remember, next.consumer ≠ .looping remember) :
      Move state (.port event) next
  | woke (state : State) (remember : Bool) (here : state.consumer = .waiting remember) :
      Move state .woke { state with consumer := .looping remember }
  | lapsed (state : State) (remember : Bool) (here : state.consumer = .waiting remember) :
      Move state .lapsed { state with consumer := .idle }

/-- The semaphore only restrains the receive path. -/
theorem Move.step {state next : State} {stir : Stir} (move : Move state stir next) :
    ∃ event, Step state event next := by
  cases move with
  | port step unwoken => exact ⟨_, step⟩
  | woke remember here => exact ⟨_, .woke state remember here⟩
  | lapsed remember here => exact ⟨_, .timedOut state remember here⟩

/-- There is a report, or the connection is gone: `usb_take` would not wait. -/
def State.Ready (state : State) : Prop :=
  state.port.rxQueue.toList ≠ [] ∨ state.port.bus.ready = false

/-- Who gives `s_rx_wake`: `usb_event`, and the callback that has queued a report. -/
def Stir.signals : Stir → Bool
  | .port (.bus _) => true
  | .port (.reported _ (some _)) => true
  | _ => false

theorem takePop_nil {port : Port} (none : port.rxQueue.toList = []) :
    (takePop port).1.rxQueue = port.rxQueue := by
  rw [takePop]
  cases found : queuePop port.rxQueue with
  | mk front rest =>
      cases front with
      | none => exact (queuePop_none found).2
      | some item =>
          rw [queuePop_some found] at none
          cases none

theorem takePop_empty {port : Port} (popped : (takePop port).2 = .empty) :
    (takePop port).1.rxQueue.toList = [] ∧ port.bus.ready = true := by
  rw [takePop] at popped ⊢
  cases found : queuePop port.rxQueue with
  | mk front rest =>
      rw [found] at popped
      cases front with
      | some item =>
          simp only at popped
          split at popped <;> cases popped
      | none =>
          obtain ⟨nothing, same⟩ := queuePop_none found
          simp only at popped ⊢
          cases ready : port.bus.ready with
          | false =>
              rw [ready] at popped
              cases popped
          | true => exact ⟨by rw [same]; exact nothing, rfl⟩

theorem not_ready {state : State} (quiet : ¬ state.Ready) :
    state.port.rxQueue.toList = [] ∧ state.port.bus.ready = true := by
  simpa [State.Ready, not_or] using quiet

theorem popped_quiet {state next : State} (quiet : ¬ state.Ready)
    (port : next.port = (takePop state.port).1) : ¬ next.Ready := by
  obtain ⟨nothing, ready⟩ := not_ready quiet
  rw [State.Ready, port, takePop_nil nothing, takePop_bus]
  exact quiet

theorem Move.appears {state next : State} {stir : Stir} (move : Move state stir next)
    (quiet : ¬ state.Ready) (there : next.Ready) : stir.signals = true := by
  cases move with
  | woke remember here => exact absurd there quiet
  | lapsed remember here => exact absurd there quiet
  | port step unwoken =>
      cases step with
      | bus event => rfl
      | reported call =>
          cases queued : (tudHidSetReportCb state.port call).2 with
          | some item => rfl
          | none =>
              rw [State.Ready, (tudHidSetReportCb_none call).2 queued] at there
              exact absurd there quiet
      | dropped =>
          rcases there with full | away
          · exact absurd rfl full
          · exact absurd (Or.inr away) quiet
      | argument => exact absurd there quiet
      | refused here remember stopped =>
          rw [State.Ready, (takeStart_port remember).1, (takeStart_port remember).2] at there
          exact absurd there quiet
      | began here remember started =>
          rw [State.Ready, (takeStart_port remember).1, (takeStart_port remember).2] at there
          exact absurd there quiet
      | held remember here item popped => exact absurd there (popped_quiet quiet rfl)
      | popFailed remember here result popped => exact absurd there (popped_quiet quiet rfl)
      | empty remember here popped => exact absurd there (popped_quiet quiet rfl)
      | woke remember here => exact absurd there quiet
      | timedOut remember here => exact absurd there quiet
      | returned remember item here good =>
          rw [State.Ready, (takeCheck_port item remember).1, (takeCheck_port item remember).2] at there
          exact absurd there quiet
      | stale remember item here bad =>
          rw [State.Ready, (takeCheck_port item remember).1, (takeCheck_port item remember).2] at there
          exact absurd there quiet

theorem Move.begins {state next : State} {stir : Stir} (move : Move state stir next)
    (awake : state.asleep = false) (asleep : next.asleep = true) : ¬ next.Ready := by
  cases move with
  | woke remember here => cases asleep
  | lapsed remember here => cases asleep
  | port step unwoken =>
      cases step with
      | empty remember here popped =>
          obtain ⟨nothing, ready⟩ := takePop_empty popped
          rw [State.Ready, not_or]
          simp only [nothing, takePop_bus, ready]
          decide
      | bus event => exact absurd (awake.symm.trans asleep) (by decide)
      | reported call => exact absurd (awake.symm.trans asleep) (by decide)
      | dropped => exact absurd (awake.symm.trans asleep) (by decide)
      | argument => exact absurd (awake.symm.trans asleep) (by decide)
      | refused here remember stopped => exact absurd (awake.symm.trans asleep) (by decide)
      | began here remember started => cases asleep
      | held remember here item popped => cases asleep
      | popFailed remember here result popped => cases asleep
      | woke remember here => cases asleep
      | timedOut remember here => cases asleep
      | returned remember item here good => cases asleep
      | stale remember item here bad => cases asleep

def receiving : Wakeup.Protocol State Stir where
  Step := Move
  Good := fun _ => True
  waits := State.asleep
  ready := State.Ready
  signals := Stir.signals
  wakes := fun stir => match stir with | .woke => true | _ => false
  drains := fun stir => match stir with | .lapsed => true | _ => false
  keep := fun _ _ => trivial
  begins := fun move _ => move.begins
  appears := fun move _ => move.appears
  leaves := by
    intro state stir next move takes
    cases move with
    | port step unwoken => cases takes
    | woke remember here => rfl
    | lapsed remember here => rfl

/-- The transport task never sleeps over a report or a lost connection: `s_rx_wake` is given
then, so that it can go on at once, or somebody is about to give it. -/
theorem no_report_is_slept_through {past : List (Option Stir)} {state : Wakeup.Signalled State}
    (run : Wakeup.Run receiving ⟨usbStarted, .idle⟩ past state) {remember : Bool}
    (asleep : state.inner.consumer = .waiting remember)
    (ready : state.inner.port.rxQueue.toList ≠ [] ∨ usbReady state.inner.port.bus = false) :
    0 < state.giving ∨ ∃ next, Wakeup.Step receiving state (some .woke) next ∧
      next.inner = { state.inner with consumer := .looping remember } := by
  have waits : receiving.waits state.inner = true := by
    show state.inner.consumer.asleep = true
    rw [asleep]
    rfl
  rcases (run.attended trivial rfl).attended waits ready with given | giving
  · exact Or.inr ⟨_, .move (.woke state.inner remember asleep) (fun _ => given), rfl⟩
  · exact Or.inl giving

/-- The host connects and sends a report while the transport task looks and then waits. -/
def queuedReport : SetReport := { buffer := some (zeros reportBytes) }

def connectedPort : Port := usbStarted.event .attached

def waitingPort : Port := (takePop connectedPort).1

def queuedPort : Port := (tudHidSetReportCb waitingPort queuedReport).1

theorem sleeping_run : ∃ past, Wakeup.Run receiving ⟨usbStarted, .idle⟩ past
    { inner := ⟨queuedPort, .waiting false⟩, given := true, giving := 0 } := by
  have attached : Move ⟨usbStarted, .idle⟩ (.port (.bus .attached)) ⟨connectedPort, .idle⟩ :=
    .port (Step.bus _ .attached) nofun
  have began : Move ⟨connectedPort, .idle⟩ (.port .quiet) ⟨connectedPort, .looping false⟩ :=
    .port (Step.began _ rfl false rfl) nofun
  have empty : Move ⟨connectedPort, .looping false⟩ (.port .quiet) ⟨waitingPort, .waiting false⟩ :=
    .port (Step.empty _ false rfl (by decide)) nofun
  have reported : Move ⟨waitingPort, .waiting false⟩
      (.port (.reported queuedReport (some ⟨load reportBytes (zeros reportBytes) 0, 1⟩)))
      ⟨queuedPort, .waiting false⟩ := .port (Step.reported _ queuedReport) nofun
  have moves : Runs.Run receiving.Step _ _ _ :=
    (((Runs.Run.nil.snoc attached).snoc began).snoc empty).snoc reported
  have asleep := Wakeup.Run.lift moves (by simp [receiving])
  exact ⟨_, (asleep.snoc (.give (by decide))).snoc (.give (by decide))⟩

/-- The report is there and the semaphore with it. -/
theorem queued_report_wakes : ∃ next, Wakeup.Step receiving
    { inner := ⟨queuedPort, .waiting false⟩, given := true, giving := 0 } (some .woke) next ∧
    next.inner = ⟨queuedPort, .looping false⟩ :=
  sleeping_run.elim fun _ run =>
    (no_report_is_slept_through run rfl (Or.inl (by decide))).resolve_left (by decide)

end P4Key.Usb.Receive
