import P4Key.Hid.Pairing
import P4Key.Library.Wakeup

/-! `s_message_wake`: the task that takes the messages does not sleep over one. -/

namespace P4Key.Hid

open Memory P4Key.Ctaphid P4Key.Usb

/-- Where the task that calls `hid_take_msg` is: outside, before the mutex, in the wait, and
behind the mutex with a message. -/
inductive Taker where
  | outside
  | looking
  | waiting
  | draining
  deriving DecidableEq, Repr

structure Listening where
  hid : State
  taker : Taker := .outside

/-- An event of the system, or what the taker does beside its turns. -/
inductive Stir where
  | hid (event : Event)
  | called
  | woke
  /-- The time is over, or the mutex was not to be had. -/
  | left
  /-- `drain_message_wake`. -/
  | drained

def isTake : Event → Bool
  | .took .. => true
  | _ => false

def TakeOutcome.taker : TakeOutcome → Taker
  | .taken _ => .draining
  | .refused .timeout => .waiting
  | _ => .outside

/-- The system with one taker. All other calls may come from any task. -/
inductive Listens (worker : Task) : Listening → Stir → Listening → Prop where
  | around {state : Listening} {event : Event} {next : State} (step : Step state.hid event next)
      (other : isTake event = false) :
      Listens worker state (.hid event) { state with hid := next }
  | called {state : Listening} (here : state.taker = .outside) :
      Listens worker state .called { state with taker := .looking }
  | turn {state : Listening} {cap : Nat} {outcome : TakeOutcome} {next : State}
      (here : state.taker = .looking) (step : Step state.hid (.took worker cap outcome) next) :
      Listens worker state (.hid (.took worker cap outcome)) { hid := next, taker := outcome.taker }
  | left {state : Listening} (here : state.taker = .looking ∨ state.taker = .waiting) :
      Listens worker state .left { state with taker := .outside }
  | woke {state : Listening} (here : state.taker = .waiting) :
      Listens worker state .woke { state with taker := .looking }
  | drained {state : Listening} (here : state.taker = .draining) :
      Listens worker state .drained { state with taker := .outside }

/-- Who gives `s_message_wake`: `hid_reset_all` before and behind its region, the transport task
when it has reset the core, has thrown a report away or has completed a request. -/
def signals : Event → Bool
  | .requested => true
  | .swept reset => reset
  | .reported _ _ .discarded => true
  | .reported _ _ (.fed action _) => action.kind == .message
  | _ => false

theorem CoreStep.not_ready {core next : Core} {event : Ctaphid.Event}
    (step : CoreStep core event next) (valid : Valid core) (quiet : messageOf event = none)
    (nothing : core.messageReady = false) : next.messageReady = false := by
  have kept := step.held_step valid
  rw [held_none nothing, Runs.slotStep, quiet, Option.filter_none] at kept
  cases ready : next.messageReady with
  | false => rfl
  | true =>
      rw [held, if_pos ready] at kept
      cases kept

theorem handleReport_ready {service : Service} (valid : Valid service.core) (report : Report)
    (usbGeneration : UInt32) (reads : FeedReads) (nothing : service.core.messageReady = false)
    (quiet : (handleReport service report usbGeneration reads).2.1.kind ≠ .message) :
    (handleReport service report usbGeneration reads).1.core.messageReady = false := by
  rw [handleReport_action] at quiet
  have fed := CoreStep.not_ready (CoreStep.feed service.core report reads.nowMs reads.draws) valid
    (messageOf_fed quiet) nothing
  rw [handleReport_core service report usbGeneration reads _ rfl]
  split
  · exact CoreStep.not_ready (CoreStep.finish _ _ _)
      (coreFeed_valid service.core report reads.nowMs reads.draws valid) rfl fed
  · exact fed

theorem Observed.not_ready {service : Service} {result : Service × Bool}
    (observed : Observed service result) (nothing : service.core.messageReady = false) :
    result.1.core.messageReady = false := by
  cases flag : result.2 with
  | true =>
      rw [(observed.reset flag).1]
      rfl
  | false =>
      rw [(observed.kept flag).1]
      exact nothing

/-- A message is there only behind a step that signals it. -/
theorem Step.signalled {state next : State} {event : Event} (step : Step state event next)
    (linked : Linked state.service) (nothing : state.service.core.messageReady = false)
    (ready : next.service.core.messageReady = true) : signals event = true := by
  have valid := linked.valid
  have absurdly : next.service.core.messageReady = false → signals event = true := by
    intro still
    rw [still] at ready
    cases ready
  cases step with
  | bus event => exact absurdly nothing
  | request => rfl
  | resetAll middle last before after => rfl
  | notRequested here flag => exact absurdly nothing
  | isRequested here flag => exact absurdly nothing
  | processed here middle last before flag after => rfl
  | overtaken here last before flag => exact absurdly nothing
  | observed here => exact absurdly nothing
  | synced generation here =>
      exact absurdly ((observeUsb_observed state.service generation false).not_ready nothing)
  | received epoch here report connected => exact absurdly nothing
  | receivedNothing epoch here => exact absurdly nothing
  | cleaned here nowMs =>
      exact absurdly (CoreStep.not_ready (CoreStep.cleanup _ nowMs) valid rfl nothing)
  | reported epoch report usbGeneration here reads last along =>
      have observed := admitReport_observed state.service epoch usbGeneration reads
      have admitted := observed.linked linked
      rw [transportReport_eq] at ready ⊢
      by_cases accepted : (admitReport state.service epoch usbGeneration reads).2.1 = true
      · simp only [if_pos accepted] at ready ⊢
        by_contra silent
        have quiet := handleReport_ready admitted.valid report usbGeneration reads
          (observed.not_ready nothing) (by simpa [signals] using silent)
        rw [quiet] at ready
        cases ready
      · simp only [if_neg accepted]
        rfl
  | gaveUp here => exact absurdly nothing
  | took task cap reads last along =>
      apply absurdly
      rcases hidTakeMsg_cases state.service task cap reads valid with
        ⟨result, same⟩ | ⟨-, reset⟩ | ⟨-, -, -, -, there, -⟩
      · simp only [same]
        exact nothing
      · simp only [reset]
        rfl
      · rw [nothing] at there
        cases there
  | sent task cid command data arguments reads send last along =>
      apply absurdly
      rcases hidSendMsg_cases state.service task cid command data reads send with
        same | ⟨claim, -, -, answered⟩
      · simp only [same]
        exact nothing
      · simp only [answered]
        exact CoreStep.not_ready (CoreStep.finish _ cid claim.operationGeneration) valid rfl nothing
  | sendTimedOut task cid command => exact absurdly nothing
  | keptAlive task cid status reads currentMs sentMs send last along =>
      apply absurdly
      rcases (hidKeepalive_cases state.service task cid status reads currentMs sentMs send).1 with
        same | ⟨i, channel, -, -, -, remembered⟩
      · simp only [same]
        exact nothing
      · simp only [remembered]
        exact nothing
  | asked task cid reads last along => exact absurdly nothing
  | uncancelled task cid reads last along =>
      apply absurdly
      rcases hidClearCancel_cases state.service task cid reads with same | ⟨claim, -, cleared⟩
      · simp only [same]
        exact nothing
      · simp only [cleared]
        exact CoreStep.not_ready (CoreStep.clearCancel _ cid claim.operationGeneration) valid rfl nothing
  | refused => exact absurdly nothing

/-- A turn of `hid_take_msg` goes on to wait only if there is no message. -/
theorem hidTakeMsg_timeout {service : Service} {task : Task} {cap : Nat} {reads : TakeReads}
    (valid : Valid service.core)
    (nothing : (hidTakeMsg service task cap reads).2 = .refused .timeout) :
    (hidTakeMsg service task cap reads).1.core.messageReady = false := by
  cases ready : service.core.messageReady with
  | false =>
      rcases hidTakeMsg_cases service task cap reads valid with
        ⟨result, same⟩ | ⟨-, reset⟩ | ⟨-, -, -, -, there, -⟩
      · rw [same]
        exact ready
      · rw [reset]
        rfl
      · rw [ready] at there
        cases there
  | true =>
      rw [hidTakeMsg, coreTakeMessage_eq valid, if_pos ready] at nothing
      split_ifs at nothing <;> cases nothing

theorem Listens.linked {worker : Task} {state next : Listening} {stir : Stir}
    (move : Listens worker state stir next) (linked : Linked state.hid.service) :
    Linked next.hid.service := by
  cases move with
  | around step other => exact step.linked linked
  | called here => exact linked
  | turn here step => exact step.linked linked
  | left here => exact linked
  | woke here => exact linked
  | drained here => exact linked

theorem Listens.signalled {worker : Task} {state next : Listening} {stir : Stir}
    (move : Listens worker state stir next) (linked : Linked state.hid.service)
    (nothing : ¬ state.hid.service.core.messageReady = true)
    (ready : next.hid.service.core.messageReady = true) :
    ∃ event, stir = .hid event ∧ signals event = true := by
  have quiet : state.hid.service.core.messageReady = false := by simpa using nothing
  cases move with
  | around step other => exact ⟨_, rfl, step.signalled linked quiet ready⟩
  | called here => exact absurd ready nothing
  | turn here step => exact ⟨_, rfl, step.signalled linked quiet ready⟩
  | left here => exact absurd ready nothing
  | woke here => exact absurd ready nothing
  | drained here => exact absurd ready nothing

theorem Listens.begins {worker : Task} {state next : Listening} {stir : Stir}
    (move : Listens worker state stir next) (linked : Linked state.hid.service)
    (awake : state.taker ≠ .waiting) (asleep : next.taker = .waiting) :
    ¬ next.hid.service.core.messageReady = true := by
  cases move with
  | around step other => exact absurd asleep awake
  | called here => cases asleep
  | left here => cases asleep
  | woke here => cases asleep
  | drained here => cases asleep
  | @turn cap outcome next here step =>
      have refused : outcome = .refused .timeout := by
        cases outcome with
        | taken message => cases asleep
        | reset => cases asleep
        | refused result =>
            cases result with
            | timeout => rfl
            | _ => cases asleep
      generalize event_eq : Event.took worker cap outcome = event at step
      cases step with
      | took task cap' reads last along =>
          injection event_eq with same same' given
          rw [refused] at given
          have left := hidTakeMsg_timeout linked.valid given.symm
          simp only [left]
          decide
      | _ => cases event_eq

def listening (worker : Task) : Wakeup.Protocol Listening Stir where
  Step := Listens worker
  Good := fun state => Linked state.hid.service
  waits := fun state => state.taker == .waiting
  ready := fun state => state.hid.service.core.messageReady = true
  signals := fun stir => match stir with | .hid event => P4Key.Hid.signals event | _ => false
  wakes := fun stir => match stir with | .woke => true | _ => false
  drains := fun stir => match stir with | .drained => true | _ => false
  keep := fun move linked => move.linked linked
  begins := by
    intro state stir next move linked awake asleep
    exact move.begins linked (by simpa using awake) (by simpa using asleep)
  appears := by
    intro state stir next move linked nothing ready
    obtain ⟨event, rfl, signalled⟩ := move.signalled linked nothing ready
    exact signalled
  leaves := by
    intro state stir next move takes
    cases move with
    | woke here => rfl
    | drained here => rfl
    | _ => cases takes

/-- The worker never sleeps over a message: `s_message_wake` is given then, so that it can look
again at once, or the task that completed the request is about to give it. -/
theorem no_message_is_slept_through {worker : Task} {bus : Bus} {past : List (Option Stir)}
    {state : Wakeup.Signalled Listening}
    (run : Wakeup.Run (listening worker) { hid := started bus } past state)
    (asleep : state.inner.taker = .waiting)
    (ready : state.inner.hid.service.core.messageReady = true) :
    0 < state.giving ∨ ∃ next, Wakeup.Step (listening worker) state (some .woke) next ∧
      next.inner = { state.inner with taker := .looking } := by
  have waits : (listening worker).waits state.inner = true := by
    show (state.inner.taker == .waiting) = true
    rw [asleep]
    rfl
  rcases (run.attended (started_linked bus) rfl).attended waits ready with given | giving
  · exact Or.inr ⟨_, .move (Listens.woke asleep) (fun _ => given), rfl⟩
  · exact Or.inl giving

theorem around_taker {start last : State} {events : List Event}
    (run : Runs.Run (fun state event next => Step state event next ∧ isTake event = false) start
      events last) (taker : Taker) :
    Runs.Run (Listens worker) ⟨start, taker⟩ (events.map .hid) ⟨last, taker⟩ := by
  induction run with
  | nil => exact .nil
  | snoc run step ih =>
      rw [List.map_append]
      exact ih.snoc (.around step.1 step.2)

theorem live_listening (service : Service) (seen : service.seenUsbGeneration = 1) (report : Report)
    (taker : Taker) :
    Runs.Run (Listens worker) ⟨live service, taker⟩ ((liveEvents service report).map .hid)
      ⟨live (liveReport service report).1, taker⟩ := by
  apply around_taker
  apply live_report_run _ service seen report
  intro state event next step _ _ member
  refine ⟨step, ?_⟩
  simp only [liveEvents, List.mem_cons, List.not_mem_nil, or_false] at member
  rcases member with same | same | same | same | same <;> rw [same] <;> rfl

theorem early_step :
    Step (live openedService) (.took 7 2048 (.refused .timeout)) (live openedService) := by
  have empty : coreTakeMessage openedService.core 2048 = (.error .empty, openedService.core) :=
    if_pos (by decide +kernel)
  have outcome : hidTakeMsg openedService 7 2048 liveTakeReads = (openedService, .refused .timeout) := by
    rw [hidTakeMsg, if_neg (by decide), if_neg (by decide +kernel), if_neg (by decide +kernel),
      if_neg (by decide +kernel), empty]
  have took := Step.took (live openedService) 7 2048 liveTakeReads liveFlags
    ⟨liveFlags, liveFlags, liveFlags, liveFlags, .refl, rfl, .refl, rfl, .refl, rfl, .refl, rfl, .refl⟩
  rw [show (live openedService).service = openedService from rfl, outcome] at took
  exact took

/-- Task 7 looks too early, waits, and the small request of channel 1 comes. -/
theorem early_run : ∃ past, Wakeup.Run (listening 7) { hid := started liveFlags.bus } past
    { inner := ⟨live deliveredService, .waiting⟩, given := true, giving := 0 } := by
  have opened := @live_listening 7 (started liveFlags.bus).service rfl openingReport .outside
  have delivered := @live_listening 7 openedService (by decide +kernel) smallReport .waiting
  have called : Listens 7 ⟨live openedService, .outside⟩ .called ⟨live openedService, .looking⟩ :=
    .called rfl
  have looked : Listens 7 ⟨live openedService, .looking⟩ (.hid (.took 7 2048 (.refused .timeout)))
      ⟨live openedService, .waiting⟩ := .turn rfl early_step
  have moves : Runs.Run (listening 7).Step _ _ _ := ((opened.snoc called).snoc looked).append delivered
  have asleep := Wakeup.Run.lift moves (by simp [listening, liveEvents])
  have signalled : (((liveEvents (started liveFlags.bus).service openingReport).map Stir.hid ++
      [Stir.called] ++ [Stir.hid (.took 7 2048 (.refused .timeout))]) ++
      (liveEvents openedService smallReport).map Stir.hid).countP (listening 7).signals = 1 := by
    decide +kernel
  rw [signalled] at asleep
  exact ⟨_, asleep.snoc (.give (by decide))⟩

/-- The message is there and the semaphore with it. -/
theorem early_taker_wakes : ∃ next, Wakeup.Step (listening 7)
    { inner := ⟨live deliveredService, .waiting⟩, given := true, giving := 0 } (some .woke) next ∧
    next.inner = ⟨live deliveredService, .looking⟩ :=
  early_run.elim fun _ run =>
    (no_message_is_slept_through run rfl (by decide +kernel)).resolve_left (by decide)

end P4Key.Hid
