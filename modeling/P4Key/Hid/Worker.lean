import P4Key.Ctap.Parse
import P4Key.Hid.Upkeep

/-! ctap_stub.c: the loop that takes requests and answers them.

An answer that cannot get `s_core_mutex` in time is lost together with its turn to give
up the claim. Without that, and as long as two counters do not wrap around, no request
is abandoned. -/

namespace P4Key.Hid

open Memory P4Key.Ctaphid P4Key.Usb

def caller : Event → Option Task
  | .took task _ _ => some task
  | .sent task _ _ _ _ _ => some task
  | .sendTimedOut task _ _ => some task
  | .keptAlive task _ _ _ _ => some task
  | .asked task _ _ => some task
  | .uncancelled task _ _ => some task
  | _ => none

/-- What `p4_ctap_dispatch` may call. -/
def polls (worker : Task) : Event → Bool
  | .keptAlive task _ _ _ _ => task == worker
  | .asked task _ _ => task == worker
  | .uncancelled task _ _ => task == worker
  | _ => false

structure Loop where
  state : State
  place : Place := .top

/-- Only the worker takes requests. Everything else goes on around it. -/
inductive LoopStep (worker : Task) : Loop → Event → Loop → Prop where
  | around (place : Place) {state next : State} {event : Event} (step : Step state event next)
      (quiet : caller event = none) : LoopStep worker ⟨state, place⟩ event ⟨next, place⟩
  | take {state next : State} {outcome : TakeOutcome}
      (step : Step state (.took worker maxPayload outcome) next) :
      LoopStep worker ⟨state, .top⟩ (.took worker maxPayload outcome) ⟨next, outcome.place⟩
  | poll (cid : UInt32) (command : UInt8) {state next : State} {event : Event}
      (step : Step state event next) (own : polls worker event = true) :
      LoopStep worker ⟨state, .dispatching cid command⟩ event ⟨next, .dispatching cid command⟩
  /-- `send_dispatch_result`, which ignores the result. -/
  | answer {cid : UInt32} {command : UInt8} {data : List UInt8} {result : HidResult}
      {reports : List Report} {state next : State} (bounded : data.length ≤ Ctap.maxMessage)
      (step : Step state (.sent worker cid command data result reports) next) :
      LoopStep worker ⟨state, .dispatching cid command⟩
        (.sent worker cid command data result reports) ⟨next, .top⟩
  | answerTimedOut {cid : UInt32} {command : UInt8} {state next : State}
      (step : Step state (.sendTimedOut worker cid command) next) :
      LoopStep worker ⟨state, .dispatching cid command⟩ (.sendTimedOut worker cid command)
        ⟨next, .top⟩
  /-- `hid_send_msg` fails its argument checks. -/
  | answerRefused {cid : UInt32} {command : UInt8} {data : List UInt8} (state : State)
      (bounded : data.length ≤ Ctap.maxMessage)
      (refused : sendArguments cid command data = false) :
      LoopStep worker ⟨state, .dispatching cid command⟩ .quiet ⟨state, .top⟩

abbrev LoopRun (worker : Task) (bus : Bus) : List Event → Loop → Prop :=
  Runs.Run (LoopStep worker) ⟨started bus, .top⟩

def Transport.betweenReports : Transport → Bool
  | .feed _ _ _ => false
  | _ => true

def Free (service : Service) : Prop :=
  service.claim = none ∧ (service.core.phase = .processing → service.core.messageReady = true)

/-- The worker is about to take a message, and the transport task has nothing to make up for. -/
structure AtRest (loop : Loop) : Prop where
  place : loop.place = .top
  transport : loop.state.transport.betweenReports = true
  resetRequested : loop.state.flags.resetRequested = false
  generation : usbUnmountGeneration loop.state.flags.bus = loop.state.service.seenUsbGeneration

/-! A reset that the transport task has not noticed when it holds a report. -/

def Transport.epoch : Transport → Option UInt32
  | .receive epoch => some epoch
  | .feed epoch _ _ => some epoch
  | _ => none

/-- After a reset only the transport task makes requests complete, and it has not been there. -/
def Overtaken (state : State) : Prop :=
  ∀ epoch, state.transport.epoch = some epoch → state.service.resetEpoch ≠ epoch →
    state.service.core.phase ≠ .processing

theorem Overtaken.of_epoch {state : State} (none : state.transport.epoch = none) :
    Overtaken state := by
  intro epoch some'
  rw [none] at some'
  cases some'

/-- A step of another task processes nothing new unless it has reset the core. -/
theorem Overtaken.keep {state next : State} (overtaken : Overtaken state)
    (transport : next.transport = state.transport)
    (kept : next.service.core.phase = .processing →
      state.service.core.phase = .processing ∧
        next.service.resetEpoch = state.service.resetEpoch) : Overtaken next := by
  intro epoch waits other running
  rcases kept running with ⟨before, same⟩
  rw [transport] at waits
  rw [same] at other
  exact overtaken epoch waits other before

theorem Step.overtaken_kept {state next : State} {event : Event} (step : Step state event next)
    (linked : Linked state.service) (overtaken : Overtaken state) : Overtaken next := by
  cases step with
  | bus event => exact overtaken
  | request => exact overtaken
  | resetAll middle last before after =>
      exact overtaken.keep rfl fun impossible => by cases impossible
  | notRequested here flag => exact .of_epoch rfl
  | isRequested here flag => exact .of_epoch rfl
  | processed here middle last before flag after => exact .of_epoch rfl
  | overtaken here last before flag => exact .of_epoch rfl
  | observed here => exact .of_epoch rfl
  | synced generation here =>
      intro epoch waits other
      cases waits
      exact absurd rfl other
  | received epoch here report ready =>
      intro other waits
      cases waits
      exact overtaken epoch (by rw [here]; rfl)
  | receivedNothing epoch here => exact .of_epoch rfl
  | cleaned here nowMs => exact .of_epoch rfl
  | reported epoch report usbGeneration here reads last along => exact .of_epoch rfl
  | gaveUp here => exact .of_epoch rfl
  | took task cap reads last along =>
      apply overtaken.keep
      · rfl
      · intro running
        rcases hidTakeMsg_cases state.service task cap reads linked.valid with
          ⟨result, same⟩ | ⟨-, reset⟩ | ⟨-, -, -, -, -, -, taken⟩
        · rw [same] at running ⊢
          exact ⟨running, rfl⟩
        · rw [reset] at running
          cases running
        · rw [taken] at running ⊢
          exact ⟨running, rfl⟩
  | sent task cid command data arguments reads send last along =>
      apply overtaken.keep
      · rfl
      · intro running
        rcases hidSendMsg_cases state.service task cid command data reads send with
          refused | ⟨claim, matched, -, answered⟩
        · rw [refused] at running ⊢
          exact ⟨running, rfl⟩
        · rw [answered] at running ⊢
          exact ⟨matched.phase, rfl⟩
  | sendTimedOut task cid command => exact overtaken
  | keptAlive task cid status reads currentMs sentMs send last along =>
      apply overtaken.keep
      · rfl
      · intro running
        rcases (hidKeepalive_cases state.service task cid status reads currentMs sentMs send).1 with
          same | ⟨i, channel, phase, -, -, remembered⟩
        · rw [same] at running ⊢
          exact ⟨running, rfl⟩
        · rw [remembered]
          exact ⟨phase, rfl⟩
  | asked task cid reads last along => exact overtaken
  | uncancelled task cid reads last along =>
      apply overtaken.keep
      · rfl
      · intro running
        rcases hidClearCancel_cases state.service task cid reads with
          same | ⟨claim, matched, cleared⟩
        · rw [same] at running ⊢
          exact ⟨running, rfl⟩
        · rw [cleared]
          exact ⟨matched.phase, rfl⟩
  | refused => exact overtaken

/-! The steps that abandon nothing. -/

structure Careful (loop : Loop) (event : Event) (next : Loop) : Prop where
  /-- An answer that gives up on the mutex belongs to a request that is void already. -/
  answered : ∀ task cid command, event = .sendTimedOut task cid command →
    loop.state.service.claim = none ∨ Stale loop.state.service loop.state.flags
  /-- No report that is fed ends a PING whose number is 0. -/
  counted : ∀ report reset action sent, event = .reported report reset (.fed action sent) →
    Echo action → ¬ Unnumbered loop.state.service.core report
  /-- While a request is processed, the generation of the bus does not come round. -/
  connected : loop.state.service.core.phase = .processing →
    Avoids loop.state.service.seenUsbGeneration loop.state.flags next.state.flags

structure Tidy (worker : Task) (loop : Loop) : Prop where
  sound : Sound worker loop.state.service loop.state.flags loop.place
  overtaken : Overtaken loop.state

theorem drifts_bus (flags : Flags) (event : BusEvent) : Drifts flags (flags.onBus event) :=
  Drifts.refl.bus event

theorem Step.around_sound {worker : Task} {state next : State} {event : Event} {place : Place}
    (step : Step state event next) (quiet : caller event = none)
    (tidy : Tidy worker ⟨state, place⟩) (careful : Careful ⟨state, place⟩ event ⟨next, place⟩) :
    Sound worker next.service next.flags place := by
  have sound := tidy.sound
  have linked := step.linked sound.linked
  cases step with
  | bus event => exact sound.drift (drifts_bus _ event) careful.connected
  | request => exact sound.drift Drifts.refl.request careful.connected
  | resetAll middle last before after => exact .of_fresh ⟨rfl, rfl⟩ sound.request
  | notRequested here flag => exact sound
  | isRequested here flag => exact sound
  | processed here middle last before flag after => exact .of_fresh ⟨rfl, rfl⟩ sound.request
  | overtaken here last before flag => exact sound.drift before careful.connected
  | observed here => exact sound
  | synced generation here => exact sound.synced generation
  | received epoch here report ready => exact sound
  | receivedNothing epoch here => exact sound
  | cleaned here nowMs => exact sound.cleaned nowMs linked
  | reported epoch report usbGeneration here reads last along =>
      exact sound.reported epoch (tidy.overtaken epoch (by rw [here]; rfl)) report usbGeneration reads
        (fun action sent fed => careful.counted report _ action sent (by rw [fed])) along
        careful.connected
  | gaveUp here => exact sound
  | refused => exact sound
  | _ => cases quiet

theorem sendArguments_cbor {cid : UInt32} {data : List UInt8} (proper : cid ≠ 0)
    (bounded : data.length ≤ Ctap.maxMessage) : sendArguments cid cmdCbor data = true := by
  have short : ¬ data.length > maxPayload := Nat.not_lt.mpr bounded
  have initial : cmdCbor &&& 0x80 ≠ 0 := by decide
  simp [sendArguments, proper, initial, short]

theorem LoopStep.tidy {worker : Task} {loop next : Loop} {event : Event}
    (step : LoopStep worker loop event next) (careful : Careful loop event next)
    (tidy : Tidy worker loop) : Tidy worker next := by
  have sound := tidy.sound
  cases step with
  | around place step quiet =>
      exact ⟨step.around_sound quiet tidy careful,
        step.overtaken_kept sound.linked tidy.overtaken⟩
  | take step =>
      refine ⟨?_, step.overtaken_kept sound.linked tidy.overtaken⟩
      cases step with
      | took _ _ reads last along => exact sound.took maxPayload reads along careful.connected
  | poll cid command step own =>
      refine ⟨?_, step.overtaken_kept sound.linked tidy.overtaken⟩
      cases step with
      | keptAlive task other status reads currentMs sentMs send last along =>
          have drifted := sound.drift along.drifts careful.connected
          exact drifted.keptAlive task other status reads currentMs sentMs send
      | asked task other reads last along => exact sound.drift along.drifts careful.connected
      | uncancelled task other reads last along =>
          have drifted := sound.drift along.drifts careful.connected
          exact drifted.uncancelled task other reads
      | _ => cases own
  | answer bounded step =>
      refine ⟨?_, step.overtaken_kept sound.linked tidy.overtaken⟩
      cases step with
      | sent _ _ _ _ arguments reads send last along =>
          exact sound.answered _ reads send along careful.connected
  | answerTimedOut step =>
      refine ⟨?_, step.overtaken_kept sound.linked tidy.overtaken⟩
      have void := careful.answered _ _ _ rfl
      cases step with
      | sendTimedOut =>
          refine ⟨sound.linked, fun _ _ impossible => (by cases impossible),
            sound.message, sound.connected, ?_, sound.waiting⟩
          intro claim current
          rcases void with nothing | stale
          · rw [nothing] at current
            cases current
          · exact Or.inr stale
  | answerRefused state bounded refused =>
      rcases sound.request _ _ rfl with ⟨proper, cbor⟩
      rw [cbor, sendArguments_cbor proper bounded] at refused
      cases refused

theorem started_tidy (worker : Task) (bus : Bus) : Tidy worker ⟨started bus, .top⟩ := by
  refine ⟨?_, .of_epoch rfl⟩
  exact .of_fresh ⟨rfl, rfl⟩ fun _ _ impossible => by cases impossible

abbrev CarefulRun (worker : Task) (bus : Bus) : List Event → Loop → Prop :=
  Runs.Run (fun loop event next => LoopStep worker loop event next ∧ Careful loop event next)
    ⟨started bus, .top⟩

/-- In a careful run no request is abandoned. -/
theorem careful_run_leaves_nothing {worker : Task} {bus : Bus} {past : List Event} {loop : Loop}
    (run : CarefulRun worker bus past loop) (rest : AtRest loop) : Free loop.state.service := by
  have tidy := run.invariant (Tidy worker) (started_tidy worker bus)
    fun _ _ _ tidy step => step.1.tidy step.2 tidy
  have sound := tidy.sound
  have fresh : ¬ Stale loop.state.service loop.state.flags := by
    intro stale
    rcases stale with requested | moved
    · rw [rest.resetRequested] at requested
      cases requested
    · exact moved rest.generation
  have free : loop.state.service.claim = none := by
    cases current : loop.state.service.claim with
    | none => rfl
    | some claim =>
        rcases sound.held claim current with ⟨working, -⟩ | stale
        · rw [rest.place] at working
          cases working
        · exact absurd stale fresh
  refine ⟨free, ?_⟩
  intro running
  by_contra unready
  exact fresh (sound.waiting running (by simpa using unready) free)

/-! One request, which task 7 takes and answers, or fails to answer. -/

theorem avoids_still (seen : UInt32) (flags : Flags) : Avoids seen flags flags :=
  fun _ above below => absurd below (Nat.not_le.mpr above)

def Outcome.echoes : Outcome → Bool
  | .fed action _ => action.command == cmdPing
  | .discarded => false

/-- On a bus that stays, an answer in time and a report that ends no PING are careful. -/
theorem careful_still {loop next : Loop} {event : Event}
    (still : next.state.flags = loop.state.flags)
    (answered : ∀ task cid command, event ≠ .sendTimedOut task cid command)
    (counted : ∀ report reset outcome, event = .reported report reset outcome →
      outcome.echoes = false) : Careful loop event next := by
  refine ⟨?_, ?_, ?_⟩
  · intro task cid command timedOut
    exact absurd timedOut (answered task cid command)
  · intro report reset action sent reported echo
    have other := counted report reset _ reported
    rw [Outcome.echoes, echo.ping] at other
    cases other
  · intro _
    rw [still]
    exact avoids_still _ _

theorem careful_report_run (service : Service) (seen : service.seenUsbGeneration = 1)
    (report : Report) (other : (liveReport service report).2.2.echoes = false) :
    Runs.Run (fun loop event next => LoopStep 7 loop event next ∧ Careful loop event next)
      ⟨live service, .top⟩ (liveEvents service report)
      ⟨live (liveReport service report).1, .top⟩ := by
  apply Runs.Run.map (fun state => Loop.mk state .top) _
    (live_report_run (fun state event next => LoopStep 7 ⟨state, .top⟩ event ⟨next, .top⟩ ∧
      Careful ⟨state, .top⟩ event ⟨next, .top⟩) service seen report _)
  · intro state event next step
    exact step
  · intro state event next step before after member
    have quiet : caller event = none := by
      simp only [liveEvents, List.mem_cons, List.not_mem_nil, or_false] at member
      rcases member with same | same | same | same | same <;> rw [same] <;> rfl
    refine ⟨.around .top step quiet, careful_still (after.trans before.symm) ?_ ?_⟩
    · intro task cid command timedOut
      rw [timedOut] at quiet
      cases quiet
    · intro other' reset outcome reported
      rw [reported] at member
      simp only [liveEvents, List.mem_cons, List.not_mem_nil, or_false, reduceCtorEq, false_or,
        Event.reported.injEq] at member
      rw [member.2.2]
      exact other

theorem careful_taken_run :
    CarefulRun 7 liveFlags.bus takenEvents ⟨live takenService, .dispatching 1 cmdCbor⟩ := by
  have opened := careful_report_run (started liveFlags.bus).service rfl openingReport
    (by decide +kernel)
  have delivered := careful_report_run openedService rfl smallReport (by decide +kernel)
  have taken := taken_step
  exact (opened.append delivered).snoc ⟨.take taken, careful_still rfl (by simp) (by simp)⟩

theorem abandoned_run :
    LoopRun 7 liveFlags.bus (takenEvents ++ [.sendTimedOut 7 1 cmdCbor])
      ⟨live takenService, .top⟩ := by
  have taken : LoopRun 7 liveFlags.bus takenEvents ⟨live takenService, .dispatching 1 cmdCbor⟩ :=
    careful_taken_run.map id fun _ _ _ step => step.1
  exact taken.snoc (.answerTimedOut (Step.sendTimedOut (live takenService) 7 1 cmdCbor))

theorem unanswered_request_is_left_behind :
    ¬ ∀ worker bus past loop, LoopRun worker bus past loop → AtRest loop →
      Free loop.state.service := by
  intro every
  have rest : AtRest ⟨live takenService, .top⟩ := ⟨rfl, rfl, rfl, by decide +kernel⟩
  have free := every 7 _ _ _ abandoned_run rest
  exact absurd free.1 (by decide +kernel)

theorem answered_request_leaves_nothing : Free answer.1 :=
  careful_run_leaves_nothing
    (careful_taken_run.snoc ⟨.answer (by decide) (Step.sent (live takenService) 7 1 cmdCbor [9]
      (by decide) liveClaimReads liveSend liveFlags liveClaimReads_along),
      careful_still rfl (by simp) (by simp)⟩)
    ⟨rfl, rfl, rfl, by decide +kernel⟩

end P4Key.Hid
