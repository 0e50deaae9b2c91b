import P4Key.Ctaphid.Replies
import P4Key.Device.Agreement
import P4Key.Device.Run

/-! On a connection that stays, and while nobody else moves, the worker can carry out everything
that its program may do with a request that is open and not cancelled. -/

namespace P4Key.Device

open Memory CallProgram P4Key.Ctaphid P4Key.Usb

/-- The worker has the request of the claim, nobody has cancelled it, and the bus is up. -/
structure Working (worker : Hid.Task) (state : Hid.State) (claim : Hid.Claim) : Prop where
  linked : Hid.Linked state.service
  current : state.service.claim = some claim
  owner : claim.owner = worker
  uncancelled : ∀ i, (state.service.core.channels i).cancel = false
  seen : state.service.seenUsbGeneration = claim.usbGeneration
  generation : usbUnmountGeneration state.flags.bus = claim.usbGeneration
  ready : usbReady state.flags.bus = true
  reset : state.flags.resetRequested = false

def stillReads (claim : Hid.Claim) : Hid.ClaimReads := ⟨false, claim.usbGeneration, true⟩

variable {worker : Hid.Task} {state : Hid.State} {claim : Hid.Claim}

theorem Working.along (working : Working worker state claim) :
    (stillReads claim).Along state.flags state.flags :=
  ⟨state.flags, state.flags, state.flags, .refl, working.reset.symm, .refl,
    working.generation.symm, .refl, working.ready.symm, .refl⟩

theorem Working.matches (working : Working worker state claim) :
    Hid.claimMatches state.service claim.cid (some worker) (stillReads claim) = true := by
  have holds := working.linked.claim claim working.current
  by_contra refused
  have owner : ∀ task, some worker = some task → claim.owner = task := by
    intro task same
    rw [working.owner]
    exact Option.some.inj same
  rcases holds.claimMatches working.linked.valid working.current owner (stillReads claim)
    (by simpa using refused) with pending | seen | generation | ready
  · cases pending
  · exact seen working.seen
  · exact generation rfl
  · cases ready

theorem Working.not_cancelled (working : Working worker state claim) :
    coreCancelled state.service.core claim.cid claim.operationGeneration = false := by
  have holds := working.linked.claim claim working.current
  obtain ⟨i, owns, generation⟩ := holds.generation
  rw [coreCancelled, if_neg (by simp [holds.phase, holds.activeCid]),
    owns.chanFind working.linked.valid.registered]
  simp [generation, working.uncancelled i]

theorem Working.asked (working : Working worker state claim) :
    Hid.Step state (.asked worker claim.cid false) state := by
  have step := Hid.Step.asked state worker claim.cid (stillReads claim) state.flags working.along
  rw [Hid.hidCancelled, working.current] at step
  simp only [working.matches, working.not_cancelled, Bool.not_true, Bool.or_false] at step
  exact step

def openSend : Hid.SendReads := ⟨true, fun _ => .ok⟩

theorem openSend_sends {cid : UInt32} {command : UInt8} {data : List UInt8} (proper : cid ≠ 0)
    (initial : command &&& 0x80 ≠ 0) (bounded : data.length ≤ maxPayload) :
    Hid.sendLocked cid command data openSend = (.ok, frames cid command data) := by
  have fits : ¬ (cid = 0 ∨ command &&& 0x80 = 0 ∨ data.length > maxPayload) := by
    rw [not_or, not_or]
    exact ⟨proper, initial, Nat.not_lt.mpr bounded⟩
  have sent : (txSend cid command data fun k => openSend.usb k == .ok).1 = .ok := by
    rw [txSend, if_neg fits]
    exact txContinue_ok cid (data.drop initDataBytes) 0 1
  have whole := Hid.sendLocked_whole cid command data openSend
  have ok : (Hid.sendLocked cid command data openSend).1 = .ok := by
    rw [Hid.sendLocked, if_neg (by decide)]
    simp only [sent]
  exact Prod.ext ok (whole ok)

theorem Working.keptAlive (working : Working worker state claim) {status : UInt8}
    (known : status = Hid.keepaliveProcessing ∨ status = Hid.keepaliveUpNeeded) :
    ∃ reports next, Hid.Step state (.keptAlive worker claim.cid status .ok reports) next ∧
      Working worker next claim := by
  have holds := working.linked.claim claim working.current
  obtain ⟨i, owns, generation⟩ := holds.generation
  have found := owns.chanFind working.linked.valid.registered
  have proper := (working.linked.valid.registered.assigned i owns.1).1
  rw [owns.2] at proper
  -- the clock stands where the interval is just over
  let nowMs := keepaliveMs + (state.service.core.channels i).lastKeepaliveMs
  have late : timeExpired nowMs (state.service.core.channels i).lastKeepaliveMs keepaliveMs =
      true := by
    rw [timeExpired, UInt32.add_sub_cancel]
    decide
  have step := Hid.Step.keptAlive state worker claim.cid status (stillReads claim) nowMs 0 openSend
    state.flags working.along
  have kept := Hid.hidKeepalive_linked working.linked worker claim.cid status (stillReads claim)
    nowMs 0 openSend
  have valid : ¬ (status ≠ Hid.keepaliveProcessing ∧ status ≠ Hid.keepaliveUpNeeded) := by
    rw [not_and_or, not_not, not_not]
    exact known
  have open_ : ¬ ((!Hid.claimMatches state.service claim.cid (some worker) (stillReads claim)) = true ∨
      claim.command ≠ cmdCbor ∨
      coreCancelled state.service.core claim.cid claim.operationGeneration = true) := by
    rw [working.matches, working.not_cancelled, holds.cbor]
    decide
  have sent : Hid.sendLocked claim.cid cmdKeepalive [status] openSend =
      (.ok, frames claim.cid cmdKeepalive [status]) :=
    openSend_sends proper (by decide) (show 1 ≤ maxPayload by decide)
  have result : Hid.hidKeepalive state.service worker claim.cid status (stillReads claim) nowMs 0
      openSend =
        ({ state.service with
            core := state.service.core.setChannel i
              { state.service.core.channels i with
                keepaliveSent := true
                lastKeepaliveMs := 0
                lastKeepaliveStatus := status } },
          .ok, frames claim.cid cmdKeepalive [status]) := by
    rw [Hid.hidKeepalive, if_neg valid, working.current]
    simp only
    rw [if_neg open_, found]
    simp only
    rw [if_neg (by simp [late]), sent]
    simp only [if_pos, working.current]
  rw [result] at step kept
  refine ⟨_, _, step, kept, working.current, working.owner, ?_, working.seen, working.generation,
    working.ready, working.reset⟩
  intro j
  by_cases here : j = i
  · rw [here, setChannel_same]
    exact working.uncancelled i
  · rw [setChannel_other _ i j _ here]
    exact working.uncancelled j

theorem Working.sent (working : Working worker state claim) {data : List UInt8}
    (bounded : data.length ≤ Ctap.maxMessage) :
    ∃ next, Hid.Step state (.sent worker claim.cid cmdCbor data .ok (frames claim.cid cmdCbor data))
      next := by
  have holds := working.linked.claim claim working.current
  obtain ⟨i, owns, generation⟩ := holds.generation
  have proper := (working.linked.valid.registered.assigned i owns.1).1
  rw [owns.2] at proper
  have arguments := Hid.sendArguments_cbor proper bounded
  have step := Hid.Step.sent state worker claim.cid cmdCbor data arguments (stillReads claim)
    openSend state.flags working.along
  have matched : ¬ ((!Hid.claimMatches state.service claim.cid (some worker) (stillReads claim)) =
      true ∨ claim.command ≠ cmdCbor) := by
    rw [working.matches, holds.cbor]
    decide
  have uncut : Hid.responseData state.service claim claim.cid cmdCbor data = data := by
    rw [Hid.responseData, working.not_cancelled]
    exact if_neg (by decide)
  have result : Hid.sendLocked claim.cid cmdCbor data openSend = (.ok, frames claim.cid cmdCbor data) :=
    openSend_sends proper (by decide) bounded
  rw [Hid.hidSendMsg, working.current] at step
  simp only at step
  rw [if_neg matched, uncut, result] at step
  exact ⟨_, step⟩

/-! The program of the worker. -/

/-- Calls that say nothing of a cancellation, and keepalives that go out. -/
def Steady (cid : UInt32) : Event WorkerReply → Prop
  | ⟨.press (.hidCancelled other), cancelled⟩ => other = cid ∧ cancelled = false
  | ⟨.press (.hidKeepalive other status), error⟩ =>
    other = cid ∧ status = Hid.keepaliveUpNeeded ∧ error = hidCode .ok
  | ⟨.hidSendMsg _ _ _, _⟩ => False
  | _ => True

theorem Working.call {system : System} (working : Working worker system.hid claim)
    {message : Message} {call : WorkerCall} {rest : WorkerReply call → Worker (List UInt8)}
    (here : system.thread = .serving message (.call call rest)) {reply : WorkerReply call}
    (steady : Steady claim.cid ⟨call, reply⟩) :
    ∃ hid next, Step worker system ⟨hid, some ⟨call, reply⟩, 0⟩ next ∧
      next.thread = .serving message (rest reply) ∧ Working worker next.hid claim := by
  cases call with
  | press call =>
      cases call with
      | hidCancelled other =>
          obtain ⟨rfl, rfl⟩ := steady
          exact ⟨_, _, .asked here working.asked, rfl, working⟩
      | hidKeepalive other status =>
          obtain ⟨rfl, rfl, rfl⟩ := steady
          obtain ⟨reports, next, step, after⟩ := working.keptAlive (Or.inr rfl)
          exact ⟨_, _, .keptAlive here step, rfl, after⟩
      | _ => exact ⟨_, _, .called here rfl reply, rfl, working⟩
  | hidSendMsg cid command data => exact False.elim steady
  | _ => exact ⟨_, _, .called here rfl reply, rfl, working⟩

/-- Whatever a program can do with such calls, the device can do. -/
theorem Working.realise {start : System} (working : Working worker start.hid claim)
    {message : Message} {program rest : Worker (List UInt8)}
    (here : start.thread = .serving message program) {events : List (Event WorkerReply)}
    (progress : Progress program events rest) (steady : ∀ event ∈ events, Steady claim.cid event) :
    ∃ past last, Runs.Run (Step worker) start past last ∧ calls past = events ∧
      last.thread = .serving message rest ∧ Working worker last.hid claim := by
  induction progress with
  | start => exact ⟨[], start, .nil, rfl, here, working⟩
  | @step events call next earlier reply ih =>
      obtain ⟨past, last, run, made, there, still⟩ :=
        ih fun event member => steady event (List.mem_append_left _ member)
      obtain ⟨hid, after, step, left, again⟩ := still.call there (steady ⟨call, reply⟩ (by simp))
      refine ⟨_, after, run.snoc step, ?_, left, again⟩
      rw [calls_append, made]
      rfl

/-! A wait in which the button is pressed from the second look on. -/

section Press

open P4Key.Press

def look (cid : UInt32) : Event Press.Reply := ⟨.hidCancelled cid, false⟩
def level (pressed : Bool) : Event Press.Reply := ⟨.buttonPressed, pressed⟩
def pause : Event Press.Reply := ⟨.taskDelay pressSampleMs, ()⟩

def pressedWait (cid : UInt32) : List (Event Press.Reply) :=
  [⟨.buttonReady, true⟩, level false,
    look cid, ⟨.hidKeepalive cid Press.keepaliveUpNeeded, hidOk⟩, level true, pause,
    look cid, level true, pause, look cid, level true, pause,
    look cid, level true, look cid]

theorem look_runs (cid : UInt32) : Execution (Press.hidCancelled cid) [look cid] false :=
  .call (.done false)

theorem level_runs (pressed : Bool) : Execution buttonPressed [level pressed] pressed :=
  .call (.done pressed)

theorem ready_runs : Execution buttonReady [⟨.buttonReady, true⟩] true := .call (.done true)

theorem reminder_runs (cid : UInt32) :
    Execution (hidKeepalive cid Press.keepaliveUpNeeded)
      [⟨.hidKeepalive cid Press.keepaliveUpNeeded, hidOk⟩] hidOk := .call (.done hidOk)

theorem pause_runs : Execution (taskDelay pressSampleMs) [pause] () := .call (.done ())

theorem stopped_quiet (cid : UInt32) {elapsedMs : Nat} (quiet : elapsedMs % Press.keepaliveMs ≠ 0) :
    Execution (stopped cid elapsedMs) [look cid] none := by
  rw [stopped]
  refine execution_append (look_runs cid) ?_
  rw [if_neg (by decide), if_neg quiet]
  exact .done none

theorem stopped_reminds (cid : UInt32) : Execution (stopped cid 0)
    [look cid, ⟨.hidKeepalive cid Press.keepaliveUpNeeded, hidOk⟩] none := by
  rw [stopped]
  refine execution_append (look_runs cid) ?_
  rw [if_neg (by decide), if_pos (by decide)]
  refine execution_append (reminder_runs cid) ?_
  rw [if_neg (by decide)]
  exact .done none

theorem waitLoop_presses {cid : UInt32} {elapsedMs stableMs : Nat} (time : elapsedMs < pressTimeoutMs)
    (few : stableMs + pressSampleMs < pressDebounceMs) {first events : List (Event Press.Reply)}
    {result : Int} (goes_on : Execution (stopped cid elapsedMs) first none)
    (rest : Execution (waitLoop cid (elapsedMs + pressSampleMs) false (stableMs + pressSampleMs))
      events result) :
    Execution (waitLoop cid elapsedMs false stableMs)
      (first ++ level true :: pause :: events) result := by
  rw [waitLoop, if_pos time]
  refine execution_append goes_on ?_
  refine execution_append (level_runs true) ?_
  simp only [Bool.false_eq_true, if_false, if_true, ge_iff_le, if_neg (Nat.not_le.mpr few)]
  exact execution_append pause_runs rest

theorem pressedWait_granted (cid : UInt32) :
    Execution (Press.pressWait cid) (pressedWait cid) pressOk := by
  have last : Execution (waitLoop cid 30 false 30) [look cid, level true, look cid] pressOk := by
    rw [waitLoop, if_pos (by decide)]
    refine execution_append (stopped_quiet cid (by decide)) ?_
    refine execution_append (level_runs true) ?_
    rw [if_pos (by decide), if_pos (by decide), unlessCancelled]
    refine execution_append (look_runs cid) ?_
    rw [if_neg (by decide)]
    exact .done pressOk
  have third := waitLoop_presses (by decide) (by decide) (stopped_quiet cid (by decide)) last
  have second := waitLoop_presses (by decide) (by decide) (stopped_quiet cid (by decide)) third
  have first := waitLoop_presses (by decide) (by decide) (stopped_reminds cid) second
  refine execution_append ready_runs ?_
  rw [if_neg (by decide)]
  exact execution_append (level_runs false) first

end Press

/-! A registration that the user grants. -/

def Call.about (cid : UInt32) : Call → Bool
  | .pressWait other => other == cid
  | .pressCancelled other => other == cid
  | _ => true

theorem pressedWait_steady (cid : UInt32) : ∀ event ∈ pressedWait cid, Steady cid (pressEvent event) := by
  simp [pressedWait, look, level, pause, pressEvent, Steady, Press.keepaliveUpNeeded,
    Hid.keepaliveUpNeeded, Press.hidOk, hidCode]

theorem pressCalls_runs {α : Type} {program : Press.Wait α} {calls : List (Event Press.Reply)}
    {value : α} (run : Execution program calls value) :
    Execution (pressCalls program) (calls.map pressEvent) value := by
  induction run with
  | done value => exact .done value
  | call tail ih => exact .call ih

theorem granting (cid : UInt32) {call : Call} (own : call.about cid = true) :
    ∃ segment, Execution (pressBody call) segment (sampleReplies call) ∧
      ∀ event ∈ segment, Steady cid event := by
  cases call with
  | pressWait other =>
      have same : other = cid := by simpa [Call.about] using own
      subst same
      refine ⟨(pressedWait other).map pressEvent, ?_, ?_⟩
      · exact pressCalls_runs (pressedWait_granted other)
      · intro event member
        obtain ⟨inner, inside, rfl⟩ := List.mem_map.mp member
        exact pressedWait_steady other inner inside
  | pressCancelled other =>
      have same : other = cid := by simpa [Call.about] using own
      subst same
      exact ⟨[⟨.press (.hidCancelled other), false⟩], .call (.done false), by simp [Steady]⟩
  | _ => exact ⟨[⟨_, _⟩], .call (.done _), by simp [Steady]⟩

theorem granted_execution (cid : UInt32) {α : Type} (program : Firmware α)
    (own : ∀ event ∈ program.trace sampleReplies, event.1.about cid = true) :
    ∃ events, Execution (program.interpret pressBody) events (program.value sampleReplies) ∧
      ∀ event ∈ events, Steady cid event := by
  have parts : ∀ event ∈ program.trace sampleReplies, ∃ segment,
      Execution (pressBody event.1) segment event.2 ∧ ∀ inner ∈ segment, Steady cid inner := by
    intro event member
    have told : event.2 = sampleReplies event.1 :=
      @trace_allowed _ _ _ (fun event => event.2 = sampleReplies event.1) sampleReplies
        (fun _ => rfl) program event member
    rw [told]
    exact granting cid (own event member)
  obtain ⟨events, expansion, steady⟩ := expansion_exists parts
  exact ⟨events, expansion.execution (execution_value sampleReplies program), steady⟩

def registrationMessage : Message :=
  ⟨1, cmdCbor, Ctap.cmdMakeCredential :: Ctap.sampleRegistration, 1⟩

def registration : Firmware Ctap.Answer :=
  link (Ctap.dispatch 1 registrationMessage.data (zeros Ctap.maxMessage) Ctap.maxMessage)

def registrationData : List UInt8 := payload (registration.value sampleReplies)

theorem registration_own :
    (registration.trace sampleReplies).all (fun event => event.1.about 1) = true := by
  decide +kernel

theorem registration_ok : registrationData.head? = some Ctap.statusOk := by
  decide +kernel

theorem around_run {start last : Hid.State} {events : List Hid.Event}
    (run : Runs.Run (fun state event next => Hid.Step state event next ∧ Hid.caller event = none)
      start events last) (system : System) (here : system.hid = start) :
    Runs.Run (Step worker) system (events.map fun event => ⟨event, none, 0⟩)
      { system with hid := last } := by
  induction run with
  | nil =>
      rw [← here]
      exact .nil
  | snoc run step ih =>
      rw [List.map_append]
      exact ih.snoc (.around step.1 step.2)

theorem live_run (service : Hid.Service) (seen : service.seenUsbGeneration = 1) (report : Report)
    (system : System) (here : system.hid = Hid.live service) :
    Runs.Run (Step worker) system
      ((Hid.liveEvents service report).map fun event => ⟨event, none, 0⟩)
      { system with hid := Hid.live (Hid.liveReport service report).1 } := by
  refine around_run (Hid.live_report_run _ service seen report ?_) system here
  intro state event next step _ _ member
  refine ⟨step, ?_⟩
  simp only [Hid.liveEvents, List.mem_cons, List.not_mem_nil, or_false] at member
  rcases member with same | same | same | same | same <;> rw [same] <;> rfl

def firstReport : Report := initialReport 1 cmdCbor registrationMessage.data

def secondReport : Report := continuationReport 1 0 (registrationMessage.data.drop initDataBytes)

def begunService : Hid.Service := (Hid.liveReport Hid.openedService firstReport).1

def wholeService : Hid.Service := (Hid.liveReport begunService secondReport).1

def registrationClaim : Hid.Claim := ⟨1, 1, 1, cmdCbor, 7⟩

def ownedService : Hid.Service := (Hid.hidTakeMsg wholeService 7 maxPayload Hid.liveTakeReads).1

theorem registration_step : Hid.Step (Hid.live wholeService)
    (.took 7 maxPayload (.taken registrationMessage)) (Hid.live ownedService) := by
  have outcome : (Hid.hidTakeMsg wholeService 7 maxPayload Hid.liveTakeReads).2 =
      .taken registrationMessage := by decide +kernel
  have taken := Hid.Step.took (Hid.live wholeService) 7 maxPayload Hid.liveTakeReads Hid.liveFlags
    ⟨Hid.liveFlags, Hid.liveFlags, Hid.liveFlags, Hid.liveFlags, .refl, rfl, .refl, rfl, .refl, rfl,
      .refl, rfl, .refl⟩
  rw [show (Hid.live wholeService).service = wholeService from rfl, outcome] at taken
  exact taken

theorem registration_taken : ∃ past system,
    DeviceRun 7 Hid.liveFlags.bus (past ++ [⟨.took 7 maxPayload (.taken registrationMessage), none, 0⟩])
      system ∧
    system.thread = .serving registrationMessage (serve registrationMessage (zeros Ctap.maxMessage)) ∧
    Working 7 system.hid registrationClaim := by
  have opened := @live_run 7 (Hid.started Hid.liveFlags.bus).service rfl openingReport
    (booted Hid.liveFlags.bus) rfl
  have begun := @live_run 7 Hid.openedService (by decide +kernel) firstReport
    { booted Hid.liveFlags.bus with hid := Hid.live Hid.openedService } rfl
  have whole := @live_run 7 begunService (by decide +kernel) secondReport
    { booted Hid.liveFlags.bus with hid := Hid.live begunService } rfl
  have taken : Step 7 { booted Hid.liveFlags.bus with hid := Hid.live wholeService } _ _ :=
    .take rfl registration_step
  have run : DeviceRun 7 Hid.liveFlags.bus _ _ := ((opened.append begun).append whole).snoc taken
  refine ⟨_, _, run, rfl, ?_⟩
  have linked := Hid.SystemRun.linked (DeviceRun.hid run)
  exact ⟨linked, by decide +kernel, rfl, by decide +kernel, by decide +kernel, rfl, rfl, rfl⟩

theorem registration_served : ∃ start between system rest,
    DeviceRun 7 Hid.liveFlags.bus
      (start ++ ⟨.took 7 maxPayload (.taken registrationMessage), none, 0⟩ :: between) system ∧
    system.thread =
      .serving registrationMessage (.call (.hidSendMsg 1 cmdCbor registrationData) rest) ∧
    Working 7 system.hid registrationClaim := by
  obtain ⟨past, system, run, here, working⟩ := registration_taken
  obtain ⟨events, dispatched, steady⟩ := granted_execution 1 registration
    (List.all_eq_true.mp registration_own)
  have served : Execution (serve registrationMessage (zeros Ctap.maxMessage))
      (events ++ [⟨.hidSendMsg 1 cmdCbor registrationData, .ok⟩])
      (clear (Hid.dispatchResult (registration.value sampleReplies)).1 Ctap.maxMessage) := by
    rw [serve_eq]
    have linked : (Ctap.dispatch registrationMessage.cid registrationMessage.data
        (zeros Ctap.maxMessage) Ctap.maxMessage).interpret commandBody =
          registration.interpret pressBody := (Program.interpret_interpret _ _ _).symm
    rw [linked]
    exact execution_append dispatched (.call (.done _))
  obtain ⟨rest, progress, tail⟩ := progress_of_execution served
  cases tail with
  | call tail =>
      obtain ⟨between, last, served, -, there, still⟩ := working.realise here progress steady
      refine ⟨past, between, last, _, ?_, there, still⟩
      have whole := run.append served
      rw [List.append_assoc] at whole
      exact whole

end P4Key.Device
