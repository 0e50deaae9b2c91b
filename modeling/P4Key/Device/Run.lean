import P4Key.Device.Consent
import P4Key.Hid.Cancel

/-! The worker as one thread of the device.

Around it go the transport task, its other callers and the bus, as Hid.System has them. The thread
is what `send_dispatch_result` has left to do. -/

namespace P4Key.Device

open Memory CallProgram P4Key.Ctaphid P4Key.Usb

/-- About to call `hid_take_msg`, in the delay behind P4_HID_ERR_DISCONNECTED, or between a take and
the next turn. -/
inductive Thread where
  | top
  | pausing
  | serving (message : Message) (rest : Worker (List UInt8))

def Thread.idle : Thread → Bool
  | .serving _ _ => false
  | _ => true

/-- `s_response` is that of the last turn while the thread has the next one. -/
structure System where
  hid : Hid.State
  thread : Thread
  request : List UInt8
  response : List UInt8

def booted (bus : Bus) : System :=
  { hid := Hid.started bus
    thread := .top
    request := zeros maxPayload
    response := zeros Ctap.maxMessage }

/-- What happens in a step: to the transport, and as a call of the worker for its request. The loop
of `ctap_stub_task` has one delay of its own, in milliseconds. -/
structure Occurrence where
  hid : Hid.Event
  call : Option (Event WorkerReply)
  pause : Nat

def disconnectedDelayMs : Nat := 25

def hidCode : Hid.HidResult → Int
  | .ok => 0
  | .arg => -1
  | .state => -2
  | .timeout => -3
  | .disconnected => -4
  | .small => -5
  | .driver => -6
  | .rate => -7

def WorkerCall.local : WorkerCall → Bool
  | .press (.hidCancelled _) => false
  | .press (.hidKeepalive _ _) => false
  | .hidSendMsg _ _ _ => false
  | _ => true

def System.taken (system : System) (next : Hid.State) : Hid.TakeOutcome → System
  | .taken message =>
    { system with
      hid := next
      thread := .serving message (serve message system.response)
      request := store system.request 0 message.data }
  | outcome =>
    { system with
      hid := next
      thread := if outcome.disconnected then .pausing else .top }

def System.returned (system : System) (next : Hid.State) (message : Message)
    (rest : Worker (List UInt8)) : System :=
  { system with hid := next, thread := .serving message rest }

inductive Step (worker : Hid.Task) : System → Occurrence → System → Prop where
  | around {system : System} {event : Hid.Event} {next : Hid.State}
      (step : Hid.Step system.hid event next) (quiet : Hid.caller event = none) :
      Step worker system ⟨event, none, 0⟩ { system with hid := next }
  | take {system : System} (here : system.thread = .top) {outcome : Hid.TakeOutcome}
      {next : Hid.State} (step : Hid.Step system.hid (.took worker maxPayload outcome) next) :
      Step worker system ⟨.took worker maxPayload outcome, none, 0⟩ (system.taken next outcome)
  | paused {system : System} (here : system.thread = .pausing) :
      Step worker system ⟨.quiet, none, disconnectedDelayMs⟩ { system with thread := .top }
  | called {system : System} {message : Message} {call : WorkerCall}
      {rest : WorkerReply call → Worker (List UInt8)}
      (here : system.thread = .serving message (.call call rest)) (own : call.local = true)
      (reply : WorkerReply call) :
      Step worker system ⟨.quiet, some ⟨call, reply⟩, 0⟩
        (system.returned system.hid message (rest reply))
  | asked {system : System} {message : Message} {cid : UInt32} {rest : Bool → Worker (List UInt8)}
      (here : system.thread = .serving message (.call (.press (.hidCancelled cid)) rest))
      {cancelled : Bool} {next : Hid.State}
      (step : Hid.Step system.hid (.asked worker cid cancelled) next) :
      Step worker system
        ⟨.asked worker cid cancelled, some ⟨.press (.hidCancelled cid), cancelled⟩, 0⟩
        (system.returned next message (rest cancelled))
  /-- `hid_cancelled` does not get the mutex. -/
  | askTimedOut {system : System} {message : Message} {cid : UInt32}
      {rest : Bool → Worker (List UInt8)}
      (here : system.thread = .serving message (.call (.press (.hidCancelled cid)) rest)) :
      Step worker system ⟨.quiet, some ⟨.press (.hidCancelled cid), true⟩, 0⟩
        (system.returned system.hid message (rest true))
  | keptAlive {system : System} {message : Message} {cid : UInt32} {status : UInt8}
      {rest : Int → Worker (List UInt8)}
      (here : system.thread = .serving message (.call (.press (.hidKeepalive cid status)) rest))
      {result : Hid.HidResult} {reports : List Report} {next : Hid.State}
      (step : Hid.Step system.hid (.keptAlive worker cid status result reports) next) :
      Step worker system
        ⟨.keptAlive worker cid status result reports,
          some ⟨.press (.hidKeepalive cid status), hidCode result⟩, 0⟩
        (system.returned next message (rest (hidCode result)))
  /-- `hid_keepalive` does not get the mutex. -/
  | keepaliveTimedOut {system : System} {message : Message} {cid : UInt32} {status : UInt8}
      {rest : Int → Worker (List UInt8)}
      (here : system.thread = .serving message (.call (.press (.hidKeepalive cid status)) rest)) :
      Step worker system ⟨.quiet, some ⟨.press (.hidKeepalive cid status), hidCode .timeout⟩, 0⟩
        (system.returned system.hid message (rest (hidCode .timeout)))
  | sent {system : System} {message : Message} {cid : UInt32} {command : UInt8}
      {data : List UInt8} {rest : Hid.HidResult → Worker (List UInt8)}
      (here : system.thread = .serving message (.call (.hidSendMsg cid command data) rest))
      {result : Hid.HidResult} {reports : List Report} {next : Hid.State}
      (step : Hid.Step system.hid (.sent worker cid command data result reports) next) :
      Step worker system
        ⟨.sent worker cid command data result reports,
          some ⟨.hidSendMsg cid command data, result⟩, 0⟩
        (system.returned next message (rest result))
  | sendTimedOut {system : System} {message : Message} {cid : UInt32} {command : UInt8}
      {data : List UInt8} {rest : Hid.HidResult → Worker (List UInt8)}
      (here : system.thread = .serving message (.call (.hidSendMsg cid command data) rest))
      {next : Hid.State} (step : Hid.Step system.hid (.sendTimedOut worker cid command) next) :
      Step worker system
        ⟨.sendTimedOut worker cid command, some ⟨.hidSendMsg cid command data, .timeout⟩, 0⟩
        (system.returned next message (rest .timeout))
  | sendRefused {system : System} {message : Message} {cid : UInt32} {command : UInt8}
      {data : List UInt8} {rest : Hid.HidResult → Worker (List UInt8)}
      (here : system.thread = .serving message (.call (.hidSendMsg cid command data) rest))
      (refused : Hid.sendArguments cid command data = false) :
      Step worker system ⟨.quiet, some ⟨.hidSendMsg cid command data, .arg⟩, 0⟩
        (system.returned system.hid message (rest .arg))
  /-- The scrub of `s_request`, behind that of `s_response`. -/
  | finished {system : System} {message : Message} {memory : List UInt8}
      (here : system.thread = .serving message (.done memory)) :
      Step worker system ⟨.quiet, none, 0⟩
        { system with
          thread := .top
          request := clear system.request maxPayload
          response := memory }

abbrev DeviceRun (worker : Hid.Task) (bus : Bus) : List Occurrence → System → Prop :=
  Runs.Run (Step worker) (booted bus)

variable {worker : Hid.Task} {bus : Bus} {system next : System} {occurrence : Occurrence}

/-- The transport sees every step as one of its own. -/
theorem Step.hid (step : Step worker system occurrence next) :
    Hid.Step system.hid occurrence.hid next.hid := by
  cases step with
  | around step quiet => exact step
  | @take here outcome next step =>
      cases outcome with
      | refused result => exact step
      | reset => exact step
      | taken message => exact step
  | paused here => exact .refused _
  | called here own reply => exact .refused _
  | asked here step => exact step
  | askTimedOut here => exact .refused _
  | keptAlive here step => exact step
  | keepaliveTimedOut here => exact .refused _
  | sent here step => exact step
  | sendTimedOut here step => exact step
  | sendRefused here refused => exact .refused _
  | finished here => exact .refused _

theorem DeviceRun.hid {past : List Occurrence} (run : DeviceRun worker bus past system) :
    Hid.SystemRun bus (past.map Occurrence.hid) system.hid := by
  apply run.history fun past system => Hid.SystemRun bus (past.map Occurrence.hid) system.hid
  · exact .nil
  · intro past state occurrence next before earlier step
    rw [List.map_append]
    exact earlier.snoc step.hid

def calls (past : List Occurrence) : List (Event WorkerReply) := past.filterMap Occurrence.call

theorem calls_append (first second : List Occurrence) :
    calls (first ++ second) = calls first ++ calls second := List.filterMap_append

theorem calls_at {past : List Occurrence} {front back : List (Event WorkerReply)}
    {event : Event WorkerReply} (split : calls past = front ++ event :: back) :
    ∃ working used rest, past = working ++ used :: rest ∧ calls working = front ∧
      used.call = some event ∧ calls rest = back := by
  obtain ⟨first, second, rfl, before, behind⟩ := List.filterMap_eq_append_iff.mp split
  obtain ⟨quiet, used, rest, rfl, none, made, last⟩ := List.filterMap_eq_cons_iff.mp behind
  refine ⟨first ++ quiet, used, rest, by simp, ?_, made, last⟩
  rw [calls_append, calls, calls, before, List.filterMap_eq_nil_iff.mpr none, List.append_nil]

/-- Nothing but the thread takes a request or calls, and it clears no cancellation. -/
structure Tame (worker : Hid.Task) (occurrence : Occurrence) : Prop where
  taken : occurrence.call ≠ none → Hid.requestTaken occurrence.hid = none
  taker : ∀ task message, Hid.requestTaken occurrence.hid = some (task, message) → task = worker
  uncancels : ∀ cid, Hid.uncancels cid occurrence.hid = false
  asked : ∀ cid, occurrence.call = some ⟨.press (.hidCancelled cid), false⟩ →
    occurrence = ⟨.asked worker cid false, some ⟨.press (.hidCancelled cid), false⟩, 0⟩

theorem Step.tame (step : Step worker system occurrence next) : Tame worker occurrence := by
  cases step with
  | @around event next step quiet =>
      refine ⟨fun impossible => absurd rfl impossible, ?_, ?_, fun _ impossible => by cases impossible⟩
      · intro task message taken
        cases event with
        | took task' cap outcome => cases quiet
        | _ => cases taken
      · intro cid
        cases event with
        | uncancelled task' cid' cleared => cases quiet
        | _ => rfl
  | @take here outcome next step =>
      refine ⟨fun impossible => absurd rfl impossible, ?_, fun _ => rfl,
        fun _ impossible => by cases impossible⟩
      intro task message taken
      cases outcome with
      | taken message' =>
          cases taken
          rfl
      | refused result => cases taken
      | reset => cases taken
  | called here own reply =>
      refine ⟨fun _ => rfl, fun _ _ impossible => by (cases impossible), fun _ => rfl, ?_⟩
      intro cid same
      cases same
      cases own
  | asked here step =>
      refine ⟨fun _ => rfl, fun _ _ impossible => by (cases impossible), fun _ => rfl, ?_⟩
      intro cid same
      cases same
      rfl
  | askTimedOut here =>
      refine ⟨fun _ => rfl, fun _ _ impossible => by (cases impossible), fun _ => rfl, ?_⟩
      intro cid same
      cases same
  | _ =>
      exact ⟨fun _ => rfl, fun _ _ impossible => by (cases impossible), fun _ => rfl,
        fun _ impossible => by cases impossible⟩

theorem DeviceRun.tame {past : List Occurrence} (run : DeviceRun worker bus past system) :
    ∀ occurrence ∈ past, Tame worker occurrence := by
  intro occurrence member
  obtain ⟨before, after, rfl⟩ := List.append_of_mem member
  obtain ⟨state, next, -, step, -⟩ := run.at_event
  exact step.tame

/-! What the thread has done with its request. -/

def took (worker : Hid.Task) (message : Message) : Occurrence :=
  ⟨.took worker maxPayload (.taken message), none, 0⟩

theorem took_unique {first first' second second' : List Occurrence} {message message' : Message}
    (same : first ++ took worker message :: second = first' ++ took worker message' :: second')
    (untaken : ∀ later ∈ second, Hid.requestTaken later.hid = none)
    (untaken' : ∀ later ∈ second', Hid.requestTaken later.hid = none) :
    message = message' ∧ second = second' := by
  rcases Runs.append_cons_cases same with
    ⟨middle, -, inside⟩ | ⟨-, equal, rest⟩ | ⟨middle, -, inside⟩
  · have quiet := untaken (took worker message') (by simp [inside])
    cases quiet
  · cases equal
    exact ⟨rfl, rest⟩
  · have quiet := untaken' (took worker message) (by simp [inside])
    cases quiet

/-- Since the worker took the message nothing was taken, and `rest` is left of its answer. -/
def Serving (worker : Hid.Task) (past : List Occurrence) (message : Message)
    (rest : Worker (List UInt8)) : Prop :=
  ∃ earlier between,
    past = earlier ++ ⟨.took worker maxPayload (.taken message), none, 0⟩ :: between ∧
    (∀ later ∈ between, Hid.requestTaken later.hid = none) ∧
    Progress (serve message (zeros Ctap.maxMessage)) (calls between) rest

theorem Serving.snoc {past : List Occurrence} {message : Message} {rest rest' : Worker (List UInt8)}
    (serving : Serving worker past message rest) {occurrence : Occurrence}
    (quiet : Hid.requestTaken occurrence.hid = none)
    (advance : ∀ events, Progress (serve message (zeros Ctap.maxMessage)) events rest →
      Progress (serve message (zeros Ctap.maxMessage)) (events ++ calls [occurrence]) rest') :
    Serving worker (past ++ [occurrence]) message rest' := by
  obtain ⟨earlier, between, split, untaken, progress⟩ := serving
  refine ⟨earlier, between ++ [occurrence], by simp [split], ?_, ?_⟩
  · exact List.forall_mem_append.mpr ⟨untaken, List.forall_mem_singleton.mpr quiet⟩
  · rw [calls_append]
    exact advance _ progress

/-- `s_response` is clear outside of the program, and `s_request` is clear between two requests. -/
structure Wiped (system : System) : Prop where
  response : system.response = zeros Ctap.maxMessage
  length : system.request.length = maxPayload
  request : system.thread.idle = true → system.request = zeros maxPayload

theorem serve_done {message : Message} {events : List (Event WorkerReply)} {memory : List UInt8}
    (progress : Progress (serve message (zeros Ctap.maxMessage)) events (.done memory)) :
    memory = zeros Ctap.maxMessage := by
  have run := progress.execution (.done memory)
  rw [serve_eq] at run
  obtain ⟨commands, last, answer, -, dispatched, sent⟩ := execution_bind run
  obtain ⟨inner, command, -⟩ := execution_interpret dispatched
  have framed := (ensures_iff _ _).mp (Ctap.dispatch_framed message.cid message.data
    (zeros Ctap.maxMessage) Ctap.maxMessage (Nat.le_of_eq (length_zeros _).symm) []) inner answer
      command fun _ _ => trivial
  have whole : answer.response.length = Ctap.maxMessage := framed.size.trans (length_zeros _)
  cases sent with
  | call ended =>
      cases ended
      apply clear_whole
      rw [Hid.dispatchResult]
      split
      · exact (length_store _ _ _).trans whole
      · exact whole

structure Tracked (worker : Hid.Task) (past : List Occurrence) (system : System) : Prop where
  wiped : Wiped system
  serving : ∀ message rest, system.thread = .serving message rest →
    Serving worker past message rest

theorem Tracked.returned {past : List Occurrence} (tracked : Tracked worker past system)
    {message : Message} {call : WorkerCall} {rest : WorkerReply call → Worker (List UInt8)}
    (here : system.thread = .serving message (.call call rest)) (hid : Hid.Event)
    (reply : WorkerReply call) (quiet : Hid.requestTaken hid = none) (next : Hid.State) :
    Tracked worker (past ++ [⟨hid, some ⟨call, reply⟩, 0⟩])
      (system.returned next message (rest reply)) := by
  refine ⟨⟨tracked.wiped.response, tracked.wiped.length, fun impossible => by cases impossible⟩, ?_⟩
  intro other left same
  cases same
  exact (tracked.serving message _ here).snoc quiet fun _ progress => progress.step reply

theorem refused_idle (gone : Bool) : (if gone then Thread.pausing else .top).idle = true := by
  cases gone <;> rfl

theorem Tracked.step {past : List Occurrence} (tracked : Tracked worker past system)
    (step : Step worker system occurrence next) : Tracked worker (past ++ [occurrence]) next := by
  have tame := step.tame
  cases step with
  | @around event hid step quiet =>
      refine ⟨⟨tracked.wiped.response, tracked.wiped.length, tracked.wiped.request⟩, ?_⟩
      intro message rest here
      have untaken : Hid.requestTaken event = none := by
        cases event with
        | took task cap outcome => cases quiet
        | _ => rfl
      refine (tracked.serving message rest here).snoc untaken ?_
      intro events progress
      rw [show calls [⟨event, none, 0⟩] = [] from rfl, List.append_nil]
      exact progress
  | @take here outcome hid step =>
      have clean := tracked.wiped.request (by rw [here]; rfl)
      have idle : ∀ thread : Thread, thread.idle = true →
          Tracked worker (past ++ [⟨.took worker maxPayload outcome, none, 0⟩])
            { system with hid := hid, thread := thread } := by
        intro thread free
        refine ⟨⟨tracked.wiped.response, tracked.wiped.length, fun _ => clean⟩, ?_⟩
        rintro message rest rfl
        cases free
      cases outcome with
      | refused result => exact idle _ (refused_idle _)
      | reset => exact idle _ (refused_idle _)
      | taken message =>
          refine ⟨⟨tracked.wiped.response, ?_, fun impossible => by cases impossible⟩, ?_⟩
          · exact (length_store _ _ _).trans tracked.wiped.length
          · intro other rest same
            cases same
            refine ⟨past, [], rfl, by simp, ?_⟩
            rw [tracked.wiped.response]
            exact .start
  | paused here =>
      refine ⟨⟨tracked.wiped.response, tracked.wiped.length, fun _ => ?_⟩,
        fun _ _ impossible => by cases impossible⟩
      exact tracked.wiped.request (by rw [here]; rfl)
  | called here own reply => exact tracked.returned here _ reply rfl _
  | asked here step => exact tracked.returned here _ _ rfl _
  | askTimedOut here => exact tracked.returned here _ _ rfl _
  | keptAlive here step => exact tracked.returned here _ _ rfl _
  | keepaliveTimedOut here => exact tracked.returned here _ _ rfl _
  | sent here step => exact tracked.returned here _ _ rfl _
  | sendTimedOut here step => exact tracked.returned here _ _ rfl _
  | sendRefused here refused => exact tracked.returned here _ _ rfl _
  | finished here =>
      obtain ⟨earlier, between, -, -, progress⟩ := tracked.serving _ _ here
      refine ⟨⟨serve_done progress, ?_, ?_⟩, fun _ _ impossible => by cases impossible⟩
      · exact (length_store _ _ _).trans tracked.wiped.length
      · exact fun _ => clear_whole tracked.wiped.length

theorem DeviceRun.tracked {past : List Occurrence} (run : DeviceRun worker bus past system) :
    Tracked worker past system := by
  apply run.history (Tracked worker)
  · exact ⟨⟨rfl, length_zeros _, fun _ => rfl⟩, fun _ _ impossible => by cases impossible⟩
  · intro past state occurrence next before tracked step
    exact tracked.step step

end P4Key.Device
