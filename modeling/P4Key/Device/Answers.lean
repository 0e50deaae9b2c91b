import P4Key.Device.Safety
import P4Key.Host.Framing

/-! The one answer that each request gets. -/

namespace P4Key.Device

open Memory CallProgram P4Key.Ctaphid P4Key.Usb

variable {worker : Hid.Task} {bus : Bus} {system next : System}

/-- While a call is left the thread dispatches: its last call is the answer. -/
def Thread.place : Thread → Hid.Place
  | .serving message (.call _ _) => .dispatching message.cid message.command
  | _ => .top

theorem idle_place {thread : Thread} (idle : thread.idle = true) : thread.place = .top := by
  cases thread with
  | serving message rest => cases idle
  | _ => rfl

theorem serve_pending (message : Message) (response : List UInt8) :
    (Thread.serving message (serve message response)).place =
      .dispatching message.cid message.command := by
  rw [serve_eq]
  cases (Ctap.dispatch message.cid message.data response Ctap.maxMessage).interpret commandBody with
  | done answer => rfl
  | call c next => rfl

theorem pending_until_answer {message : Message} {response : List UInt8}
    {events : List (Event WorkerReply)} {call : WorkerCall} {reply : WorkerReply call}
    {rest : Worker (List UInt8)}
    (progress : Progress (serve message response) (events ++ [⟨call, reply⟩]) rest) :
    (Thread.serving message rest).place =
      if call.sends then .top else .dispatching message.cid message.command := by
  cases rest with
  | done memory =>
      have run := progress.execution (.done memory)
      rw [List.append_nil] at run
      obtain ⟨commands, answer, result, -, whole⟩ := serve_shape run
      obtain ⟨-, same⟩ := List.append_inj' whole rfl
      cases same
      rfl
  | call c next =>
      cases sends : call.sends with
      | false => rfl
      | true =>
          obtain ⟨later, memory, run⟩ := progress.call failingReplies
          rw [List.append_assoc] at run
          obtain ⟨answer, -, none, -⟩ := answer_last run sends
          cases none

/-! Positive answers. -/

theorem initialReport_status (cid : UInt32) (command : UInt8) {data : List UInt8}
    (some' : data ≠ []) : (initialReport cid command data).toList[7]? = data.head? := by
  rw [Host.initialReport_bytes]
  cases data with
  | nil => exact absurd rfl some'
  | cons head tail =>
      rw [List.getElem?_append_right (by simp [storeU32])]
      simp [storeU32, storeBE]

theorem frames_head {cid : UInt32} {command : UInt8} {data : List UInt8} {first : Report}
    (shown : (frames cid command data).head? = some first) :
    first = initialReport cid command data := by
  rw [frames, txSend] at shown
  split at shown
  · cases shown
  · cases shown
    rfl

/-- What the host sees in the first report is the status of what was sent. -/
theorem sent_status {state after : Hid.State} {task : Hid.Task} {cid : UInt32} {command : UInt8}
    {data : List UInt8} {result : Hid.HidResult} {reports : List Report}
    (step : Hid.Step state (.sent task cid command data result reports) after) {first : Report}
    (shown : reports.head? = some first) (status : first.toList[7]? = some Ctap.statusOk)
    (some' : data ≠ []) : data.head? = some Ctap.statusOk := by
  generalize sent : Hid.Event.sent task cid command data result reports = event at step
  cases step with
  | sent _ _ _ _ arguments reads send last along =>
      cases sent
      rcases Hid.hidSendMsg_cases state.service task cid command data reads send with
        refused | ⟨claim, -, -, answered⟩
      · rw [refused] at shown
        cases shown
      · rw [answered] at shown
        obtain ⟨rest, whole⟩ := Hid.sendLocked_part cid command
          (Hid.responseData state.service claim cid command data) send
        have front := frames_head (by rw [← whole, List.head?_append, shown]; rfl)
        rw [front, Hid.responseData] at status
        split at status
        · -- a cancelled request has another status
          rw [initialReport_status _ _ (List.cons_ne_nil _ _)] at status
          exact absurd (Option.some.inj status) (by decide)
        · rwa [initialReport_status _ _ some'] at status
  | _ => cases sent

theorem Step.sent_call {occurrence : Occurrence} (step : Step worker system occurrence next)
    {task : Hid.Task} {cid : UInt32} {command : UInt8} {data : List UInt8}
    {result : Hid.HidResult} {reports : List Report}
    (sent : occurrence.hid = .sent task cid command data result reports) :
    occurrence.call = some ⟨.hidSendMsg cid command data, result⟩ ∧
      ∃ message rest, system.thread = .serving message (.call (.hidSendMsg cid command data) rest) := by
  cases step with
  | around step quiet =>
      cases sent
      cases quiet
  | sent here step =>
      cases sent
      exact ⟨rfl, _, _, here⟩
  | _ => cases sent

/-- A positive answer is earned. If the first report of an answer shows status OK, and the request
that is answered makes a credential or asserts one, then the worker has made a key or signed since
it took this request, that call has succeeded, and at that moment it had consent. -/
theorem positive_answers_are_earned {past : List Occurrence}
    (run : DeviceRun worker bus past system) {before after : List Occurrence}
    {occurrence : Occurrence} (split : past = before ++ occurrence :: after) {task : Hid.Task}
    {cid : UInt32} {command : UInt8} {data : List UInt8} {result : Hid.HidResult}
    {reports : List Report} (sent : occurrence.hid = .sent task cid command data result reports)
    {first : Report} (shown : reports.head? = some first)
    (status : first.toList[7]? = some Ctap.statusOk) :
    ∃ start message between, before = start ++ took worker message :: between ∧
      message.cid = cid ∧ message.command = command ∧
      (∀ later ∈ between, Hid.requestTaken later.hid = none) ∧
      (message.data.head? = some Ctap.cmdMakeCredential ∨
          message.data.head? = some Ctap.cmdGetAssertion →
        ∃ working used rest call reply, between = working ++ used :: rest ∧
          used.call = some ⟨call, reply⟩ ∧ call.usesKey = true ∧ Earned message.data ⟨call, reply⟩ ∧
          ∃ earlier arrival waiting front idle, start = earlier ++ arrival :: waiting ∧
            working = front ++ looked worker cid :: idle ∧
            Entitled worker message arrival waiting front ∧ ∀ other ∈ idle, other.call = none) := by
  rw [split] at run
  obtain ⟨state, state', early, step, -⟩ := run.at_event
  obtain ⟨made, message, rest, here⟩ := step.sent_call sent
  obtain ⟨start, between, rfl, untaken, progress⟩ := (DeviceRun.tracked early).serving _ _ here
  obtain ⟨answer, dispatched, same⟩ := about_to_answer progress rfl
  cases same
  refine ⟨start, message, between, rfl, rfl, rfl, untaken, ?_⟩
  intro asks
  have hid := step.hid
  rw [sent] at hid
  have some' : payload answer ≠ [] :=
    List.ne_nil_of_length_pos (payload_sent dispatched (length_zeros _)).1
  have ok := sent_status hid shown status some'
  obtain ⟨front, ⟨call, reply⟩, back, whole, earned⟩ := success_uses_key dispatched asks ok
  have uses : call.usesKey = true := earned.usesKey asks
  obtain ⟨working, used, idle, rfl, before_use, use, -⟩ := calls_at whole
  refine ⟨working, used, idle, call, reply, rfl, use, uses, earned, ?_⟩
  rw [whole] at progress
  obtain ⟨next, pending⟩ := progress.before
  rw [← before_use] at pending
  rw [← List.cons_append, ← List.append_assoc] at early
  obtain ⟨middle, middle', upto, -, -⟩ := early.at_event
  exact use_entitled upto (fun later member => untaken later (by simp [member])) pending uses

theorem registration_answered : ∃ start between system next rest,
    DeviceRun 7 Hid.liveFlags.bus (start ++ took 7 registrationMessage :: between) system ∧
    (∀ later ∈ between, Hid.requestTaken later.hid = none) ∧
    registrationData.length ≤ Ctap.maxMessage ∧
    Step 7 system
      ⟨.sent 7 1 cmdCbor registrationData .ok (frames 1 cmdCbor registrationData),
        some ⟨.hidSendMsg 1 cmdCbor registrationData, .ok⟩, 0⟩ next ∧
    next.thread = .serving registrationMessage (.done rest) := by
  obtain ⟨first, since, system, rest, run, here, working⟩ := registration_served
  have tracked := DeviceRun.tracked run
  obtain ⟨start, between, split, untaken, progress⟩ := tracked.serving _ _ here
  obtain ⟨answer, dispatched, same⟩ := about_to_answer progress rfl
  have bounded := (payload_sent dispatched (length_zeros _)).2
  rw [← (WorkerCall.hidSendMsg.inj same).2.2] at bounded
  obtain ⟨next, step⟩ := working.sent bounded
  have ended := pending_until_answer (progress.step Hid.HidResult.ok)
  cases last : rest .ok with
  | call call more =>
      rw [last] at ended
      cases ended
  | done memory =>
      rw [split] at run
      refine ⟨start, between, system, _, memory, run, untaken, bounded, .sent here step, ?_⟩
      rw [System.returned, last]

theorem registration_answer_is_earned : ∃ start working used rest keys,
    (∃ system, DeviceRun 7 Hid.liveFlags.bus
      (start ++ took 7 registrationMessage :: (working ++ used :: rest)) system) ∧
    used.call = some ⟨.p256Make, (cryptoOk, keys)⟩ ∧
    ∃ earlier arrival waiting front idle, start = earlier ++ arrival :: waiting ∧
      working = front ++ looked 7 1 :: idle ∧
      Entitled 7 registrationMessage arrival waiting front ∧
      ∀ other ∈ idle, other.call = none := by
  obtain ⟨start, between, system, next, memory, run, untaken, bounded, step, -⟩ :=
    registration_answered
  have some' : registrationData ≠ [] := by
    intro none
    have ok := registration_ok
    rw [none] at ok
    cases ok
  have shown : (frames 1 cmdCbor registrationData).head? =
      some (initialReport 1 cmdCbor registrationData) := by
    rw [List.head?_eq_getElem?]
    exact frames_zero (by decide) (by decide) bounded
  have status : (initialReport 1 cmdCbor registrationData).toList[7]? = some Ctap.statusOk :=
    (initialReport_status 1 cmdCbor some').trans registration_ok
  obtain ⟨start', message, between', split, -, -, untaken', earned⟩ :=
    positive_answers_are_earned (run.snoc step) rfl rfl shown status
  obtain ⟨rfl, rfl⟩ := took_unique split untaken untaken'
  obtain ⟨working, used, rest, call, reply, rfl, use, -, key, entitled⟩ := earned (Or.inl rfl)
  obtain ⟨keys, made⟩ := key.made rfl
  rw [split] at run
  exact ⟨start', working, used, rest, keys, ⟨system, run⟩, use.trans (congrArg some made), entitled⟩

/-! The worker as a loop that polls and answers. -/

def System.loop (system : System) : Hid.Loop := ⟨system.hid, system.thread.place⟩

theorem Tracked.place {past : List Occurrence} (tracked : Tracked worker past system)
    {message : Message} {call : WorkerCall} {rest : WorkerReply call → Worker (List UInt8)}
    (here : system.thread = .serving message (.call call rest)) (reply : WorkerReply call) :
    system.thread.place = .dispatching message.cid message.command ∧
      (Thread.serving message (rest reply)).place =
        if call.sends then .top else .dispatching message.cid message.command := by
  obtain ⟨earlier, between, -, -, progress⟩ := tracked.serving message _ here
  exact ⟨by rw [here]; rfl, pending_until_answer (progress.step reply)⟩

theorem Tracked.answer {past : List Occurrence} (tracked : Tracked worker past system)
    {message : Message} {cid : UInt32} {command : UInt8} {data : List UInt8}
    {rest : Hid.HidResult → Worker (List UInt8)}
    (here : system.thread = .serving message (.call (.hidSendMsg cid command data) rest)) :
    cid = message.cid ∧ command = message.command ∧ 1 ≤ data.length ∧
      data.length ≤ Ctap.maxMessage := by
  obtain ⟨earlier, between, -, -, progress⟩ := tracked.serving message _ here
  obtain ⟨answer, dispatched, same⟩ := about_to_answer progress rfl
  cases same
  exact ⟨rfl, rfl, payload_sent dispatched (length_zeros _)⟩

theorem Tracked.unseen {past : List Occurrence} (tracked : Tracked worker past system)
    {message : Message} {call : WorkerCall} {rest : WorkerReply call → Worker (List UInt8)}
    (here : system.thread = .serving message (.call call rest)) (reply : WorkerReply call)
    (silent : call.sends = false) :
    Hid.LoopStep worker system.loop .quiet
      (system.returned system.hid message (rest reply)).loop := by
  have places := tracked.place here reply
  rw [silent] at places
  rw [System.loop, System.loop, System.returned, places.1, places.2]
  exact .around _ (.refused _) rfl

theorem Tracked.polled {past : List Occurrence} (tracked : Tracked worker past system)
    {message : Message} {call : WorkerCall} {rest : WorkerReply call → Worker (List UInt8)}
    (here : system.thread = .serving message (.call call rest)) (reply : WorkerReply call)
    (silent : call.sends = false) {event : Hid.Event} {after : Hid.State}
    (step : Hid.Step system.hid event after) (own : Hid.polls worker event = true) :
    Hid.LoopStep worker system.loop event (system.returned after message (rest reply)).loop := by
  have places := tracked.place here reply
  rw [silent] at places
  rw [System.loop, System.loop, System.returned, places.1, places.2]
  exact .poll _ _ step own

theorem Tracked.loop {past : List Occurrence} (tracked : Tracked worker past system)
    {occurrence : Occurrence} (step : Step worker system occurrence next) :
    Hid.LoopStep worker system.loop occurrence.hid next.loop := by
  cases step with
  | around step quiet => exact .around _ step quiet
  | @take here outcome after step =>
      have start : system.loop = ⟨system.hid, .top⟩ := by rw [System.loop, here]; rfl
      rw [start]
      have ended : (system.taken after outcome).loop = ⟨after, outcome.place⟩ := by
        cases outcome with
        | taken message =>
            rw [System.loop, System.taken, serve_pending]
            rfl
        | refused result => exact congrArg (Hid.Loop.mk after) (idle_place (refused_idle _))
        | reset =>
            exact congrArg (Hid.Loop.mk after) (idle_place (refused_idle (Hid.TakeOutcome.disconnected .reset)))
      rw [ended]
      exact .take step
  | paused here =>
      rw [System.loop, System.loop, here]
      exact .around .top (.refused _) rfl
  | @called message call rest here own reply =>
      have silent : call.sends = false := by
        cases call with
        | hidSendMsg cid command data => cases own
        | _ => rfl
      exact tracked.unseen here reply silent
  | asked here step => exact tracked.polled here _ rfl step (by simp [Hid.polls])
  | askTimedOut here => exact tracked.unseen here true rfl
  | keptAlive here step => exact tracked.polled here _ rfl step (by simp [Hid.polls])
  | keepaliveTimedOut here => exact tracked.unseen here (hidCode .timeout) rfl
  | @sent message cid command data rest here result reports after step =>
      have places := tracked.place here result
      obtain ⟨rfl, rfl, -, bounded⟩ := tracked.answer here
      rw [System.loop, System.loop, System.returned, places.1, places.2]
      exact .answer bounded step
  | sendTimedOut here step =>
      have places := tracked.place here .timeout
      obtain ⟨rfl, rfl, -, bounded⟩ := tracked.answer here
      rw [System.loop, System.loop, System.returned, places.1, places.2]
      exact .answerTimedOut step
  | sendRefused here refused =>
      have places := tracked.place here .arg
      obtain ⟨rfl, rfl, -, bounded⟩ := tracked.answer here
      rw [System.loop, System.loop, System.returned, places.1, places.2]
      exact .answerRefused _ bounded refused
  | finished here =>
      rw [System.loop, System.loop, here]
      exact .around .top (.refused _) rfl

theorem DeviceRun.loop {past : List Occurrence} (run : DeviceRun worker bus past system) :
    Hid.LoopRun worker bus (past.map Occurrence.hid) system.loop := by
  apply run.history fun past system =>
    Hid.LoopRun worker bus (past.map Occurrence.hid) system.loop
  · exact .nil
  · intro past state occurrence next before earlier step
    rw [List.map_append]
    exact earlier.snoc ((DeviceRun.tracked before).loop step)

/-! From one take to the next. -/

theorem Step.turn {occurrence : Occurrence} (step : Step worker system occurrence next)
    (untaken : Hid.requestTaken occurrence.hid = none) :
    (∃ message rest rest', system.thread = .serving message rest ∧
      next.thread = .serving message rest' ∧ occurrence.pause = 0) ∨
    (system.thread.idle = true ∧ next.thread.idle = true ∧ occurrence.call = none) ∨
    (∃ message memory, system.thread = .serving message (.done memory) ∧ next.thread.idle = true ∧
      occurrence.call = none) := by
  cases step with
  | @around event after step quiet =>
      cases here : system.thread with
      | serving message rest => exact Or.inl ⟨message, rest, rest, rfl, rfl, rfl⟩
      | top => exact Or.inr (Or.inl ⟨rfl, rfl, rfl⟩)
      | pausing => exact Or.inr (Or.inl ⟨rfl, rfl, rfl⟩)
  | @take here outcome after step =>
      cases outcome with
      | taken message => cases untaken
      | refused result => exact Or.inr (Or.inl ⟨by rw [here]; rfl, refused_idle _, rfl⟩)
      | reset =>
          exact Or.inr (Or.inl ⟨by rw [here]; rfl, refused_idle (Hid.TakeOutcome.disconnected .reset), rfl⟩)
  | paused here => exact Or.inr (Or.inl ⟨by rw [here]; rfl, rfl, rfl⟩)
  | finished here => exact Or.inr (Or.inr ⟨_, _, here, rfl, rfl⟩)
  | called here own reply => exact Or.inl ⟨_, _, _, here, rfl, rfl⟩
  | asked here step => exact Or.inl ⟨_, _, _, here, rfl, rfl⟩
  | askTimedOut here => exact Or.inl ⟨_, _, _, here, rfl, rfl⟩
  | keptAlive here step => exact Or.inl ⟨_, _, _, here, rfl, rfl⟩
  | keepaliveTimedOut here => exact Or.inl ⟨_, _, _, here, rfl, rfl⟩
  | sent here step => exact Or.inl ⟨_, _, _, here, rfl, rfl⟩
  | sendTimedOut here step => exact Or.inl ⟨_, _, _, here, rfl, rfl⟩
  | sendRefused here refused => exact Or.inl ⟨_, _, _, here, rfl, rfl⟩

theorem Step.took_top {occurrence : Occurrence} (step : Step worker system occurrence next)
    (taken : Hid.requestTaken occurrence.hid ≠ none) : system.thread = .top := by
  have tame := step.tame
  cases step with
  | @around event after step quiet =>
      cases event with
      | took task cap outcome => cases quiet
      | _ => exact absurd rfl taken
  | take here step => exact here
  | _ => exact absurd rfl taken

theorem Step.took_serving {message : Message}
    (step : Step worker system (took worker message) next) : ∃ rest, next.thread = .serving message rest := by
  generalize event : took worker message = occurrence at step
  cases step with
  | @take here outcome after step =>
      cases event
      exact ⟨_, rfl⟩
  | around step quiet =>
      cases event
      cases quiet
  | _ => cases event

/-- After a take the thread works on the message, or is through with it. -/
def Turned (worker : Hid.Task) (past : List Occurrence) (system : System) : Prop :=
  ∀ earlier message between, past = earlier ++ took worker message :: between →
    (∀ later ∈ between, Hid.requestTaken later.hid = none) →
    (∃ rest, system.thread = .serving message rest ∧ ∀ later ∈ between, later.pause = 0) ∨
      system.thread.idle = true ∧
        ∃ memory, Execution (serve message (zeros Ctap.maxMessage)) (calls between) memory

theorem DeviceRun.turned {past : List Occurrence} (run : DeviceRun worker bus past system) :
    Turned worker past system := by
  apply run.history (Turned worker)
  · intro earlier message between impossible
    simp at impossible
  · intro past state occurrence next before ih step earlier message between split untaken
    cases between using List.reverseRecOn with
    | nil =>
        obtain ⟨rfl, same⟩ := List.append_inj' split rfl
        cases same
        obtain ⟨rest, here⟩ := step.took_serving
        exact Or.inl ⟨rest, here, by simp⟩
    | append_singleton between last =>
        rw [← List.cons_append, ← List.append_assoc] at split
        obtain ⟨rfl, same⟩ := List.append_inj' split rfl
        cases same
        have now := untaken occurrence (by simp)
        have quiet : ∀ later ∈ between, Hid.requestTaken later.hid = none :=
          fun later member => untaken later (List.mem_append_left _ member)
        have silent : occurrence.call = none → calls (between ++ [occurrence]) = calls between := by
          intro none
          rw [calls_append, calls, calls, List.filterMap_cons_none none, List.filterMap_nil,
            List.append_nil]
        rcases step.turn now with ⟨message', rest, rest', here, there, awake⟩ |
          ⟨idle, still, none⟩ | ⟨message', memory, here, there, none⟩
        · rcases ih earlier message between rfl quiet with ⟨left, busy, calm⟩ | ⟨idle, -⟩
          · rw [here] at busy
            cases busy
            exact Or.inl ⟨rest', there,
              List.forall_mem_append.mpr ⟨calm, List.forall_mem_singleton.mpr awake⟩⟩
          · rw [here] at idle
            cases idle
        · rcases ih earlier message between rfl quiet with ⟨left, busy, -⟩ | ⟨-, ran⟩
          · rw [busy] at idle
            cases idle
          · rw [silent none]
            exact Or.inr ⟨still, ran⟩
        · refine Or.inr ⟨there, memory, ?_⟩
          rw [silent none]
          obtain ⟨first, since, whole, since_quiet, progress⟩ :=
            (DeviceRun.tracked before).serving _ _ here
          obtain ⟨rfl, rfl⟩ := took_unique whole quiet since_quiet
          have run := progress.execution (.done memory)
          rwa [List.append_nil] at run

/-- The worker answers every request once. A run of the device is a run of the loop that polls and
answers, between two takes it calls `hid_send_msg` exactly once, for the channel and the command of
the request and with 1 to 2048 bytes, and between two turns its two buffers are clear. -/
theorem requests_are_answered_in_turn {past : List Occurrence}
    (run : DeviceRun worker bus past system) :
    Hid.LoopRun worker bus (past.map Occurrence.hid) system.loop ∧
    (∀ earlier message between again after,
      past = earlier ++ took worker message :: (between ++ again :: after) →
      (∀ later ∈ between, Hid.requestTaken later.hid = none) →
      Hid.requestTaken again.hid ≠ none →
      ∃ working answered rest data result, between = working ++ answered :: rest ∧
        answered.call = some ⟨.hidSendMsg message.cid message.command data, result⟩ ∧
        1 ≤ data.length ∧ data.length ≤ 2048 ∧
        (∀ event ∈ calls working, event.1.sends = false) ∧ calls rest = []) ∧
    (system.thread.idle = true →
      system.request = zeros maxPayload ∧ system.response = zeros Ctap.maxMessage) := by
  refine ⟨DeviceRun.loop run, ?_, ?_⟩
  · intro earlier message between again after split untaken taken
    rw [split, ← List.cons_append, ← List.append_assoc] at run
    obtain ⟨state, state', first, step, -⟩ := run.at_event
    have top := step.took_top taken
    rcases DeviceRun.turned first earlier message between rfl untaken with
      ⟨rest, busy, -⟩ | ⟨-, memory, ran⟩
    · rw [top] at busy
      cases busy
    · obtain ⟨commands, answer, result, dispatched, whole⟩ := serve_shape ran
      obtain ⟨working, answered, rest, parts, before, sent, behind⟩ := calls_at whole
      obtain ⟨positive, bounded⟩ := payload_sent dispatched (length_zeros _)
      refine ⟨working, answered, rest, _, result, parts, sent, positive, bounded, ?_, behind⟩
      rw [before]
      exact commands_silent dispatched
  · intro idle
    have wiped := (DeviceRun.tracked run).wiped
    exact ⟨wiped.request idle, wiped.response⟩

theorem info_dispatched (cid : UInt32) (response : List UInt8) :
    ∃ answer, Ctap.dispatch cid [Ctap.cmdGetInfo] response Ctap.maxMessage = .done answer := by
  rw [Ctap.dispatch.eq_def, if_neg (by decide), if_neg (by decide)]
  dsimp only
  rw [if_neg (by decide), if_neg (by decide), if_neg (by decide), if_neg (by decide)]
  rcases Ctap.getInfo (response.drop 1) (min (Ctap.maxMessage - 1) (Ctap.maxMessage - 1)) with
    ⟨error, built, len⟩
  cases error with
  | none => exact ⟨_, rfl⟩
  | some error => exact ⟨_, rfl⟩

def infoMessage (generation : UInt32) : Message := ⟨1, cmdCbor, [Ctap.cmdGetInfo], generation⟩

def infoSent (data : List UInt8) : Hid.Service × Hid.HidResult × List Report :=
  Hid.hidSendMsg Hid.takenService 7 1 cmdCbor data Hid.liveClaimReads Hid.liveSend

def secondService (data : List UInt8) : Hid.Service :=
  (Hid.liveReport (infoSent data).1 smallReport).1

theorem second_step (data : List UInt8) :
    Hid.Step (Hid.live (secondService data)) (.took 7 maxPayload (.taken (infoMessage 2)))
      (Hid.live (Hid.hidTakeMsg (secondService data) 7 maxPayload Hid.liveTakeReads).1) := by
  have taken := Hid.Step.took (Hid.live (secondService data)) 7 maxPayload Hid.liveTakeReads
    Hid.liveFlags ⟨Hid.liveFlags, Hid.liveFlags, Hid.liveFlags, Hid.liveFlags, .refl, rfl, .refl, rfl,
      .refl, rfl, .refl, rfl, .refl⟩
  -- what was sent does not matter for the state behind it
  have freed : (infoSent data).1 = (infoSent []).1 := rfl
  have outcome : (Hid.hidTakeMsg (secondService data) 7 maxPayload Hid.liveTakeReads).2 =
      .taken (infoMessage 2) := by
    rw [secondService, freed]
    decide +kernel
  rw [show (Hid.live (secondService data)).service = secondService data from rfl, outcome] at taken
  exact taken

theorem info_served (answer : Ctap.Answer) (generation : UInt32)
    (dispatched : Ctap.dispatch 1 [Ctap.cmdGetInfo] (zeros Ctap.maxMessage) Ctap.maxMessage =
      .done answer) :
    serve (infoMessage generation) (zeros Ctap.maxMessage) =
      .call (.hidSendMsg 1 cmdCbor (payload answer)) fun _ =>
        .done (clear (Hid.dispatchResult answer).1 Ctap.maxMessage) := by
  rw [serve_eq, infoMessage, dispatched]
  rfl

def betweenInfos (data : List UInt8) : List Occurrence :=
  ⟨.sent 7 1 cmdCbor data (infoSent data).2.1 (infoSent data).2.2,
      some ⟨.hidSendMsg 1 cmdCbor data, (infoSent data).2.1⟩, 0⟩ ::
    ⟨.quiet, none, 0⟩ ::
      (Hid.liveEvents (infoSent data).1 smallReport).map fun event => ⟨event, none, 0⟩

def infoTaken : System :=
  { booted Hid.liveFlags.bus with hid := Hid.live Hid.deliveredService }.taken
    (Hid.live Hid.takenService) (.taken (infoMessage 1))

theorem infoTaken_run : ∃ earlier,
    DeviceRun 7 Hid.liveFlags.bus (earlier ++ [took 7 (infoMessage 1)]) infoTaken := by
  have opened := @live_run 7 (Hid.started Hid.liveFlags.bus).service rfl openingReport
    (booted Hid.liveFlags.bus) rfl
  have delivered := @live_run 7 Hid.openedService (by decide +kernel) smallReport
    { booted Hid.liveFlags.bus with hid := Hid.live Hid.openedService } rfl
  exact ⟨_, (opened.append delivered).snoc (.take rfl Hid.taken_step)⟩

theorem infos_run : ∃ earlier data system, DeviceRun 7 Hid.liveFlags.bus
    (earlier ++ took 7 (infoMessage 1) :: (betweenInfos data ++ [took 7 (infoMessage 2)])) system := by
  obtain ⟨answer, dispatched⟩ := info_dispatched 1 (zeros Ctap.maxMessage)
  have ran : Execution ((Ctap.dispatch 1 [Ctap.cmdGetInfo] (zeros Ctap.maxMessage)
      Ctap.maxMessage).interpret commandBody) [] answer := by
    rw [dispatched]
    exact .done answer
  have bounded := (payload_sent ran (length_zeros _)).2
  have here : infoTaken.thread = .serving (infoMessage 1) _ :=
    congrArg (Thread.serving (infoMessage 1)) (info_served answer 1 dispatched)
  have answered : Step 7 infoTaken _ _ := .sent here (.sent (Hid.live Hid.takenService) 7 1 cmdCbor
    (payload answer) (Hid.sendArguments_cbor (by decide) bounded) Hid.liveClaimReads Hid.liveSend
    Hid.liveFlags Hid.liveClaimReads_along)
  obtain ⟨earlier, first⟩ := infoTaken_run
  have ended := (first.snoc answered).snoc (.finished rfl)
  have delivered := @live_run 7 (infoSent (payload answer)).1 rfl smallReport
  have whole := (ended.append (delivered _ rfl)).snoc (.take rfl (second_step (payload answer)))
  simp only [List.append_assoc, List.singleton_append] at whole
  exact ⟨earlier, payload answer, _, whole⟩

theorem betweenInfos_untaken (data : List UInt8) :
    ∀ later ∈ betweenInfos data, Hid.requestTaken later.hid = none := by
  simp [betweenInfos, Hid.liveEvents, Hid.requestTaken]

theorem infos_are_answered_in_turn : ∃ earlier between system,
    DeviceRun 7 Hid.liveFlags.bus
      (earlier ++ took 7 (infoMessage 1) :: (between ++ [took 7 (infoMessage 2)])) system ∧
    ∃ working answered rest data result, between = working ++ answered :: rest ∧
      answered.call = some ⟨.hidSendMsg 1 cmdCbor data, result⟩ ∧
      1 ≤ data.length ∧ data.length ≤ 2048 ∧
      (∀ event ∈ calls working, event.1.sends = false) ∧ calls rest = [] := by
  obtain ⟨earlier, data, system, run⟩ := infos_run
  refine ⟨earlier, betweenInfos data, system, run, ?_⟩
  exact (requests_are_answered_in_turn run).2.1 earlier (infoMessage 1) (betweenInfos data)
    (took 7 (infoMessage 2)) [] rfl (betweenInfos_untaken data) (by decide)

end P4Key.Device
