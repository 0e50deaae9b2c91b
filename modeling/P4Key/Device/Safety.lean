import P4Key.Device.Realise

/-! When the device makes a key or signs.

The request is complete and taken, nobody has ended or cancelled it, and since the take the button
was pressed afresh. The look at all this is the last call before the key. -/

namespace P4Key.Device

open Memory CallProgram P4Key.Ctaphid P4Key.Usb

variable {worker : Hid.Task} {bus : Bus} {system next : System}

def looked (worker : Hid.Task) (cid : UInt32) : Occurrence :=
  ⟨.asked worker cid false, some ⟨.press (.hidCancelled cid), false⟩, 0⟩

/-- The last packet of the message arrives, the message waits, the worker takes it and works on it
up to a look. -/
structure Entitled (worker : Hid.Task) (message : Message) (arrival : Occurrence)
    (waiting working : List Occurrence) : Prop where
  arrival : Hid.completion arrival.hid = some message.cid
  uncancelled : ∀ occurrence ∈ waiting ++ working,
    Hid.cancels message.cid occurrence.hid = false
  uninterrupted : ∀ occurrence ∈ working, Hid.requestTaken occurrence.hid = none ∧
    Hid.ends (worker, message) occurrence.hid = false
  press : ∃ earlier wait later, calls working = earlier ++ wait.map pressEvent ++ later ∧
    Execution (Press.pressWait message.cid) wait pressOk ∧
    (∀ event ∈ wait, Press.Undisturbed event) ∧ Press.FreshPress (Press.samples wait)

theorem Step.pending {occurrence : Occurrence} (step : Step worker system occurrence next)
    {call : WorkerCall} {reply : WorkerReply call} (made : occurrence.call = some ⟨call, reply⟩) :
    ∃ message rest, system.thread = .serving message (.call call rest) := by
  cases step with
  | around step quiet => cases made
  | take here step => cases made
  | paused here => cases made
  | finished here => cases made
  | called here own reply =>
      cases made
      exact ⟨_, _, here⟩
  | asked here step =>
      cases made
      exact ⟨_, _, here⟩
  | askTimedOut here =>
      cases made
      exact ⟨_, _, here⟩
  | keptAlive here step =>
      cases made
      exact ⟨_, _, here⟩
  | keepaliveTimedOut here =>
      cases made
      exact ⟨_, _, here⟩
  | sent here step =>
      cases made
      exact ⟨_, _, here⟩
  | sendTimedOut here step =>
      cases made
      exact ⟨_, _, here⟩
  | sendRefused here refused =>
      cases made
      exact ⟨_, _, here⟩

theorem calls_last {past : List Occurrence} {front : List (Event WorkerReply)}
    {event : Event WorkerReply} (split : calls past = front ++ [event]) :
    ∃ working last idle, past = working ++ last :: idle ∧ calls working = front ∧
      last.call = some event ∧ ∀ occurrence ∈ idle, occurrence.call = none := by
  obtain ⟨working, rest, rfl, before, behind⟩ := List.filterMap_eq_append_iff.mp split
  obtain ⟨idle, last, after, rfl, quiet, made, none⟩ := List.filterMap_eq_cons_iff.mp behind
  refine ⟨working ++ idle, last, after, by simp, ?_, made, ?_⟩
  · rw [calls_append, calls, calls, before, List.filterMap_eq_nil_iff.mpr quiet, List.append_nil]
  · exact List.filterMap_eq_nil_iff.mp none

/-- A look that finds no cancellation has passed the check of the claim. -/
theorem look_matched {state after : Hid.State} {task : Hid.Task} {cid : UInt32}
    (step : Hid.Step state (.asked task cid false) after) :
    ∃ reads claim, Hid.Matched state.service cid (some task) reads claim ∧
      coreCancelled state.service.core cid claim.operationGeneration = false := by
  generalize asked : Hid.Event.asked task cid false = event at step
  cases step with
  | asked task' cid' reads last along =>
      injection asked with same same' found
      subst same same'
      rw [Hid.hidCancelled] at found
      cases current : state.service.claim with
      | none =>
          rw [current] at found
          cases found
      | some claim =>
          rw [current] at found
          obtain ⟨unmatched, uncancelled⟩ := Bool.or_eq_false_iff.mp found.symm
          obtain ⟨claim', matched⟩ := Hid.claimMatches_true (by simpa using unmatched)
          have same := Option.some.inj (matched.current.symm.trans current)
          rw [same] at matched
          exact ⟨reads, claim, matched, uncancelled⟩
  | _ => cases asked

/-- What such a look tells of the past, if nothing was taken since the message was. -/
theorem look_entitled {earlier working : List Occurrence} {message : Message}
    (run : DeviceRun worker bus (earlier ++ took worker message :: working) system)
    (untaken : ∀ later ∈ working, Hid.requestTaken later.hid = none) {after : Hid.State}
    (step : Hid.Step system.hid (.asked worker message.cid false) after) :
    (∃ before arrival waiting, earlier = before ++ arrival :: waiting ∧
      Hid.completion arrival.hid = some message.cid ∧
      ∀ occurrence ∈ waiting ++ working, Hid.cancels message.cid occurrence.hid = false) ∧
    ∀ occurrence ∈ working, Hid.ends (worker, message) occurrence.hid = false := by
  have hid := DeviceRun.hid run
  obtain ⟨reads, claim, matched, uncancelled⟩ := look_matched step
  constructor
  · obtain ⟨-, between, since, told⟩ := matched.cancelled hid
    obtain ⟨first, event, split, complete⟩ := since.start
    obtain ⟨before, rest, parts, rfl, back⟩ := List.map_eq_append_iff.mp split
    obtain ⟨arrival, later, rfl, rfl, rfl⟩ := List.map_eq_cons_iff.mp back
    have never : ∀ occurrence ∈ later, Hid.cancels message.cid occurrence.hid = false := by
      intro occurrence member
      by_contra cancelled
      obtain ⟨front, rear, rfl⟩ := List.append_of_mem member
      have set := Runs.latch_set (Hid.cancels message.cid) (Hid.uncancels message.cid)
        (front.map Occurrence.hid) (rear.map Occurrence.hid) occurrence.hid (by simpa using cancelled)
        (by
          intro event inside
          obtain ⟨other, there, rfl⟩ := List.mem_map.mp inside
          refine (run.tame other ?_).uncancels _
          rw [parts]
          simp [there])
      rw [told, Hid.flag] at uncancelled
      rw [List.map_append, List.map_cons, set] at uncancelled
      cases uncancelled
    rcases Runs.append_cons_cases parts with
      ⟨middle, -, split⟩ | ⟨-, same, -⟩ | ⟨waiting, split, inside⟩
    · -- the take would be behind the take
      obtain ⟨event, member, message', put, -⟩ := since.taken
      obtain ⟨occurrence, inside, rfl⟩ := List.mem_map.mp member
      rw [untaken occurrence (by simp [split, inside])] at put
      cases put
    · rw [← same] at complete
      cases complete
    · refine ⟨before, arrival, waiting, split, complete, ?_⟩
      intro occurrence member
      apply never
      rw [inside]
      rcases List.mem_append.mp member with early | late
      · exact List.mem_append_left _ early
      · exact List.mem_append_right _ (List.mem_cons_of_mem _ late)
  · obtain ⟨message', request, -⟩ := Hid.SystemRun.named hid claim matched.current
    rw [Hid.openRequest, List.map_append, List.map_cons] at request
    have quiet : ∀ event ∈ working.map Occurrence.hid, Hid.requestTaken event = none := by
      intro event inside
      obtain ⟨other, there, rfl⟩ := List.mem_map.mp inside
      exact untaken other there
    have filled := Runs.slot_filled Hid.requestTaken Hid.ends _ _ (took worker message).hid
      (show _ = some (worker, message) from rfl) quiet request
    intro occurrence member
    exact filled.2 _ (List.mem_map_of_mem member)

theorem use_entitled {start between : List Occurrence} {message : Message}
    (run : DeviceRun worker bus (start ++ took worker message :: between) system)
    (untaken : ∀ later ∈ between, Hid.requestTaken later.hid = none) {call : WorkerCall}
    {rest : WorkerReply call → Worker (List UInt8)}
    (progress : Progress (serve message (zeros Ctap.maxMessage)) (calls between) (.call call rest))
    (uses : call.usesKey = true) :
    ∃ earlier arrival waiting working idle, start = earlier ++ arrival :: waiting ∧
      between = working ++ looked worker message.cid :: idle ∧
      Entitled worker message arrival waiting working ∧
      ∀ other ∈ idle, other.call = none := by
  obtain ⟨front, wait, back, whole, granted⟩ := serve_granted progress uses
  obtain ⟨working, last, idle, rfl, before_look, look, quiet⟩ := calls_last whole
  have seen : last = looked worker message.cid :=
    (DeviceRun.tame run last (by simp)).asked message.cid look
  subst seen
  rw [← List.cons_append, ← List.append_assoc] at run
  obtain ⟨middle, middle', upto, lookStep, -⟩ := run.at_event
  obtain ⟨⟨earlier, arrival, waiting, parts, complete, uncancelled⟩, uninterrupted⟩ :=
    look_entitled upto (fun later member => untaken later (by simp [member])) lookStep.hid
  refine ⟨earlier, arrival, waiting, working, idle, parts, rfl, ?_, quiet⟩
  refine ⟨complete, uncancelled, ?_, front, wait, back, before_look, granted, ?_⟩
  · intro other member
    exact ⟨untaken other (by simp [member]), uninterrupted other member⟩
  · exact (Press.pressWait_fresh message.cid).2 wait pressOk granted rfl

/-- The device uses a key only with consent. Whenever the worker makes a key or signs, in any run
of the device, it has taken a complete request and is still working on it. The button was pressed
afresh since the take, and at the last call before the key nobody had ended or cancelled the
request. -/
theorem keys_are_used_with_consent {past : List Occurrence} (run : DeviceRun worker bus past system)
    {before after : List Occurrence} {occurrence : Occurrence} {call : WorkerCall}
    {reply : WorkerReply call} (split : past = before ++ occurrence :: after)
    (made : occurrence.call = some ⟨call, reply⟩) (uses : call.usesKey = true) :
    ∃ earlier arrival waiting message working idle,
      before = earlier ++ arrival :: (waiting ++ took worker message ::
        (working ++ looked worker message.cid :: idle)) ∧
      Entitled worker message arrival waiting working ∧
      ∀ other ∈ idle, other.call = none := by
  rw [split] at run
  obtain ⟨state, state', first, step, -⟩ := run.at_event
  obtain ⟨message, rest, here⟩ := step.pending made
  obtain ⟨start, between, rfl, untaken, progress⟩ := (DeviceRun.tracked first).serving _ _ here
  obtain ⟨earlier, arrival, waiting, working, idle, rfl, rfl, entitled, quiet⟩ :=
    use_entitled first untaken progress uses
  refine ⟨earlier, arrival, waiting, message, working, idle, ?_, entitled, quiet⟩
  rw [List.append_assoc, List.cons_append, took]

theorem registration_has_consent :
    ∃ past system before after occurrence call reply,
      DeviceRun 7 Hid.liveFlags.bus past system ∧ past = before ++ occurrence :: after ∧
      occurrence.call = some ⟨call, reply⟩ ∧ call.usesKey = true ∧
      ∃ earlier arrival waiting message working idle,
        before = earlier ++ arrival :: (waiting ++ took 7 message ::
          (working ++ looked 7 message.cid :: idle)) ∧
        Entitled 7 message arrival waiting working ∧ ∀ other ∈ idle, other.call = none := by
  obtain ⟨start, between, system, rest, run, here, -⟩ := registration_served
  obtain ⟨first, since, split, -, progress⟩ := (DeviceRun.tracked run).serving _ _ here
  obtain ⟨answer, dispatched, same⟩ := about_to_answer progress rfl
  have ok : (payload answer).head? = some Ctap.statusOk := by
    rw [← (WorkerCall.hidSendMsg.inj same).2.2]
    exact registration_ok
  obtain ⟨front, ⟨call, reply⟩, back, made, earned⟩ :=
    success_uses_key dispatched (Or.inl rfl) ok
  have uses : call.usesKey = true := earned.usesKey (Or.inl rfl)
  obtain ⟨working, used, idle, parts, -, use, -⟩ := calls_at made
  have place : start ++ took 7 registrationMessage :: between =
      (first ++ took 7 registrationMessage :: working) ++ used :: idle := by
    rw [took, split, parts]
    simp
  exact ⟨_, _, _, _, _, _, _, run, place, use, uses, keys_are_used_with_consent run place use uses⟩

end P4Key.Device
