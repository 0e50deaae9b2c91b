import P4Key.Device.Answers
import P4Key.Press.Budget

/-! How long a request may keep the worker waiting. -/

namespace P4Key.Device

open Memory CallProgram P4Key.Ctap

section Costs

variable (cost : Press.Call → ℤ) (amount : ℤ)

def workerCost : WorkerCall → ℤ
  | .press call => cost call
  | _ => 0

/-- `workerCost` between the commands and p4_press.c, where a wait costs all of it. -/
def firmwareCost : Call → ℤ
  | .pressWait _ => amount
  | _ => 0

def commandCost : Ctap.Call → ℤ
  | .pressWait _ => amount
  | _ => 0

end Costs

section Commands

variable {amount budget : ℤ} {cid : UInt32}

theorem findCred_solvent (rpHash : Bytes 32) (items : List Desc) (rich : 0 ≤ budget) :
    Solvent (commandCost amount) budget (GetAssertion.findCred rpHash items) budget := by
  induction items with
  | nil => exact solvent_pure _ rich
  | cons item rest ih =>
      rw [GetAssertion.findCred]
      split
      · exact ih
      · refine solvent_perform rfl rich fun reply => ?_
        rcases reply with ⟨error, scalar⟩
        dsimp only
        split_ifs
        · exact solvent_pure _ rich
        · exact solvent_pure _ rich
        · exact ih

theorem checkExclude_solvent (rpHash : Bytes 32) (items : List Desc) (excluded : Bool)
    (rich : 0 ≤ budget) :
    Solvent (commandCost amount) budget (MakeCredential.checkExclude rpHash items excluded) budget := by
  induction items generalizing excluded with
  | nil => exact solvent_pure _ rich
  | cons item rest ih =>
      rw [MakeCredential.checkExclude]
      split
      · exact ih excluded
      · refine solvent_perform rfl rich fun reply => ?_
        rcases reply with ⟨error, scalar⟩
        dsimp only
        split_ifs
        · exact ih true
        · exact solvent_pure _ rich
        · exact ih excluded

theorem looked_solvent {α : Type} {stop next : Command α} (rich : 0 ≤ budget)
    (stopped : Solvent (commandCost amount) budget stop budget)
    (goes_on : Solvent (commandCost amount) budget next budget) :
    Solvent (commandCost amount) budget
      (pressCancelled cid >>= fun cancelled => if cancelled then stop else next) budget := by
  refine solvent_perform rfl rich fun cancelled => ?_
  split
  · exact stopped
  · exact goes_on

theorem MakeCredential.respond_solvent (rpHash : Bytes 32) (keys : KeyPair) (credentialId : Bytes 100)
    (response : List UInt8) (responseCap : Nat) (rich : 0 ≤ budget) :
    Solvent (commandCost amount) budget
      (MakeCredential.respond cid rpHash keys credentialId response responseCap) budget := by
  refine looked_solvent rich (solvent_pure _ rich) ?_
  dsimp only
  split
  · exact solvent_pure _ rich
  · split
    · exact solvent_pure _ rich
    · exact looked_solvent rich (solvent_pure _ rich) (solvent_pure _ rich)

theorem registerKey_solvent (rpHash : Bytes 32) (response : List UInt8) (responseCap : Nat)
    (rich : 0 ≤ budget) :
    Solvent (commandCost amount) budget
      (MakeCredential.registerKey cid rpHash response responseCap) budget := by
  refine looked_solvent rich (solvent_pure _ rich) ?_
  refine solvent_perform rfl rich fun ⟨makeError, keys⟩ => ?_
  dsimp only
  split
  · exact solvent_pure _ rich
  · refine looked_solvent rich (solvent_pure _ rich) ?_
    refine solvent_perform rfl rich fun ⟨wrapError, credentialId⟩ => ?_
    dsimp only
    split
    · exact solvent_pure _ rich
    · exact MakeCredential.respond_solvent rpHash keys credentialId response responseCap rich

theorem GetAssertion.respond_solvent (rpHash : Bytes 32) (credentialId : List UInt8)
    (signature : Signature) (response : List UInt8) (responseCap : Nat) (rich : 0 ≤ budget) :
    Solvent (commandCost amount) budget
      (GetAssertion.respond cid rpHash credentialId signature response responseCap) budget := by
  refine looked_solvent rich (solvent_pure _ rich) ?_
  dsimp only
  split
  · exact solvent_pure _ rich
  · exact looked_solvent rich (solvent_pure _ rich) (solvent_pure _ rich)

theorem signAssertion_solvent (parsed : GetAssertion.Request) (rpHash : Bytes 32)
    (credentialId : List UInt8) (privateScalar : Bytes 32) (response : List UInt8) (responseCap : Nat)
    (rich : 0 ≤ budget) :
    Solvent (commandCost amount) budget
      (GetAssertion.signAssertion cid parsed rpHash credentialId privateScalar response responseCap)
      budget := by
  refine looked_solvent rich (solvent_pure _ rich) ?_
  refine solvent_perform rfl rich fun ⟨hashError, digest⟩ => ?_
  dsimp only
  split
  · exact solvent_pure _ rich
  · refine looked_solvent rich (solvent_pure _ rich) ?_
    refine solvent_perform rfl rich fun ⟨signError, signature⟩ => ?_
    dsimp only
    split
    · exact solvent_pure _ rich
    · exact GetAssertion.respond_solvent rpHash credentialId signature response responseCap rich

theorem presence_solvent {α : Type} {rest : Except Refusal Unit → Command α} (rich : 0 ≤ amount)
    (next : ∀ status, Solvent (commandCost amount) 0 (rest status) 0) :
    Solvent (commandCost amount) amount (presenceStatus cid >>= rest) 0 := by
  refine ⟨rich, fun result => ?_⟩
  have spent : amount - commandCost amount (.pressWait cid) = 0 := sub_self amount
  rw [spent]
  exact next _

theorem register_solvent (parsed : MakeCredential.Request) (response : List UInt8) (responseCap : Nat)
    (rich : 0 ≤ amount) :
    Solvent (commandCost amount) amount (MakeCredential.register cid parsed response responseCap) 0 := by
  refine solvent_perform rfl rich fun ⟨hashError, rpHash⟩ => ?_
  dsimp only
  split
  · exact (solvent_pure _ rich).left_mono rich
  · refine (checkExclude_solvent rpHash parsed.exclude false rich).bind ?_
    rintro (refusal | excluded)
    · exact (solvent_pure _ rich).left_mono rich
    · refine presence_solvent rich ?_
      rintro (refusal | granted)
      · exact solvent_pure _ le_rfl
      · dsimp only
        split
        · exact solvent_pure _ le_rfl
        · exact registerKey_solvent rpHash response responseCap le_rfl

theorem assertCredential_solvent (parsed : GetAssertion.Request) (response : List UInt8)
    (responseCap : Nat) (rich : 0 ≤ amount) :
    Solvent (commandCost amount) amount
      (GetAssertion.assertCredential cid parsed response responseCap) 0 := by
  refine solvent_perform rfl rich fun ⟨hashError, rpHash⟩ => ?_
  dsimp only
  split
  · exact (solvent_pure _ rich).left_mono rich
  · refine (findCred_solvent rpHash parsed.allow rich).bind ?_
    rintro (refusal | ⟨credentialId, privateScalar⟩)
    · exact (solvent_pure _ rich).left_mono rich
    · refine presence_solvent rich ?_
      rintro (refusal | granted)
      · exact solvent_pure _ le_rfl
      · exact signAssertion_solvent parsed rpHash credentialId privateScalar response responseCap le_rfl

theorem makeCredential_solvent (request response : List UInt8) (responseCap : Nat)
    (rich : 0 ≤ amount) :
    Solvent (commandCost amount) amount (makeCredential cid request response responseCap) 0 := by
  rw [makeCredential]
  split
  · exact (solvent_pure _ rich).left_mono rich
  · split
    · exact (solvent_pure _ rich).left_mono rich
    · exact register_solvent _ _ _ rich

theorem getAssertion_solvent (request response : List UInt8) (responseCap : Nat)
    (rich : 0 ≤ amount) :
    Solvent (commandCost amount) amount (getAssertion cid request response responseCap) 0 := by
  rw [getAssertion]
  split
  · exact (solvent_pure _ rich).left_mono rich
  · split
    · exact (solvent_pure _ rich).left_mono rich
    · exact assertCredential_solvent _ _ _ rich

/-- A command waits for the button once at most. -/
theorem dispatch_solvent (request response : List UInt8) (responseCap : Nat) (rich : 0 ≤ amount) :
    Solvent (commandCost amount) amount (dispatch cid request response responseCap) 0 := by
  have ended : ∀ answer : Answer, Solvent (commandCost amount) amount (pure answer : Command Answer) 0 :=
    fun answer => (solvent_pure answer rich).left_mono rich
  rw [dispatch.eq_def]
  split
  · exact ended _
  split
  · exact ended _
  cases request with
  | nil => exact ended _
  | cons command body =>
      dsimp only
      split
      · exact (makeCredential_solvent _ _ _ rich).bind fun outcome => solvent_pure _ le_rfl
      split
      · exact (getAssertion_solvent _ _ _ rich).bind fun outcome => solvent_pure _ le_rfl
      split
      · exact ended _
      split
      · exact ended _
      split
      · exact ended _
      · exact ended _

end Commands

/-! The worker. -/

section Worker

variable {cost : Press.Call → ℤ} {amount : ℤ}

instance : ∀ call : Ctap.Call, Nonempty (Ctap.Reply call) := fun call =>
  ⟨match call with
  | .sha256Sum _ => (0, List.Vector.replicate 32 0)
  | .credOpen _ _ => (0, List.Vector.replicate 32 0)
  | .credWrap _ _ => (0, List.Vector.replicate 100 0)
  | .pressWait _ => 0
  | .pressCancelled _ => false
  | .p256Make => (0, ⟨.replicate 32 0, .replicate 32 0, .replicate 32 0⟩)
  | .p256SignHash _ _ => (0, ⟨.replicate 72 0, 0⟩)⟩

instance : ∀ call : Call, Nonempty (Reply call)
  | .sha256Sum _ => ⟨((0 : Int), (List.Vector.replicate 32 0 : Bytes 32))⟩
  | .pressWait _ => ⟨(0 : Int)⟩
  | .pressCancelled _ => ⟨false⟩
  | .p256Make => ⟨((0 : Int), (⟨.replicate 32 0, .replicate 32 0, .replicate 32 0⟩ : Ctap.KeyPair))⟩
  | .p256SignHash _ _ => ⟨((0 : Int), (⟨.replicate 72 0, 0⟩ : Ctap.Signature))⟩
  | .cred (.p256Pub _) => ⟨((0 : Int), (.replicate 32 0 : Bytes 32), (.replicate 32 0 : Bytes 32))⟩
  | .cred .randFill => ⟨((0 : Int), (.replicate 12 0 : Bytes 12))⟩
  | .cred .rootLoad => ⟨((0 : Int), (.replicate 32 0 : Bytes 32))⟩
  | .cred (.gcmSeal _ _ _ _) => ⟨((0 : Int), (.replicate 64 0 : Bytes 64), (.replicate 16 0 : Bytes 16))⟩
  | .cred (.gcmOpen _ _ _ _ _) => ⟨((0 : Int), (.replicate 64 0 : Bytes 64))⟩

theorem pressCalls_solvent {α : Type} {program : Press.Wait α} {budget left : ℤ}
    (solvent : Solvent cost budget program left) :
    Solvent (workerCost cost) budget (pressCalls program) left :=
  solvent.rename WorkerCall.press (fun _ => ⟨id, rfl⟩) fun _ => rfl

theorem credCalls_solvent {α : Type} (program : Cred.Crypto α) :
    Solvent (firmwareCost amount) 0 (credCalls program) 0 := by
  have free : Solvent (fun _ => 0) 0 program 0 := solvent_free (fun _ => rfl) program le_rfl
  exact free.rename Call.cred (fun _ => ⟨id, rfl⟩) fun _ => rfl

theorem body_solvent (rich : 0 ≤ amount) (call : Ctap.Call) :
    Solvent (firmwareCost amount) (commandCost amount call) (body call) 0 := by
  cases call with
  | credOpen rpHash credentialId =>
      exact (credCalls_solvent _).bind fun ⟨error, out⟩ => solvent_pure _ le_rfl
  | credWrap rpHash privateScalar =>
      exact (credCalls_solvent _).bind fun ⟨error, out⟩ => solvent_pure _ le_rfl
  | pressWait cid => exact ⟨rich, fun _ => ⟨(sub_self amount).ge, (sub_self amount).ge⟩⟩
  | _ => exact ⟨le_rfl, fun _ => ⟨le_rfl, le_rfl⟩⟩

theorem pressBody_solvent (wait : ∀ cid, Solvent cost amount (Press.pressWait cid) 0)
    (look : ∀ cid, cost (.hidCancelled cid) = 0) (call : Call) :
    Solvent (workerCost cost) (firmwareCost amount call) (pressBody call) 0 := by
  cases call with
  | pressWait cid => exact pressCalls_solvent (wait cid)
  | pressCancelled cid =>
      refine pressCalls_solvent ⟨le_rfl, fun cancelled => ?_⟩
      rw [look]
      exact ⟨le_rfl, le_rfl⟩
  | _ => exact ⟨le_rfl, fun _ => ⟨le_rfl, le_rfl⟩⟩

theorem serve_solvent (wait : ∀ cid, Solvent cost amount (Press.pressWait cid) 0)
    (look : ∀ cid, cost (.hidCancelled cid) = 0) (rich : 0 ≤ amount) (message : Ctaphid.Message)
    (response : List UInt8) :
    Solvent (workerCost cost) amount (serve message response) 0 := by
  have each : ∀ call, Solvent (workerCost cost) (commandCost amount call) (commandBody call) 0 :=
    fun call => (body_solvent rich call).interpret (pressBody_solvent wait look)
  have dispatched := (@dispatch_solvent amount message.cid message.data response maxMessage
    rich).interpret each
  rw [serve_eq]
  refine dispatched.bind fun answer => ?_
  exact solvent_perform rfl le_rfl fun result => solvent_pure _ le_rfl

end Worker

/-! The device. -/

def delayOf : WorkerCall → Nat
  | .press (.taskDelay ms) => ms
  | _ => 0

def keepaliveOf : WorkerCall → Nat
  | .press (.hidKeepalive _ _) => 1
  | _ => 0

def delayed (past : List Occurrence) : Nat := ((calls past).map fun event => delayOf event.1).sum

def keepalives (past : List Occurrence) : Nat :=
  ((calls past).map fun event => keepaliveOf event.1).sum

theorem spent_delays (events : List (Event WorkerReply)) :
    spent (workerCost Press.delayCost) events =
      ((events.map fun event => delayOf event.1).sum : Nat) := by
  induction events with
  | nil => rfl
  | cons event events ih =>
      rw [spent_cons, ih, List.map_cons, List.sum_cons, Nat.cast_add]
      congr 1
      rcases event with ⟨call, reply⟩
      cases call with
      | press call => cases call <;> rfl
      | _ => rfl

theorem spent_keepalives (events : List (Event WorkerReply)) :
    spent (workerCost Press.keepaliveCost) events =
      Press.keepaliveMs * ((events.map fun event => keepaliveOf event.1).sum : Nat) -
        ((events.map fun event => delayOf event.1).sum : Nat) := by
  induction events with
  | nil => rfl
  | cons event events ih =>
      have one : workerCost Press.keepaliveCost event.1 =
          Press.keepaliveMs * (keepaliveOf event.1 : ℤ) - delayOf event.1 := by
        rcases event with ⟨call, reply⟩
        cases call with
        | press call => cases call <;> simp [workerCost, Press.keepaliveCost, keepaliveOf, delayOf]
        | _ => rfl
      rw [spent_cons, ih, one]
      simp only [List.map_cons, List.sum_cons, Nat.cast_add]
      ring

variable {worker : Hid.Task} {bus : Usb.Bus} {system : System}

/-- The milliseconds of the delays that the loop makes between its requests. -/
def paused (past : List Occurrence) : Nat := (past.map Occurrence.pause).sum

def Occurrence.disconnected (occurrence : Occurrence) : Bool :=
  match occurrence.hid with
  | .took _ _ outcome => outcome.disconnected
  | _ => false

def disconnections (past : List Occurrence) : Nat := past.countP Occurrence.disconnected

def Thread.due : Thread → Nat
  | .pausing => disconnectedDelayMs
  | _ => 0

theorem refused_due (gone : Bool) : (if gone then Thread.pausing else .top).due =
    disconnectedDelayMs * (if gone then 1 else 0) := by
  cases gone <;> rfl

/-- A delay becomes due with a take of this kind, and is made once. -/
theorem Step.due {next : System} {occurrence : Occurrence}
    (step : Step worker system occurrence next) :
    occurrence.pause + next.thread.due =
      system.thread.due + disconnectedDelayMs * disconnections [occurrence] := by
  rw [disconnections, List.countP_singleton]
  have still : system.thread.due = next.thread.due → occurrence.pause = 0 →
      occurrence.disconnected = false → occurrence.pause + next.thread.due =
        system.thread.due + disconnectedDelayMs * (if occurrence.disconnected then 1 else 0) := by
    intro same awake there
    rw [same, awake, there]
    simp
  cases step with
  | @around event after step quiet =>
      refine still rfl rfl ?_
      cases event with
      | took task cap outcome => cases quiet
      | _ => rfl
  | @take here outcome after step =>
      rw [here]
      cases outcome with
      | taken message => rfl
      | refused result => exact (Nat.zero_add _).trans ((refused_due _).trans (Nat.zero_add _).symm)
      | reset => rfl
  | paused here => rw [here]; rfl
  | finished here => exact still (by rw [here]; rfl) rfl rfl
  | called here own reply => exact still (by rw [here]; rfl) rfl rfl
  | asked here step => exact still (by rw [here]; rfl) rfl rfl
  | askTimedOut here => exact still (by rw [here]; rfl) rfl rfl
  | keptAlive here step => exact still (by rw [here]; rfl) rfl rfl
  | keepaliveTimedOut here => exact still (by rw [here]; rfl) rfl rfl
  | sent here step => exact still (by rw [here]; rfl) rfl rfl
  | sendTimedOut here step => exact still (by rw [here]; rfl) rfl rfl
  | sendRefused here refused => exact still (by rw [here]; rfl) rfl rfl

theorem run_due {start : System} {past : List Occurrence}
    (run : Runs.Run (Step worker) start past system) :
    paused past + system.thread.due =
      start.thread.due + disconnectedDelayMs * disconnections past := by
  induction run with
  | nil => exact Nat.zero_add _
  | snoc run step ih =>
      have one := Step.due step
      rw [paused, disconnections] at ih ⊢
      rw [disconnections] at one
      rw [List.map_append, List.sum_append, List.countP_append, List.map_singleton, List.sum_singleton,
        Nat.mul_add]
      omega

/-- What the worker has done since a take is part of serving the message. -/
theorem DeviceRun.progress {earlier between : List Occurrence} {message : Ctaphid.Message}
    (run : DeviceRun worker bus (earlier ++ took worker message :: between) system)
    (untaken : ∀ later ∈ between, Hid.requestTaken later.hid = none) :
    ∃ rest, Progress (serve message (zeros Ctap.maxMessage)) (calls between) rest := by
  rcases DeviceRun.turned run earlier message between rfl untaken with
    ⟨rest, busy, -⟩ | ⟨-, memory, ran⟩
  · rcases (DeviceRun.tracked run).serving _ _ busy with ⟨first, since, split, quiet, progress⟩
    rcases took_unique split untaken quiet with ⟨-, rfl⟩
    exact ⟨rest, progress⟩
  · rw [← List.append_nil (calls between)] at ran
    rcases progress_of_execution ran with ⟨rest, progress, -⟩
    exact ⟨rest, progress⟩

theorem DeviceRun.unpaused {earlier between : List Occurrence} {message : Ctaphid.Message}
    (run : DeviceRun worker bus (earlier ++ took worker message :: between) system)
    (untaken : ∀ later ∈ between, Hid.requestTaken later.hid = none)
    (unanswered : ∀ event ∈ calls between, event.1.sends = false) : paused between = 0 := by
  rcases DeviceRun.turned run earlier message between rfl untaken with
    ⟨rest, -, awake⟩ | ⟨-, memory, ran⟩
  · rw [paused, List.sum_eq_zero]
    intro pause member
    rcases List.mem_map.mp member with ⟨later, inside, rfl⟩
    exact awake later inside
  · rcases serve_shape ran with ⟨commands, answer, result, -, whole⟩
    have silent := unanswered ⟨.hidSendMsg message.cid message.command (payload answer), result⟩
      (by simp [whole])
    cases silent

/-- A request keeps the worker waiting for at most thirty seconds, whatever the button, the host and
the bus do, and at any time a keepalive was due for every one that was sent. Behind the answer the
worker is delayed only as often as it is told that the host has gone. -/
theorem requests_wait_within_bounds {past : List Occurrence} (run : DeviceRun worker bus past system)
    {earlier between : List Occurrence} {message : Ctaphid.Message}
    (split : past = earlier ++ took worker message :: between)
    (untaken : ∀ later ∈ between, Hid.requestTaken later.hid = none) :
    delayed between ≤ Press.pressTimeoutMs ∧
      Press.keepaliveMs * keepalives between ≤ delayed between + Press.keepaliveMs ∧
      ((∀ event ∈ calls between, event.1.sends = false) → paused between = 0) ∧
      paused between ≤ disconnectedDelayMs * disconnections between := by
  rw [split] at run
  rcases DeviceRun.progress run untaken with ⟨rest, progress⟩
  have time := (serve_solvent Press.delay_solvent (fun _ => rfl) (Int.natCast_nonneg _) message
    (zeros Ctap.maxMessage)).spent_le progress
  have rate := (serve_solvent Press.keepalive_solvent (fun _ => rfl) (Int.natCast_nonneg _) message
    (zeros Ctap.maxMessage)).spent_le progress
  rw [spent_delays] at time
  rw [spent_keepalives] at rate
  refine ⟨?_, ?_, DeviceRun.unpaused run untaken, ?_⟩
  · exact_mod_cast time
  · rw [delayed, keepalives]
    simp only [Press.keepaliveMs] at rate ⊢
    omega
  · rcases run.at_event with ⟨state, next, -, step, later⟩
    rcases step.took_serving with ⟨left, here⟩
    have loop := run_due later
    rw [here] at loop
    simp only [Thread.due] at loop
    omega

/-- While a reset is pending, `hid_take_msg` returns P4_HID_ERR_DISCONNECTED. -/
theorem take_during_reset (state : Hid.State) (task : Hid.Task) (cap : Nat)
    (pending : state.flags.resetRequested = true) :
    Hid.Step state (.took task cap (.refused .disconnected)) state := by
  have took := Hid.Step.took state task cap ⟨true, Usb.usbReady state.flags.bus,
    Usb.usbUnmountGeneration state.flags.bus, Usb.usbUnmountGeneration state.flags.bus⟩ state.flags
    ⟨state.flags, state.flags, state.flags, state.flags, .refl, pending.symm, .refl, rfl, .refl, rfl,
      .refl, rfl, .refl⟩
  rw [Hid.hidTakeMsg, if_pos rfl] at took
  exact took

/-- The registration is answered, somebody asks for a reset, and the next take finds that. -/
def resetBehindAnswer : List Occurrence :=
  [⟨.sent 7 1 Ctaphid.cmdCbor registrationData .ok (Ctaphid.frames 1 Ctaphid.cmdCbor registrationData),
      some ⟨.hidSendMsg 1 Ctaphid.cmdCbor registrationData, .ok⟩, 0⟩,
    ⟨.quiet, none, 0⟩, ⟨.requested, none, 0⟩,
    ⟨.took 7 Ctaphid.maxPayload (.refused .disconnected), none, 0⟩,
    ⟨.quiet, none, disconnectedDelayMs⟩]

theorem registration_waits_within_bounds : ∃ start between system,
    DeviceRun 7 Hid.liveFlags.bus (start ++ took 7 registrationMessage :: between) system ∧
    (∀ later ∈ between, Hid.requestTaken later.hid = none) ∧
    delayed between ≤ 30000 ∧ 100 * keepalives between ≤ delayed between + 100 ∧
    0 < paused between ∧ paused between ≤ 25 * disconnections between := by
  obtain ⟨start, between, system, next, memory, run, untaken, -, step, ended⟩ := registration_answered
  have answered := (run.snoc step).snoc (.finished ended)
  have asked := answered.snoc (.around (.request _) rfl)
  have told := asked.snoc (.take rfl (take_during_reset _ 7 Ctaphid.maxPayload rfl))
  have whole := told.snoc (.paused rfl)
  simp only [List.append_assoc, List.cons_append, List.nil_append] at whole
  have quiet : ∀ later ∈ between ++ resetBehindAnswer, Hid.requestTaken later.hid = none :=
    List.forall_mem_append.mpr ⟨untaken, by simp [resetBehindAnswer, Hid.requestTaken]⟩
  obtain ⟨time, rate, -, loop⟩ := requests_wait_within_bounds whole rfl quiet
  refine ⟨start, between ++ resetBehindAnswer, _, whole, quiet, time, rate, ?_, loop⟩
  rw [paused, List.map_append, List.sum_append]
  simp [resetBehindAnswer, disconnectedDelayMs]

end P4Key.Device
