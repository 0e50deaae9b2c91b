import P4Key.Device.Boot

/-! The start of the device as a plan of stages. -/

namespace P4Key.Device.Boot

open Memory CallProgram P4Key.Crypto P4Key.Cred P4Key.Usb P4Key.Hid

inductive Part where
  | state
  | crypto
  | selftest
  | root
  | rebootTest
  | button
  | hidOpen
  | usbOpen
  | usbRoute
  | usbInstall
  | hidLaunch
  | worker
  | bringup
  deriving DecidableEq, Repr

def optional (chosen : Bool) (part : Part) : List Part := if chosen then [part] else []

def usbParts : List Part := [.usbOpen, .usbRoute, .usbInstall]

def transportParts (usbBringup : Bool) : List Part :=
  if usbBringup then usbParts ++ [.bringup] else .hidOpen :: (usbParts ++ [.hidLaunch, .worker])

def parts (config : Config) : List Part :=
  .state :: .crypto :: (optional config.cryptoSelftest .selftest ++
    .root :: (optional config.credRebootTest .rebootTest ++
      .button :: transportParts config.usbBringup))

def single (c : Call) (good : Reply c → Bool) : CallProgram.Stage Call Reply Globals :=
  fun globals => call c >>= fun reply => pure (good reply, globals)

def body (config : Config) : Part → CallProgram.Stage Call Reply Globals
  | .state => single .espFlashGetSize fun error => decide (error = espOk)
  | .crypto => checked (fun code => decide (code = cryptoOk)) cryptoInit
  | .selftest => single .cryptoSelftestRun fun error => decide (error = 0)
  | .root => checked (fun code => decide (code = credOk)) credInit
  | .rebootTest => single .credRebootTestRun fun error => decide (error = 0)
  | .button => fun globals => do
    let (_, globals) ← boardInit config globals
    let _ ← boardButtonRaw config globals
    pure (true, globals)
  | .hidOpen => checked (fun error => decide (error = .ok)) Boot.hidOpen
  | .usbOpen => checked (fun error => decide (error = .ok)) Boot.usbOpen
  | .usbRoute => checked (fun error => decide (error = .ok)) Boot.usbRoute
  | .usbInstall => checked (fun error => decide (error = .ok)) Boot.usbInstall
  | .hidLaunch => checked (fun error => decide (error = .ok)) Boot.hidLaunch
  | .worker => single (.taskCreate .ctapStub) id
  | .bringup => single (.taskCreate .usbBringup) id

/-! The functions of the source follow the plan. -/

section Follows

variable (config : Config) {stages : List (CallProgram.Stage Call Reply Globals)}

theorem bind_single {c : Call} {good : Reply c → Bool} {rest : Reply c → Startup (Bool × Globals)}
    (globals : Globals) (pass : ∀ reply, good reply = true → rest reply = inOrder stages globals)
    (fail : ∀ reply, good reply = false → rest reply = pure (false, globals)) :
    call c >>= rest = inOrder (single c good :: stages) globals := by
  refine congrArg (call c >>= ·) (funext fun reply => ?_)
  cases here : good reply with
  | false => exact fail reply here
  | true => exact pass reply here

/-- A stage of a function that returns `.ok`, between others of the function that calls it. -/
theorem bind_result {Result : Type} [DecidableEq Result] {ok : Result}
    {run : Globals → Startup (Result × Globals)}
    {rest : Result × Globals → Startup (Bool × Globals)} (globals : Globals)
    (pass : ∀ globals, rest (ok, globals) = inOrder stages globals)
    (fail : ∀ error globals, error ≠ ok → rest (error, globals) = pure (false, globals)) :
    run globals >>= rest = inOrder (checked (fun error => decide (error = ok)) run :: stages) globals := by
  refine bind_checked globals ?_ ?_
  · intro out good
    rw [← pass out.2, ← of_decide_eq_true good]
  · intro out bad
    exact fail out.1 out.2 (of_decide_eq_false bad)

theorem usbParts_stages : usbParts.map (body config) ++ stages =
    checked (fun error => decide (error = .ok)) usbOpen ::
      checked (fun error => decide (error = .ok)) usbRoute ::
        checked (fun error => decide (error = .ok)) usbInstall :: stages := rfl

theorem bind_usbStart {rest : UsbResult × Globals → Startup (Bool × Globals)} (globals : Globals)
    (pass : ∀ globals, rest (.ok, globals) = inOrder stages globals)
    (fail : ∀ error globals, error ≠ .ok → rest (error, globals) = pure (false, globals)) :
    usbStart globals >>= rest = inOrder (usbParts.map (body config) ++ stages) globals := by
  rw [usbStart, bind_bind, usbParts_stages]
  refine bind_result globals (fun globals => ?_) (fun error globals bad => ?_)
  · dsimp only
    rw [if_neg (by decide), bind_bind]
    refine bind_result globals (fun globals => ?_) (fun error globals bad => ?_)
    · dsimp only
      rw [if_neg (by decide)]
      exact bind_result globals pass fail
    · dsimp only
      rw [if_pos bad]
      exact fail error globals bad
  · dsimp only
    rw [if_pos bad]
    exact fail error globals bad

theorem mapUsbError_ok {error : UsbResult} : mapUsbError error ≠ .ok := by
  cases error <;> decide

theorem bind_hidStart {rest : HidResult × Globals → Startup (Bool × Globals)} (globals : Globals)
    (pass : ∀ globals, rest (.ok, globals) = inOrder stages globals)
    (fail : ∀ error globals, error ≠ .ok → rest (error, globals) = pure (false, globals)) :
    hidStart globals >>= rest =
      inOrder (body config .hidOpen :: (usbParts.map (body config) ++ body config .hidLaunch :: stages))
        globals := by
  rw [hidStart, bind_bind]
  refine bind_result globals (fun globals => ?_) (fun error globals bad => ?_)
  · dsimp only
    rw [if_neg (by decide), bind_bind]
    refine bind_usbStart config globals (fun globals => ?_) (fun error globals bad => ?_)
    · dsimp only
      rw [if_neg (by decide)]
      exact bind_result globals pass fail
    · dsimp only
      rw [if_pos bad]
      exact fail _ globals mapUsbError_ok
  · dsimp only
    rw [if_pos bad]
    exact fail error globals bad

theorem bind_task (task : TaskName) (globals : Globals) :
    (call (.taskCreate task) >>= fun created =>
      if !created then pure (false, globals) else pure (true, globals)) =
      inOrder [single (.taskCreate task) id] globals := by
  refine bind_single globals ?_ ?_
  · rintro created rfl
    rfl
  · rintro created rfl
    rfl

theorem startTransport_parts (globals : Globals) :
    startTransport config globals =
      inOrder ((transportParts config.usbBringup).map (body config)) globals := by
  rw [startTransport, transportParts]
  by_cases bringup : config.usbBringup = true
  · rw [if_pos bringup, if_pos bringup, List.map_append]
    refine bind_usbStart config globals (fun globals => ?_) (fun error globals bad => ?_)
    · dsimp only
      rw [if_neg (by decide)]
      exact bind_task .usbBringup globals
    · dsimp only
      rw [if_pos bad]
  · rw [if_neg bringup, if_neg bringup, List.map_cons, List.map_append]
    refine bind_hidStart config globals (fun globals => ?_) (fun error globals bad => ?_)
    · dsimp only
      rw [if_neg (by decide)]
      exact bind_task .ctapStub globals
    · dsimp only
      rw [if_pos bad]

theorem bind_optional {c : Call} {good : Reply c → Bool} {fallback : Reply c} {part : Part}
    {rest : Reply c → Startup (Bool × Globals)} (chosen : Bool) (globals : Globals)
    (here : body config part = single c good)
    (skip : rest fallback = inOrder stages globals)
    (pass : ∀ reply, good reply = true → rest reply = inOrder stages globals)
    (fail : ∀ reply, good reply = false → rest reply = pure (false, globals)) :
    (if chosen then call c >>= rest else pure fallback >>= rest) =
      inOrder ((optional chosen part).map (body config) ++ stages) globals := by
  cases chosen with
  | false => exact skip
  | true =>
      have one : (optional true part).map (body config) ++ stages = single c good :: stages := by
        rw [optional, if_pos rfl, List.map_singleton, here, List.singleton_append]
      rw [if_pos rfl, one]
      exact bind_single globals pass fail

theorem bind_button (globals : Globals) :
    (boardInit config globals >>= fun out =>
      boardButtonRaw config out.2 >>= fun _ => inOrder stages out.2) =
      inOrder (body config .button :: stages) globals := by
  have split : inOrder (body config .button :: stages) globals =
      boardInit config globals >>= fun out =>
        (boardButtonRaw config out.2 >>= fun _ => (pure (true, out.2) : Startup (Bool × Globals))) >>=
          fun out => if out.1 then inOrder stages out.2 else pure (false, out.2) := bind_bind _ _ _
  rw [split]
  refine congrArg (boardInit config globals >>= ·) (funext fun out => ?_)
  rw [bind_bind]
  rfl

theorem startDevice_parts (globals : Globals) :
    startDevice config globals =
      inOrder ((optional config.credRebootTest .rebootTest).map (body config) ++
        body config .button :: (transportParts config.usbBringup).map (body config)) globals := by
  have button : (boardInit config globals >>= fun out =>
      boardButtonRaw config out.2 >>= fun _ => startTransport config out.2) =
      inOrder (body config .button :: (transportParts config.usbBringup).map (body config)) globals := by
    simp only [startTransport_parts]
    exact bind_button config globals
  rw [startDevice]
  have here : body config .rebootTest = single .credRebootTestRun fun error => decide (error = 0) :=
    rfl
  refine bind_optional config config.credRebootTest globals here ?_ ?_ ?_
  · dsimp only
    rw [if_neg (by decide)]
    exact button
  · intro error good
    dsimp only
    rw [if_neg (not_not.mpr (of_decide_eq_true good))]
    exact button
  · intro error bad
    dsimp only
    rw [if_pos (of_decide_eq_false bad)]

theorem appMain_parts (globals : Globals) :
    appMain config globals = inOrder ((parts config).map (body config)) globals := by
  rw [appMain, parts]
  simp only [List.map_cons, List.map_append]
  refine bind_single globals (fun error good => ?_) (fun error bad => ?_)
  · rw [if_neg (not_not.mpr (of_decide_eq_true good))]
    refine bind_result globals (fun globals => ?_) (fun error globals bad => ?_)
    · dsimp only
      rw [if_neg (by decide)]
      have stored : (credInit globals >>= fun out =>
          if out.1 ≠ credOk then pure (false, out.2) else startDevice config out.2) =
          inOrder (body config .root :: ((optional config.credRebootTest .rebootTest).map (body config) ++
            body config .button :: (transportParts config.usbBringup).map (body config))) globals := by
        refine bind_result globals (fun globals => ?_) (fun error globals bad => ?_)
        · rw [if_neg (not_not.mpr rfl)]
          exact startDevice_parts config globals
        · rw [if_pos bad]
      have here : body config .selftest = single .cryptoSelftestRun fun error => decide (error = 0) :=
        rfl
      refine bind_optional config config.cryptoSelftest globals here ?_ ?_ ?_
      · rw [if_neg (by decide)]
        exact stored
      · intro error good
        rw [if_neg (not_not.mpr (of_decide_eq_true good))]
        exact stored
      · intro error bad
        rw [if_pos (of_decide_eq_false bad)]
    · dsimp only
      rw [if_pos bad]
  · rw [if_pos (of_decide_eq_false bad)]

end Follows

/-! What each stage does. -/

def Call.part : Call → Part
  | .espFlashGetSize => .state
  | .entropy (.espFillRandom _) => .root
  | .entropy _ => .crypto
  | .cryptoSelftestRun => .selftest
  | .nvs _ => .root
  | .credRebootTestRun => .rebootTest
  | .gpioConfig _ => .button
  | .gpioGetLevel _ => .button
  | .semaphoreCreate .coreMutex => .hidOpen
  | .semaphoreCreate .messageWake => .hidOpen
  | .semaphoreCreate .hidTxMutex => .hidOpen
  | .semaphoreCreate _ => .usbOpen
  | .gpioSetDriveCapability _ _ => .usbRoute
  | .usbWrapPhySelect _ => .usbRoute
  | .tinyusbDriverInstall => .usbInstall
  | .usbUnmountGeneration => .hidLaunch
  | .taskCreate .ctaphid => .hidLaunch
  | .taskCreate .ctapStub => .worker
  | .taskCreate .usbBringup => .bringup

def Returned (events : List (Event Reply)) (c : Call) (reply : Reply c) : Prop := ⟨c, reply⟩ ∈ events

/-- The call read the root whole, or committed a new one. -/
def Keeps : Event Root.Reply → Prop
  | ⟨.nvsGetBlob _, found⟩ => found.1 = Root.espOk ∧ found.2.2 = Root.rootLen
  | ⟨.nvsCommit _, error⟩ => error = Root.espOk
  | _ => False

/-- Going by its calls the stage has passed. The button may fail. -/
def Succeeded (config : Config) (part : Part) (events : List (Event Reply)) : Prop :=
  match part with
  | .state => Returned events .espFlashGetSize espOk
  | .crypto => Returned events (.entropy .psaCryptoInit) psaSuccess
  | .selftest => Returned events .cryptoSelftestRun 0
  | .root => ∃ call reply, Keeps ⟨call, reply⟩ ∧ Returned events (.nvs call) reply
  | .rebootTest => Returned events .credRebootTestRun 0
  | .button => buttonConfigured config.buttonGpio = true →
      ∃ error, Returned events (.gpioConfig (buttonGpioConfig config)) error
  | .hidOpen => Returned events (.semaphoreCreate .coreMutex) true ∧
      Returned events (.semaphoreCreate .messageWake) true ∧
      Returned events (.semaphoreCreate .hidTxMutex) true
  | .usbOpen => Returned events (.semaphoreCreate .rxWake) true ∧
      Returned events (.semaphoreCreate .txWake) true ∧
      Returned events (.semaphoreCreate .usbTxMutex) true
  | .usbRoute => Returned events (.gpioSetDriveCapability usbDmGpio driveCap3) espOk ∧
      Returned events (.gpioSetDriveCapability usbDpGpio driveCap3) espOk ∧
      Returned events (.usbWrapPhySelect usbFsPhyIndex) ()
  | .usbInstall => ∃ steps, Returned events .tinyusbDriverInstall (espOk, steps)
  | .hidLaunch => Returned events (.taskCreate .ctaphid) true
  | .worker => Returned events (.taskCreate .ctapStub) true
  | .bringup => Returned events (.taskCreate .usbBringup) true

/-- A stage that depends on the state it starts in has not run. -/
def Fresh : Part → Globals → Prop
  | .crypto, globals => globals.cryptoReady = false
  | .root, globals => globals.root = {}
  | _, _ => True

structure Frame (part : Part) (globals : Globals) (out : Bool × Globals) : Prop where
  crypto : part ≠ .crypto → out.2.cryptoReady = globals.cryptoReady
  root : part ≠ .root → out.2.root = globals.root
  button : part ≠ .button → out.2.buttonReady = globals.buttonReady
  usb : part ≠ .usbOpen → part ≠ .usbInstall → part ≠ .hidLaunch → out.1 = true →
    out.2.usb = globals.usb
  hid : part ≠ .hidOpen → part ≠ .hidLaunch → out.2.hid = globals.hid

theorem Frame.refl (part : Part) (globals : Globals) (passed : Bool) :
    Frame part globals (passed, globals) :=
  ⟨fun _ => rfl, fun _ => rfl, fun _ => rfl, fun _ _ _ _ => rfl, fun _ _ => rfl⟩

theorem Frame.of_usb {part : Part} {globals : Globals} (usb : UsbVars) (passed : Bool)
    (mine : part = .usbOpen ∨ part = .usbInstall ∨ passed = false) :
    Frame part globals (passed, { globals with usb := usb }) := by
  refine ⟨fun _ => rfl, fun _ => rfl, fun _ => rfl, fun other install _ good => ?_, fun _ _ => rfl⟩
  rcases mine with here | here | failed
  · exact absurd here other
  · exact absurd here install
  · rw [failed] at good
    cases good

theorem Frame.of_hid {globals : Globals} (hid : HidVars) (passed : Bool) :
    Frame .hidOpen globals (passed, { globals with hid := hid }) :=
  ⟨fun _ => rfl, fun _ => rfl, fun _ => rfl, fun _ _ _ _ => rfl, fun other => absurd rfl other⟩

theorem Frame.of_launch {globals : Globals} (usb : UsbVars) (hid : HidVars) (passed : Bool) :
    Frame .hidLaunch globals (passed, { globals with usb := usb, hid := hid }) :=
  ⟨fun _ => rfl, fun _ => rfl, fun _ => rfl, fun _ _ other => absurd rfl other,
    fun _ other => absurd rfl other⟩

theorem Frame.of_button {globals : Globals} (ready passed : Bool) :
    Frame .button globals (passed, { globals with buttonReady := ready }) :=
  ⟨fun _ => rfl, fun _ => rfl, fun other => absurd rfl other, fun _ _ _ _ => rfl, fun _ _ => rfl⟩

structure Outcome (config : Config) (part : Part) (globals : Globals) (events : List (Event Reply))
    (out : Bool × Globals) : Prop where
  own : ∀ event ∈ events, event.1.part = part
  passed : Fresh part globals → (out.1 = true ↔ Succeeded config part events)
  frame : Frame part globals out

section Outcomes

variable {config : Config} {globals : Globals} {events : List (Event Reply)} {out : Bool × Globals}

theorem single_run {c : Call} {good : Reply c → Bool}
    (run : Execution (single c good globals) events out) :
    ∃ reply, events = [⟨c, reply⟩] ∧ out = (good reply, globals) := by
  rcases execution_perform run with ⟨reply, later, rfl, ended⟩
  cases ended
  exact ⟨reply, rfl, rfl⟩

theorem single_outcome {c : Call} {good : Reply c → Bool} {wanted : Reply c} {part : Part}
    (exact : ∀ reply, good reply = true ↔ reply = wanted) (mine : c.part = part)
    (shown : ∀ events, Succeeded config part events ↔ Returned events c wanted)
    (run : Execution (single c good globals) events out) : Outcome config part globals events out := by
  rcases single_run run with ⟨reply, rfl, rfl⟩
  refine ⟨?_, fun _ => ?_, .refl _ _ _⟩
  · intro event member
    rw [List.mem_singleton.mp member]
    exact mine
  · rw [shown, exact, Returned, List.mem_singleton]
    constructor
    · rintro rfl
      rfl
    · intro same
      cases same
      rfl

def entropyEvent : Event Entropy.Reply → Event Reply
  | ⟨c, reply⟩ => ⟨.entropy c, reply⟩

theorem entropy_run {α : Type} {program : Entropy.Source α} {value : α}
    (run : Execution (program.interpret entropyBody) events value) :
    ∃ calls, Execution program calls value ∧ events = calls.map entropyEvent := by
  rcases execution_interpret run with ⟨calls, inner, expansion⟩
  refine ⟨calls, inner, expansion.eq_map entropyEvent ?_⟩
  intro c segment reply one
  cases one with
  | call ended =>
      cases ended
      rfl

theorem crypto_outcome (run : Execution (body config .crypto globals) events out) :
    Outcome config .crypto globals events out := by
  rw [body] at run
  rcases checked_run run with ⟨code, last, inner, rfl⟩
  rw [cryptoInit] at inner
  rcases execution_bind inner with ⟨before, after, ⟨code', ready⟩, rfl, first, ended⟩
  cases ended
  rcases entropy_run first with ⟨calls, start, rfl⟩
  rw [List.append_nil]
  refine ⟨?_, fun off => ?_, fun other => absurd rfl other, fun _ => rfl, fun _ => rfl,
    fun _ _ _ _ => rfl, fun _ _ => rfl⟩
  · rcases Entropy.cryptoInit_cases start with ⟨-, rfl, -⟩ | ⟨-, rfl, -⟩ | ⟨-, status, -, -, rfl, -⟩
    · simp
    · simp [entropyEvent, Call.part]
    · simp [entropyEvent, Call.part]
  · have fresh : globals.cryptoReady = false := off
    rcases Entropy.cryptoInit_cases start with ⟨already, -⟩ | ⟨-, rfl, good, -⟩ |
      ⟨-, status, failed, bad, rfl, -⟩
    · rw [fresh] at already
      cases already
    · simp [good, Succeeded, Returned, entropyEvent]
    · rw [bad, decide_eq_true_eq, fromPsa_ok]
      simp [Succeeded, Returned, entropyEvent, eq_comm]

/-- Three semaphores are made before any of them is checked. -/
theorem semaphores_run {α : Type} {first second third : Semaphore}
    {rest : Bool → Bool → Bool → Startup α} {value : α}
    (run : Execution (call (.semaphoreCreate first) >>= fun one =>
      call (.semaphoreCreate second) >>= fun two =>
        call (.semaphoreCreate third) >>= fun three => rest one two three) events value) :
    ∃ one two three later, events = ⟨.semaphoreCreate first, one⟩ :: ⟨.semaphoreCreate second, two⟩ ::
      ⟨.semaphoreCreate third, three⟩ :: later ∧ Execution (rest one two three) later value := by
  rcases execution_perform run with ⟨one, _, rfl, behind⟩
  rcases execution_perform behind with ⟨two, _, rfl, last⟩
  rcases execution_perform last with ⟨three, later, rfl, ended⟩
  exact ⟨one, two, three, later, rfl, ended⟩

theorem one_missing (one two three : Bool) :
    (!one || !two || !three) = true ↔ ¬(one = true ∧ two = true ∧ three = true) := by
  cases one <;> cases two <;> cases three <;> decide

theorem usbOpen_outcome (run : Execution (body config .usbOpen globals) events out) :
    Outcome config .usbOpen globals events out := by
  rw [body] at run
  rcases checked_run run with ⟨code, last, inner, rfl⟩
  rw [usbOpen] at inner
  by_cases started : globals.usb.port.started = true
  · rw [if_pos started] at inner
    cases inner
    exact ⟨by simp, fun _ => by simp [Succeeded, Returned], .refl _ _ _⟩
  · rw [if_neg started] at inner
    rcases semaphores_run inner with ⟨rxWake, txWake, txMutex, later, rfl, ended⟩
    by_cases missing : (!rxWake || !txWake || !txMutex) = true
    · rw [if_pos missing] at ended
      cases ended
      rw [one_missing] at missing
      refine ⟨by simp [Call.part], fun _ => ?_, .of_usb _ _ (Or.inl rfl)⟩
      simpa [Succeeded, Returned] using missing
    · rw [if_neg missing] at ended
      cases ended
      rw [one_missing, not_not] at missing
      rcases missing with ⟨rfl, rfl, rfl⟩
      exact ⟨by simp [Call.part], fun _ => by simp [Succeeded, Returned], .of_usb _ _ (Or.inl rfl)⟩

theorem hidOpen_outcome (run : Execution (body config .hidOpen globals) events out) :
    Outcome config .hidOpen globals events out := by
  rw [body] at run
  rcases checked_run run with ⟨code, last, inner, rfl⟩
  rw [hidOpen] at inner
  by_cases started : globals.hid.started = true
  · rw [if_pos started] at inner
    cases inner
    exact ⟨by simp, fun _ => by simp [Succeeded, Returned], .refl _ _ _⟩
  · rw [if_neg started] at inner
    rcases semaphores_run inner with ⟨coreMutex, messageWake, txMutex, later, rfl, ended⟩
    by_cases missing : (!coreMutex || !messageWake || !txMutex) = true
    · rw [if_pos missing] at ended
      cases ended
      rw [one_missing] at missing
      refine ⟨by simp [Call.part], fun _ => ?_, .of_hid _ _⟩
      simpa [Succeeded, Returned] using missing
    · rw [if_neg missing] at ended
      cases ended
      rw [one_missing, not_not] at missing
      rcases missing with ⟨rfl, rfl, rfl⟩
      exact ⟨by simp [Call.part], fun _ => by simp [Succeeded, Returned], .of_hid _ _⟩

theorem boardUsbPrepare_run {error : Int} (run : Execution boardUsbPrepare events error) :
    (∀ event ∈ events, event.1.part = .usbRoute) ∧
    (error = espOk ↔ Succeeded config .usbRoute events) := by
  rw [boardUsbPrepare] at run
  rcases execution_perform run with ⟨dmError, _, rfl, behind⟩
  by_cases dmBad : dmError ≠ espOk
  · rw [if_pos dmBad] at behind
    cases behind
    refine ⟨by simp [Call.part], iff_of_false dmBad ?_⟩
    simp [Succeeded, Returned, Ne.symm dmBad]
  · rw [if_neg dmBad] at behind
    rw [not_not.mp dmBad]
    rcases execution_perform behind with ⟨dpError, _, rfl, last⟩
    by_cases dpBad : dpError ≠ espOk
    · rw [if_pos dpBad] at last
      cases last
      refine ⟨by simp [Call.part], iff_of_false dpBad ?_⟩
      simp [Succeeded, Returned]
    · rw [if_neg dpBad] at last
      rw [not_not.mp dpBad]
      rcases execution_perform last with ⟨selected, _, rfl, ended⟩
      cases ended
      exact ⟨by simp [Call.part], iff_of_true rfl (by simp [Succeeded, Returned])⟩

theorem usbRoute_outcome (run : Execution (body config .usbRoute globals) events out) :
    Outcome config .usbRoute globals events out := by
  rw [body] at run
  rcases checked_run run with ⟨code, last, inner, rfl⟩
  rw [usbRoute] at inner
  rcases execution_bind inner with ⟨before, after, error, rfl, first, ended⟩
  rcases @boardUsbPrepare_run config before error first with ⟨own, routed⟩
  by_cases bad : error ≠ espOk
  · rw [if_pos bad] at ended
    cases ended
    rw [List.append_nil]
    exact ⟨own, fun _ => iff_of_false (by simp) (bad ∘ routed.mpr),
      .of_usb _ _ (Or.inr (Or.inr rfl))⟩
  · rw [if_neg bad] at ended
    cases ended
    rw [List.append_nil]
    exact ⟨own, fun _ => iff_of_true (by simp) (routed.mp (not_not.mp bad)), .refl _ _ _⟩

theorem usbInstall_outcome (run : Execution (body config .usbInstall globals) events out) :
    Outcome config .usbInstall globals events out := by
  rw [body] at run
  rcases checked_run run with ⟨code, last, inner, rfl⟩
  rw [usbInstall] at inner
  rcases execution_perform inner with ⟨⟨error, steps⟩, _, rfl, ended⟩
  dsimp only at ended
  by_cases bad : error ≠ espOk
  · rw [if_pos bad] at ended
    cases ended
    refine ⟨by simp [Call.part], fun _ => ?_, .of_usb _ _ (Or.inr (Or.inl rfl))⟩
    simp [Succeeded, Returned, Ne.symm bad]
  · rw [if_neg bad] at ended
    cases ended
    rw [not_not.mp bad]
    exact ⟨by simp [Call.part], fun _ => by simp [Succeeded, Returned],
      .of_usb _ _ (Or.inr (Or.inl rfl))⟩

theorem hidLaunch_outcome (run : Execution (body config .hidLaunch globals) events out) :
    Outcome config .hidLaunch globals events out := by
  rw [body] at run
  rcases checked_run run with ⟨code, last, inner, rfl⟩
  rw [hidLaunch] at inner
  rcases execution_perform inner with ⟨steps, _, rfl, behind⟩
  rcases execution_perform behind with ⟨created, _, rfl, ended⟩
  cases created with
  | false =>
      cases ended
      exact ⟨by simp [Call.part], fun _ => by simp [Succeeded, Returned], .of_launch _ _ _⟩
  | true =>
      cases ended
      exact ⟨by simp [Call.part], fun _ => by simp [Succeeded, Returned], .of_launch _ _ _⟩

theorem boardInit_run {error : Int} {next : Globals}
    (run : Execution (boardInit config globals) events (error, next)) :
    (buttonConfigured config.buttonGpio = false ∧ events = [] ∧
      next = { globals with buttonReady := false }) ∨
    (buttonConfigured config.buttonGpio = true ∧
      events = [⟨.gpioConfig (buttonGpioConfig config), error⟩] ∧
      next = { globals with buttonReady := decide (error = espOk) }) := by
  simp only [boardInit] at run
  cases configured : buttonConfigured config.buttonGpio with
  | false =>
      rw [configured, if_pos (by decide)] at run
      cases run
      exact Or.inl ⟨rfl, rfl, rfl⟩
  | true =>
      rw [configured, if_neg (by decide)] at run
      rcases execution_perform run with ⟨reply, _, rfl, ended⟩
      by_cases good : reply = espOk
      · rw [if_pos good] at ended
        cases ended
        exact Or.inr ⟨rfl, rfl, by simp [good]⟩
      · rw [if_neg good] at ended
        cases ended
        exact Or.inr ⟨rfl, rfl, by simp [good]⟩

theorem boardButtonRaw_run {level : Int}
    (run : Execution (boardButtonRaw config globals) events level) :
    events = [] ∨ events = [⟨.gpioGetLevel config.buttonGpio, level⟩] := by
  rw [boardButtonRaw] at run
  cases ready : globals.buttonReady with
  | false =>
      rw [ready, if_pos (by decide)] at run
      cases run
      exact Or.inl rfl
  | true =>
      rw [ready, if_neg (by decide)] at run
      cases run with
      | call ended =>
          cases ended
          exact Or.inr rfl

theorem button_outcome (run : Execution (body config .button globals) events out) :
    Outcome config .button globals events out := by
  rw [body] at run
  rcases execution_bind run with ⟨before, after, ⟨error, next⟩, rfl, first, behind⟩
  rcases execution_bind behind with ⟨raw, none, level, rfl, look, ended⟩
  cases ended
  rw [List.append_nil]
  have looked := boardButtonRaw_run look
  rcases boardInit_run first with ⟨missing, rfl, rfl⟩ | ⟨-, rfl, rfl⟩
  · refine ⟨?_, fun _ => iff_of_true rfl ?_, .of_button _ _⟩
    · rcases looked with rfl | rfl
      · simp
      · simp [Call.part]
    · intro configured
      rw [missing] at configured
      cases configured
  · refine ⟨?_, fun _ => iff_of_true rfl ?_, .of_button _ _⟩
    · rcases looked with rfl | rfl
      · simp [Call.part]
      · simp [Call.part]
    · exact fun _ => ⟨error, by simp [Returned]⟩

end Outcomes

/-! The stage of the root. -/

section Root

variable {flags : Root.Flags} {handle : UInt32} {calls : List (Event Root.Reply)}
  {out : Int × Root.Flags}

def Kept (calls : List (Event Root.Reply)) : Prop := ∃ call ∈ calls, Keeps call

theorem kept_cons (call : Event Root.Reply) (calls : List (Event Root.Reply)) :
    Kept (call :: calls) ↔ Keeps call ∨ Kept calls := List.exists_mem_cons_iff ..

structure RootOutcome (flags : Root.Flags) (calls : List (Event Root.Reply)) (out : Int × Root.Flags) :
    Prop where
  kept : out.1 = credOk ↔ Kept calls
  ready : out.1 = credOk → out.2 = { flags with ready := true }

theorem RootOutcome.skip {call : Event Root.Reply} (other : ¬Keeps call)
    (rest : RootOutcome flags calls out) : RootOutcome flags (call :: calls) out :=
  ⟨by rw [kept_cons, or_iff_right other, rest.kept], rest.ready⟩

theorem rootFail_run (run : Execution (Root.rootFail flags handle) calls out) :
    RootOutcome flags calls out := by
  rw [Root.rootFail] at run
  rcases execution_bind run with ⟨before, after, closed, rfl, close, ended⟩
  cases ended
  rw [List.append_nil]
  have bad : credErrRoot ≠ credOk := by decide
  refine ⟨iff_of_false bad ?_, fun good => absurd good bad⟩
  rw [Root.closeHandle] at close
  by_cases there : handle ≠ 0
  · rw [if_pos there] at close
    cases close with
    | call last =>
        cases last
        simp [Kept, Keeps]
  · rw [if_neg there] at close
    cases close
    simp [Kept]

theorem rootReady_run {call : Event Root.Reply} (keeps : Keeps call)
    (run : Execution (Root.rootReady flags handle) calls out) :
    RootOutcome flags (call :: calls) out := by
  rw [Root.rootReady] at run
  rcases execution_perform run with ⟨closed, _, rfl, ended⟩
  cases ended
  exact ⟨iff_of_true rfl ((kept_cons _ _).mpr (Or.inl keeps)), fun _ => rfl⟩

theorem makeRoot_run (run : Execution (Root.makeRoot flags handle) calls out) :
    RootOutcome flags calls out := by
  rw [Root.makeRoot] at run
  rcases execution_perform run with ⟨⟨randError, root⟩, _, rfl, setting⟩
  refine .skip id ?_
  dsimp only at setting
  by_cases noBytes : randError ≠ cryptoOk
  · rw [if_pos noBytes] at setting
    exact rootFail_run setting
  · rw [if_neg noBytes] at setting
    rcases execution_perform setting with ⟨setError, _, rfl, committing⟩
    refine .skip id ?_
    by_cases notSet : setError ≠ Root.espOk
    · rw [if_pos notSet] at committing
      exact rootFail_run committing
    · rw [if_neg notSet] at committing
      rcases execution_perform committing with ⟨commitError, _, rfl, last⟩
      by_cases notCommitted : commitError ≠ Root.espOk
      · rw [if_pos notCommitted] at last
        exact .skip notCommitted (rootFail_run last)
      · rw [if_neg notCommitted] at last
        exact rootReady_run (not_not.mp notCommitted) last

theorem credInit_run (run : Execution (Root.credInit {}) calls out) :
    RootOutcome {} calls out := by
  rw [Root.credInit, if_neg (by decide), if_neg (by decide)] at run
  rcases execution_perform run with ⟨initError, _, rfl, opening⟩
  refine .skip id ?_
  by_cases noFlash : initError ≠ Root.espOk
  · rw [if_pos noFlash] at opening
    exact rootFail_run opening
  · rw [if_neg noFlash] at opening
    rcases execution_perform opening with ⟨⟨openError, handle⟩, _, rfl, getting⟩
    refine .skip id ?_
    dsimp only at getting
    by_cases notOpen : openError ≠ Root.espOk
    · rw [if_pos notOpen] at getting
      exact rootFail_run getting
    · rw [if_neg notOpen] at getting
      rcases execution_perform getting with ⟨⟨getError, found, len⟩, _, rfl, last⟩
      dsimp only at last
      by_cases absent : getError = Root.espErrNvsNotFound
      · rw [if_pos absent] at last
        refine .skip ?_ (makeRoot_run last)
        rintro ⟨good, -⟩
        exact absurd (absent.symm.trans good) (by decide)
      · rw [if_neg absent] at last
        by_cases bad : getError ≠ Root.espOk ∨ len ≠ Root.rootLen
        · rw [if_pos bad] at last
          refine .skip ?_ (rootFail_run last)
          rintro ⟨good, whole⟩
          exact bad.elim (absurd good) (absurd whole)
        · rw [if_neg bad] at last
          rw [not_or, not_not, not_not] at bad
          exact rootReady_run bad last

theorem call_run {c : Call} {events : List (Event Reply)} {reply : Reply c}
    (run : Execution (call c) events reply) : events = [⟨c, reply⟩] := by
  cases run with
  | call ended =>
      cases ended
      rfl

/-- A call of p4_root.c is one of the device, but for its `rand_fill`. -/
theorem rootBody_run {ready : Bool} {c : Root.Call} {events : List (Event Reply)}
    {reply : Root.Reply c} (run : Execution (rootBody ready c) events reply) :
    events = [⟨.nvs c, reply⟩] ∨
    (¬Keeps ⟨c, reply⟩ ∧ ∀ event ∈ events, ∃ len bytes, event = ⟨.entropy (.espFillRandom len), bytes⟩) := by
  cases c with
  | randFill =>
      rw [rootBody] at run
      rcases execution_bind run with ⟨before, after, ⟨code, left⟩, rfl, first, ended⟩
      cases ended
      rcases entropy_run first with ⟨calls, filled, rfl⟩
      rw [List.append_nil]
      refine Or.inr ⟨id, ?_⟩
      rcases Entropy.randFill_cases filled with ⟨-, -, rfl, -⟩ | ⟨-, -, -, ⟨random, rfl, -⟩ | ⟨-, rfl, -⟩⟩
      · simp
      · exact List.forall_mem_singleton.mpr ⟨_, random, rfl⟩
      · simp
  | nvsFlashInit => exact Or.inl (call_run run)
  | nvsOpen readWrite => exact Or.inl (call_run run)
  | nvsGetBlob handle => exact Or.inl (call_run run)
  | nvsSetBlob handle root => exact Or.inl (call_run run)
  | nvsCommit handle => exact Or.inl (call_run run)
  | nvsClose handle => exact Or.inl (call_run run)

theorem succeeded_root_append (config : Config) (first second : List (Event Reply)) :
    Succeeded config .root (first ++ second) ↔
      Succeeded config .root first ∨ Succeeded config .root second := by
  simp only [Succeeded, Returned, List.mem_append]
  constructor
  · rintro ⟨call, reply, kept, early | late⟩
    · exact Or.inl ⟨call, reply, kept, early⟩
    · exact Or.inr ⟨call, reply, kept, late⟩
  · rintro (⟨call, reply, kept, early⟩ | ⟨call, reply, kept, late⟩)
    · exact ⟨call, reply, kept, Or.inl early⟩
    · exact ⟨call, reply, kept, Or.inr late⟩

/-- The calls of the stage keep the root just if those of p4_root.c do. -/
theorem root_calls (config : Config) {ready : Bool} {events : List (Event Reply)}
    (expansion : Expansion (rootBody ready) calls events) :
    (∀ event ∈ events, event.1.part = .root) ∧ (Succeeded config .root events ↔ Kept calls) := by
  induction expansion with
  | nil => exact ⟨by simp, by simp [Succeeded, Returned, Kept]⟩
  | @cons c reply segment events calls run rest ih =>
      have one : (∀ event ∈ segment, event.1.part = .root) ∧
          (Succeeded config .root segment ↔ Keeps ⟨c, reply⟩) := by
        rcases rootBody_run run with rfl | ⟨other, drawn⟩
        · refine ⟨List.forall_mem_singleton.mpr rfl, ?_⟩
          simp only [Succeeded, Returned, List.mem_singleton]
          constructor
          · rintro ⟨call, found, kept, same⟩
            cases same
            exact kept
          · exact fun kept => ⟨c, reply, kept, rfl⟩
        · refine ⟨?_, iff_of_false ?_ other⟩
          · intro event member
            rcases drawn event member with ⟨len, bytes, rfl⟩
            rfl
          · rintro ⟨call, found, -, member⟩
            rcases drawn _ member with ⟨len, bytes, same⟩
            cases same
      refine ⟨List.forall_mem_append.mpr ⟨one.1, ih.1⟩, ?_⟩
      rw [succeeded_root_append, kept_cons, one.2, ih.2]

theorem root_outcome {config : Config} {globals : Globals} {events : List (Event Reply)}
    {out : Bool × Globals} (run : Execution (body config .root globals) events out) :
    Outcome config .root globals events out := by
  rw [body] at run
  rcases checked_run run with ⟨code, last, inner, rfl⟩
  rw [credInit] at inner
  rcases execution_bind inner with ⟨before, after, ⟨code', flags⟩, rfl, first, ended⟩
  cases ended
  rcases execution_interpret first with ⟨calls, init, expansion⟩
  rcases root_calls config expansion with ⟨own, kept⟩
  rw [List.append_nil]
  refine ⟨own, fun fresh => ?_, fun _ => rfl, fun other => absurd rfl other, fun _ => rfl,
    fun _ _ _ _ => rfl, fun _ _ => rfl⟩
  have new : globals.root = {} := fresh
  rw [new] at init
  rw [decide_eq_true_eq, kept]
  exact (credInit_run init).kept

end Root

/-! The plan. -/

theorem outcome (config : Config) {part : Part} {globals : Globals} {events : List (Event Reply)}
    {out : Bool × Globals} (run : Execution (body config part globals) events out) :
    Outcome config part globals events out := by
  cases part with
  | state => exact single_outcome (by simp) rfl (fun _ => Iff.rfl) run
  | crypto => exact crypto_outcome run
  | selftest => exact single_outcome (by simp) rfl (fun _ => Iff.rfl) run
  | root => exact root_outcome run
  | rebootTest => exact single_outcome (by simp) rfl (fun _ => Iff.rfl) run
  | button => exact button_outcome run
  | hidOpen => exact hidOpen_outcome run
  | usbOpen => exact usbOpen_outcome run
  | usbRoute => exact usbRoute_outcome run
  | usbInstall => exact usbInstall_outcome run
  | hidLaunch => exact hidLaunch_outcome run
  | worker => exact single_outcome (by simp) rfl (fun _ => Iff.rfl) run
  | bringup => exact single_outcome (by simp) rfl (fun _ => Iff.rfl) run

def plan (config : Config) : Plan Part Call Reply Globals where
  body := body config
  owner := Call.part
  Fresh := Fresh
  Succeeded := Succeeded config
  own run := (outcome config run).own
  passed run := (outcome config run).passed
  keeps {part other globals events out} run apart fresh := by
    have facts := outcome config run
    cases other with
    | crypto => exact (facts.frame.crypto apart.symm).trans fresh
    | root => exact (facts.frame.root apart.symm).trans fresh
    | _ => trivial

theorem parts_nodup (config : Config) : (parts config).Nodup := by
  rcases config with ⟨selftest, rebootTest, bringup, gpio, low⟩
  cases selftest <;> cases rebootTest <;> cases bringup <;>
    simp [parts, optional, transportParts, usbParts]

theorem fresh_start (part : Part) : Fresh part {} := by
  cases part with
  | crypto => rfl
  | root => rfl
  | _ => trivial

/-- The stage has passed, going by those of the calls that are its own. -/
def Done (config : Config) (part : Part) (events : List (Event Reply)) : Prop :=
  (plan config).Done part events

/-- A call is made when every stage before its own is done and none behind it has begun. The device
is up just if every stage of the configuration is done. -/
theorem boot_in_order (config : Config) {events : List (Event Reply)} {up : Bool} {globals : Globals}
    (run : Execution (appMain config {}) events (up, globals)) :
    (∀ before event after, events = before ++ event :: after →
      ∃ earlier later, parts config = earlier ++ event.1.part :: later ∧
        (∀ part ∈ earlier, Done config part before) ∧
        ∀ past ∈ before, past.1.part ∈ earlier ∨ past.1.part = event.1.part) ∧
    (up = true ↔ ∀ part ∈ parts config, Done config part events) := by
  rw [appMain_parts] at run
  refine ⟨?_, (plan config).completed (parts_nodup config) (fun part _ => fresh_start part) run⟩
  rintro before event after rfl
  exact (plan config).called (parts_nodup config) (fun part _ => fresh_start part) run

/-- The firmware of sdkconfig.defaults. -/
def normalConfig : Config :=
  { cryptoSelftest := false
    credRebootTest := false
    usbBringup := false
    buttonGpio := 35
    buttonActiveLow := true }

/-- Every call succeeds, a root is stored, and a host is there. -/
def goodAnswer : (c : Call) → Reply c
  | .espFlashGetSize => espOk
  | .entropy .bootloaderRandomEnable => ()
  | .entropy .bootloaderRandomDisable => ()
  | .entropy .psaCryptoInit => psaSuccess
  | .entropy (.espFillRandom len) => List.Vector.replicate len 0
  | .cryptoSelftestRun => 0
  | .nvs .nvsFlashInit => espOk
  | .nvs (.nvsOpen _) => (espOk, 1)
  | .nvs (.nvsGetBlob _) => (espOk, Root.blankRoot, Root.rootLen)
  | .nvs (.nvsSetBlob _ _) => espOk
  | .nvs (.nvsCommit _) => espOk
  | .nvs (.nvsClose _) => ()
  | .nvs .randFill => (cryptoOk, Root.blankRoot)
  | .credRebootTestRun => 0
  | .gpioConfig _ => espOk
  | .gpioGetLevel _ => 1
  | .semaphoreCreate _ => true
  | .gpioSetDriveCapability _ _ => espOk
  | .usbWrapPhySelect _ => ()
  | .tinyusbDriverInstall => (espOk, [])
  | .usbUnmountGeneration => [.bus .attached]
  | .taskCreate _ => true

theorem good_boot_in_order : Done normalConfig .root ((appMain normalConfig {}).trace goodAnswer) ∧
    Done normalConfig .worker ((appMain normalConfig {}).trace goodAnswer) := by
  have run : Execution (appMain normalConfig {}) ((appMain normalConfig {}).trace goodAnswer)
      (true, ((appMain normalConfig {}).value goodAnswer).2) :=
    execution_value goodAnswer (appMain normalConfig {})
  have done := (boot_in_order normalConfig run).2.mp rfl
  exact ⟨done .root (by decide), done .worker (by decide)⟩

end P4Key.Device.Boot
