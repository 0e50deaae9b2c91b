import P4Key.Device.Startup

/-! What a start that comes to its end leaves behind. -/

namespace P4Key.Device.Boot

open Memory CallProgram P4Key.Crypto P4Key.Cred P4Key.Usb P4Key.Hid

def Achieved (config : Config) (part : Part) (events : List (Event Reply)) (globals : Globals) : Prop :=
  match part with
  | .crypto => globals.cryptoReady = true
  | .root => globals.root = { ready := true }
  | .button => globals.buttonReady = true ↔ buttonConfigured config.buttonGpio = true ∧
      Returned events (.gpioConfig (buttonGpioConfig config)) espOk
  | .hidOpen => globals.hid.coreMutex = true ∧ globals.hid.messageWake = true ∧
      globals.hid.txMutex = true ∧ globals.hid.resetRequested = false ∧
      ∃ generation, globals.hid.service = some { seenUsbGeneration := generation }
  | _ => True

/-- What the driver has done to the port, call by call. -/
def replySteps : Event Reply → List DriverStep
  | ⟨.tinyusbDriverInstall, reply⟩ => reply.2
  | ⟨.usbUnmountGeneration, steps⟩ => steps
  | _ => []

def driverSteps (events : List (Event Reply)) : List DriverStep := events.flatMap replySteps

theorem driverSteps_append (first second : List (Event Reply)) :
    driverSteps (first ++ second) = driverSteps first ++ driverSteps second := List.flatMap_append

theorem driverSteps_none {events : List (Event Reply)}
    (others : ∀ event ∈ events, event.1.part ≠ .usbInstall ∧ event.1.part ≠ .hidLaunch) :
    driverSteps events = [] := by
  refine List.flatMap_eq_nil_iff.mpr fun event member => ?_
  have apart := others event member
  rcases event with ⟨c, reply⟩
  cases c with
  | tinyusbDriverInstall => exact absurd rfl apart.1
  | usbUnmountGeneration => exact absurd rfl apart.2
  | _ => rfl

theorem UsbVars.driven_append (usb : UsbVars) (first second : List DriverStep) :
    usb.driven (first ++ second) = (usb.driven first).driven second := by
  rw [UsbVars.driven, Port.driven, List.foldl_append]
  rfl

section Stages

variable {config : Config} {globals last : Globals} {events : List (Event Reply)}

theorem crypto_achieved (run : Execution (body config .crypto globals) events (true, last)) :
    last.cryptoReady = true := by
  rw [body] at run
  rcases checked_run run with ⟨code, next, inner, same⟩
  rw [cryptoInit] at inner
  rcases execution_bind inner with ⟨before, after, ⟨code', ready⟩, rfl, first, ended⟩
  cases ended
  rcases entropy_run first with ⟨calls, start, rfl⟩
  simp only [Prod.mk.injEq] at same
  rcases same with ⟨good, rfl⟩
  rcases Entropy.cryptoInit_cases start with ⟨-, -, -, ready⟩ | ⟨-, -, -, ready⟩ |
    ⟨-, status, failed, bad, -⟩
  · exact ready
  · exact ready
  · have passed := of_decide_eq_true good.symm
    rw [bad, fromPsa_ok] at passed
    exact absurd passed failed

theorem root_achieved (run : Execution (body config .root globals) events (true, last))
    (fresh : globals.root = {}) : last.root = { ready := true } := by
  rw [body] at run
  rcases checked_run run with ⟨code, next, inner, same⟩
  rw [credInit] at inner
  rcases execution_bind inner with ⟨before, after, ⟨code', flags⟩, rfl, first, ended⟩
  cases ended
  simp only [Prod.mk.injEq] at same
  rcases same with ⟨good, rfl⟩
  rcases execution_interpret first with ⟨calls, init, -⟩
  rw [fresh] at init
  exact (credInit_run init).ready (of_decide_eq_true good.symm)

theorem button_achieved (run : Execution (body config .button globals) events (true, last)) :
    Achieved config .button events last := by
  rw [body] at run
  rcases execution_bind run with ⟨before, after, ⟨error, next⟩, rfl, first, behind⟩
  rcases execution_bind behind with ⟨raw, none, level, rfl, look, ended⟩
  cases ended
  rcases boardInit_run first with ⟨missing, rfl, rfl⟩ | ⟨there, rfl, rfl⟩
  · simp [Achieved, missing]
  · have looked : Returned ([⟨.gpioConfig (buttonGpioConfig config), error⟩] ++ (raw ++ []))
        (.gpioConfig (buttonGpioConfig config)) espOk ↔ error = espOk := by
      rcases boardButtonRaw_run look with rfl | rfl
      · simp [Returned, eq_comm]
      · simp [Returned, eq_comm]
    rw [Achieved, looked]
    simp [there]

theorem usbOpen_achieved (run : Execution (body config .usbOpen globals) events (true, last)) :
    last.usb = ⟨true, true, true, usbStarted⟩ := by
  rw [body] at run
  rcases checked_run run with ⟨code, next, inner, same⟩
  rw [usbOpen] at inner
  by_cases started : globals.usb.port.started = true
  · rw [if_pos started] at inner
    cases inner
    simp at same
  · rw [if_neg started] at inner
    rcases semaphores_run inner with ⟨rxWake, txWake, txMutex, later, rfl, ended⟩
    by_cases missing : (!rxWake || !txWake || !txMutex) = true
    · rw [if_pos missing] at ended
      cases ended
      simp at same
    · rw [if_neg missing] at ended
      cases ended
      rw [one_missing, not_not] at missing
      rcases missing with ⟨rfl, rfl, rfl⟩
      simp only [Prod.mk.injEq] at same
      rw [same.2]

theorem hidOpen_achieved (run : Execution (body config .hidOpen globals) events (true, last)) :
    globals.hid.started = false ∧ Achieved config .hidOpen events last := by
  rw [body] at run
  rcases checked_run run with ⟨code, next, inner, same⟩
  rw [hidOpen] at inner
  by_cases started : globals.hid.started = true
  · rw [if_pos started] at inner
    cases inner
    simp at same
  · rw [if_neg started] at inner
    rcases semaphores_run inner with ⟨coreMutex, messageWake, txMutex, later, rfl, ended⟩
    by_cases missing : (!coreMutex || !messageWake || !txMutex) = true
    · rw [if_pos missing] at ended
      cases ended
      simp at same
    · rw [if_neg missing] at ended
      cases ended
      rw [one_missing, not_not] at missing
      rcases missing with ⟨rfl, rfl, rfl⟩
      simp only [Prod.mk.injEq] at same
      rw [same.2]
      exact ⟨Bool.eq_false_iff.mpr started, rfl, rfl, rfl, rfl, 0, rfl⟩

theorem usbInstall_driven (run : Execution (body config .usbInstall globals) events (true, last)) :
    last.usb = globals.usb.driven (driverSteps events) := by
  rw [body] at run
  rcases checked_run run with ⟨code, next, inner, same⟩
  rw [usbInstall] at inner
  rcases execution_perform inner with ⟨⟨error, steps⟩, _, rfl, ended⟩
  dsimp only at ended
  by_cases bad : error ≠ espOk
  · rw [if_pos bad] at ended
    cases ended
    simp at same
  · rw [if_neg bad] at ended
    cases ended
    simp only [Prod.mk.injEq] at same
    rw [same.2]
    simp [driverSteps, replySteps]

theorem hidLaunch_driven (run : Execution (body config .hidLaunch globals) events (true, last)) :
    last.usb = globals.usb.driven (driverSteps events) ∧
      last.hid = { globals.hid with
        started := true
        service := globals.hid.service.map fun service =>
          { service with seenUsbGeneration := usbUnmountGeneration last.usb.port.bus } } := by
  rw [body] at run
  rcases checked_run run with ⟨code, next, inner, same⟩
  rw [hidLaunch] at inner
  rcases execution_perform inner with ⟨steps, _, rfl, behind⟩
  rcases execution_perform behind with ⟨created, _, rfl, ended⟩
  cases created with
  | false =>
      cases ended
      simp at same
  | true =>
      cases ended
      simp only [Prod.mk.injEq] at same
      rw [same.2]
      exact ⟨by simp [driverSteps, replySteps], rfl⟩

/-- Behind the start of the port only the driver moves it. -/
theorem usb_driven {part : Part} (run : Execution (body config part globals) events (true, last))
    (apart : part ≠ .usbOpen) : last.usb = globals.usb.driven (driverSteps events) := by
  by_cases install : part = .usbInstall
  · rw [install] at run
    exact usbInstall_driven run
  by_cases launch : part = .hidLaunch
  · rw [launch] at run
    exact (hidLaunch_driven run).1
  have facts := outcome config run
  have none : driverSteps events = [] := by
    refine driverSteps_none fun event member => ?_
    rw [facts.own event member]
    exact ⟨install, launch⟩
  rw [none]
  exact facts.frame.usb apart install launch rfl

theorem passed_driven {names : List Part} (apart : .usbOpen ∉ names)
    (passed : Passed (names.map (body config)) globals events last) :
    last.usb = globals.usb.driven (driverSteps events) := by
  induction names generalizing globals events with
  | nil =>
      cases passed
      rfl
  | cons name names ih =>
      rw [List.mem_cons, not_or] at apart
      cases passed with
      | cons first rest =>
          rw [ih apart.2 rest, usb_driven first (Ne.symm apart.1), driverSteps_append,
            UsbVars.driven_append]

theorem achieved_made {part : Part} (run : Execution (body config part globals) events (true, last))
    (fresh : Fresh part globals) : Achieved config part events last := by
  cases part with
  | crypto => exact crypto_achieved run
  | root => exact root_achieved run fresh
  | button => exact button_achieved run
  | hidOpen => exact (hidOpen_achieved run).2
  | _ => trivial

theorem achieved_kept {part other : Part} {mine : List (Event Reply)}
    (run : Execution (body config part globals) events (true, last)) (apart : other ≠ part)
    (before : Achieved config other mine globals) : Achieved config other mine last := by
  have frame := (outcome config run).frame
  cases other with
  | crypto => exact (frame.crypto apart.symm).trans before
  | root => exact (frame.root apart.symm).trans before
  | button =>
      have same := frame.button apart.symm
      rw [Achieved] at before ⊢
      rw [← before]
      exact iff_of_eq (congrArg (· = true) same)
  | hidOpen =>
      by_cases launch : part = .hidLaunch
      · rw [launch] at run
        rcases before with ⟨core, message, tx, calm, older, stored⟩
        rw [Achieved, (hidLaunch_driven run).2, stored]
        exact ⟨core, message, tx, calm, _, rfl⟩
      · have same : last.hid = globals.hid := frame.hid apart.symm launch
        rw [Achieved, same]
        exact before
  | _ => trivial

theorem launched_seen (passed : Passed ([.hidLaunch, .worker].map (body config)) globals events last) :
    last.hid.started = true ∧ ∀ service, last.hid.service = some service →
      service.seenUsbGeneration = usbUnmountGeneration last.usb.port.bus := by
  rcases passed with _ | ⟨launch, _ | ⟨work, _ | _⟩⟩
  rcases single_run work with ⟨created, -, same⟩
  rw [Prod.mk.injEq] at same
  rw [same.2, (hidLaunch_driven launch).2]
  refine ⟨rfl, fun service stored => ?_⟩
  rcases Option.map_eq_some_iff.mp stored with ⟨older, -, rfl⟩
  rfl

end Stages

theorem returned_own (config : Config) {part : Part} {events : List (Event Reply)} {c : Call}
    {reply : Reply c} (mine : c.part = part) :
    Returned ((plan config).callsOf part events) c reply ↔ Returned events c reply := by
  rw [Returned, Plan.callsOf, List.mem_filter]
  exact and_iff_left (decide_eq_true mine)

/-! The stages before the one that starts the port, and behind it. -/

def beforePort (config : Config) : List Part :=
  .state :: .crypto :: (optional config.cryptoSelftest .selftest ++
    .root :: (optional config.credRebootTest .rebootTest ++
      .button :: optional (!config.usbBringup) .hidOpen))

def behindPort (usbBringup : Bool) : List Part :=
  [.usbRoute, .usbInstall] ++ if usbBringup then [.bringup] else [.hidLaunch, .worker]

theorem parts_port (config : Config) :
    parts config = beforePort config ++ .usbOpen :: behindPort config.usbBringup := by
  rcases config with ⟨selftest, rebootTest, bringup, gpio, low⟩
  cases selftest <;> cases rebootTest <;> cases bringup <;> rfl

theorem beforePort_quiet (config : Config) :
    ∀ part ∈ beforePort config, part ≠ .usbInstall ∧ part ≠ .hidLaunch := by
  rcases config with ⟨selftest, rebootTest, bringup, gpio, low⟩
  cases selftest <;> cases rebootTest <;> cases bringup <;> simp [beforePort, optional]

theorem behindPort_apart (usbBringup : Bool) : .usbOpen ∉ behindPort usbBringup := by
  cases usbBringup <;> decide

theorem port_run {config : Config} {last : Globals} {events : List (Event Reply)}
    (passed : Passed ((parts config).map (body config)) {} events last) :
    last.usb = ⟨true, true, true, usbStarted.driven (driverSteps events)⟩ := by
  have distinct := parts_nodup config
  rw [parts_port] at passed distinct
  rw [List.map_append, List.map_cons] at passed
  rcases passed.split with ⟨before, after, middle, rfl, early, late⟩
  cases late with
  | cons first rest =>
      have within := ((plan config).allPassed (List.nodup_append.mp distinct).1
        (fun part _ => fresh_start part) early).within
      have quiet := driverSteps_none fun event member => beforePort_quiet config _ (within event member)
      have opening := driverSteps_none fun event member => by
        rw [(outcome config first).own event member]
        decide
      rw [passed_driven (behindPort_apart _) rest, usbOpen_achieved first, driverSteps_append,
        driverSteps_append, quiet, opening]
      rfl

theorem launch_run {config : Config} (normal : config.usbBringup = false) {last : Globals}
    {events : List (Event Reply)} (passed : Passed ((parts config).map (body config)) {} events last) :
    ∃ middle later, Passed ([.hidLaunch, .worker].map (body config)) middle later last := by
  have split : parts config = (beforePort config ++ [.usbOpen, .usbRoute, .usbInstall]) ++
      [.hidLaunch, .worker] := by
    rw [parts_port, normal]
    simp [behindPort]
  rw [split, List.map_append] at passed
  rcases passed.split with ⟨before, later, middle, -, -, late⟩
  exact ⟨middle, later, late⟩

/-- A device that is up has its library, its root and its handles, and its transport is where the
model of the running device starts. -/
theorem boot_leaves_device_ready (config : Config) {events : List (Event Reply)} {globals : Globals}
    (run : Execution (appMain config {}) events (true, globals)) :
    globals.cryptoReady = true ∧ globals.root = { ready := true } ∧
      (globals.buttonReady = true ↔ buttonConfigured config.buttonGpio = true ∧
        Returned events (.gpioConfig (buttonGpioConfig config)) espOk) ∧
      globals.usb = ⟨true, true, true, usbStarted.driven (driverSteps events)⟩ ∧
      (config.usbBringup = false →
        globals.hid = ⟨true, true, true, true, some (started globals.usb.port.bus).service,
          (started globals.usb.port.bus).flags.resetRequested⟩) := by
  rw [appMain_parts] at run
  have passed : Passed ((parts config).map (plan config).body) {} events globals := by
    rcases inOrder_cases run with ⟨-, passed⟩ | ⟨failed, -⟩
    · exact passed
    · cases failed
  have all := ((plan config).achieved (Achieved config) achieved_made achieved_kept
    (parts_nodup config) (fun part _ => fresh_start part) passed).1
  have crypto : globals.cryptoReady = true := all .crypto (by simp [parts])
  have root : globals.root = { ready := true } := all .root (by simp [parts])
  have button := all .button (by simp [parts])
  have own : (Call.gpioConfig (buttonGpioConfig config)).part = .button := rfl
  rw [Achieved, returned_own config own] at button
  refine ⟨crypto, root, button, port_run passed, ?_⟩
  intro normal
  rcases all .hidOpen (by simp [parts, transportParts, normal]) with
    ⟨core, message, tx, calm, generation, stored⟩
  rcases launch_run normal passed with ⟨middle, later, launched⟩
  rcases launched_seen launched with ⟨running, seen⟩
  have same : generation = usbUnmountGeneration globals.usb.port.bus := seen _ stored
  cases whole : globals.hid with
  | mk coreMutex messageWake txMutex begun service resetRequested =>
      rw [whole] at core message tx calm stored running
      dsimp only at core message tx calm stored running
      rw [core, message, tx, calm, stored, running, same]
      rfl

/-- A host is there before the generation is read. -/
theorem good_boot_is_ready : ∃ events globals,
    Execution (appMain normalConfig {}) events (true, globals) ∧ globals.root = { ready := true } ∧
    globals.usb = ⟨true, true, true, usbStarted.driven [.bus .attached]⟩ ∧
    globals.hid = ⟨true, true, true, true, some { seenUsbGeneration := 1 }, false⟩ := by
  have run : Execution (appMain normalConfig {}) ((appMain normalConfig {}).trace goodAnswer)
      (true, ((appMain normalConfig {}).value goodAnswer).2) :=
    execution_value goodAnswer (appMain normalConfig {})
  rcases boot_leaves_device_ready normalConfig run with ⟨-, root, -, usb, hid⟩
  have steps : driverSteps ((appMain normalConfig {}).trace goodAnswer) = [.bus .attached] := rfl
  rw [steps] at usb
  refine ⟨_, _, run, root, usb, ?_⟩
  rw [hid rfl, usb]
  rfl

end P4Key.Device.Boot
