import P4Key.Cred.Root
import P4Key.Crypto.Entropy
import P4Key.Hid.System
import P4Key.Library.Stages
import P4Key.Usb.Port

/-! app_main.c, and what it calls in p4_board.c, p4_usb.c and p4_ctaphid.c to start the device.

The known answer tests, the reboot test and the log are calls; p4_state.c only logs, and may fail
at the size of the flash. -/

namespace P4Key.Device.Boot

open Memory CallProgram P4Key.Crypto P4Key.Cred P4Key.Usb P4Key.Hid

structure Config where
  cryptoSelftest : Bool
  credRebootTest : Bool
  usbBringup : Bool
  buttonGpio : Int
  buttonActiveLow : Bool
  deriving DecidableEq, Repr

inductive Semaphore where
  | coreMutex
  | messageWake
  | hidTxMutex
  | rxWake
  | txWake
  | usbTxMutex
  deriving DecidableEq, Repr

inductive TaskName where
  | ctaphid
  | ctapStub
  | usbBringup
  deriving DecidableEq, Repr

structure GpioConfig where
  pinBitMask : UInt64
  pullUp : Bool
  pullDown : Bool
  deriving DecidableEq, Repr

inductive Call where
  | espFlashGetSize
  | entropy (call : Entropy.Call)
  | cryptoSelftestRun
  | nvs (call : Root.Call)
  | credRebootTestRun
  | gpioConfig (config : GpioConfig)
  | gpioGetLevel (gpio : Int)
  | semaphoreCreate (semaphore : Semaphore)
  | gpioSetDriveCapability (gpio strength : Nat)
  | usbWrapPhySelect (index : Nat)
  | tinyusbDriverInstall
  | usbUnmountGeneration
  | taskCreate (task : TaskName)
  deriving DecidableEq

/-- `true` is a handle, `false` is NULL. From its install on the driver runs beside `app_main`: two
calls come with what it has done to the port when they return. -/
@[reducible] def Reply : Call → Type
  | .espFlashGetSize => Int
  | .entropy call => Entropy.Reply call
  | .cryptoSelftestRun => Int
  | .nvs call => Root.Reply call
  | .credRebootTestRun => Int
  | .gpioConfig _ => Int
  | .gpioGetLevel _ => Int
  | .semaphoreCreate _ => Bool
  | .gpioSetDriveCapability _ _ => Int
  | .usbWrapPhySelect _ => Unit
  | .tinyusbDriverInstall => Int × List DriverStep
  | .usbUnmountGeneration => List DriverStep
  | .taskCreate _ => Bool

abbrev Startup (α : Type) : Type := Program Call Reply α

def call (c : Call) : Startup (Reply c) := Program.perform c

/-- The handles of p4_usb.c, and what `s_lock` guards, as `app_main` last wrote or read it. -/
structure UsbVars where
  rxWake : Bool := false
  txWake : Bool := false
  txMutex : Bool := false
  port : Port := { started := false }

/-- The handles of p4_ctaphid.c, and what `s_core_mutex` guards once `hid_start` has set it. -/
structure HidVars where
  coreMutex : Bool := false
  messageWake : Bool := false
  txMutex : Bool := false
  started : Bool := false
  service : Option Service := none
  resetRequested : Bool := false

structure Globals where
  cryptoReady : Bool := false
  root : Root.Flags := {}
  buttonReady : Bool := false
  usb : UsbVars := {}
  hid : HidVars := {}

abbrev espOk : Int := Root.espOk
def espErrNotSupported : Int := 0x106

/-! p4_crypto.c and p4_root.c. -/

def entropyBody (c : Entropy.Call) : Startup (Entropy.Reply c) := call (.entropy c)

def cryptoInit (globals : Globals) : Startup (Int × Globals) := do
  let (code, ready) ← (Entropy.cryptoInit globals.cryptoReady).interpret entropyBody
  pure (code, { globals with cryptoReady := ready })

def rootBody (cryptoReady : Bool) : (c : Root.Call) → Startup (Root.Reply c)
  | .randFill => do
    let (code, root) ← (Entropy.randFill cryptoReady (some Root.blankRoot)).interpret entropyBody
    pure (code, root.getD Root.blankRoot)
  | .nvsFlashInit => call (.nvs .nvsFlashInit)
  | .nvsOpen readWrite => call (.nvs (.nvsOpen readWrite))
  | .nvsGetBlob handle => call (.nvs (.nvsGetBlob handle))
  | .nvsSetBlob handle root => call (.nvs (.nvsSetBlob handle root))
  | .nvsCommit handle => call (.nvs (.nvsCommit handle))
  | .nvsClose handle => call (.nvs (.nvsClose handle))

def credInit (globals : Globals) : Startup (Int × Globals) := do
  let (code, flags) ← (Root.credInit globals.root).interpret (rootBody globals.cryptoReady)
  pure (code, { globals with root := flags })

/-! p4_board.c. -/

def buttonConfigured (gpio : Int) : Bool := 0 ≤ gpio

def buttonGpioConfig (config : Config) : GpioConfig :=
  { pinBitMask := 1 <<< UInt64.ofNat config.buttonGpio.toNat
    pullUp := config.buttonActiveLow
    pullDown := !config.buttonActiveLow }

def boardInit (config : Config) (globals : Globals) : Startup (Int × Globals) :=
  let globals := { globals with buttonReady := false }
  if !buttonConfigured config.buttonGpio then pure (espErrNotSupported, globals)
  else do
    let error ← call (.gpioConfig (buttonGpioConfig config))
    if error = espOk then pure (error, { globals with buttonReady := true })
    else pure (error, globals)

def boardButtonRaw (config : Config) (globals : Globals) : Startup Int :=
  if !globals.buttonReady then pure (-1) else call (.gpioGetLevel config.buttonGpio)

def usbDmGpio : Nat := 24
def usbDpGpio : Nat := 25
def driveCap3 : Nat := 3
def usbFsPhyIndex : Nat := 0

def boardUsbPrepare : Startup Int := do
  let error ← call (.gpioSetDriveCapability usbDmGpio driveCap3)
  if error ≠ espOk then pure error
  else
    let error ← call (.gpioSetDriveCapability usbDpGpio driveCap3)
    if error ≠ espOk then pure error
    else
      call (.usbWrapPhySelect usbFsPhyIndex)
      pure espOk

/-! p4_usb.c. -/

def UsbVars.stopped (usb : UsbVars) : UsbVars := { usb with port := { usb.port with started := false } }

def UsbVars.driven (usb : UsbVars) (steps : List DriverStep) : UsbVars :=
  { usb with port := usb.port.driven steps }

/-- `usb_start` up to the creation of its semaphores. All three are created before any is checked. -/
def usbOpen (globals : Globals) : Startup (UsbResult × Globals) :=
  if globals.usb.port.started then pure (.state, globals)
  else do
    let rxWake ← call (.semaphoreCreate .rxWake)
    let txWake ← call (.semaphoreCreate .txWake)
    let txMutex ← call (.semaphoreCreate .usbTxMutex)
    let usb : UsbVars := { rxWake := rxWake, txWake := txWake, txMutex := txMutex, port := usbStarted }
    if !rxWake || !txWake || !txMutex then pure (.state, { globals with usb := usb.stopped })
    else pure (.ok, { globals with usb := usb })

def usbRoute (globals : Globals) : Startup (UsbResult × Globals) := do
  let error ← boardUsbPrepare
  if error ≠ espOk then pure (.driver, { globals with usb := globals.usb.stopped })
  else pure (.ok, globals)

def usbInstall (globals : Globals) : Startup (UsbResult × Globals) := do
  let (error, steps) ← call .tinyusbDriverInstall
  let usb := globals.usb.driven steps
  if error ≠ espOk then pure (.driver, { globals with usb := usb.stopped })
  else pure (.ok, { globals with usb := usb })

def usbStart (globals : Globals) : Startup (UsbResult × Globals) := do
  let (error, globals) ← usbOpen globals
  if error ≠ .ok then pure (error, globals)
  else
    let (error, globals) ← usbRoute globals
    if error ≠ .ok then pure (error, globals)
    else usbInstall globals

/-! p4_ctaphid.c. -/

def hidOpen (globals : Globals) : Startup (HidResult × Globals) :=
  if globals.hid.started then pure (.state, globals)
  else do
    let coreMutex ← call (.semaphoreCreate .coreMutex)
    let messageWake ← call (.semaphoreCreate .messageWake)
    let txMutex ← call (.semaphoreCreate .hidTxMutex)
    let hid : HidVars :=
      { globals.hid with coreMutex := coreMutex, messageWake := messageWake, txMutex := txMutex }
    if !coreMutex || !messageWake || !txMutex then pure (.state, { globals with hid := hid })
    else
      let service : Service := { seenUsbGeneration := 0 }
      pure (.ok, { globals with hid := { hid with service := some service, resetRequested := false } })

/-- `hid_start` behind its call of `usb_start`. What happens to the port behind its read of the
generation happens to the running device. -/
def hidLaunch (globals : Globals) : Startup (HidResult × Globals) := do
  let steps ← call .usbUnmountGeneration
  let usb := globals.usb.driven steps
  let generation := usbUnmountGeneration usb.port.bus
  let service := globals.hid.service.map fun service => { service with seenUsbGeneration := generation }
  let hid : HidVars := { globals.hid with service := service, started := true }
  let created ← call (.taskCreate .ctaphid)
  if !created then pure (.state, { globals with usb := usb, hid := { hid with started := false } })
  else pure (.ok, { globals with usb := usb, hid := hid })

def hidStart (globals : Globals) : Startup (HidResult × Globals) := do
  let (error, globals) ← hidOpen globals
  if error ≠ .ok then pure (error, globals)
  else
    let (error, globals) ← usbStart globals
    if error ≠ .ok then pure (mapUsbError error, globals)
    else hidLaunch globals

/-! app_main.c. -/

/-- The transport of the firmware: the USB bringup exchange, or CTAPHID with its worker. -/
def startTransport (config : Config) (globals : Globals) : Startup (Bool × Globals) :=
  if config.usbBringup then do
    let (error, globals) ← usbStart globals
    if error ≠ .ok then pure (false, globals)
    else
      let created ← call (.taskCreate .usbBringup)
      if !created then pure (false, globals) else pure (true, globals)
  else do
    let (error, globals) ← hidStart globals
    if error ≠ .ok then pure (false, globals)
    else
      let created ← call (.taskCreate .ctapStub)
      if !created then pure (false, globals) else pure (true, globals)

def startDevice (config : Config) (globals : Globals) : Startup (Bool × Globals) := do
  let rebootError ← if config.credRebootTest then call .credRebootTestRun else pure 0
  if rebootError ≠ 0 then pure (false, globals)
  else
    let (_, globals) ← boardInit config globals
    let _ ← boardButtonRaw config globals
    startTransport config globals

/-- `app_main`, and whether it comes to its last loop. -/
def appMain (config : Config) (globals : Globals) : Startup (Bool × Globals) := do
  let stateError ← call .espFlashGetSize
  -- `ESP_ERROR_CHECK` does not return.
  if stateError ≠ espOk then pure (false, globals)
  else
    let (cryptoError, globals) ← cryptoInit globals
    if cryptoError ≠ cryptoOk then pure (false, globals)
    else
      let selftestError ← if config.cryptoSelftest then call .cryptoSelftestRun else pure 0
      if selftestError ≠ 0 then pure (false, globals)
      else
        let (credError, globals) ← credInit globals
        if credError ≠ credOk then pure (false, globals)
        else startDevice config globals

end P4Key.Device.Boot
