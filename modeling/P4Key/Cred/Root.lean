import P4Key.Constants
import P4Key.Library.CrashProgram
import P4Key.Library.Memory

/-! p4_root.c, and the storage that it keeps the wrapping root in. -/

namespace P4Key.Cred.Root

open Memory CallProgram

abbrev rootLen : Nat := 32

def espOk : Int := 0
def espErrNvsNotFound : Int := 0x1102

/-- Every call is for the one namespace and key of the component. -/
inductive Call where
  | nvsFlashInit
  | nvsOpen (readWrite : Bool)
  | nvsGetBlob (handle : UInt32)
  | nvsSetBlob (handle : UInt32) (root : Bytes rootLen)
  | nvsCommit (handle : UInt32)
  | nvsClose (handle : UInt32)
  | randFill
  deriving DecidableEq

/-- `nvs_open` stores a handle, and `nvs_get_blob` the bytes and the length that it found. -/
@[reducible] def Reply : Call → Type
  | .nvsFlashInit => Int
  | .nvsOpen _ => Int × UInt32
  | .nvsGetBlob _ => Int × Bytes rootLen × Nat
  | .nvsSetBlob _ _ => Int
  | .nvsCommit _ => Int
  | .nvsClose _ => Unit
  | .randFill => Int × Bytes rootLen

abbrev Storage (α : Type) : Type := Program Call Reply α

def nvsFlashInit : Storage Int := Program.perform Call.nvsFlashInit

def nvsOpen (readWrite : Bool) : Storage (Int × UInt32) := Program.perform (Call.nvsOpen readWrite)

def nvsGetBlob (handle : UInt32) : Storage (Int × Bytes rootLen × Nat) :=
  Program.perform (Call.nvsGetBlob handle)

def nvsSetBlob (handle : UInt32) (root : Bytes rootLen) : Storage Int :=
  Program.perform (Call.nvsSetBlob handle root)

def nvsCommit (handle : UInt32) : Storage Int := Program.perform (Call.nvsCommit handle)

def nvsClose (handle : UInt32) : Storage Unit := Program.perform (Call.nvsClose handle)

def randFill : Storage (Int × Bytes rootLen) := Program.perform Call.randFill

structure Flags where
  ready : Bool := false
  failed : Bool := false
  deriving DecidableEq, Repr

def closeHandle (handle : UInt32) : Storage Unit :=
  if handle ≠ 0 then nvsClose handle else pure ()

def rootFail (flags : Flags) (handle : UInt32) : Storage (Int × Flags) := do
  closeHandle handle
  pure (credErrRoot, { flags with failed := true })

/-- The end of `p4_cred_init` on a root that is stored. -/
def rootReady (flags : Flags) (handle : UInt32) : Storage (Int × Flags) := do
  nvsClose handle
  pure (credOk, { flags with ready := true })

/-- The branch of `p4_cred_init` that makes a root, when none is stored. -/
def makeRoot (flags : Flags) (handle : UInt32) : Storage (Int × Flags) := do
  let (randError, root) ← randFill
  if randError ≠ cryptoOk then rootFail flags handle
  else
    let setError ← nvsSetBlob handle root
    if setError ≠ espOk then rootFail flags handle
    else
      let commitError ← nvsCommit handle
      if commitError ≠ espOk then rootFail flags handle
      else rootReady flags handle

def credInit (flags : Flags) : Storage (Int × Flags) :=
  if flags.failed then pure (credErrRoot, flags)
  else if flags.ready then pure (credOk, flags)
  else do
    let initError ← nvsFlashInit
    if initError ≠ espOk then rootFail flags 0
    else
      let (openError, handle) ← nvsOpen true
      if openError ≠ espOk then rootFail flags handle
      else
        let (getError, _, storedLen) ← nvsGetBlob handle
        if getError = espErrNvsNotFound then makeRoot flags handle
        else if getError ≠ espOk ∨ storedLen ≠ rootLen then rootFail flags handle
        else rootReady flags handle

structure Loaded where
  code : Int
  root : Option (Bytes rootLen)
  flags : Flags

def blankRoot : Bytes rootLen := List.Vector.replicate rootLen 0

/-- The end of `p4_root_load`, when the root was read or was not. -/
def rootRead (flags : Flags) (handle : UInt32) (stored : Option (Bytes rootLen)) : Storage Loaded := do
  closeHandle handle
  match stored with
  | some root => pure ⟨credOk, some root, flags⟩
  | none => pure ⟨credErrRoot, some blankRoot, { ready := false, failed := true }⟩

/-- `p4_root_load`; `none` is a NULL output. -/
def rootLoad (flags : Flags) (root : Option (Bytes rootLen)) : Storage Loaded :=
  match root with
  | none => pure ⟨credErrArg, none, flags⟩
  | some _ =>
    if !flags.ready ∨ flags.failed then pure ⟨credErrRoot, some blankRoot, flags⟩
    else do
      let (openError, handle) ← nvsOpen false
      if openError ≠ espOk then rootRead flags handle none
      else
        let (getError, stored, storedLen) ← nvsGetBlob handle
        rootRead flags handle (if getError = espOk ∧ storedLen = rootLen then some stored else none)

/-! The storage. -/

/-- One blob. `pending` was set and not yet committed: it may be lost, or found stored. -/
structure Nvs where
  durable : Option (List UInt8) := none
  pending : Option (List UInt8) := none
  deriving DecidableEq, Repr

def Nvs.Shows (nvs : Nvs) (blob : List UInt8) : Prop :=
  nvs.durable = some blob ∨ nvs.pending = some blob

/-- Every call may fail. Only a commit that succeeds makes sure, and `ESP_ERR_NVS_NOT_FOUND`
means that no blob is stored. -/
inductive Answers (nvs : Nvs) : CallProgram.Event Reply → Nvs → Prop where
  | flashInit (error : Int) : Answers nvs ⟨.nvsFlashInit, error⟩ nvs
  | opened (readWrite : Bool) (error : Int) (handle : UInt32) :
      Answers nvs ⟨.nvsOpen readWrite, (error, handle)⟩ nvs
  | found (handle : UInt32) (blob : List UInt8) (shown : nvs.Shows blob) (root : Bytes rootLen)
      (copied : root.toList.take blob.length = blob) :
      Answers nvs ⟨.nvsGetBlob handle, (espOk, root, blob.length)⟩ nvs
  | notFound (handle : UInt32) (absent : nvs.durable = none) (root : Bytes rootLen) (len : Nat) :
      Answers nvs ⟨.nvsGetBlob handle, (espErrNvsNotFound, root, len)⟩ nvs
  | getFailed (handle : UInt32) (error : Int) (bad : error ≠ espOk) (other : error ≠ espErrNvsNotFound)
      (root : Bytes rootLen) (len : Nat) :
      Answers nvs ⟨.nvsGetBlob handle, (error, root, len)⟩ nvs
  | set (handle : UInt32) (root : Bytes rootLen) (error : Int) :
      Answers nvs ⟨.nvsSetBlob handle root, error⟩ { nvs with pending := some root.toList }
  | committed (handle : UInt32) :
      Answers nvs ⟨.nvsCommit handle, espOk⟩ { durable := nvs.pending.or nvs.durable, pending := none }
  | commitFailed (handle : UInt32) (error : Int) (bad : error ≠ espOk) :
      Answers nvs ⟨.nvsCommit handle, error⟩ nvs
  | closed (handle : UInt32) : Answers nvs ⟨.nvsClose handle, ()⟩ nvs
  | random (error : Int) (root : Bytes rootLen) : Answers nvs ⟨.randFill, (error, root)⟩ nvs

inductive Settles (nvs : Nvs) : Nvs → Prop where
  | lost : Settles nvs { durable := nvs.durable, pending := none }
  | stored (blob : List UInt8) (pending : nvs.pending = some blob) :
      Settles nvs { durable := some blob, pending := none }

/-! Boots. -/

structure State where
  nvs : Nvs
  flags : Flags := {}

inductive Event where
  | initialised (calls : List (CallProgram.Event Reply)) (code : Int)
  | loaded (out : Option (Bytes rootLen)) (calls : List (CallProgram.Event Reply)) (code : Int)
      (root : Option (Bytes rootLen))
  /-- The calls are those of the operation that was cut off. -/
  | rebooted (calls : List (CallProgram.Event Reply))

inductive Step (state : State) : Event → State → Prop where
  | initialised (calls : List (CallProgram.Event Reply)) (code : Int) (flags : Flags) (nvs : Nvs)
      (run : Execution (credInit state.flags) calls (code, flags))
      (answered : Runs.Run Answers state.nvs calls nvs) :
      Step state (.initialised calls code) ⟨nvs, flags⟩
  | loaded (out : Option (Bytes rootLen)) (calls : List (CallProgram.Event Reply)) (result : Loaded)
      (nvs : Nvs) (run : Execution (rootLoad state.flags out) calls result)
      (answered : Runs.Run Answers state.nvs calls nvs) :
      Step state (.loaded out calls result.code result.root) ⟨nvs, result.flags⟩
  | rebooted (nvs : Nvs) (settles : Settles state.nvs nvs) : Step state (.rebooted []) ⟨nvs, {}⟩
  | initialisationCut (calls rest : List (CallProgram.Event Reply)) (result : Int × Flags)
      (nvs next : Nvs) (run : Execution (credInit state.flags) (calls ++ rest) result)
      (answered : Runs.Run Answers state.nvs calls nvs) (settles : Settles nvs next) :
      Step state (.rebooted calls) ⟨next, {}⟩
  | loadCut (out : Option (Bytes rootLen)) (calls rest : List (CallProgram.Event Reply))
      (result : Loaded) (nvs next : Nvs)
      (run : Execution (rootLoad state.flags out) (calls ++ rest) result)
      (answered : Runs.Run Answers state.nvs calls nvs) (settles : Settles nvs next) :
      Step state (.rebooted calls) ⟨next, {}⟩

/-- The device has just booted, whatever it has stored. -/
abbrev History (stored : Option (List UInt8)) : List Event → State → Prop :=
  Runs.Run Step ⟨{ durable := stored }, {}⟩

end P4Key.Cred.Root
