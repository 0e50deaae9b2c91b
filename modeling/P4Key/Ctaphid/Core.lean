import Mathlib.Data.Fintype.Basic
import P4Key.Ctaphid.Wire

/-! p4_ctaphid_priv.h and p4_ctaphid_chan.c. -/

namespace P4Key.Ctaphid

open Memory

inductive Phase where
  | idle
  | rx
  | processing
  deriving DecidableEq, Repr

/-- `p4_ctaphid_channel_t`. The two lengths are `uint16_t`. -/
structure Channel where
  cid : UInt32 := 0
  lastPacketMs : UInt32 := 0
  lastKeepaliveMs : UInt32 := 0
  generation : UInt32 := 0
  declaredLen : Nat := 0
  received : Nat := 0
  command : UInt8 := 0
  nextSequence : UInt8 := 0
  lastKeepaliveStatus : UInt8 := 0
  allocated : Bool := false
  partialActive : Bool := false
  cancel : Bool := false
  timeoutPending : Bool := false
  keepaliveSent : Bool := false
  deriving DecidableEq, Repr

def bufferCount : UInt8 := 2
def noBuffer : UInt8 := 0xff
def cidRetries : Nat := 16

def blank : Payload := List.Vector.replicate maxPayload 0

/-- `p4_ctaphid_core_t`. The C array has the buffers 0 and 1; that no other index is
used is a property of the reachable states. -/
structure Core where
  channels : Fin channelCount → Channel := fun _ => {}
  buffers : UInt8 → Payload := fun _ => blank
  control : Bytes 17 := List.Vector.replicate 17 0
  rxBuffer : UInt8 := 0
  completeBuffer : UInt8 := noBuffer
  completeLen : Nat := 0
  completeCid : UInt32 := 0
  completeGeneration : UInt32 := 0
  completeCommand : UInt8 := 0
  phase : Phase := .idle
  activeCid : UInt32 := 0
  activeCommand : UInt8 := 0
  messageReady : Bool := false
  queueFullCount : UInt32 := 0

/-- `p4_ctaphid_core_init`, and also what `p4_ctaphid_core_reset` leaves. -/
def coreInit : Core := {}

def Core.setChannel (core : Core) (i : Fin channelCount) (channel : Channel) : Core :=
  { core with channels := Function.update core.channels i channel }

def Core.setBuffer (core : Core) (index : UInt8) (payload : Payload) : Core :=
  { core with buffers := Function.update core.buffers index payload }

def Core.wipe (core : Core) (index : UInt8) : Core := core.setBuffer index blank

def coreReset (_ : Core) : Core := coreInit

def chanFind (core : Core) (cid : UInt32) : Option (Fin channelCount) :=
  if cid = 0 ∨ cid = broadcastCid then none
  else (List.finRange channelCount).find? fun i =>
    (core.channels i).allocated && (core.channels i).cid == cid

def freeChannel (core : Core) : Option (Fin channelCount) :=
  (List.finRange channelCount).find? fun i => !(core.channels i).allocated

/-- One call of the random source for each attempt: four bytes, or a failure. -/
abbrev Draws : Type := Nat → Option (Bytes 4)

inductive AllocateError where
  | full
  | random
  | cid
  deriving DecidableEq, Repr

/-- The loop of `p4_ctaphid_chan_allocate`, with the number of draws made. -/
def allocateLoop (core : Core) (free : Fin channelCount) (draws : Draws) :
    Nat → Nat → Except AllocateError UInt32 × Core × Nat
  | 0, attempt => (.error .cid, core, attempt)
  | attempts + 1, attempt =>
    match draws attempt with
    | none => (.error .random, core, attempt + 1)
    | some raw =>
      let candidate := loadU32 raw.toList
      if candidate = 0 ∨ candidate = broadcastCid ∨ (chanFind core candidate).isSome then
        allocateLoop core free draws attempts (attempt + 1)
      else (.ok candidate, core.setChannel free { cid := candidate, allocated := true }, attempt + 1)

def chanAllocate (core : Core) (draws : Draws) : Except AllocateError UInt32 × Core × Nat :=
  match freeChannel core with
  | none => (.error .full, core, 0)
  | some free => allocateLoop core free draws cidRetries 0

/-- The scrub that ends every hand-off: the buffer is wiped and the record cleared. -/
def releaseComplete (core : Core) : Core :=
  { core.wipe core.completeBuffer with
    messageReady := false
    completeBuffer := noBuffer
    completeCid := 0
    completeCommand := 0
    completeLen := 0
    completeGeneration := 0 }

/-- What `p4_ctaphid_core_take_message` stores through its output pointers. -/
structure Message where
  cid : UInt32
  command : UInt8
  data : List UInt8
  generation : UInt32
  deriving DecidableEq, Repr

inductive TakeError where
  | empty
  | small
  deriving DecidableEq, Repr

def coreTakeMessage (core : Core) (cap : Nat) : Except TakeError Message × Core :=
  if !core.messageReady ∨ core.completeBuffer ≥ bufferCount then (.error .empty, core)
  else if core.completeLen > cap then (.error .small, core)
  else
    (.ok ⟨core.completeCid, core.completeCommand,
        (core.buffers core.completeBuffer).toList.take core.completeLen, core.completeGeneration⟩,
      releaseComplete core)

def coreCancelled (core : Core) (cid generation : UInt32) : Bool :=
  if core.phase ≠ .processing ∨ core.activeCid ≠ cid then true
  else
    match chanFind core cid with
    | none => true
    | some i => (core.channels i).generation != generation || (core.channels i).cancel

def coreClearCancel (core : Core) (cid generation : UInt32) : Core :=
  if core.phase ≠ .processing ∨ core.activeCid ≠ cid then core
  else
    match chanFind core cid with
    | none => core
    | some i =>
      if (core.channels i).generation = generation then
        core.setChannel i { core.channels i with cancel := false }
      else core

end P4Key.Ctaphid
