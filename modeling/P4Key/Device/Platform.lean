import P4Key.Cred.Root
import P4Key.Crypto.Entropy
import P4Key.Crypto.IdealP256
import P4Key.Crypto.Sha
import P4Key.Device.Linked

/-! The commands linked with p4_crypto and p4_root.c.

What is left outside are PSA, the generator, the storage and the button. -/

namespace P4Key.Device.Platform

open Memory AddressSpace CallProgram

inductive Call where
  | psa (call : Crypto.Call)
  | hash (call : Crypto.Sha.Call)
  | random (call : Crypto.Entropy.Call)
  | nvs (call : Cred.Root.Call)
  | pressWait (cid : UInt32)
  | pressCancelled (cid : UInt32)
  deriving DecidableEq

@[reducible] def Reply : Call → Type
  | .psa call => Crypto.Reply call
  | .hash call => Crypto.Sha.Reply call
  | .random call => Crypto.Entropy.Reply call
  | .nvs call => Cred.Root.Reply call
  | .pressWait _ => Int
  | .pressCancelled _ => Bool

abbrev Foundation (α : Type) : Type := Program Call Reply α

/-- Where the arrays of a call lie: one behind the other from `base` on. -/
structure Frame where
  base : Nat
  memory : Space
  proper : 0 < base
  inside : base + 256 ≤ 0x100000000

def Frame.place (frame : Frame) (arrays : List UInt8) : Space := write frame.memory frame.base arrays

def readBytes (space : Space) (first size : Nat) : Bytes size :=
  ⟨read space ⟨first, size⟩, length_read _ _⟩

def psaCalls {α : Type} (program : Crypto.Psa α) : Foundation α :=
  program.interpret fun call => Program.perform (Call.psa call)

def hashCalls {α : Type} (program : Crypto.Sha.Hash α) : Foundation α :=
  program.interpret fun call => Program.perform (Call.hash call)

def randomCalls {α : Type} (program : Crypto.Entropy.Source α) : Foundation α :=
  program.interpret fun call => Program.perform (Call.random call)

def nvsCalls {α : Type} (program : Cred.Root.Storage α) : Foundation α :=
  program.interpret fun call => Program.perform (Call.nvs call)

section Bodies

variable (frame : Frame)

def sha256Sum (input : List UInt8) : Foundation (Int × Bytes 32) := do
  let out := frame.base + input.length
  let (error, left) ← hashCalls
    (Crypto.Sha.sha256Sum true (frame.place input) frame.base input.length out)
  pure (error, readBytes left out 32)

def p256Make : Foundation (Int × Ctap.KeyPair) := do
  let (x, y) := (frame.base + 32, frame.base + 64)
  let (error, left) ← psaCalls (Crypto.p256Make Crypto.esp32p4 true (frame.place []) frame.base x y)
  pure (error, ⟨readBytes left frame.base 32, readBytes left x 32, readBytes left y 32⟩)

def p256Pub (privateScalar : Bytes 32) : Foundation (Int × Bytes 32 × Bytes 32) := do
  let (x, y) := (frame.base + 32, frame.base + 64)
  let (error, left) ← psaCalls
    (Crypto.p256Pub Crypto.esp32p4 true (frame.place privateScalar.toList) frame.base x y)
  pure (error, readBytes left x 32, readBytes left y 32)

def p256SignHash (privateScalar digest : Bytes 32) : Foundation (Int × Ctap.Signature) := do
  let (hash, sig, sigLen) := (frame.base + 32, frame.base + 64, frame.base + 136)
  let (error, left) ← psaCalls
    (Crypto.p256SignHash Crypto.esp32p4 true (frame.place (privateScalar.toList ++ digest.toList))
      frame.base hash sig Crypto.p256DerMax sigLen)
  pure (error, ⟨readBytes left sig 72, Crypto.loadSize Crypto.esp32p4 left sigLen⟩)

def gcmSeal (key : Bytes 32) (nonce : Bytes 12) (aad : Bytes 24) (plain : Bytes 64) :
    Foundation (Int × Bytes 64 × Bytes 16) := do
  let (nonceAt, aadAt, plainAt) := (frame.base + 32, frame.base + 44, frame.base + 68)
  let (cipherAt, tagAt) := (frame.base + 132, frame.base + 196)
  let arrays := key.toList ++ (nonce.toList ++ (aad.toList ++ plain.toList))
  let (error, left) ← psaCalls (Crypto.gcmSeal Crypto.esp32p4 true (frame.place arrays)
    frame.base nonceAt aadAt 24 plainAt 64 cipherAt tagAt)
  pure (error, readBytes left cipherAt 64, readBytes left tagAt 16)

def gcmOpen (key : Bytes 32) (nonce : Bytes 12) (aad : Bytes 24) (cipher : Bytes 64)
    (tag : Bytes 16) : Foundation (Int × Bytes 64) := do
  let (nonceAt, aadAt, cipherAt) := (frame.base + 32, frame.base + 44, frame.base + 68)
  let (tagAt, plainAt) := (frame.base + 132, frame.base + 148)
  let arrays := key.toList ++ (nonce.toList ++ (aad.toList ++ (cipher.toList ++ tag.toList)))
  let (error, left) ← psaCalls (Crypto.gcmOpen Crypto.esp32p4 true (frame.place arrays)
    frame.base nonceAt aadAt 24 cipherAt 64 tagAt plainAt)
  pure (error, readBytes left plainAt 64)

def randFill : Foundation (Int × Bytes 12) := do
  let (error, out) ← randomCalls (Crypto.Entropy.randFill true (some (List.Vector.replicate 12 0)))
  pure (error, out.getD (List.Vector.replicate 12 0))

def rootLoad : Foundation (Int × Bytes 32) := do
  let loaded ← nvsCalls (Cred.Root.rootLoad { ready := true } (some Cred.Root.blankRoot))
  pure (loaded.code, loaded.root.getD Cred.Root.blankRoot)

def body : (call : Device.Call) → Foundation (Device.Reply call)
  | .sha256Sum input => sha256Sum frame input
  | .pressWait cid => Program.perform (Call.pressWait cid)
  | .pressCancelled cid => Program.perform (Call.pressCancelled cid)
  | .p256Make => p256Make frame
  | .p256SignHash privateScalar digest => p256SignHash frame privateScalar digest
  | .cred (.p256Pub privateScalar) => p256Pub frame privateScalar
  | .cred .randFill => randFill
  | .cred .rootLoad => rootLoad
  | .cred (.gcmSeal key nonce aad plain) => gcmSeal frame key nonce aad plain
  | .cred (.gcmOpen key nonce aad cipher tag) => gcmOpen frame key nonce aad cipher tag

@[irreducible] def platform {α : Type} (command : Ctap.Command α) : Foundation α := (link command).interpret (body frame)

end Bodies

/-! What the platform does. -/

structure State where
  psa : Crypto.Ideal.State := {}
  hash : Crypto.Sha.Operation := .inactive

structure State.Idle (state : State) : Prop where
  psa : state.psa.operation = none
  hash : state.hash = .inactive

def algorithms (outside : Outside) : Crypto.Ideal.Algorithms :=
  ⟨outside.publicKey, outside.verifies, outside.scheme⟩

def Stored (root : Bytes 32) : Event Cred.Root.Reply → Prop
  | ⟨.nvsOpen _, (error, _)⟩ => error = Cred.Root.espOk
  | ⟨.nvsGetBlob _, (error, blob, len)⟩ => error = Cred.Root.espOk ∧ blob = root ∧ len = 32
  | _ => True

def Fits : Crypto.Sha.Operation → Crypto.Sha.Call → Prop
  | .inactive, .psaHashSetup => True
  | .active _, .psaHashUpdate _ => True
  | .active _, .psaHashFinish size => size = Crypto.Sha.sha256Len
  | _, .psaHashAbort => True
  | _, _ => False

/-- A call that fits fails for no want of memory. The generator and the button are free. -/
inductive Step (outside : Outside) : State → Event Reply → State → Prop where
  | psa {state : State} {call : Crypto.Call} {reply : Crypto.Reply call} {after : Crypto.Ideal.State}
      (step : Crypto.Ideal.Step (algorithms outside) state.psa ⟨call, reply⟩ after) :
      Step outside state ⟨.psa call, reply⟩ { state with psa := after }
  | hash {state : State} {call : Crypto.Sha.Call} {reply : Crypto.Sha.Reply call}
      {after : Crypto.Sha.Operation}
      (step : Crypto.Sha.Step outside.hash state.hash ⟨call, reply⟩ after)
      (passed : Fits state.hash call → Crypto.Sha.Passed ⟨call, reply⟩) :
      Step outside state ⟨.hash call, reply⟩ { state with hash := after }
  | random {state : State} (call : Crypto.Entropy.Call) (reply : Crypto.Entropy.Reply call) :
      Step outside state ⟨.random call, reply⟩ state
  | nvs {state : State} {call : Cred.Root.Call} {reply : Cred.Root.Reply call}
      (stored : Stored outside.root ⟨call, reply⟩) : Step outside state ⟨.nvs call, reply⟩ state
  | pressWait {state : State} (cid : UInt32) (result : Int) :
      Step outside state ⟨.pressWait cid, result⟩ state
  | pressCancelled {state : State} (cid : UInt32) (cancelled : Bool) :
      Step outside state ⟨.pressCancelled cid, cancelled⟩ state

end P4Key.Device.Platform
