import P4Key.Constants
import P4Key.Library.CallProgram
import P4Key.Ctap.Parse

/-! The functions that the two commands call, as calls of a program.

A reply holds the returned `int` and the bytes stored through the output
pointers, so a command sees any value that any of them could produce. -/

namespace P4Key.Ctap

open Memory CallProgram

inductive Call where
  | sha256Sum (input : List UInt8)
  | credOpen (rpHash : Bytes 32) (credentialId : List UInt8)
  | credWrap (rpHash privateScalar : Bytes 32)
  | pressWait (cid : UInt32)
  | pressCancelled (cid : UInt32)
  | p256Make
  | p256SignHash (privateScalar digest : Bytes 32)
  deriving DecidableEq

/-- What `p256_make` stores: the scalar and the two coordinates of the public point. -/
structure KeyPair where
  scalar : Bytes 32
  x : Bytes 32
  y : Bytes 32
  deriving DecidableEq

/-- What `p256_sign_hash` stores: the signature buffer and the length it reports. -/
structure Signature where
  bytes : Bytes 72
  len : Nat
  deriving DecidableEq

@[reducible] def Reply : Call → Type
  | .sha256Sum _ => Int × Bytes 32
  | .credOpen _ _ => Int × Bytes 32
  | .credWrap _ _ => Int × Bytes 100
  | .pressWait _ => Int
  | .pressCancelled _ => Bool
  | .p256Make => Int × KeyPair
  | .p256SignHash _ _ => Int × Signature

abbrev Command (α : Type) : Type := Program Call Reply α

def sha256Sum (input : List UInt8) : Command (Int × Bytes 32) := Program.perform (Call.sha256Sum input)

def credOpen (rpHash : Bytes 32) (credentialId : List UInt8) : Command (Int × Bytes 32) :=
  Program.perform (Call.credOpen rpHash credentialId)

def credWrap (rpHash privateScalar : Bytes 32) : Command (Int × Bytes 100) :=
  Program.perform (Call.credWrap rpHash privateScalar)

def pressWait (cid : UInt32) : Command Int := Program.perform (Call.pressWait cid)

def pressCancelled (cid : UInt32) : Command Bool := Program.perform (Call.pressCancelled cid)

def p256Make : Command (Int × KeyPair) := Program.perform Call.p256Make

def p256SignHash (privateScalar digest : Bytes 32) : Command (Int × Signature) :=
  Program.perform (Call.p256SignHash privateScalar digest)

inductive Error where
  | arg
  | small
  deriving DecidableEq, Repr

inductive Code where
  | error (error : Error)
  | ok
  | refused (refusal : Refusal)
  deriving DecidableEq, Repr

structure Outcome where
  code : Code
  response : List UInt8
  responseLen : Nat
  deriving DecidableEq, Repr

/-- The `out` label with a status other than `P4_CTAP_STATUS_OK`. -/
def Outcome.stop (refusal : Refusal) (response : List UInt8) : Outcome :=
  ⟨.refused refusal, response, 0⟩

/-- `presence_status`, which both commands define in the same words. -/
def presenceStatus (cid : UInt32) : Command (Except Refusal Unit) := do
  let result ← pressWait cid
  pure (if result = pressOk then .ok ()
    else if result = pressCancel then .error .keepaliveCancel
    else if result = pressTimeout then .error .userActionTimeout
    else .error .operationDenied)

end P4Key.Ctap
