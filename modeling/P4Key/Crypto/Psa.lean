import P4Key.Constants
import P4Key.Library.AddressSpace
import P4Key.Library.CallProgram

/-! The PSA and mbedTLS functions that p4_crypto_gcm.c and p4_crypto_p256.c call.

A reply holds the status and whatever the call left in its output buffers, so a
failed call may have filled them in part. `psa_aead_operation_t` belongs to PSA
and is not modelled. -/

namespace P4Key.Crypto

open Memory AddressSpace CallProgram

def cryptoBadArg : Int := -1
def cryptoSmall : Int := -2
def cryptoDer : Int := -5
def cryptoState : Int := -6
def cryptoOverlap : Int := -7
def cryptoNotSupported : Int := -8
def cryptoLib : Int := -9

def psaSuccess : Int := 0
def psaErrorNotSupported : Int := -134
def psaErrorInvalidArgument : Int := -135
def psaErrorInvalidHandle : Int := -136
def psaErrorBadState : Int := -137
def psaErrorBufferTooSmall : Int := -138
def psaErrorInvalidSignature : Int := -149
def psaErrorCorruptionDetected : Int := -151
def psaErrorDataInvalid : Int := -153

theorem corruption_fails : psaErrorCorruptionDetected ≠ psaSuccess := by decide

theorem corruption_absurd {goal : Prop} (success : psaErrorCorruptionDetected = psaSuccess) : goal :=
  absurd success corruption_fails

abbrev KeyId : Type := Nat

inductive KeyType where
  | aes
  | eccKeyPair
  | eccPublicKey
  deriving DecidableEq, Repr

inductive KeyUsage where
  | none
  | encrypt
  | decrypt
  | export
  | signHash
  | verifyHash
  deriving DecidableEq, Repr

inductive Algorithm where
  | gcm
  | ecdsaSha256
  deriving DecidableEq, Repr

structure KeyAttributes where
  type : KeyType
  bits : Nat
  usage : KeyUsage
  algorithm : Algorithm
  deriving DecidableEq, Repr

/-- Inputs are the bytes behind the pointers. An output buffer is named by its size. -/
inductive Call where
  | importKey (attributes : KeyAttributes) (data : List UInt8)
  | generateKey (attributes : KeyAttributes)
  | destroyKey (key : KeyId)
  | exportKey (key : KeyId) (size : Nat)
  | exportPublicKey (key : KeyId) (size : Nat)
  | signHash (key : KeyId) (hash : List UInt8) (size : Nat)
  | verifyHash (key : KeyId) (hash signature : List UInt8)
  | aeadEncryptSetup (key : KeyId)
  | aeadDecryptSetup (key : KeyId)
  | aeadSetNonce (nonce : List UInt8)
  | aeadSetLengths (aadLen plainLen : Nat)
  | aeadUpdateAd (aad : List UInt8)
  | aeadUpdate (input : List UInt8) (size : Nat)
  | aeadFinish (size tagSize : Nat)
  | aeadVerify (size : Nat) (tag : List UInt8)
  | aeadAbort
  | rawToDer (bits : Nat) (raw : List UInt8) (size : Nat)
  | derToRaw (bits : Nat) (der : List UInt8) (size : Nat)
  deriving DecidableEq

/-- The status, then each output buffer with the length that was reported for it. -/
@[reducible] def Reply : Call → Type
  | .importKey _ _ => Int × KeyId
  | .generateKey _ => Int × KeyId
  | .exportKey _ size => Int × Bytes size × Nat
  | .exportPublicKey _ size => Int × Bytes size × Nat
  | .signHash _ _ size => Int × Bytes size × Nat
  | .aeadUpdate _ size => Int × Bytes size × Nat
  | .aeadFinish size tagSize => Int × (Bytes size × Nat) × Bytes tagSize × Nat
  | .aeadVerify size _ => Int × Bytes size × Nat
  | .rawToDer _ _ size => Int × Bytes size × Nat
  | .derToRaw _ _ size => Int × Bytes size × Nat
  | _ => Int

abbrev Psa (α : Type) : Type := Program Call Reply α

def call (c : Call) : Psa (Reply c) := Program.perform c

def fromPsa (status : Int) : Int :=
  if status = psaSuccess then cryptoOk
  else if status = psaErrorInvalidArgument then cryptoBadArg
  else if status = psaErrorBufferTooSmall then cryptoSmall
  else if status = psaErrorInvalidSignature then cryptoAuth
  else if status = psaErrorInvalidHandle ∨ status = psaErrorBadState then cryptoState
  else if status = psaErrorNotSupported then cryptoNotSupported
  else cryptoLib

/-- `p4_crypto_key_drop`, with the status it leaves. -/
def keyDrop (key : KeyId) (live : Bool) (status : Int) : Psa Int :=
  if live then do
    let cleanup ← call (.destroyKey key)
    if cleanup = psaSuccess then pure status
    else
      let retry ← call (.destroyKey key)
      pure (if status = psaSuccess ∨ retry ≠ psaSuccess then cleanup else status)
  else pure status

def whenOk (status : Int) (next : Psa Int) : Psa Int :=
  if status = psaSuccess then next else pure status

theorem fromPsa_ok (status : Int) : fromPsa status = cryptoOk ↔ status = psaSuccess := by
  rw [fromPsa]
  split
  · exact iff_of_true rfl ‹_›
  · refine iff_of_false ?_ ‹_›
    repeat' split
    all_goals decide

theorem fromPsa_overlap (status : Int) : fromPsa status ≠ cryptoOverlap := by
  rw [fromPsa]
  repeat' split
  all_goals decide

/-! The keys in a list of calls. -/

def creates : Event Reply → Option KeyId
  | ⟨.importKey _ _, reply⟩ => if reply.1 = psaSuccess then some reply.2 else none
  | ⟨.generateKey _, reply⟩ => if reply.1 = psaSuccess then some reply.2 else none
  | _ => none

def destroys : Event Reply → Option (KeyId × Int)
  | ⟨.destroyKey key, reply⟩ => some (key, reply)
  | _ => none

def created (events : List (Event Reply)) : List KeyId := events.filterMap creates

def attempts (key : KeyId) (events : List (Event Reply)) : List Int :=
  (events.filterMap destroys).filterMap fun attempt =>
    if attempt.1 = key then some attempt.2 else none

@[simp] theorem created_append (first second : List (Event Reply)) :
    created (first ++ second) = created first ++ created second := List.filterMap_append

@[simp] theorem attempts_append (key : KeyId) (first second : List (Event Reply)) :
    attempts key (first ++ second) = attempts key first ++ attempts key second := by
  simp only [attempts, List.filterMap_append]

end P4Key.Crypto
