import P4Key.Constants
import P4Key.Library.CallProgram
import P4Key.Library.Memory

/-! The functions that p4_cred.c calls, as calls of a program. -/

namespace P4Key.Cred

open Memory CallProgram

/-- Inputs are the arrays behind the pointers, with the lengths that the calls give them:
`rand_fill` is called for a nonce, and both GCM calls have 24 bytes of associated data and
64 bytes of plaintext. -/
inductive Call where
  | p256Pub (privateScalar : Bytes 32)
  | randFill
  | rootLoad
  | gcmSeal (key : Bytes 32) (nonce : Bytes 12) (aad : Bytes 24) (plain : Bytes 64)
  | gcmOpen (key : Bytes 32) (nonce : Bytes 12) (aad : Bytes 24) (cipher : Bytes 64)
      (tag : Bytes 16)
  deriving DecidableEq

@[reducible] def Reply : Call → Type
  | .p256Pub _ => Int × Bytes 32 × Bytes 32
  | .randFill => Int × Bytes 12
  | .rootLoad => Int × Bytes 32
  | .gcmSeal _ _ _ _ => Int × Bytes 64 × Bytes 16
  | .gcmOpen _ _ _ _ _ => Int × Bytes 64

abbrev Crypto (α : Type) : Type := Program Call Reply α

def p256Pub (privateScalar : Bytes 32) : Crypto (Int × Bytes 32 × Bytes 32) :=
  Program.perform (Call.p256Pub privateScalar)

def randFill : Crypto (Int × Bytes 12) := Program.perform Call.randFill

def rootLoad : Crypto (Int × Bytes 32) := Program.perform Call.rootLoad

def gcmSeal (key : Bytes 32) (nonce : Bytes 12) (aad : Bytes 24) (plain : Bytes 64) :
    Crypto (Int × Bytes 64 × Bytes 16) :=
  Program.perform (Call.gcmSeal key nonce aad plain)

def gcmOpen (key : Bytes 32) (nonce : Bytes 12) (aad : Bytes 24) (cipher : Bytes 64)
    (tag : Bytes 16) : Crypto (Int × Bytes 64) :=
  Program.perform (Call.gcmOpen key nonce aad cipher tag)

end P4Key.Cred
