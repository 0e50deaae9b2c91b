import P4Key.Crypto.Der
import P4Key.Crypto.Overlap
import P4Key.Crypto.Psa
import P4Key.Crypto.Scalar

/-! p4_crypto_p256.c.

As in the GCM functions, pointers are addresses in the memory of the caller and
the result is followed by the memory that is left. -/

namespace P4Key.Crypto

open Memory AddressSpace CallProgram

abbrev p256ScalarLen : Nat := 32
abbrev p256DerMax : Nat := 72
abbrev sha256Len : Nat := 32
abbrev p256Bits : Nat := 256
abbrev p256PublicLen : Nat := 65
abbrev p256RawSigLen : Nat := 64

def pairAttr (usage : KeyUsage) : KeyAttributes := ⟨.eccKeyPair, p256Bits, usage, .ecdsaSha256⟩

def publicAttr : KeyAttributes := ⟨.eccPublicKey, p256Bits, .verifyHash, .ecdsaSha256⟩

def pairImport (priv : List UInt8) (usage : KeyUsage) : Psa (Int × KeyId) :=
  call (.importKey (pairAttr usage) priv)

def publicImport (pub : List UInt8) : Psa (Int × KeyId) := call (.importKey publicAttr pub)

def keyError (status : Int) : Int :=
  if status = psaErrorInvalidArgument ∨ status = psaErrorDataInvalid then cryptoKey
  else fromPsa status

theorem keyError_ok (status : Int) : keyError status = cryptoOk ↔ status = psaSuccess := by
  rw [keyError]
  split
  · rename_i refused
    refine iff_of_false (by decide) fun success => ?_
    rw [success] at refused
    revert refused
    decide
  · exact fromPsa_ok status

theorem keyError_overlap (status : Int) : keyError status ≠ cryptoOverlap := by
  rw [keyError]
  split
  · decide
  · exact fromPsa_overlap status

def storeSize (target : Target) (memory : Space) (address value : Nat) : Space :=
  write memory address (storeBE target.sizeLen value).reverse

def loadSize (target : Target) (memory : Space) (address : Nat) : Nat :=
  loadBE (read memory ⟨address, target.sizeLen⟩).reverse

theorem loadSize_storeSize (target : Target) (memory : Space) (address : Nat) {value : Nat}
    (small : value < 256 ^ target.sizeLen) :
    loadSize target (storeSize target memory address value) address = value := by
  have whole := read_write memory address (storeBE target.sizeLen value).reverse
  rw [List.length_reverse, length_storeBE] at whole
  rw [loadSize, storeSize, whole, List.reverse_reverse, loadBE_storeBE _ _ small]

theorem storeSize_keeps {target : Target} {writes : List Range} (memory : Space) {address : Nat}
    (value : Nat) (listed : ⟨address, target.sizeLen⟩ ∈ writes) :
    Keeps writes memory (storeSize target memory address value) := by
  apply keeps_write memory listed
  rw [List.length_reverse, length_storeBE]

def publishPoint (memory : Space) (x y : Nat) (pub : Bytes p256PublicLen) : Space :=
  let memory := write memory x (slice pub.toList 1 p256ScalarLen)
  write memory y (slice pub.toList (1 + p256ScalarLen) p256ScalarLen)

theorem publishPoint_keeps {x y : Nat} {writes : List Range} (memory : Space)
    (pub : Bytes p256PublicLen) (first : ⟨x, p256ScalarLen⟩ ∈ writes)
    (second : ⟨y, p256ScalarLen⟩ ∈ writes) : Keeps writes memory (publishPoint memory x y pub) := by
  have short : ∀ offset, (slice pub.toList offset p256ScalarLen).length ≤ p256ScalarLen :=
    fun offset => List.length_take_le _ _
  exact (keeps_write memory first (short 1)).trans (keeps_write _ second (short _))

structure MakeAttempt where
  status : Int
  pairId : KeyId
  checkId : KeyId
  pairLive : Bool
  checkLive : Bool
  priv : Bytes p256ScalarLen
  pub : Bytes p256PublicLen

/-- `psa_generate_key` and the exports, with the two lengths. -/
def makeExport : Psa (MakeAttempt × Nat × Nat) := do
  let (status, pairId) ← call (.generateKey (pairAttr .export))
  let attempt : MakeAttempt :=
    { status, pairId, checkId := 0, pairLive := decide (status = psaSuccess), checkLive := false
      priv := List.Vector.replicate _ 0, pub := List.Vector.replicate _ 0 }
  if attempt.status = psaSuccess then
    let (status, priv, privateLen) ← call (.exportKey pairId p256ScalarLen)
    let attempt := { attempt with status, priv }
    if attempt.status = psaSuccess then
      let (status, pub, publicLen) ← call (.exportPublicKey pairId p256PublicLen)
      pure ({ attempt with status, pub }, privateLen, publicLen)
    else pure (attempt, privateLen, 0)
  else pure (attempt, 0, 0)

def makeWork : Psa MakeAttempt := do
  let (attempt, privateLen, publicLen) ← makeExport
  let malformed := privateLen ≠ p256ScalarLen ∨ publicLen ≠ p256PublicLen ∨
    attempt.pub.head ≠ 0x04 ∨ scalarValid attempt.priv.toList = false
  if attempt.status = psaSuccess ∧ malformed then
    pure { attempt with status := psaErrorCorruptionDetected }
  else if attempt.status = psaSuccess then do
    let (status, checkId) ← publicImport attempt.pub.toList
    pure { attempt with status, checkId, checkLive := decide (status = psaSuccess) }
  else pure attempt

structure PubAttempt where
  status : Int
  pairId : KeyId
  pairLive : Bool
  pub : Bytes p256PublicLen

def pubWork (priv : List UInt8) : Psa PubAttempt := do
  let (status, pairId) ← pairImport priv .none
  if status = psaSuccess then
    let (status, pub, publicLen) ← call (.exportPublicKey pairId p256PublicLen)
    let malformed := publicLen ≠ p256PublicLen ∨ pub.head ≠ 0x04
    if status = psaSuccess ∧ malformed then pure ⟨psaErrorCorruptionDetected, pairId, true, pub⟩
    else pure ⟨status, pairId, true, pub⟩
  else pure ⟨status, pairId, false, List.Vector.replicate _ 0⟩

structure SignAttempt where
  status : Int
  derStatus : Int
  pairId : KeyId
  pairLive : Bool
  der : Bytes p256DerMax
  derLen : Nat

def signWork (priv hash : List UInt8) : Psa SignAttempt := do
  let unset : Bytes p256DerMax := List.Vector.replicate _ 0
  let (status, pairId) ← pairImport priv .signHash
  if status = psaSuccess then
    let (status, raw, rawLen) ← call (.signHash pairId hash p256RawSigLen)
    if status = psaSuccess ∧ rawLen ≠ p256RawSigLen then
      pure ⟨psaErrorCorruptionDetected, 0, pairId, true, unset, 0⟩
    else if status = psaSuccess then
      let (derStatus, der, derLen) ← call (.rawToDer p256Bits (raw.toList.take rawLen) p256DerMax)
      if derStatus ≠ 0 ∨ derStrict der.toList derLen ≠ some true then
        pure ⟨psaErrorCorruptionDetected, derStatus, pairId, true, der, derLen⟩
      else pure ⟨status, derStatus, pairId, true, der, derLen⟩
    else pure ⟨status, 0, pairId, true, unset, 0⟩
  else pure ⟨status, 0, pairId, false, unset, 0⟩

/-- The signature as raw bytes, if mbedTLS reads it and writes the same DER back. -/
def verifyRaw (sig : List UInt8) : Psa (Option (List UInt8)) := do
  let (derStatus, raw, rawLen) ← call (.derToRaw p256Bits sig p256RawSigLen)
  if derStatus ≠ 0 then pure none
  else
    let (derStatus, canonical, canonicalLen) ←
      call (.rawToDer p256Bits (raw.toList.take rawLen) p256DerMax)
    if derStatus ≠ 0 ∨ rawLen ≠ p256RawSigLen ∨ canonicalLen ≠ sig.length ∨
        canonical.toList.take sig.length ≠ sig then
      pure none
    else pure (some (raw.toList.take rawLen))

def verifyWork (x y hash raw : List UInt8) : Psa (Int × KeyId × Bool) := do
  let (status, publicId) ← publicImport (0x04 :: (x ++ y))
  let publicLive := decide (status = psaSuccess)
  let status ← whenOk status (call (.verifyHash publicId hash raw))
  pure (status, publicId, publicLive)

def makeOverlap (target : Target) (priv x y : Nat) : Bool :=
  overlap target priv p256ScalarLen x p256ScalarLen ||
    overlap target priv p256ScalarLen y p256ScalarLen ||
    overlap target x p256ScalarLen y p256ScalarLen

def pubOverlap (target : Target) (priv x y : Nat) : Bool :=
  overlap target x p256ScalarLen priv p256ScalarLen ||
    overlap target y p256ScalarLen priv p256ScalarLen ||
    overlap target x p256ScalarLen y p256ScalarLen

/-- The pairs of ranges that `p256_sign_hash` compares before it clears `*sig_len`. -/
def signLenOverlap (target : Target) (priv hash sig sigLen : Nat) : Bool :=
  overlap target sigLen target.sizeLen priv p256ScalarLen ||
    overlap target sigLen target.sizeLen hash sha256Len ||
    overlap target sigLen target.sizeLen sig p256DerMax

def signOverlap (target : Target) (priv hash sig : Nat) : Bool :=
  overlap target sig p256DerMax priv p256ScalarLen ||
    overlap target sig p256DerMax hash sha256Len

section Functions

variable (target : Target) (ready : Bool) (memory : Space)

def p256Make (priv x y : Nat) : Psa (Int × Space) :=
  if priv = 0 ∨ x = 0 ∨ y = 0 then pure (cryptoBadArg, memory)
  else if makeOverlap target priv x y then pure (cryptoOverlap, memory)
  else if !ready then pure (cryptoState, memory)
  else do
    let memory := clear memory ⟨priv, p256ScalarLen⟩
    let memory := clear memory ⟨x, p256ScalarLen⟩
    let memory := clear memory ⟨y, p256ScalarLen⟩
    let attempt ← makeWork
    let status ← keyDrop attempt.checkId attempt.checkLive attempt.status
    let status ← keyDrop attempt.pairId attempt.pairLive status
    if status = psaSuccess then
      let memory := write memory priv attempt.priv.toList
      pure (cryptoOk, publishPoint memory x y attempt.pub)
    else pure (fromPsa status, memory)

def p256Pub (priv x y : Nat) : Psa (Int × Space) :=
  if priv = 0 ∨ x = 0 ∨ y = 0 then pure (cryptoBadArg, memory)
  else if pubOverlap target priv x y then pure (cryptoOverlap, memory)
  else if !ready then pure (cryptoState, memory)
  else if !scalarValid (read memory ⟨priv, p256ScalarLen⟩) then pure (cryptoKey, memory)
  else do
    let memory := clear memory ⟨x, p256ScalarLen⟩
    let memory := clear memory ⟨y, p256ScalarLen⟩
    let attempt ← pubWork (read memory ⟨priv, p256ScalarLen⟩)
    let status ← keyDrop attempt.pairId attempt.pairLive attempt.status
    if status = psaSuccess then pure (cryptoOk, publishPoint memory x y attempt.pub)
    else pure (keyError status, memory)

def p256SignHash (priv hash sig sigCap sigLen : Nat) : Psa (Int × Space) :=
  if sigLen = 0 then pure (cryptoBadArg, memory)
  else if priv = 0 ∨ hash = 0 ∨ sig = 0 then
    pure (cryptoBadArg, storeSize target memory sigLen 0)
  else if signLenOverlap target priv hash sig sigLen then pure (cryptoOverlap, memory)
  else
    let memory := storeSize target memory sigLen 0
    if sigCap < p256DerMax then pure (cryptoSmall, memory)
    else if signOverlap target priv hash sig then pure (cryptoOverlap, memory)
    else if !ready then pure (cryptoState, memory)
    else if !scalarValid (read memory ⟨priv, p256ScalarLen⟩) then pure (cryptoKey, memory)
    else do
      let attempt ← signWork (read memory ⟨priv, p256ScalarLen⟩) (read memory ⟨hash, sha256Len⟩)
      let status ← keyDrop attempt.pairId attempt.pairLive attempt.status
      if status = psaSuccess then
        let memory := write memory sig (attempt.der.toList.take attempt.derLen)
        pure (cryptoOk, storeSize target memory sigLen attempt.derLen)
      else if attempt.derStatus ≠ 0 then pure (cryptoDer, memory)
      else pure (fromPsa status, memory)

/-- `p256_verify_hash`, which writes nothing to its caller. -/
def p256VerifyHash (x y hash sig sigLen : Nat) : Psa (Int × Space) :=
  if x = 0 ∨ y = 0 ∨ hash = 0 ∨ (sig = 0 ∧ sigLen ≠ 0) then pure (cryptoBadArg, memory)
  else if !ready then pure (cryptoState, memory)
  else if derStrict (read memory ⟨sig, sigLen⟩) sigLen ≠ some true then pure (cryptoDer, memory)
  else do
    let raw ← verifyRaw (read memory ⟨sig, sigLen⟩)
    match raw with
    | none => pure (cryptoDer, memory)
    | some raw =>
      let (status, publicId, publicLive) ← verifyWork (read memory ⟨x, p256ScalarLen⟩)
        (read memory ⟨y, p256ScalarLen⟩) (read memory ⟨hash, sha256Len⟩) raw
      let status ← keyDrop publicId publicLive status
      if status ≠ psaSuccess then
        pure (if !publicLive then keyError status else fromPsa status, memory)
      else pure (cryptoOk, memory)

end Functions

end P4Key.Crypto
