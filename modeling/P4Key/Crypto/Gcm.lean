import P4Key.Crypto.Overlap
import P4Key.Crypto.Psa

/-! p4_crypto_gcm.c.

Pointers are addresses in the memory of the caller, and zero is NULL. Both
functions end in the result and the memory they leave; `ready` is what
`p4_crypto_ready` returns. -/

namespace P4Key.Crypto

open Memory AddressSpace CallProgram

abbrev aes256KeyLen : Nat := 32
abbrev gcmNonceLen : Nat := 12
abbrev gcmTagLen : Nat := 16

def keyAdd (memory : Space) (key : Nat) (usage : KeyUsage) : Psa (Int × KeyId) :=
  call (.importKey ⟨.aes, 256, usage, .gcm⟩ (read memory ⟨key, aes256KeyLen⟩))

structure Attempt where
  status : Int
  keyId : KeyId
  keyLive : Bool
  memory : Space

def aeadAd (status : Int) (memory : Space) (aad aadLen : Nat) : Psa Int :=
  if aadLen ≠ 0 then whenOk status (call (.aeadUpdateAd (read memory ⟨aad, aadLen⟩)))
  else pure status

/-- From `key_add` to `psa_aead_update_ad`, the same in both functions. -/
def aeadBegin (usage : KeyUsage) (setup : KeyId → Psa Int) (memory : Space)
    (key nonce aad aadLen inputLen : Nat) : Psa (Int × KeyId × Bool) := do
  let (status, keyId) ← keyAdd memory key usage
  let keyLive := decide (status = psaSuccess)
  let status ← whenOk status (setup keyId)
  let status ← whenOk status (call (.aeadSetNonce (read memory ⟨nonce, gcmNonceLen⟩)))
  let status ← whenOk status (call (.aeadSetLengths aadLen inputLen))
  let status ← aeadAd status memory aad aadLen
  pure (status, keyId, keyLive)

def aeadBody (status : Int) (memory : Space) (input inputLen output : Nat) :
    Psa (Int × Space × Nat) :=
  if status = psaSuccess ∧ inputLen ≠ 0 then do
    let (status, body, bodyLen) ← call (.aeadUpdate (read memory ⟨input, inputLen⟩) inputLen)
    pure (status, write memory output body.toList, bodyLen)
  else pure (status, memory, 0)

def sealFinish (status : Int) (memory : Space) (bodyLen plainLen tag : Nat) : Psa (Int × Space) :=
  if status = psaSuccess ∧ bodyLen = plainLen then do
    let (status, (_, tailLen), tagBytes, tagLen) ← call (.aeadFinish gcmTagLen gcmTagLen)
    let memory := write memory tag tagBytes.toList
    if status = psaSuccess ∧ (tailLen ≠ 0 ∨ tagLen ≠ gcmTagLen) then
      pure (psaErrorCorruptionDetected, memory)
    else pure (status, memory)
  else if status = psaSuccess then pure (psaErrorCorruptionDetected, memory)
  else pure (status, memory)

def openVerify (status : Int) (memory : Space) (bodyLen cipherLen tag : Nat) : Psa (Int × Space) :=
  if status = psaSuccess ∧ bodyLen = cipherLen then do
    let (status, _, tailLen) ←
      call (.aeadVerify gcmTagLen (read memory ⟨tag, gcmTagLen⟩))
    if status = psaSuccess ∧ tailLen ≠ 0 then pure (psaErrorCorruptionDetected, memory)
    else pure (status, memory)
  else if status = psaSuccess then pure (psaErrorCorruptionDetected, memory)
  else pure (status, memory)

/-- What `seal_fail` and `open_fail` have in common: they differ in what they clear. -/
def aeadFail (wipe : Space → Space) (keyId : KeyId) (keyLive : Bool) (status : Int)
    (memory : Space) : Psa (Int × Space) := do
  let _ ← call .aeadAbort
  let status ← keyDrop keyId keyLive status
  pure (fromPsa status, wipe memory)

def sealWipe (cipher plainLen tag : Nat) (memory : Space) : Space :=
  let memory := if plainLen ≠ 0 then clear memory ⟨cipher, plainLen⟩ else memory
  clear memory ⟨tag, gcmTagLen⟩

def openWipe (plain cipherLen : Nat) (memory : Space) : Space :=
  if cipherLen ≠ 0 then clear memory ⟨plain, cipherLen⟩ else memory

theorem openWipe_blank (plain cipherLen : Nat) (before : Space) :
    Blank (openWipe plain cipherLen before) ⟨plain, cipherLen⟩ := by
  rw [openWipe]
  split
  · exact blank_clear before _
  · rename_i empty
    intro address inside
    obtain ⟨low, high⟩ : plain ≤ address ∧ address < plain + cipherLen := inside
    omega

theorem sealWipe_blank (cipher plainLen tag : Nat) (before : Space) :
    Blank (sealWipe cipher plainLen tag before) ⟨cipher, plainLen⟩ ∧
      Blank (sealWipe cipher plainLen tag before) ⟨tag, gcmTagLen⟩ :=
  ⟨(openWipe_blank cipher plainLen before).clear ⟨tag, gcmTagLen⟩, blank_clear _ _⟩

theorem openWipe_keeps (plain cipherLen : Nat) (before : Space) :
    Keeps [⟨plain, cipherLen⟩] before (openWipe plain cipherLen before) := by
  rw [openWipe]
  split
  · exact keeps_clear before (List.mem_singleton_self _)
  · exact Keeps.refl _ _

theorem sealWipe_keeps (cipher plainLen tag : Nat) (before : Space) :
    Keeps [⟨cipher, plainLen⟩, ⟨tag, gcmTagLen⟩] before (sealWipe cipher plainLen tag before) :=
  ((openWipe_keeps cipher plainLen before).mono (by simp)).trans (keeps_clear _ (by simp))

/-- The end of both functions: a failure, or the destruction of the key, which may fail too. -/
def aeadEnd (wipe : Space → Space) (attempt : Attempt) : Psa (Int × Space) :=
  if attempt.status ≠ psaSuccess then
    aeadFail wipe attempt.keyId attempt.keyLive attempt.status attempt.memory
  else do
    let status ← call (.destroyKey attempt.keyId)
    if status ≠ psaSuccess then aeadFail wipe attempt.keyId true status attempt.memory
    else pure (cryptoOk, attempt.memory)

def SealBadArg (key nonce aad aadLen plain plainLen cipher tag : Nat) : Prop :=
  key = 0 ∨ nonce = 0 ∨ cipher = 0 ∨ tag = 0 ∨ (aad = 0 ∧ aadLen ≠ 0) ∨ (plain = 0 ∧ plainLen ≠ 0)

instance (key nonce aad aadLen plain plainLen cipher tag : Nat) :
    Decidable (SealBadArg key nonce aad aadLen plain plainLen cipher tag) := by
  unfold SealBadArg
  infer_instance

def sealOverlap (target : Target) (key nonce aad aadLen plain plainLen cipher tag : Nat) : Bool :=
  overlap target cipher plainLen key aes256KeyLen ||
    overlap target cipher plainLen nonce gcmNonceLen ||
    overlap target cipher plainLen aad aadLen ||
    overlap target cipher plainLen plain plainLen ||
    overlap target cipher plainLen tag gcmTagLen ||
    overlap target tag gcmTagLen key aes256KeyLen ||
    overlap target tag gcmTagLen nonce gcmNonceLen ||
    overlap target tag gcmTagLen aad aadLen ||
    overlap target tag gcmTagLen plain plainLen

def OpenBadArg (key nonce aad aadLen cipher cipherLen tag plain : Nat) : Prop :=
  key = 0 ∨ nonce = 0 ∨ tag = 0 ∨ plain = 0 ∨ (aad = 0 ∧ aadLen ≠ 0) ∨ (cipher = 0 ∧ cipherLen ≠ 0)

instance (key nonce aad aadLen cipher cipherLen tag plain : Nat) :
    Decidable (OpenBadArg key nonce aad aadLen cipher cipherLen tag plain) := by
  unfold OpenBadArg
  infer_instance

def openOverlap (target : Target) (key nonce aad aadLen cipher cipherLen tag plain : Nat) : Bool :=
  overlap target plain cipherLen key aes256KeyLen ||
    overlap target plain cipherLen nonce gcmNonceLen ||
    overlap target plain cipherLen aad aadLen ||
    overlap target plain cipherLen cipher cipherLen ||
    overlap target plain cipherLen tag gcmTagLen

section Functions

variable (target : Target) (ready : Bool) (memory : Space)

def sealWork (key nonce aad aadLen plain plainLen cipher tag : Nat) : Psa Attempt := do
  let (status, keyId, keyLive) ← aeadBegin .encrypt (fun keyId => call (.aeadEncryptSetup keyId))
    memory key nonce aad aadLen plainLen
  let (status, memory, bodyLen) ← aeadBody status memory plain plainLen cipher
  let (status, memory) ← sealFinish status memory bodyLen plainLen tag
  pure ⟨status, keyId, keyLive, memory⟩

def gcmSeal (key nonce aad aadLen plain plainLen cipher tag : Nat) : Psa (Int × Space) :=
  if SealBadArg key nonce aad aadLen plain plainLen cipher tag then pure (cryptoBadArg, memory)
  else if sealOverlap target key nonce aad aadLen plain plainLen cipher tag then
    pure (cryptoOverlap, memory)
  else if !ready then pure (cryptoState, memory)
  else do
    let attempt ← sealWork memory key nonce aad aadLen plain plainLen cipher tag
    aeadEnd (sealWipe cipher plainLen tag) attempt

def openWork (key nonce aad aadLen cipher cipherLen tag plain : Nat) : Psa Attempt := do
  let (status, keyId, keyLive) ← aeadBegin .decrypt (fun keyId => call (.aeadDecryptSetup keyId))
    memory key nonce aad aadLen cipherLen
  let (status, memory, bodyLen) ← aeadBody status memory cipher cipherLen plain
  let (status, memory) ← openVerify status memory bodyLen cipherLen tag
  pure ⟨status, keyId, keyLive, memory⟩

def gcmOpen (key nonce aad aadLen cipher cipherLen tag plain : Nat) : Psa (Int × Space) :=
  if OpenBadArg key nonce aad aadLen cipher cipherLen tag plain then pure (cryptoBadArg, memory)
  else if openOverlap target key nonce aad aadLen cipher cipherLen tag plain then
    pure (cryptoOverlap, memory)
  else if !ready then pure (cryptoState, memory)
  else do
    let attempt ← openWork memory key nonce aad aadLen cipher cipherLen tag plain
    aeadEnd (openWipe plain cipherLen) attempt

end Functions

end P4Key.Crypto
