import P4Key.Crypto.Gcm
import P4Key.Crypto.Trails

/-! The calls of the two GCM functions before their cleanup. -/

namespace P4Key.Crypto

open Memory AddressSpace CallProgram

section Gcm

variable (memory : Space) (usage : KeyUsage) (key nonce aad aadLen input inputLen output : Nat)

def beginEvents (setup : KeyId → Event Reply) (keyId : KeyId) : List (Event Reply) :=
  [⟨.importKey ⟨.aes, 256, usage, .gcm⟩ (read memory ⟨key, aes256KeyLen⟩), (psaSuccess, keyId)⟩,
    setup keyId,
    ⟨.aeadSetNonce (read memory ⟨nonce, gcmNonceLen⟩), psaSuccess⟩,
    ⟨.aeadSetLengths aadLen inputLen, psaSuccess⟩] ++
  if aadLen ≠ 0 then [⟨.aeadUpdateAd (read memory ⟨aad, aadLen⟩), psaSuccess⟩] else []

def bodyEvents (body : Bytes inputLen) (bodyLen : Nat) : List (Event Reply) :=
  if inputLen ≠ 0 then
    [⟨.aeadUpdate (read memory ⟨input, inputLen⟩) inputLen, (psaSuccess, body, bodyLen)⟩]
  else []

theorem setNonce_one (data : List UInt8) :
    OneCall (call (.aeadSetNonce data)) ⟨.aeadSetNonce data, psaSuccess⟩ :=
  fun _ _ _ => ⟨_, rfl, rfl, rfl, fun success => by rw [success]⟩

theorem setLengths_one (first second : Nat) :
    OneCall (call (.aeadSetLengths first second)) ⟨.aeadSetLengths first second, psaSuccess⟩ :=
  fun _ _ _ => ⟨_, rfl, rfl, rfl, fun success => by rw [success]⟩

theorem updateAd_one (data : List UInt8) :
    OneCall (call (.aeadUpdateAd data)) ⟨.aeadUpdateAd data, psaSuccess⟩ :=
  fun _ _ _ => ⟨_, rfl, rfl, rfl, fun success => by rw [success]⟩

theorem aeadAd_trail {keys : List KeyId} {ideal before : List (Event Reply)} {status : Int}
    (trail : Trail keys ideal before status) :
    Ends before (aeadAd status memory aad aadLen) fun events status' =>
      Trail keys (ideal ++ if aadLen ≠ 0 then
        [⟨.aeadUpdateAd (read memory ⟨aad, aadLen⟩), psaSuccess⟩] else []) events status' ∧
        (status' = psaSuccess → status = psaSuccess) := by
  rw [aeadAd]
  split
  · exact whenOk_trail trail (updateAd_one _)
  · rw [List.append_nil]
    exact ⟨trail, id⟩

theorem aeadBegin_trail {setup : KeyId → Psa Int} {event : KeyId → Event Reply}
    (one : ∀ keyId, OneCall (setup keyId) (event keyId)) :
    Ends [] (aeadBegin usage setup memory key nonce aad aadLen inputLen)
      fun events (status, keyId, keyLive) =>
        Trail (liveKeys keyLive keyId)
          (beginEvents memory usage key nonce aad aadLen inputLen event keyId) events status ∧
        (status = psaSuccess → keyLive = true) := by
  simp only [aeadBegin, keyAdd, call, Program.perform_bind, ensures_call]
  intro reply _
  have start : Trail (liveKeys (decide (reply.1 = psaSuccess)) reply.2)
      [⟨.importKey ⟨.aes, 256, usage, .gcm⟩ (read memory ⟨key, aes256KeyLen⟩), (psaSuccess, reply.2)⟩]
      ([] ++ [⟨.importKey ⟨.aes, 256, usage, .gcm⟩ (read memory ⟨key, aes256KeyLen⟩), reply⟩])
      reply.1 :=
    (Trail.start psaSuccess).create rfl rfl rfl fun success => by rw [← success]
  apply (ensures_bind _ _ _).mpr
  apply (whenOk_trail start (one reply.2)).imp
  intro events₁ status₁ facts₁
  obtain ⟨trail₁, first⟩ := facts₁
  apply (ensures_bind _ _ _).mpr
  apply (whenOk_trail trail₁ (setNonce_one _)).imp
  intro events₂ status₂ facts₂
  obtain ⟨trail₂, second⟩ := facts₂
  apply (ensures_bind _ _ _).mpr
  apply (whenOk_trail trail₂ (setLengths_one _ _)).imp
  intro events₃ status₃ facts₃
  obtain ⟨trail₃, third⟩ := facts₃
  apply (ensures_bind _ _ _).mpr
  apply (aeadAd_trail memory aad aadLen trail₃).imp
  intro events₄ status₄ facts₄
  obtain ⟨trail₄, fourth⟩ := facts₄
  refine ⟨?_, fun success => decide_eq_true (first (second (third (fourth success))))⟩
  simpa [beginEvents] using trail₄

theorem aeadBody_trail {keys : List KeyId} {ideal before : List (Event Reply)} {status : Int}
    (trail : Trail keys ideal before status) :
    Ends before (aeadBody status memory input inputLen output)
      fun events (status', memory', bodyLen) => ∃ body : Bytes inputLen,
        Trail keys (ideal ++ bodyEvents memory input inputLen body bodyLen) events status' ∧
        (status' = psaSuccess → status = psaSuccess) ∧
        (status' = psaSuccess → memory' = write memory output body.toList) ∧
        Keeps [⟨output, inputLen⟩] memory memory' := by
  rw [aeadBody]
  split
  · rename_i run
    simp only [call, Program.perform_bind, ensures_call]
    intro reply _
    refine ⟨reply.2.1, ?_, fun _ => run.1, fun _ => rfl, ?_⟩
    · rw [bodyEvents, if_pos run.2]
      exact trail.snoc run.1 rfl rfl fun success => by rw [← success]
    · exact keeps_write memory (List.mem_singleton_self ⟨output, inputLen⟩)
        (Nat.le_of_eq (List.Vector.toList_length _))
  · rename_i skipped
    have empty : status = psaSuccess → inputLen = 0 := fun success =>
      by_contra fun some' => skipped ⟨success, some'⟩
    refine ⟨List.Vector.replicate inputLen 0, trail.congr ?_, id, ?_, Keeps.refl _ _⟩
    · intro success
      rw [bodyEvents, if_neg (not_not.mpr (empty success)), List.append_nil]
    · intro success
      rw [toList_replicate, empty success]
      exact (write_nil memory output).symm

def finishEvent (tail tag : Bytes gcmTagLen) : Event Reply :=
  ⟨.aeadFinish gcmTagLen gcmTagLen, (psaSuccess, (tail, 0), tag, gcmTagLen)⟩

theorem sealFinish_trail {keys : List KeyId} {ideal before : List (Event Reply)} {status : Int}
    (trail : Trail keys ideal before status) (bodyLen plainLen tag : Nat) :
    Ends before (sealFinish status memory bodyLen plainLen tag)
      fun events (status', memory') => ∃ tail tagBytes : Bytes gcmTagLen,
        Trail keys (ideal ++ [finishEvent tail tagBytes]) events status' ∧
        (status' = psaSuccess → status = psaSuccess ∧ bodyLen = plainLen ∧
          memory' = write memory tag tagBytes.toList) ∧
        Keeps [⟨tag, gcmTagLen⟩] memory memory' := by
  have blank : Bytes gcmTagLen := List.Vector.replicate _ 0
  rw [sealFinish]
  split
  · rename_i run
    simp only [call, Program.perform_bind, ensures_call]
    intro reply _
    obtain ⟨status', ⟨tail, tailLen⟩, tagBytes, tagLen⟩ := reply
    have wrote : Keeps [⟨tag, gcmTagLen⟩] memory (write memory tag tagBytes.toList) :=
      keeps_write memory (List.mem_singleton_self _) (Nat.le_of_eq (List.Vector.toList_length _))
    split
    · rename_i wrong
      refine ⟨tail, tagBytes, ?_, corruption_absurd, wrote⟩
      exact trail.spoiled rfl rfl corruption_fails
    · rename_i whole
      refine ⟨tail, tagBytes, ?_, fun _ => ⟨run.1, run.2, rfl⟩, wrote⟩
      apply trail.snoc run.1 rfl rfl
      intro success
      have lengths : tailLen = 0 ∧ tagLen = gcmTagLen := by
        by_contra wrong
        exact whole ⟨success, not_and_or.mp wrong⟩
      have passed : status' = psaSuccess := success
      rw [passed, lengths.1, lengths.2, finishEvent]
  · split
    · exact ⟨blank, blank, trail.failed corruption_fails, corruption_absurd, Keeps.refl _ _⟩
    · rename_i failure
      exact ⟨blank, blank, trail.failed failure, fun success => absurd success failure, Keeps.refl _ _⟩

def verifyEvent (tag : List UInt8) (tail : Bytes gcmTagLen) : Event Reply :=
  ⟨.aeadVerify gcmTagLen tag, (psaSuccess, tail, 0)⟩

theorem openVerify_trail {keys : List KeyId} {ideal before : List (Event Reply)} {status : Int}
    (trail : Trail keys ideal before status) (bodyLen cipherLen tag : Nat) :
    Ends before (openVerify status memory bodyLen cipherLen tag)
      fun events (status', memory') => ∃ tail : Bytes gcmTagLen,
        Trail keys (ideal ++ [verifyEvent (read memory ⟨tag, gcmTagLen⟩) tail]) events status' ∧
        (status' = psaSuccess → status = psaSuccess ∧ bodyLen = cipherLen) ∧ memory' = memory := by
  have blank : Bytes gcmTagLen := List.Vector.replicate _ 0
  rw [openVerify]
  split
  · rename_i run
    simp only [call, Program.perform_bind, ensures_call]
    intro reply _
    obtain ⟨status', tail, tailLen⟩ := reply
    split
    · exact ⟨tail, trail.spoiled rfl rfl corruption_fails, corruption_absurd, rfl⟩
    · rename_i whole
      refine ⟨tail, ?_, fun _ => run, rfl⟩
      apply trail.snoc run.1 rfl rfl
      intro success
      have length : tailLen = 0 := by_contra fun wrong => whole ⟨success, wrong⟩
      have passed : status' = psaSuccess := success
      rw [passed, length, verifyEvent]
  · split
    · exact ⟨blank, trail.failed corruption_fails, corruption_absurd, rfl⟩
    · rename_i failure
      exact ⟨blank, trail.failed failure, fun success => absurd success failure, rfl⟩

end Gcm

section Work

variable (memory : Space)

/-- What the calls of a GCM function have done before the cleanup: `ideal` are the calls if all
go well, and `left` is the memory then. -/
structure Worked (ideal : KeyId → List (Event Reply)) (left : Space) (ranges : List Range)
    (events : List (Event Reply)) (attempt : Attempt) : Prop where
  trail : Trail (liveKeys attempt.keyLive attempt.keyId) (ideal attempt.keyId) events attempt.status
  live : attempt.status = psaSuccess → attempt.keyLive = true
  left : attempt.status = psaSuccess → attempt.memory = left
  keeps : Keeps ranges memory attempt.memory

def sealEvents (key nonce aad aadLen plain plainLen : Nat) (body : Bytes plainLen)
    (tail tag : Bytes gcmTagLen) (keyId : KeyId) : List (Event Reply) :=
  beginEvents memory .encrypt key nonce aad aadLen plainLen
      (fun keyId => ⟨.aeadEncryptSetup keyId, psaSuccess⟩) keyId ++
    bodyEvents memory plain plainLen body plainLen ++ [finishEvent tail tag]

theorem sealWork_worked (key nonce aad aadLen plain plainLen cipher tag : Nat) :
    Ends [] (sealWork memory key nonce aad aadLen plain plainLen cipher tag)
      fun events attempt => ∃ (body : Bytes plainLen) (tail tagBytes : Bytes gcmTagLen),
        Worked memory (sealEvents memory key nonce aad aadLen plain plainLen body tail tagBytes)
          (write (write memory cipher body.toList) tag tagBytes.toList)
          [⟨cipher, plainLen⟩, ⟨tag, gcmTagLen⟩] events attempt := by
  have one : ∀ keyId, OneCall (call (.aeadEncryptSetup keyId))
      ⟨.aeadEncryptSetup keyId, psaSuccess⟩ :=
    fun _ _ _ _ => ⟨_, rfl, rfl, rfl, fun success => by rw [success]⟩
  apply (ensures_bind _ _ _).mpr
  apply (aeadBegin_trail memory .encrypt key nonce aad aadLen plainLen one).imp
  intro events₁ (status₁, keyId, keyLive) ⟨trail₁, live⟩
  apply (ensures_bind _ _ _).mpr
  apply (aeadBody_trail memory plain plainLen cipher trail₁).imp
  intro events₂ (status₂, memory₂, bodyLen) ⟨body, trail₂, first, wrote, keeps⟩
  apply (ensures_bind _ _ _).mpr
  apply (sealFinish_trail memory₂ trail₂ bodyLen plainLen tag).imp
  intro events₃ (status₃, memory₃) ⟨tail, tagBytes, trail₃, second, keeps'⟩
  refine ⟨body, tail, tagBytes, ?_, ?_, ?_, ?_⟩
  · apply trail₃.congr
    intro success
    rw [(second success).2.1]
    rfl
  · intro success
    exact live (first (second success).1)
  · intro success
    obtain ⟨success', -, last⟩ := second success
    rw [← wrote success']
    exact last
  · exact (keeps.mono (by simp)).trans (keeps'.mono (by simp))

/-- The calls of `gcm_open` before the cleanup, if all go well. The tag is read after the
plaintext has been written. -/
def openEvents (key nonce aad aadLen cipher cipherLen tag plain : Nat) (body : Bytes cipherLen)
    (tail : Bytes gcmTagLen) (keyId : KeyId) : List (Event Reply) :=
  beginEvents memory .decrypt key nonce aad aadLen cipherLen
      (fun keyId => ⟨.aeadDecryptSetup keyId, psaSuccess⟩) keyId ++
    bodyEvents memory cipher cipherLen body cipherLen ++
    [verifyEvent (read (write memory plain body.toList) ⟨tag, gcmTagLen⟩) tail]

theorem openWork_worked (key nonce aad aadLen cipher cipherLen tag plain : Nat) :
    Ends [] (openWork memory key nonce aad aadLen cipher cipherLen tag plain)
      fun events attempt => ∃ (body : Bytes cipherLen) (tail : Bytes gcmTagLen),
        Worked memory (openEvents memory key nonce aad aadLen cipher cipherLen tag plain body tail)
          (write memory plain body.toList) [⟨plain, cipherLen⟩] events attempt := by
  have one : ∀ keyId, OneCall (call (.aeadDecryptSetup keyId))
      ⟨.aeadDecryptSetup keyId, psaSuccess⟩ :=
    fun _ _ _ _ => ⟨_, rfl, rfl, rfl, fun success => by rw [success]⟩
  apply (ensures_bind _ _ _).mpr
  apply (aeadBegin_trail memory .decrypt key nonce aad aadLen cipherLen one).imp
  intro events₁ (status₁, keyId, keyLive) ⟨trail₁, live⟩
  apply (ensures_bind _ _ _).mpr
  apply (aeadBody_trail memory cipher cipherLen plain trail₁).imp
  intro events₂ (status₂, memory₂, bodyLen) ⟨body, trail₂, first, wrote, keeps⟩
  apply (ensures_bind _ _ _).mpr
  apply (openVerify_trail memory₂ trail₂ bodyLen cipherLen tag).imp
  intro events₃ (status₃, memory₃) ⟨tail, trail₃, second, same⟩
  refine ⟨body, tail, ?_, ?_, ?_, ?_⟩
  · apply trail₃.congr
    intro success
    obtain ⟨success', length⟩ := second success
    rw [length, wrote success']
    rfl
  · intro success
    exact live (first (second success).1)
  · intro success
    rw [← wrote (second success).1]
    exact same
  · rw [show memory₃ = memory₂ from same]
    exact keeps

end Work

end P4Key.Crypto
