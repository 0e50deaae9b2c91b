import P4Key.Crypto.Ideal

/-! The two GCM functions over a PSA that does what it is asked. -/

namespace P4Key.Crypto.Ideal

open Memory AddressSpace CallProgram

variable {algorithms : Algorithms} {state : State}

theorem take_whole {size : Nat} (bytes : Bytes size) : bytes.toList.take size = bytes.toList :=
  List.take_of_length_le (List.Vector.toList_length bytes).le

section Begin

variable (memory : Space) (key nonce aad aadLen input inputLen : Nat)

def aeadEntry (usage : KeyUsage) : Entry := ⟨⟨.aes, 256, usage, .gcm⟩, read memory ⟨key, aes256KeyLen⟩⟩

def begun (encrypt : Bool) : Operation where
  encrypt := encrypt
  key := read memory ⟨key, aes256KeyLen⟩
  nonce := read memory ⟨nonce, gcmNonceLen⟩
  lengths := (aadLen, inputLen)
  ad := read memory ⟨aad, aadLen⟩

def SetsUp (algorithms : Algorithms) (encrypt : Bool) (usage : KeyUsage) (setup : KeyId → Psa Int) : Prop :=
  ∀ (before : State) keyId, before.operation = none → before.Permits keyId .aes usage →
    Serves (Step algorithms) before (setup keyId) fun after status => status = psaSuccess ∧
      ∃ entry, before.keys keyId = some entry ∧
        after = { before with operation := some { encrypt, key := entry.material } }

theorem encrypts : SetsUp algorithms true .encrypt fun keyId => call (.aeadEncryptSetup keyId) := by
  intro before keyId idle permits
  exact serves_last ⟨idle, permits⟩ fun _ _ served => served

theorem decrypts : SetsUp algorithms false .decrypt fun keyId => call (.aeadDecryptSetup keyId) := by
  intro before keyId idle permits
  exact serves_last ⟨idle, permits⟩ fun _ _ served => served

variable {aad aadLen} in
theorem aeadAd_serves {operation : Operation} (active : state.operation = some operation)
    (first : operation.ad = [] ∧ operation.input = []) :
    Serves (Step algorithms) state (aeadAd psaSuccess memory aad aadLen) fun after status =>
      status = psaSuccess ∧
        after = { state with operation := some { operation with ad := read memory ⟨aad, aadLen⟩ } } := by
  rw [aeadAd]
  split
  · rw [whenOk_success]
    refine serves_last ⟨operation, active, first.2⟩ ?_
    rintro status after ⟨success, continues⟩
    have same := continues.active active
    rw [first.1, List.nil_append] at same
    exact ⟨success, same⟩
  · rename_i none'
    have empty : read memory ⟨aad, aadLen⟩ = operation.ad := by
      rw [not_not.mp none', first.1]
      rfl
    rw [empty, ← active]
    exact ⟨rfl, rfl⟩

theorem aeadBegin_serves {encrypt : Bool} {usage : KeyUsage} {setup : KeyId → Psa Int}
    (sets : SetsUp algorithms encrypt usage setup) (idle : state.operation = none) :
    Serves (Step algorithms) state (aeadBegin usage setup memory key nonce aad aadLen inputLen)
      fun after (status, keyId, keyLive) => status = psaSuccess ∧ keyLive = true ∧
        state.keys keyId = none ∧
        after = { state.put keyId (aeadEntry memory key usage) with
          operation := some (begun memory key nonce aad aadLen inputLen encrypt) } := by
  have formed : WellFormed algorithms ⟨.aes, 256, usage, .gcm⟩ (read memory ⟨key, aes256KeyLen⟩) := by
    exact congrArg (· * 8) (length_read memory ⟨key, aes256KeyLen⟩)
  simp only [aeadBegin, keyAdd]
  refine serves_accepted formed ?_
  rintro ⟨status, keyId⟩ after ⟨rfl, fresh, rfl⟩
  have permits : (state.put keyId (aeadEntry memory key usage)).Permits keyId .aes usage :=
    ⟨_, State.put_key state keyId _, rfl, rfl⟩
  dsimp only
  rw [whenOk_success]
  refine (sets (state.put keyId (aeadEntry memory key usage)) keyId idle permits).bind ?_
  rintro after status ⟨rfl, entry, found, rfl⟩
  have mine : entry = aeadEntry memory key usage := by
    have same : some (aeadEntry memory key usage) = some entry := by
      rw [← found]
      exact (State.put_key state keyId _).symm
    exact (Option.some.inj same).symm
  subst mine
  rw [whenOk_success]
  refine serves_accepted ⟨_, rfl, rfl, rfl⟩ ?_
  rintro status after ⟨rfl, rfl⟩
  rw [whenOk_success]
  refine serves_accepted ⟨_, rfl, rfl, rfl⟩ ?_
  rintro status after ⟨rfl, rfl⟩
  refine (aeadAd_serves memory rfl ⟨rfl, rfl⟩).bind ?_
  rintro after status ⟨rfl, rfl⟩
  exact ⟨rfl, decide_eq_true (rfl : psaSuccess = psaSuccess), fresh, rfl⟩

variable {input inputLen}

theorem aeadBody_serves {operation : Operation} (active : state.operation = some operation)
    (first : operation.input = [] ∧ operation.output = []) (output : Nat) :
    Serves (Step algorithms) state (aeadBody psaSuccess memory input inputLen output)
      fun after (status, left, bodyLen) => status = psaSuccess ∧ bodyLen = inputLen ∧
        ∃ body : Bytes inputLen, left = write memory output body.toList ∧
          after = { state with operation := some { operation with
            input := read memory ⟨input, inputLen⟩, output := body.toList } } := by
  rw [aeadBody]
  split
  · refine serves_accepted ⟨operation, active, (length_read memory ⟨input, inputLen⟩).le⟩ ?_
    rintro ⟨status, body, len⟩ after ⟨rfl, length, continues⟩
    have same := continues.active active
    rw [length_read] at length
    rw [first.1, first.2, length, List.nil_append, List.nil_append, take_whole] at same
    exact ⟨rfl, length, body, rfl, same⟩
  · rename_i none'
    have empty : inputLen = 0 := by_contra fun some' => none' ⟨rfl, some'⟩
    subst empty
    refine ⟨rfl, rfl, List.Vector.nil, (write_nil memory output).symm, ?_⟩
    have nothing : AddressSpace.read memory ⟨input, 0⟩ = operation.input := first.1.symm
    have silent : (List.Vector.nil : Bytes 0).toList = operation.output := first.2.symm
    rw [nothing, silent, ← active]

end Begin

theorem aeadEnd_serves {wipe : Space → Space} {keyId : KeyId} {entry : Entry} {left : Space}
    (fresh : state.keys keyId = none) :
    Serves (Step algorithms) (state.put keyId entry) (aeadEnd wipe ⟨psaSuccess, keyId, true, left⟩)
      fun after out => after = state ∧ out = (cryptoOk, left) := by
  rw [aeadEnd, if_neg (not_not.mpr rfl)]
  refine serves_accepted (State.put_there state keyId entry) ?_
  rintro status after ⟨rfl, rfl⟩
  rw [State.put_drop entry fresh]
  exact ⟨rfl, rfl⟩

theorem aeadEnd_refuses {wipe : Space → Space} {keyId : KeyId} {entry : Entry} {left : Space}
    {operation : Option Operation} (idle : state.operation = none) (fresh : state.keys keyId = none) :
    Serves (Step algorithms) { state.put keyId entry with operation := operation }
      (aeadEnd wipe ⟨psaErrorInvalidSignature, keyId, true, left⟩)
      fun after out => after = state ∧ out = (cryptoAuth, wipe left) := by
  have failed : psaErrorInvalidSignature ≠ psaSuccess := by decide
  rw [aeadEnd, if_pos failed, aeadFail]
  refine serves_accepted trivial ?_
  rintro status after ⟨rfl, rfl⟩
  have closed : ({ state.put keyId entry with operation := none } : State) = state.put keyId entry := by
    rw [State.put, idle]
  dsimp only at closed ⊢
  rw [closed]
  refine (keyDrop_serves (State.put_there state keyId entry) _).bind ?_
  rintro after status ⟨rfl, rfl⟩
  exact ⟨State.put_drop entry fresh, rfl⟩

section Functions

variable (target : Target) (memory : Space) {key nonce aad input tag : Nat} {output : Nat}
variable {root : Bytes 32} {iv : Bytes 12} {ad : Bytes 24} {mac : Bytes 16}

structure Arrays (memory : Space) (key nonce aad input : Nat) (root : Bytes 32) (iv : Bytes 12)
    (ad : Bytes 24) (text : Bytes 64) : Prop where
  key : read memory ⟨key, aes256KeyLen⟩ = root.toList
  nonce : read memory ⟨nonce, gcmNonceLen⟩ = iv.toList
  aad : read memory ⟨aad, 24⟩ = ad.toList
  input : read memory ⟨input, 64⟩ = text.toList

theorem Arrays.has {text : Bytes 64} (arrays : Arrays memory key nonce aad input root iv ad text)
    (encrypt : Bool) (output : List UInt8) :
    ({ begun memory key nonce aad 24 64 encrypt with
        input := read memory ⟨input, 64⟩, output } : Operation).Has root iv ad text :=
  ⟨arrays.key, arrays.nonce, arrays.aad, arrays.input⟩

/-- The tag that ends an encryption, and what the encryption gave before. -/
theorem sealFinish_serves {operation : Operation} (active : state.operation = some operation)
    (encrypting : operation.encrypt = true)
    (whole : operation.lengths = (operation.ad.length, operation.input.length)) {plain : Bytes 64}
    (has : operation.Has root iv ad plain) (bodyLen : Nat) :
    Serves (Step algorithms) state (sealFinish psaSuccess memory bodyLen bodyLen tag)
      fun after (status, left) => status = psaSuccess ∧ after = { state with operation := none } ∧
        operation.output = (algorithms.scheme.sealed root iv ad plain).1.toList ∧
        left = write memory tag (algorithms.scheme.sealed root iv ad plain).2.toList := by
  rw [sealFinish, if_pos ⟨rfl, rfl⟩]
  refine serves_accepted ⟨operation, active, encrypting, whole, le_rfl⟩ ?_
  rintro ⟨status, ⟨tail, tailLen⟩, tagBytes, tagLen⟩ after ⟨rfl, rfl, rfl, rfl, sealed⟩
  rcases sealed operation root iv ad plain active has with ⟨body, mark⟩
  have written : tagBytes.toList = (algorithms.scheme.sealed root iv ad plain).2.toList :=
    (take_whole tagBytes).symm.trans mark
  dsimp only
  rw [if_neg (by decide), written]
  exact ⟨rfl, rfl, body, rfl⟩

/-- A tag is accepted just if something was sealed under it, which is then what the decryption gave
before. -/
theorem openVerify_serves {operation : Operation} (active : state.operation = some operation)
    (decrypting : operation.encrypt = false)
    (whole : operation.lengths = (operation.ad.length, operation.input.length)) {cipher : Bytes 64}
    (has : operation.Has root iv ad cipher) (bodyLen : Nat)
    (mark : read memory ⟨tag, gcmTagLen⟩ = mac.toList) :
    Serves (Step algorithms) state (openVerify psaSuccess memory bodyLen bodyLen tag)
      fun after (status, left) => left = memory ∧
        ((status = psaSuccess ∧ after = { state with operation := none } ∧
            ∃ plain, operation.output = plain.toList ∧
              algorithms.scheme.sealed root iv ad plain = (cipher, mac)) ∨
          (status = psaErrorInvalidSignature ∧ after = state ∧
            ∀ plain, algorithms.scheme.sealed root iv ad plain ≠ (cipher, mac))) := by
  rw [openVerify, if_pos ⟨rfl, rfl⟩]
  refine serves_accepted ⟨operation, active, decrypting, whole⟩ ?_
  rintro ⟨status, tail, tailLen⟩ after ⟨verdict, told⟩
  rcases told operation root iv ad cipher mac active has mark with ⟨opened, denied⟩
  rcases verdict with ⟨rfl, rfl, rfl⟩ | ⟨rfl, rfl⟩
  · dsimp only
    rw [if_neg (by decide)]
    exact ⟨rfl, Or.inl ⟨rfl, rfl, opened rfl⟩⟩
  · have failed : psaErrorInvalidSignature ≠ psaSuccess := by decide
    dsimp only
    rw [if_neg fun both => failed both.1]
    exact ⟨rfl, Or.inr ⟨rfl, rfl, denied failed⟩⟩

theorem sealWork_serves {plain : Bytes 64} (arrays : Arrays memory key nonce aad input root iv ad plain)
    (idle : state.operation = none) :
    Serves (Step algorithms) state (sealWork memory key nonce aad 24 input 64 output tag)
      fun after attempt => ∃ keyId, state.keys keyId = none ∧
        after = state.put keyId (aeadEntry memory key .encrypt) ∧
        attempt = ⟨psaSuccess, keyId, true,
          write (write memory output (algorithms.scheme.sealed root iv ad plain).1.toList) tag
            (algorithms.scheme.sealed root iv ad plain).2.toList⟩ := by
  rw [sealWork]
  refine (aeadBegin_serves memory key nonce aad 24 64 encrypts idle).bind ?_
  rintro after ⟨status, keyId, keyLive⟩ ⟨rfl, rfl, fresh, rfl⟩
  refine (aeadBody_serves memory rfl ⟨rfl, rfl⟩ output).bind ?_
  rintro after ⟨status, left, bodyLen⟩ ⟨rfl, rfl, body, rfl, rfl⟩
  refine (sealFinish_serves _ rfl rfl (by simp [begun]) (arrays.has memory true body.toList) 64).bind ?_
  rintro after ⟨status, left⟩ ⟨rfl, rfl, same, rfl⟩
  have given : body.toList = (algorithms.scheme.sealed root iv ad plain).1.toList := same
  refine ⟨keyId, fresh, ?_, ?_⟩
  · rw [State.put, idle]
  · rw [given]

theorem openWork_serves {cipher : Bytes 64} (arrays : Arrays memory key nonce aad input root iv ad cipher)
    (mark : ∀ body : Bytes 64, read (write memory output body.toList) ⟨tag, gcmTagLen⟩ = mac.toList)
    (idle : state.operation = none) :
    Serves (Step algorithms) state (openWork memory key nonce aad 24 input 64 tag output)
      fun after attempt => ∃ keyId, state.keys keyId = none ∧ ∃ body : Bytes 64,
        (attempt = ⟨psaSuccess, keyId, true, write memory output body.toList⟩ ∧
            after = state.put keyId (aeadEntry memory key .decrypt) ∧
            algorithms.scheme.sealed root iv ad body = (cipher, mac)) ∨
          (attempt = ⟨psaErrorInvalidSignature, keyId, true, write memory output body.toList⟩ ∧
            (∃ operation, after = { state.put keyId (aeadEntry memory key .decrypt) with operation }) ∧
            ∀ plain, algorithms.scheme.sealed root iv ad plain ≠ (cipher, mac)) := by
  rw [openWork]
  refine (aeadBegin_serves memory key nonce aad 24 64 decrypts idle).bind ?_
  rintro after ⟨status, keyId, keyLive⟩ ⟨rfl, rfl, fresh, rfl⟩
  refine (aeadBody_serves memory rfl ⟨rfl, rfl⟩ output).bind ?_
  rintro after ⟨status, left, bodyLen⟩ ⟨rfl, rfl, body, rfl, rfl⟩
  refine (openVerify_serves _ rfl rfl (by simp [begun]) (arrays.has memory false body.toList) 64
    (mark body)).bind ?_
  rintro after ⟨status, left⟩ ⟨rfl, ⟨rfl, rfl, plain, same, sealed⟩ | ⟨rfl, rfl, denied⟩⟩
  · have given : body = plain := List.Vector.toList_injective same
    refine ⟨keyId, fresh, body, Or.inl ⟨rfl, ?_, given ▸ sealed⟩⟩
    rw [State.put, idle]
  · exact ⟨keyId, fresh, body, Or.inr ⟨rfl, ⟨_, rfl⟩, denied⟩⟩

theorem gcmSeal_serves {plain : Bytes 64}
    (arguments : ¬ SealBadArg key nonce aad 24 input 64 output tag)
    (apart : sealOverlap target key nonce aad 24 input 64 output tag = false)
    (arrays : Arrays memory key nonce aad input root iv ad plain) (idle : state.operation = none) :
    Serves (Step algorithms) state (gcmSeal target true memory key nonce aad 24 input 64 output tag)
      fun after out => after = state ∧ out = (cryptoOk,
        write (write memory output (algorithms.scheme.sealed root iv ad plain).1.toList) tag
          (algorithms.scheme.sealed root iv ad plain).2.toList) := by
  rw [gcmSeal, if_neg arguments, if_neg (Bool.eq_false_iff.mp apart), if_neg (by decide)]
  refine (sealWork_serves memory arrays idle).bind ?_
  rintro after attempt ⟨keyId, fresh, rfl, rfl⟩
  exact aeadEnd_serves fresh

theorem gcmOpen_serves {cipher : Bytes 64}
    (arguments : ¬ OpenBadArg key nonce aad 24 input 64 tag output)
    (apart : openOverlap target key nonce aad 24 input 64 tag output = false)
    (arrays : Arrays memory key nonce aad input root iv ad cipher)
    (mark : ∀ body : Bytes 64, read (write memory output body.toList) ⟨tag, gcmTagLen⟩ = mac.toList)
    (idle : state.operation = none) :
    Serves (Step algorithms) state (gcmOpen target true memory key nonce aad 24 input 64 tag output)
      fun after out => after = state ∧
        ((∃ plain, out = (cryptoOk, write memory output plain.toList) ∧
            algorithms.scheme.sealed root iv ad plain = (cipher, mac)) ∨
          (out.1 = cryptoAuth ∧ ∀ plain, algorithms.scheme.sealed root iv ad plain ≠ (cipher, mac))) := by
  rw [gcmOpen, if_neg arguments, if_neg (Bool.eq_false_iff.mp apart), if_neg (by decide)]
  refine (openWork_serves memory arrays mark idle).bind ?_
  rintro after attempt ⟨keyId, fresh, body, ⟨rfl, rfl, sealed⟩ | ⟨rfl, ⟨operation, rfl⟩, denied⟩⟩
  · refine (aeadEnd_serves fresh).imp ?_
    rintro after out ⟨rfl, rfl⟩
    exact ⟨rfl, Or.inl ⟨body, rfl, sealed⟩⟩
  · refine (aeadEnd_refuses idle fresh).imp ?_
    rintro after out ⟨rfl, rfl⟩
    exact ⟨rfl, Or.inr ⟨rfl, denied⟩⟩

end Functions

end P4Key.Crypto.Ideal
