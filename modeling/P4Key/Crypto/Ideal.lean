import P4Key.Crypto.Gcm
import P4Key.Crypto.P256
import P4Key.Library.Aead
import P4Key.Library.Service

/-! A PSA that does what it is asked.

It holds keys and one AEAD operation. A call that fits the state is served, any other call is
refused. GCM is a stream: what goes in comes out at once, and the end of the operation says that what
came out was right. -/

namespace P4Key.Crypto.Ideal

open Memory AddressSpace CallProgram

structure Algorithms where
  publicKey : Bytes 32 → Bytes 32 × Bytes 32
  /-- Whether a signature on a digest verifies under the public point. -/
  verifies : Bytes 32 × Bytes 32 → Bytes 32 → List UInt8 → Prop
  scheme : Aead (Bytes 32) (Bytes 12) (Bytes 24) (Bytes 64) (Bytes 64 × Bytes 16)

structure Entry where
  attributes : KeyAttributes
  material : List UInt8

structure Operation where
  encrypt : Bool
  key : List UInt8
  nonce : List UInt8 := []
  lengths : Nat × Nat := (0, 0)
  ad : List UInt8 := []
  input : List UInt8 := []
  output : List UInt8 := []

structure State where
  keys : KeyId → Option Entry := fun _ => none
  operation : Option Operation := none

def State.put (state : State) (key : KeyId) (entry : Entry) : State :=
  { state with keys := Function.update state.keys key (some entry) }

def State.drop (state : State) (key : KeyId) : State :=
  { state with keys := Function.update state.keys key none }

def point (key : Bytes 32 × Bytes 32) : List UInt8 := 0x04 :: (key.1.toList ++ key.2.toList)

theorem point_injective : Function.Injective point := by
  rintro ⟨x, y⟩ ⟨x', y'⟩ same
  have parts := List.append_inj (List.cons.inj same).2 (by simp)
  exact Prod.ext (List.Vector.toList_injective parts.1) (List.Vector.toList_injective parts.2)

def rawSignature (r s : Nat) : List UInt8 := storeBE 32 r ++ storeBE 32 s

theorem length_rawSignature (r s : Nat) : (rawSignature r s).length = 64 := by
  rw [rawSignature, List.length_append, length_storeBE, length_storeBE]

section Service

variable (algorithms : Algorithms)

def WellFormed (attributes : KeyAttributes) (data : List UInt8) : Prop :=
  match attributes.type with
  | .aes => data.length * 8 = attributes.bits
  | .eccKeyPair => ∃ scalar : Bytes 32, data = scalar.toList ∧ scalarValid data = true
  | .eccPublicKey => ∃ scalar : Bytes 32, scalarValid scalar.toList = true ∧
      data = point (algorithms.publicKey scalar)

def State.Permits (state : State) (key : KeyId) (type : KeyType) (usage : KeyUsage) : Prop :=
  ∃ entry, state.keys key = some entry ∧ entry.attributes.type = type ∧ entry.attributes.usage = usage

def Accepts (state : State) : Call → Prop
  | .importKey attributes data => WellFormed algorithms attributes data
  | .generateKey attributes => attributes.type = .eccKeyPair
  | .destroyKey key => state.keys key ≠ none
  | .exportKey key size => ∃ entry, state.keys key = some entry ∧ entry.attributes.usage = .export ∧
      entry.material.length ≤ size
  | .exportPublicKey key size => ∃ entry, state.keys key = some entry ∧
      entry.attributes.type = .eccKeyPair ∧ 65 ≤ size
  | .signHash key hash size => state.Permits key .eccKeyPair .signHash ∧ hash.length = 32 ∧ 64 ≤ size
  | .verifyHash key hash _ => state.Permits key .eccPublicKey .verifyHash ∧ hash.length = 32
  | .aeadEncryptSetup key => state.operation = none ∧ state.Permits key .aes .encrypt
  | .aeadDecryptSetup key => state.operation = none ∧ state.Permits key .aes .decrypt
  | .aeadSetNonce _ => ∃ operation, state.operation = some operation ∧ operation.nonce = [] ∧
      operation.input = []
  | .aeadSetLengths _ _ => ∃ operation, state.operation = some operation ∧ operation.ad = [] ∧
      operation.input = []
  | .aeadUpdateAd _ => ∃ operation, state.operation = some operation ∧ operation.input = []
  | .aeadUpdate input size => ∃ operation, state.operation = some operation ∧ input.length ≤ size
  | .aeadFinish _ tagSize => ∃ operation, state.operation = some operation ∧ operation.encrypt = true ∧
      operation.lengths = (operation.ad.length, operation.input.length) ∧ 16 ≤ tagSize
  | .aeadVerify _ _ => ∃ operation, state.operation = some operation ∧ operation.encrypt = false ∧
      operation.lengths = (operation.ad.length, operation.input.length)
  | .aeadAbort => True
  | .rawToDer bits raw size => bits = 256 ∧ raw.length = 64 ∧ 72 ≤ size
  | .derToRaw bits der size => bits = 256 ∧ 64 ≤ size ∧
      ∃ r s, r < 2 ^ 256 ∧ s < 2 ^ 256 ∧ der = signatureDer r s

def Adds (state : State) (key : KeyId) (entry : Entry) (after : State) : Prop :=
  state.keys key = none ∧ after = state.put key entry

def Continues (state : State) (next : Operation → Operation) (after : State) : Prop :=
  after = { state with operation := state.operation.map next }

structure Operation.Has (operation : Operation) (key : Bytes 32) (nonce : Bytes 12) (ad : Bytes 24)
    (input : Bytes 64) : Prop where
  key : operation.key = key.toList
  nonce : operation.nonce = nonce.toList
  ad : operation.ad = ad.toList
  input : operation.input = input.toList

/-- What a call that fits returns, and what it does to the state. -/
def Served (state : State) : (c : Call) → Reply c → State → Prop
  | .importKey attributes data, (status, key), after =>
      status = psaSuccess ∧ Adds state key ⟨attributes, data⟩ after
  | .generateKey attributes, (status, key), after => status = psaSuccess ∧
      ∃ scalar : Bytes 32, scalarValid scalar.toList = true ∧
        Adds state key ⟨attributes, scalar.toList⟩ after
  | .destroyKey key, status, after => status = psaSuccess ∧ after = state.drop key
  | .exportKey key _, (status, out, len), after => status = psaSuccess ∧ after = state ∧
      ∀ entry, state.keys key = some entry →
        len = entry.material.length ∧ out.toList.take len = entry.material
  | .exportPublicKey key _, (status, out, len), after => status = psaSuccess ∧ after = state ∧
      ∀ entry (scalar : Bytes 32), state.keys key = some entry → entry.material = scalar.toList →
        len = 65 ∧ out.toList.take len = point (algorithms.publicKey scalar)
  | .signHash key hash _, (status, out, len), after => status = psaSuccess ∧ after = state ∧ len = 64 ∧
      ∃ r s, r < 2 ^ 256 ∧ s < 2 ^ 256 ∧ out.toList.take len = rawSignature r s ∧
        ∀ entry (scalar digest : Bytes 32), state.keys key = some entry →
          entry.material = scalar.toList → hash = digest.toList →
          algorithms.verifies (algorithms.publicKey scalar) digest (signatureDer r s)
  | .verifyHash key hash signature, status, after => after = state ∧
      ∀ entry (owner : Bytes 32 × Bytes 32) (digest : Bytes 32) (r s : Nat),
        state.keys key = some entry → entry.material = point owner → hash = digest.toList →
        r < 2 ^ 256 → s < 2 ^ 256 → signature = rawSignature r s →
          (status = psaSuccess ↔ algorithms.verifies owner digest (signatureDer r s))
  | .aeadEncryptSetup key, status, after => status = psaSuccess ∧ ∃ entry,
      state.keys key = some entry ∧
        after = { state with operation := some { encrypt := true, key := entry.material } }
  | .aeadDecryptSetup key, status, after => status = psaSuccess ∧ ∃ entry,
      state.keys key = some entry ∧
        after = { state with operation := some { encrypt := false, key := entry.material } }
  | .aeadSetNonce nonce, status, after => status = psaSuccess ∧
      Continues state (fun operation => { operation with nonce }) after
  | .aeadSetLengths aadLen plainLen, status, after => status = psaSuccess ∧
      Continues state (fun operation => { operation with lengths := (aadLen, plainLen) }) after
  | .aeadUpdateAd aad, status, after => status = psaSuccess ∧
      Continues state (fun operation => { operation with ad := operation.ad ++ aad }) after
  | .aeadUpdate input _, (status, out, len), after => status = psaSuccess ∧ len = input.length ∧
      Continues state (fun operation => { operation with
        input := operation.input ++ input, output := operation.output ++ out.toList.take len }) after
  | .aeadFinish _ _, (status, (_, outLen), tag, tagLen), after => status = psaSuccess ∧ outLen = 0 ∧
      tagLen = 16 ∧ after = { state with operation := none } ∧
      ∀ operation key nonce ad plain, state.operation = some operation →
        operation.Has key nonce ad plain →
        operation.output = (algorithms.scheme.sealed key nonce ad plain).1.toList ∧
          tag.toList.take tagLen = (algorithms.scheme.sealed key nonce ad plain).2.toList
  | .aeadVerify _ tag, (status, _, outLen), after =>
      (status = psaSuccess ∧ outLen = 0 ∧ after = { state with operation := none } ∨
        status = psaErrorInvalidSignature ∧ after = state) ∧
      ∀ operation key nonce ad cipher (mac : Bytes 16), state.operation = some operation →
        operation.Has key nonce ad cipher → tag = mac.toList →
        (status = psaSuccess → ∃ plain, operation.output = plain.toList ∧
          algorithms.scheme.sealed key nonce ad plain = (cipher, mac)) ∧
        (status ≠ psaSuccess → ∀ plain, algorithms.scheme.sealed key nonce ad plain ≠ (cipher, mac))
  | .aeadAbort, status, after => status = psaSuccess ∧ after = { state with operation := none }
  | .rawToDer _ raw _, (status, out, len), after => status = 0 ∧ after = state ∧
      ∀ r s, r < 2 ^ 256 → s < 2 ^ 256 → raw = rawSignature r s →
        len = (signatureDer r s).length ∧ out.toList.take len = signatureDer r s
  | .derToRaw _ der _, (status, out, len), after => status = 0 ∧ after = state ∧ len = 64 ∧
      ∀ r s, r < 2 ^ 256 → s < 2 ^ 256 → der = signatureDer r s →
        out.toList.take len = rawSignature r s

def statusOf : (c : Call) → Reply c → Int
  | .importKey _ _, reply => reply.1
  | .generateKey _, reply => reply.1
  | .destroyKey _, reply => reply
  | .exportKey _ _, reply => reply.1
  | .exportPublicKey _ _, reply => reply.1
  | .signHash _ _ _, reply => reply.1
  | .verifyHash _ _ _, reply => reply
  | .aeadEncryptSetup _, reply => reply
  | .aeadDecryptSetup _, reply => reply
  | .aeadSetNonce _, reply => reply
  | .aeadSetLengths _ _, reply => reply
  | .aeadUpdateAd _, reply => reply
  | .aeadUpdate _ _, reply => reply.1
  | .aeadFinish _ _, reply => reply.1
  | .aeadVerify _ _, reply => reply.1
  | .aeadAbort, reply => reply
  | .rawToDer _ _ _, reply => reply.1
  | .derToRaw _ _ _, reply => reply.1

inductive Step : State → Event Reply → State → Prop where
  | served {state after : State} {c : Call} {reply : Reply c} (accepts : Accepts algorithms state c)
      (served : Served algorithms state c reply after) : Step state ⟨c, reply⟩ after
  | refused {state : State} {c : Call} {reply : Reply c} (bad : ¬ Accepts algorithms state c)
      (failed : statusOf c reply ≠ psaSuccess) : Step state ⟨c, reply⟩ state

variable {algorithms} {state : State}

theorem serves_accepted {α : Type} {c : Call} {rest : Reply c → Psa α} {post : State → α → Prop}
    (accepts : Accepts algorithms state c)
    (each : ∀ reply after, Served algorithms state c reply after →
      Serves (Step algorithms) after (rest reply) post) :
    Serves (Step algorithms) state (call c >>= rest) post := by
  refine serves_perform fun reply after step => ?_
  cases step with
  | served _ served => exact each reply after served
  | refused bad => exact absurd accepts bad

theorem serves_last {c : Call} {post : State → Reply c → Prop} (accepts : Accepts algorithms state c)
    (each : ∀ reply after, Served algorithms state c reply after → post after reply) :
    Serves (Step algorithms) state (call c) post := by
  intro reply after step
  cases step with
  | served _ served => exact each reply after served
  | refused bad => exact absurd accepts bad

theorem Continues.active {next : Operation → Operation} {after : State} {operation : Operation}
    (continues : Continues state next after) (active : state.operation = some operation) :
    after = { state with operation := some (next operation) } := by
  rw [continues, active, Option.map_some]

theorem whenOk_success (next : Psa Int) : whenOk psaSuccess next = next := if_pos rfl

@[simp] theorem State.put_key (state : State) (key : KeyId) (entry : Entry) :
    (state.put key entry).keys key = some entry := Function.update_self _ _ _

theorem State.put_there (state : State) (key : KeyId) (entry : Entry) :
    (state.put key entry).keys key ≠ none := by
  rw [State.put_key]
  exact Option.some_ne_none entry

theorem State.put_drop {key : KeyId} (entry : Entry) (fresh : state.keys key = none) :
    (state.put key entry).drop key = state := by
  have same : Function.update state.keys key none = state.keys := by
    rw [← fresh]
    exact Function.update_eq_self key state.keys
  rw [State.drop, State.put]
  simp only [Function.update_idem, same]

theorem keyDrop_serves {key : KeyId} (there : state.keys key ≠ none) (status : Int) :
    Serves (Step algorithms) state (keyDrop key true status) fun after left =>
      left = status ∧ after = state.drop key := by
  rw [keyDrop, if_pos rfl]
  refine serves_accepted there ?_
  rintro reply after ⟨rfl, rfl⟩
  rw [if_pos rfl]
  exact ⟨rfl, rfl⟩

end Service

end P4Key.Crypto.Ideal
