import P4Key.Crypto.Ideal
import Mathlib.Data.Set.Finite.Basic

/-! Such a PSA exists: every call has an answer.

GCM adds a key stream to its input, so what an update gives can be told before the tag is made. -/

namespace P4Key.Crypto.Ideal

open Memory CallProgram

variable {algorithms : Algorithms} {state : State}

/-! Key streams. -/

def masked (stream : Nat → UInt8) (input : List UInt8) : List UInt8 :=
  input.mapIdx fun i byte => byte ^^^ stream i

theorem length_masked (stream : Nat → UInt8) (input : List UInt8) :
    (masked stream input).length = input.length := List.length_mapIdx

theorem masked_masked (stream : Nat → UInt8) (input : List UInt8) :
    masked stream (masked stream input) = input := by
  apply List.ext_getElem
  · rw [length_masked, length_masked]
  · intro i left right
    simp only [masked, List.getElem_mapIdx, UInt8.xor_assoc, UInt8.xor_self, UInt8.xor_zero]

theorem masked_append (stream : Nat → UInt8) (front back : List UInt8) :
    masked stream (front ++ back) =
      masked stream front ++ masked (fun i => stream (i + front.length)) back := List.mapIdx_append

def Streams (algorithms : Algorithms) (stream : List UInt8 → List UInt8 → Nat → UInt8) : Prop :=
  ∀ key nonce ad plain, (algorithms.scheme.sealed key nonce ad plain).1.toList =
    masked (stream key.toList nonce.toList) plain.toList

def Signs (algorithms : Algorithms) : Prop :=
  ∀ scalar digest, ∃ r s, r < 2 ^ 256 ∧ s < 2 ^ 256 ∧
    algorithms.verifies (algorithms.publicKey scalar) digest (signatureDer r s)

/-! What is kept. -/

/-- There is room for keys, and the operation gave what its stream made of its input. -/
structure State.Live (stream : List UInt8 → List UInt8 → Nat → UInt8) (state : State) : Prop where
  finite : {key | state.keys key ≠ none}.Finite
  output : ∀ operation, state.operation = some operation →
    operation.output = masked (stream operation.key operation.nonce) operation.input

section Kept

variable {stream : List UInt8 → List UInt8 → Nat → UInt8} (live : state.Live stream)

include live

theorem State.Live.fresh : ∃ key, state.keys key = none := by
  rcases live.finite.exists_notMem with ⟨key, free⟩
  exact ⟨key, not_not.mp free⟩

theorem State.Live.put (key : KeyId) (entry : Entry) : (state.put key entry).Live stream := by
  refine ⟨(live.finite.insert key).subset fun other held => ?_, live.output⟩
  by_cases same : other = key
  · exact Or.inl same
  · refine Or.inr fun none' => held ?_
    rw [State.put]
    exact (Function.update_of_ne same _ _).trans none'

theorem State.Live.drop (key : KeyId) : (state.drop key).Live stream := by
  refine ⟨live.finite.subset fun other held none' => held ?_, live.output⟩
  by_cases same : other = key
  · rw [same]
    exact Function.update_self _ _ _
  · exact (Function.update_of_ne same _ _).trans none'

theorem State.Live.close : ({ state with operation := none } : State).Live stream :=
  ⟨live.finite, fun operation active => by cases active⟩

theorem State.Live.start (encrypt : Bool) (key : List UInt8) :
    ({ state with operation := some { encrypt, key } } : State).Live stream := by
  refine ⟨live.finite, fun operation active => ?_⟩
  cases active
  rfl

theorem State.Live.continue {operation : Operation} {next : Operation → Operation}
    (active : state.operation = some operation)
    (kept : (next operation).output =
      masked (stream (next operation).key (next operation).nonce) (next operation).input) :
    ({ state with operation := state.operation.map next } : State).Live stream := by
  refine ⟨live.finite, fun after moved => ?_⟩
  rw [active] at moved
  cases moved
  exact kept

end Kept

/-! Replies. -/

def fill (size : Nat) (bytes : List UInt8) : Bytes size :=
  ⟨(bytes ++ zeros size).take size, by simp⟩

theorem take_fill {size : Nat} {bytes : List UInt8} (fits : bytes.length ≤ size) :
    (fill size bytes).toList.take bytes.length = bytes := by
  change ((bytes ++ zeros size).take size).take bytes.length = bytes
  rw [List.take_take, Nat.min_eq_left fits, List.take_left]

theorem rawSignature_inj {r s r' s' : Nat} (small : r < 2 ^ 256) (small' : s < 2 ^ 256)
    (smallR : r' < 2 ^ 256) (smallS : s' < 2 ^ 256) (same : rawSignature r s = rawSignature r' s') :
    r = r' ∧ s = s' := by
  have parts := List.append_inj same (by simp)
  constructor
  · rw [← loadBE_storeBE 32 r small, parts.1, loadBE_storeBE 32 r' smallR]
  · rw [← loadBE_storeBE 32 s small', parts.2, loadBE_storeBE 32 s' smallS]

def failing : (c : Call) → Reply c
  | .importKey _ _ => (-1, 0)
  | .generateKey _ => (-1, 0)
  | .destroyKey _ => (-1 : Int)
  | .exportKey _ size => (-1, fill size [], 0)
  | .exportPublicKey _ size => (-1, fill size [], 0)
  | .signHash _ _ size => (-1, fill size [], 0)
  | .verifyHash _ _ _ => (-1 : Int)
  | .aeadEncryptSetup _ => (-1 : Int)
  | .aeadDecryptSetup _ => (-1 : Int)
  | .aeadSetNonce _ => (-1 : Int)
  | .aeadSetLengths _ _ => (-1 : Int)
  | .aeadUpdateAd _ => (-1 : Int)
  | .aeadUpdate _ size => (-1, fill size [], 0)
  | .aeadFinish size tagSize => (-1, (fill size [], 0), fill tagSize [], 0)
  | .aeadVerify size _ => (-1, fill size [], 0)
  | .aeadAbort => (-1 : Int)
  | .rawToDer _ _ size => (-1, fill size [], 0)
  | .derToRaw _ _ size => (-1, fill size [], 0)

theorem failing_fails (c : Call) : statusOf c (failing c) ≠ psaSuccess := by
  cases c <;> exact (by decide : (-1 : Int) ≠ psaSuccess)

section Answers

variable {stream : List UInt8 → List UInt8 → Nat → UInt8}

theorem Operation.Has.unique {operation : Operation} {key key' : Bytes 32} {nonce nonce' : Bytes 12}
    {ad ad' : Bytes 24} {input input' : Bytes 64} (one : operation.Has key nonce ad input)
    (two : operation.Has key' nonce' ad' input') :
    key = key' ∧ nonce = nonce' ∧ ad = ad' ∧ input = input' :=
  ⟨List.Vector.toList_injective (one.key.symm.trans two.key),
    List.Vector.toList_injective (one.nonce.symm.trans two.nonce),
    List.Vector.toList_injective (one.ad.symm.trans two.ad),
    List.Vector.toList_injective (one.input.symm.trans two.input)⟩

theorem exportKey_answers {key : KeyId} {size : Nat}
    (accepts : Accepts algorithms state (.exportKey key size)) :
    ∃ reply, Served algorithms state (.exportKey key size) reply state := by
  rcases accepts with ⟨entry, found, -, fits⟩
  refine ⟨(psaSuccess, fill size entry.material, entry.material.length), rfl, rfl, ?_⟩
  intro other same
  cases found.symm.trans same
  exact ⟨rfl, take_fill fits⟩

theorem exportPublicKey_answers {key : KeyId} {size : Nat}
    (accepts : Accepts algorithms state (.exportPublicKey key size)) :
    ∃ reply, Served algorithms state (.exportPublicKey key size) reply state := by
  rcases accepts with ⟨entry, found, -, room⟩
  by_cases held : ∃ scalar : Bytes 32, entry.material = scalar.toList
  · rcases held with ⟨scalar, material⟩
    have size65 : (point (algorithms.publicKey scalar)).length = 65 := by
      rw [point, List.length_cons, List.length_append, List.Vector.toList_length,
        List.Vector.toList_length]
    refine ⟨(psaSuccess, fill size (point (algorithms.publicKey scalar)), 65), rfl, rfl, ?_⟩
    intro other scalar' same material'
    cases found.symm.trans same
    cases List.Vector.toList_injective (material.symm.trans material')
    have taken := take_fill (size65.le.trans room)
    rw [size65] at taken
    exact ⟨rfl, taken⟩
  · refine ⟨(psaSuccess, fill size [], 0), rfl, rfl, ?_⟩
    intro other scalar same material
    cases found.symm.trans same
    exact absurd ⟨scalar, material⟩ held

theorem signHash_answers (signs : Signs algorithms) {key : KeyId} {hash : List UInt8} {size : Nat}
    (accepts : Accepts algorithms state (.signHash key hash size)) :
    ∃ reply, Served algorithms state (.signHash key hash size) reply state := by
  rcases accepts with ⟨⟨entry, found, -, -⟩, length, room⟩
  have signature : ∃ r s, r < 2 ^ 256 ∧ s < 2 ^ 256 ∧ ∀ scalar : Bytes 32,
      entry.material = scalar.toList →
        algorithms.verifies (algorithms.publicKey scalar) ⟨hash, length⟩ (signatureDer r s) := by
    by_cases held : ∃ scalar : Bytes 32, entry.material = scalar.toList
    · rcases held with ⟨scalar, material⟩
      rcases signs scalar ⟨hash, length⟩ with ⟨r, s, small, small', signed⟩
      refine ⟨r, s, small, small', fun scalar' material' => ?_⟩
      cases List.Vector.toList_injective (material.symm.trans material')
      exact signed
    · exact ⟨1, 1, by norm_num, by norm_num, fun scalar material => absurd ⟨scalar, material⟩ held⟩
  rcases signature with ⟨r, s, small, small', signed⟩
  have taken := take_fill ((length_rawSignature r s).le.trans room)
  rw [length_rawSignature] at taken
  refine ⟨(psaSuccess, fill size (rawSignature r s), 64), rfl, rfl, rfl, r, s, small, small', taken, ?_⟩
  intro other scalar digest same material hashed
  cases found.symm.trans same
  have digested : digest = ⟨hash, length⟩ := List.Vector.toList_injective hashed.symm
  rw [digested]
  exact signed scalar material

theorem verifyHash_answers {key : KeyId} {hash signature : List UInt8}
    (accepts : Accepts algorithms state (.verifyHash key hash signature)) :
    ∃ reply, Served algorithms state (.verifyHash key hash signature) reply state := by
  rcases accepts with ⟨⟨entry, found, -, -⟩, -⟩
  by_cases good : ∃ owner digest r s, r < 2 ^ 256 ∧ s < 2 ^ 256 ∧ entry.material = point owner ∧
      hash = digest.toList ∧ signature = rawSignature r s ∧
      algorithms.verifies owner digest (signatureDer r s)
  · rcases good with ⟨owner, digest, r, s, small, small', material, hashed, signed, verified⟩
    refine ⟨psaSuccess, rfl, ?_⟩
    intro other owner' digest' r' s' same material' hashed' smallR smallS signed'
    cases found.symm.trans same
    cases point_injective (material.symm.trans material')
    cases List.Vector.toList_injective (hashed.symm.trans hashed')
    rcases rawSignature_inj small small' smallR smallS (signed.symm.trans signed') with ⟨rfl, rfl⟩
    exact iff_of_true rfl verified
  · have failed : psaErrorInvalidSignature ≠ psaSuccess := by decide
    refine ⟨psaErrorInvalidSignature, rfl, ?_⟩
    intro other owner digest r s same material hashed small small' signed
    cases found.symm.trans same
    exact iff_of_false failed fun verified =>
      good ⟨owner, digest, r, s, small, small', material, hashed, signed, verified⟩

theorem aeadUpdate_answers (live : state.Live stream) {input : List UInt8} {size : Nat}
    (accepts : Accepts algorithms state (.aeadUpdate input size)) :
    ∃ reply after, Served algorithms state (.aeadUpdate input size) reply after ∧ after.Live stream := by
  rcases accepts with ⟨operation, active, fits⟩
  let own := stream operation.key operation.nonce
  let given := masked (fun i => own (i + operation.input.length)) input
  have taken : (fill size given).toList.take input.length = given := by
    have length : given.length = input.length := length_masked _ input
    have whole := take_fill (length.le.trans fits)
    rw [length] at whole
    exact whole
  refine ⟨(psaSuccess, fill size given, input.length), _, ⟨rfl, rfl, rfl⟩, live.continue active ?_⟩
  dsimp only
  rw [taken, live.output operation active]
  exact (masked_append own operation.input input).symm

theorem aeadFinish_answers (streams : Streams algorithms stream) (live : state.Live stream)
    {size tagSize : Nat} (accepts : Accepts algorithms state (.aeadFinish size tagSize)) :
    ∃ reply after, Served algorithms state (.aeadFinish size tagSize) reply after ∧
      after.Live stream := by
  rcases accepts with ⟨operation, active, -, -, room⟩
  by_cases held : ∃ key nonce ad plain, operation.Has key nonce ad plain
  · rcases held with ⟨key, nonce, ad, plain, has⟩
    let tag := (algorithms.scheme.sealed key nonce ad plain).2
    have length : tag.toList.length = 16 := List.Vector.toList_length tag
    refine ⟨(psaSuccess, (fill size [], 0), fill tagSize tag.toList, 16), _, ⟨rfl, rfl, rfl, rfl, ?_⟩,
      live.close⟩
    intro other key' nonce' ad' plain' same has'
    cases active.symm.trans same
    rcases has.unique has' with ⟨rfl, rfl, rfl, rfl⟩
    have taken := take_fill (length.le.trans room)
    rw [length] at taken
    refine ⟨?_, taken⟩
    rw [streams, live.output operation active, has.key, has.nonce, has.input]
  · refine ⟨(psaSuccess, (fill size [], 0), fill tagSize [], 16), _, ⟨rfl, rfl, rfl, rfl, ?_⟩,
      live.close⟩
    intro other key nonce ad plain same has
    cases active.symm.trans same
    exact absurd ⟨key, nonce, ad, plain, has⟩ held

theorem aeadVerify_answers (streams : Streams algorithms stream) (live : state.Live stream)
    {size : Nat} {tag : List UInt8} (accepts : Accepts algorithms state (.aeadVerify size tag)) :
    ∃ reply after, Served algorithms state (.aeadVerify size tag) reply after ∧ after.Live stream := by
  rcases accepts with ⟨operation, active, -, -⟩
  have failed : psaErrorInvalidSignature ≠ psaSuccess := by decide
  by_cases good : ∃ (key : Bytes 32) (nonce : Bytes 12) (ad : Bytes 24) (cipher : Bytes 64) (mac : Bytes 16)
      (plain : Bytes 64), operation.Has key nonce ad cipher ∧ tag = mac.toList ∧ algorithms.scheme.sealed key nonce ad plain = (cipher, mac)
  · rcases good with ⟨key, nonce, ad, cipher, mac, plain, has, mark, sealed⟩
    refine ⟨(psaSuccess, fill size [], 0), _, ⟨Or.inl ⟨rfl, rfl, rfl⟩, ?_⟩, live.close⟩
    intro other key' nonce' ad' cipher' mac' same has' mark'
    cases active.symm.trans same
    rcases has.unique has' with ⟨rfl, rfl, rfl, rfl⟩
    cases List.Vector.toList_injective (mark.symm.trans mark')
    refine ⟨fun _ => ⟨plain, ?_, sealed⟩, fun impossible => absurd rfl impossible⟩
    have masking := streams key nonce ad plain
    rw [sealed] at masking
    have masking : cipher.toList = masked (stream key.toList nonce.toList) plain.toList := masking
    rw [live.output operation active, has.key, has.nonce, has.input, masking, masked_masked]
  · refine ⟨(psaErrorInvalidSignature, fill size [], 0), state, ⟨Or.inr ⟨rfl, rfl⟩, ?_⟩, live⟩
    intro other key nonce ad cipher mac same has mark
    cases active.symm.trans same
    exact ⟨fun impossible => absurd impossible failed, fun _ plain sealed =>
      good ⟨key, nonce, ad, cipher, mac, plain, has, mark, sealed⟩⟩

theorem rawToDer_answers {bits size : Nat} {raw : List UInt8}
    (accepts : Accepts algorithms state (.rawToDer bits raw size)) :
    ∃ reply, Served algorithms state (.rawToDer bits raw size) reply state := by
  rcases accepts with ⟨-, -, room⟩
  by_cases held : ∃ r s, r < 2 ^ 256 ∧ s < 2 ^ 256 ∧ raw = rawSignature r s
  · rcases held with ⟨r, s, small, small', same⟩
    have taken := take_fill ((length_signatureDer small small').2.trans room)
    refine ⟨(0, fill size (signatureDer r s), (signatureDer r s).length), rfl, rfl, ?_⟩
    intro r' s' smallR smallS same'
    rcases rawSignature_inj small small' smallR smallS (same.symm.trans same') with ⟨rfl, rfl⟩
    exact ⟨rfl, taken⟩
  · refine ⟨(0, fill size [], 0), rfl, rfl, ?_⟩
    intro r s small small' same
    exact absurd ⟨r, s, small, small', same⟩ held

theorem derToRaw_answers {bits size : Nat} {der : List UInt8}
    (accepts : Accepts algorithms state (.derToRaw bits der size)) :
    ∃ reply, Served algorithms state (.derToRaw bits der size) reply state := by
  rcases accepts with ⟨-, room, r, s, small, small', same⟩
  have taken := take_fill ((length_rawSignature r s).le.trans room)
  rw [length_rawSignature] at taken
  refine ⟨(0, fill size (rawSignature r s), 64), rfl, rfl, rfl, ?_⟩
  intro r' s' smallR smallS same'
  have holds : HoldsPair (signatureDer r s) r' s' := by
    rw [← same, same']
    exact signatureDer_holds r' s'
  rcases holds.values small small' with ⟨rfl, rfl⟩
  exact taken

theorem served_answers (signs : Signs algorithms) (streams : Streams algorithms stream)
    (live : state.Live stream) {c : Call} (accepts : Accepts algorithms state c) :
    ∃ reply after, Served algorithms state c reply after ∧ after.Live stream := by
  have still : ∀ {c : Call}, (∃ reply, Served algorithms state c reply state) →
      ∃ reply after, Served algorithms state c reply after ∧ after.Live stream := by
    rintro c ⟨reply, served⟩
    exact ⟨reply, state, served, live⟩
  cases c with
  | importKey attributes data =>
      rcases live.fresh with ⟨key, free⟩
      exact ⟨(psaSuccess, key), _, ⟨rfl, free, rfl⟩, live.put key ⟨attributes, data⟩⟩
  | generateKey attributes =>
      rcases live.fresh with ⟨key, free⟩
      let scalar : Bytes 32 := List.Vector.replicate 32 1
      exact ⟨(psaSuccess, key), _, ⟨rfl, scalar, by decide, free, rfl⟩, live.put key _⟩
  | destroyKey key => exact ⟨psaSuccess, _, ⟨rfl, rfl⟩, live.drop key⟩
  | exportKey key size => exact still (exportKey_answers accepts)
  | exportPublicKey key size => exact still (exportPublicKey_answers accepts)
  | signHash key hash size => exact still (signHash_answers signs accepts)
  | verifyHash key hash signature => exact still (verifyHash_answers accepts)
  | aeadEncryptSetup key =>
      rcases accepts with ⟨-, entry, found, -⟩
      exact ⟨psaSuccess, _, ⟨rfl, entry, found, rfl⟩, live.start true entry.material⟩
  | aeadDecryptSetup key =>
      rcases accepts with ⟨-, entry, found, -⟩
      exact ⟨psaSuccess, _, ⟨rfl, entry, found, rfl⟩, live.start false entry.material⟩
  | aeadSetNonce nonce =>
      rcases accepts with ⟨operation, active, -, empty⟩
      refine ⟨psaSuccess, _, ⟨rfl, rfl⟩, live.continue active ?_⟩
      have none' := live.output operation active
      rw [empty] at none'
      dsimp only
      rw [none', empty]
      rfl
  | aeadSetLengths aadLen plainLen =>
      rcases accepts with ⟨operation, active, -⟩
      exact ⟨psaSuccess, _, ⟨rfl, rfl⟩, live.continue active (live.output operation active)⟩
  | aeadUpdateAd aad =>
      rcases accepts with ⟨operation, active, -⟩
      exact ⟨psaSuccess, _, ⟨rfl, rfl⟩, live.continue active (live.output operation active)⟩
  | aeadUpdate input size => exact aeadUpdate_answers live accepts
  | aeadFinish size tagSize => exact aeadFinish_answers streams live accepts
  | aeadVerify size tag => exact aeadVerify_answers streams live accepts
  | aeadAbort => exact ⟨psaSuccess, _, ⟨rfl, rfl⟩, live.close⟩
  | rawToDer bits raw size => exact still (rawToDer_answers accepts)
  | derToRaw bits der size => exact still (derToRaw_answers accepts)

theorem answers (signs : Signs algorithms) (streams : Streams algorithms stream)
    (live : state.Live stream) (c : Call) :
    ∃ reply after, Step algorithms state ⟨c, reply⟩ after ∧ after.Live stream := by
  by_cases accepts : Accepts algorithms state c
  · rcases served_answers signs streams live accepts with ⟨reply, after, served, live'⟩
    exact ⟨reply, after, .served accepts served, live'⟩
  · exact ⟨failing c, state, .refused accepts (failing_fails c), live⟩

end Answers

end P4Key.Crypto.Ideal
