import P4Key.Cred.Calls

/-! p4_cred.c.

A pointer is an `Option`: `none` is NULL, and `some bytes` is the memory behind it.
An input has the length that the caller passes along with it. An output is the
caller's memory, of which `cap` bytes may be written. -/

namespace P4Key.Cred

open Memory CallProgram

abbrev rpIdHashLen : Nat := 32
abbrev privateScalarLen : Nat := 32

def headerLen : Nat := 8
def nonceOffset : Nat := 8
abbrev nonceLen : Nat := 12
def cipherOffset : Nat := 20
abbrev cipherLen : Nat := 64
def tagOffset : Nat := 84
abbrev tagLen : Nat := 16
abbrev aadLen : Nat := 24

/-- `s_header`: the letters P4K1, then 1, 1, 0, 0. -/
def header : List UInt8 := [0x50, 0x34, 0x4b, 0x31, 1, 1, 0, 0]

def clearPrefix (out : Option (List UInt8)) (outCap needed : Nat) : Option (List UInt8) :=
  out.map fun memory => clear memory (min outCap needed)

def equalHash (left right : List UInt8) : Bool :=
  (left.zip right).foldl (fun different bytes => different ||| (bytes.1 ^^^ bytes.2).toUInt32)
    (0 : UInt32) == 0

def scalarCheck (scalar : Bytes 32) (mismatchOnKey : Bool) : Crypto Int := do
  let (error, _) ← p256Pub scalar
  pure (if error = cryptoOk then credOk
    else if error = cryptoKey then (if mismatchOnKey then credErrMismatch else credErrKey)
    else credErrCrypto)

def plain (rpIdHash privateScalar : List UInt8) : List UInt8 :=
  store (store (zeros cipherLen) 0 rpIdHash) rpIdHashLen privateScalar

/-- The associated data: the header as `cred_wrap` has it and `cred_open` reads it. -/
def aad (head : List UInt8) : List UInt8 :=
  store (store (zeros aadLen) 0 head) headerLen aaguid

def wrapped (nonce cipher tag : List UInt8) : List UInt8 :=
  let id := store (zeros credIdLen) 0 header
  let id := store id nonceOffset nonce
  let id := store id cipherOffset cipher
  store id tagOffset tag

def wrapKey (rpIdHash privateScalar : List UInt8) : Crypto (Except Int (List UInt8)) := do
  let (randError, nonce) ← randFill
  if randError ≠ cryptoOk then pure (.error credErrCrypto)
  else
    let (rootError, root) ← rootLoad
    if rootError ≠ credOk then pure (.error credErrRoot)
    else
      let (sealError, cipher, tag) ← gcmSeal root nonce (load aadLen (aad header) 0)
        (load cipherLen (plain rpIdHash privateScalar) 0)
      if sealError ≠ cryptoOk then pure (.error credErrCrypto)
      else pure (.ok (wrapped nonce.toList cipher.toList tag.toList))

/-- The copy to the caller, or the wiped output of a failed call. -/
def finish (memory : List UInt8) (cap needed : Nat) : Except Int (List UInt8) →
    Int × Option (List UInt8)
  | .error result => (result, clearPrefix (some memory) cap needed)
  | .ok bytes => (credOk, some (store memory 0 bytes))

def credWrap (rpIdHash privateScalar credentialId : Option (List UInt8)) (credentialIdCap : Nat) :
    Crypto (Int × Option (List UInt8)) :=
  match rpIdHash, privateScalar, credentialId with
  | some rpIdHash, some privateScalar, some memory =>
    if rpIdHash.length ≠ rpIdHashLen ∨ privateScalar.length ≠ privateScalarLen then
      pure (finish memory credentialIdCap credIdLen (.error credErrArg))
    else if credentialIdCap < credIdLen then
      pure (finish memory credentialIdCap credIdLen (.error credErrSmall))
    else do
      let result ← scalarCheck (load privateScalarLen privateScalar 0) false
      if result ≠ credOk then pure (finish memory credentialIdCap credIdLen (.error result))
      else
        let id ← wrapKey rpIdHash privateScalar
        pure (finish memory credentialIdCap credIdLen id)
  | _, _, credentialId => pure (credErrArg, clearPrefix credentialId credentialIdCap credIdLen)

def openKey (rpIdHash credentialId : List UInt8) : Crypto (Except Int (List UInt8)) := do
  let (rootError, root) ← rootLoad
  if rootError ≠ credOk then pure (.error credErrRoot)
  else
    let (openError, plain) ← gcmOpen root (load nonceLen credentialId nonceOffset)
      (load aadLen (aad (slice credentialId 0 headerLen)) 0)
      (load cipherLen credentialId cipherOffset) (load tagLen credentialId tagOffset)
    if openError ≠ cryptoOk then
      pure (.error (if openError = cryptoAuth then credErrMismatch else credErrCrypto))
    else
      let rpMatches := equalHash (slice plain.toList 0 rpIdHashLen) rpIdHash
      let scalar := load privateScalarLen plain.toList rpIdHashLen
      let keyResult ← scalarCheck scalar true
      if !rpMatches ∨ keyResult = credErrMismatch then pure (.error credErrMismatch)
      else if keyResult ≠ credOk then pure (.error keyResult)
      else pure (.ok scalar.toList)

def credOpen (rpIdHash credentialId privateScalar : Option (List UInt8)) (privateScalarCap : Nat) :
    Crypto (Int × Option (List UInt8)) :=
  match rpIdHash, credentialId, privateScalar with
  | some rpIdHash, some credentialId, some memory =>
    if rpIdHash.length ≠ rpIdHashLen then
      pure (finish memory privateScalarCap privateScalarLen (.error credErrArg))
    else if privateScalarCap < privateScalarLen then
      pure (finish memory privateScalarCap privateScalarLen (.error credErrSmall))
    else if credentialId.length ≠ credIdLen ∨ slice credentialId 0 headerLen ≠ header then
      pure (finish memory privateScalarCap privateScalarLen (.error credErrMismatch))
    else do
      let scalar ← openKey rpIdHash credentialId
      pure (finish memory privateScalarCap privateScalarLen scalar)
  | _, _, privateScalar =>
    pure (credErrArg, clearPrefix privateScalar privateScalarCap privateScalarLen)

/-! The layouts, as concatenations. -/

theorem equalHash_iff (left right : List UInt8) (size : left.length = right.length) :
    equalHash left right = true ↔ left = right := by
  have loop : ∀ (left right : List UInt8) (different : UInt32), left.length = right.length →
      ((left.zip right).foldl
          (fun different bytes => different ||| (bytes.1 ^^^ bytes.2).toUInt32) different = 0 ↔
        different = 0 ∧ left = right) := by
    intro left
    induction left with
    | nil =>
        intro right different size
        cases right with
        | nil => simp
        | cons byte right => simp at size
    | cons first left ih =>
        intro right different size
        cases right with
        | nil => simp at size
        | cons second right =>
            have same : (first ^^^ second).toUInt32 = 0 ↔ first = second := by
              constructor
              · intro zero
                have xor : first ^^^ second = 0 := UInt8.toUInt32_inj.mp zero
                exact UInt8.xor_eq_zero_iff.mp xor
              · intro same
                rw [same, UInt8.xor_self]
                rfl
            rw [List.zip_cons_cons, List.foldl_cons, ih _ _ (by simpa using size),
              UInt32.or_eq_zero_iff, same]
            simp [and_assoc]
  rw [equalHash, beq_iff_eq, loop _ _ _ size]
  simp

theorem plain_eq (rpIdHash privateScalar : List UInt8) (hash : rpIdHash.length = rpIdHashLen)
    (scalar : privateScalar.length = privateScalarLen) :
    plain rpIdHash privateScalar = rpIdHash ++ privateScalar := by
  have first := store_zeros [] rpIdHash 0 cipherLen rfl (by rw [hash]; decide)
  have second := store_zeros rpIdHash privateScalar rpIdHashLen (cipherLen - rpIdHash.length)
    hash.symm (by rw [hash, scalar]; decide)
  rw [List.nil_append] at first
  rw [plain, first, List.nil_append, second, hash, scalar]
  simp [cipherLen, rpIdHashLen, privateScalarLen, zeros]

theorem wrapped_eq (nonce cipher tag : List UInt8) (nonceSize : nonce.length = nonceLen)
    (cipherSize : cipher.length = cipherLen) (tagSize : tag.length = tagLen) :
    wrapped nonce cipher tag = header ++ nonce ++ cipher ++ tag := by
  have start : store (zeros credIdLen) 0 header = header ++ zeros 92 := rfl
  have second := store_zeros header nonce nonceOffset 92 rfl (by rw [nonceSize]; decide)
  have third := store_zeros (header ++ nonce) cipher cipherOffset (92 - nonce.length)
    (by rw [List.length_append, nonceSize]; rfl) (by rw [nonceSize, cipherSize]; decide)
  have last := store_zeros (header ++ nonce ++ cipher) tag tagOffset
    (92 - nonce.length - cipher.length)
    (by simp only [List.length_append, nonceSize, cipherSize]; rfl)
    (by rw [nonceSize, cipherSize, tagSize]; decide)
  rw [wrapped, start, second, third, last, nonceSize, cipherSize, tagSize]
  simp [nonceLen, cipherLen, tagLen, zeros]

/-- The header, the nonce, the ciphertext and the tag are the whole of a credential id. -/
theorem fields_eq (id : List UInt8) (size : id.length = credIdLen)
    (head : slice id 0 headerLen = header) :
    id = header ++ slice id nonceOffset nonceLen ++ slice id cipherOffset cipherLen ++
      slice id tagOffset tagLen := by
  have afterTag : id.drop (tagOffset + tagLen) = [] := List.drop_of_length_le (by rw [size]; decide)
  have tail : slice id tagOffset tagLen = id.drop tagOffset := by
    have joined := slice_append_drop id tagOffset tagLen
    rw [afterTag, List.append_nil] at joined
    exact joined
  calc
    id = slice id 0 headerLen ++ id.drop headerLen := (List.take_append_drop _ _).symm
    _ = header ++ (slice id nonceOffset nonceLen ++ id.drop cipherOffset) := by
      rw [head]
      exact congrArg (header ++ ·) (slice_append_drop id nonceOffset nonceLen).symm
    _ = header ++ (slice id nonceOffset nonceLen ++
          (slice id cipherOffset cipherLen ++ id.drop tagOffset)) := by
      rw [← slice_append_drop id cipherOffset cipherLen]
      rfl
    _ = header ++ slice id nonceOffset nonceLen ++ slice id cipherOffset cipherLen ++
          slice id tagOffset tagLen := by
      rw [tail]
      simp only [List.append_assoc]

end P4Key.Cred
