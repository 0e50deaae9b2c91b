import P4Key.Crypto.IdealGcm
import P4Key.Crypto.Outcomes

/-! The P-256 functions over a PSA that does what it is asked. -/

namespace P4Key.Crypto.Ideal

open Memory AddressSpace CallProgram

variable {algorithms : Algorithms} {state : State}

def pairEntry (usage : KeyUsage) (scalar : Bytes 32) : Entry := ⟨pairAttr usage, scalar.toList⟩

section Points

variable {key : Bytes 32 × Bytes 32} {pub : Bytes p256PublicLen} (whole : pub.toList = point key)

include whole

theorem head_point : pub.head = 0x04 := by
  rw [← pub.cons_head_tail, List.Vector.toList_cons, point] at whole
  exact (List.cons.inj whole).1

theorem publishPoint_point (memory : Space) (x y : Nat) :
    publishPoint memory x y pub = write (write memory x key.1.toList) y key.2.toList := by
  have first : slice pub.toList 1 p256ScalarLen = key.1.toList := by
    rw [whole]
    exact slice_append [0x04] key.1.toList key.2.toList 1 p256ScalarLen rfl
      (List.Vector.toList_length _).symm
  have second : slice pub.toList (1 + p256ScalarLen) p256ScalarLen = key.2.toList := by
    have split : pub.toList = (0x04 :: key.1.toList) ++ (key.2.toList ++ []) := by
      rw [whole, point, List.append_nil, List.cons_append]
    rw [split]
    have behind : (0x04 :: key.1.toList).length = 1 + p256ScalarLen := by
      rw [List.length_cons, List.Vector.toList_length, Nat.add_comm]
    exact slice_append _ key.2.toList [] _ _ behind.symm (List.Vector.toList_length _).symm
  rw [publishPoint, first, second]

end Points

theorem exported {size len : Nat} {out : Bytes size} {material : List UInt8}
    (length : len = material.length) (bytes : out.toList.take len = material)
    (full : material.length = size) : out.toList = material := by
  rw [length, full, take_whole] at bytes
  exact bytes

/-! `p256_make`. -/

theorem makeExport_serves :
    Serves (Step algorithms) state makeExport fun after (attempt, privateLen, publicLen) =>
      ∃ pairId scalar pub, state.keys pairId = none ∧ scalarValid scalar.toList = true ∧
        pub.toList = point (algorithms.publicKey scalar) ∧ privateLen = p256ScalarLen ∧
        publicLen = p256PublicLen ∧ after = state.put pairId (pairEntry .export scalar) ∧
        attempt = ⟨psaSuccess, pairId, 0, true, false, scalar, pub⟩ := by
  rw [makeExport]
  refine serves_accepted rfl ?_
  rintro ⟨status, pairId⟩ after ⟨rfl, scalar, valid, fresh, rfl⟩
  have held := State.put_key state pairId (pairEntry .export scalar)
  dsimp only
  rw [if_pos rfl]
  refine serves_accepted ⟨_, held, rfl, (List.Vector.toList_length scalar).le⟩ ?_
  rintro ⟨status, priv, privateLen⟩ after ⟨rfl, rfl, told⟩
  rcases told _ held with ⟨length, bytes⟩
  have same : priv = scalar := List.Vector.toList_injective
    (exported length bytes (List.Vector.toList_length scalar))
  dsimp only
  rw [if_pos rfl]
  refine serves_accepted ⟨_, held, rfl, le_rfl⟩ ?_
  rintro ⟨status, pub, publicLen⟩ after ⟨rfl, rfl, told⟩
  rcases told _ scalar held rfl with ⟨length', bytes'⟩
  have whole : pub.toList = point (algorithms.publicKey scalar) := by
    rw [← bytes', length']
    exact (take_whole pub).symm
  refine ⟨pairId, scalar, pub, fresh, valid, whole, ?_, length', rfl, ?_⟩
  · rw [length]
    exact List.Vector.toList_length scalar
  · rw [same]
    rfl

theorem makeWork_serves :
    Serves (Step algorithms) state makeWork fun after attempt =>
      ∃ pairId checkId scalar pub entry, state.keys pairId = none ∧ scalarValid scalar.toList = true ∧
        (state.put pairId (pairEntry .export scalar)).keys checkId = none ∧
        pub.toList = point (algorithms.publicKey scalar) ∧
        after = (state.put pairId (pairEntry .export scalar)).put checkId entry ∧
        attempt = ⟨psaSuccess, pairId, checkId, true, true, scalar, pub⟩ := by
  rw [makeWork]
  refine makeExport_serves.bind ?_
  rintro after ⟨attempt, privateLen, publicLen⟩
    ⟨pairId, scalar, pub, fresh, valid, whole, rfl, rfl, rfl, rfl⟩
  have formed : ¬ (p256ScalarLen ≠ p256ScalarLen ∨ p256PublicLen ≠ p256PublicLen ∨ pub.head ≠ 0x04 ∨
      scalarValid scalar.toList = false) := by
    rw [head_point whole, valid]
    decide
  dsimp only
  rw [if_neg fun both => formed both.2, if_pos rfl]
  have point' : WellFormed algorithms publicAttr pub.toList := ⟨scalar, valid, whole⟩
  refine serves_accepted point' ?_
  rintro ⟨status, checkId⟩ after ⟨rfl, fresh', rfl⟩
  exact ⟨pairId, checkId, scalar, pub, _, fresh, valid, fresh', whole, rfl, rfl⟩

/-! `p256_pub` and `p256_sign_hash`. -/

theorem pubWork_serves {scalar : Bytes 32} (valid : scalarValid scalar.toList = true) :
    Serves (Step algorithms) state (pubWork scalar.toList) fun after attempt =>
      ∃ pairId pub, state.keys pairId = none ∧ pub.toList = point (algorithms.publicKey scalar) ∧
        after = state.put pairId (pairEntry .none scalar) ∧
        attempt = ⟨psaSuccess, pairId, true, pub⟩ := by
  have formed : WellFormed algorithms (pairAttr .none) scalar.toList := ⟨scalar, rfl, valid⟩
  rw [pubWork, pairImport]
  refine serves_accepted formed ?_
  rintro ⟨status, pairId⟩ after ⟨rfl, fresh, rfl⟩
  have held := State.put_key state pairId (pairEntry .none scalar)
  dsimp only
  rw [if_pos rfl]
  refine serves_accepted ⟨_, held, rfl, le_rfl⟩ ?_
  rintro ⟨status, pub, publicLen⟩ after ⟨rfl, rfl, told⟩
  rcases told _ scalar held rfl with ⟨length, bytes⟩
  have whole : pub.toList = point (algorithms.publicKey scalar) := by
    rw [← bytes, length]
    exact (take_whole pub).symm
  have good : ¬ (publicLen ≠ p256PublicLen ∨ pub.head ≠ 0x04) := by
    rw [head_point whole, length]
    decide
  dsimp only
  rw [if_neg fun both => good both.2]
  exact ⟨pairId, pub, fresh, whole, rfl, rfl⟩

theorem derStrict_signature {r s : Nat} (small : r < 2 ^ 256) (small' : s < 2 ^ 256)
    {der : Bytes p256DerMax} (bytes : der.toList.take (signatureDer r s).length = signatureDer r s) :
    derStrict der.toList (signatureDer r s).length = some true := by
  rcases derStrict_iff (signatureDer r s) with ⟨accepted, same, strict⟩
  have split : der.toList = signatureDer r s ++ der.toList.drop (signatureDer r s).length := by
    calc der.toList
      _ = der.toList.take (signatureDer r s).length ++ der.toList.drop (signatureDer r s).length :=
          (List.take_append_drop _ _).symm
      _ = signatureDer r s ++ der.toList.drop (signatureDer r s).length := by rw [bytes]
  rw [split, same, strict.mpr ⟨r, s, small, small', rfl⟩]

theorem signWork_serves {scalar digest : Bytes 32} (valid : scalarValid scalar.toList = true) :
    Serves (Step algorithms) state (signWork scalar.toList digest.toList) fun after attempt =>
      ∃ pairId der r s, state.keys pairId = none ∧ r < 2 ^ 256 ∧ s < 2 ^ 256 ∧
        algorithms.verifies (algorithms.publicKey scalar) digest (signatureDer r s) ∧
        der.toList.take (signatureDer r s).length = signatureDer r s ∧
        after = state.put pairId (pairEntry .signHash scalar) ∧
        attempt = ⟨psaSuccess, 0, pairId, true, der, (signatureDer r s).length⟩ := by
  have formed : WellFormed algorithms (pairAttr .signHash) scalar.toList := ⟨scalar, rfl, valid⟩
  rw [signWork, pairImport]
  refine serves_accepted formed ?_
  rintro ⟨status, pairId⟩ after ⟨rfl, fresh, rfl⟩
  have held := State.put_key state pairId (pairEntry .signHash scalar)
  dsimp only
  rw [if_pos rfl]
  refine serves_accepted ⟨⟨_, held, rfl, rfl⟩, List.Vector.toList_length digest, le_rfl⟩ ?_
  rintro ⟨status, raw, rawLen⟩ after ⟨rfl, rfl, length, r, s, small, small', bytes, told⟩
  have signed := told _ scalar digest held rfl rfl
  have fits : ¬ (psaSuccess = psaSuccess ∧ rawLen ≠ p256RawSigLen) := fun both => both.2 length
  dsimp only
  rw [if_neg fits, if_pos rfl, bytes]
  refine serves_accepted ⟨rfl, length_rawSignature r s, le_rfl⟩ ?_
  rintro ⟨derStatus, der, derLen⟩ after ⟨rfl, rfl, converted⟩
  rcases converted r s small small' rfl with ⟨rfl, prefix'⟩
  have strict := derStrict_signature small small' prefix'
  dsimp only
  rw [if_neg (by simp [strict])]
  exact ⟨pairId, der, r, s, fresh, small, small', signed, prefix', rfl, rfl⟩

section Functions

variable (target : Target) (memory : Space) {priv x y hash sig sigLen : Nat}

theorem p256Make_serves (arguments : ¬ (priv = 0 ∨ x = 0 ∨ y = 0))
    (apart : makeOverlap target priv x y = false) :
    Serves (Step algorithms) state (p256Make target true memory priv x y) fun after out =>
      after = state ∧ ∃ scalar : Bytes 32, scalarValid scalar.toList = true ∧
        out = (cryptoOk, write (write (write (makeCleared memory priv x y) priv scalar.toList) x
          (algorithms.publicKey scalar).1.toList) y (algorithms.publicKey scalar).2.toList) := by
  rw [p256Make, if_neg arguments, if_neg (Bool.eq_false_iff.mp apart), if_neg (by decide)]
  refine makeWork_serves.bind ?_
  rintro after attempt ⟨pairId, checkId, scalar, pub, entry, fresh, valid, fresh', whole, rfl, rfl⟩
  refine (keyDrop_serves (State.put_there _ checkId entry) _).bind ?_
  rintro after status ⟨rfl, rfl⟩
  rw [State.put_drop entry fresh']
  refine (keyDrop_serves (State.put_there state pairId _) _).bind ?_
  rintro after status ⟨rfl, rfl⟩
  rw [if_pos rfl]
  dsimp only
  rw [publishPoint_point whole]
  exact ⟨State.put_drop _ fresh, scalar, valid, rfl⟩

theorem p256Pub_serves {scalar : Bytes 32} (arguments : ¬ (priv = 0 ∨ x = 0 ∨ y = 0))
    (apart : pubOverlap target priv x y = false)
    (given : read memory ⟨priv, p256ScalarLen⟩ = scalar.toList)
    (kept : read (pubCleared memory x y) ⟨priv, p256ScalarLen⟩ = scalar.toList) :
    Serves (Step algorithms) state (p256Pub target true memory priv x y) fun after out =>
      after = state ∧ out = if scalarValid scalar.toList then
        (cryptoOk, write (write (pubCleared memory x y) x (algorithms.publicKey scalar).1.toList) y
          (algorithms.publicKey scalar).2.toList)
        else (cryptoKey, memory) := by
  rw [p256Pub, if_neg arguments, if_neg (Bool.eq_false_iff.mp apart), if_neg (by decide), given]
  cases valid : scalarValid scalar.toList with
  | false => exact ⟨rfl, rfl⟩
  | true =>
      rw [if_neg (by decide), if_pos rfl]
      change Serves (Step algorithms) state
        (pubWork (read (pubCleared memory x y) ⟨priv, p256ScalarLen⟩) >>= _) _
      rw [kept]
      refine (pubWork_serves valid).bind ?_
      rintro after attempt ⟨pairId, pub, fresh, whole, rfl, rfl⟩
      refine (keyDrop_serves (State.put_there state pairId _) _).bind ?_
      rintro after status ⟨rfl, rfl⟩
      rw [if_pos rfl]
      dsimp only
      rw [publishPoint_point whole]
      exact ⟨State.put_drop _ fresh, rfl⟩

theorem p256SignHash_serves {scalar digest : Bytes 32} (pointers : ¬ (priv = 0 ∨ hash = 0 ∨ sig = 0))
    (there : sigLen ≠ 0) (lengthApart : signLenOverlap target priv hash sig sigLen = false)
    (apart : signOverlap target priv hash sig = false)
    (given : read (storeSize target memory sigLen 0) ⟨priv, p256ScalarLen⟩ = scalar.toList)
    (hashed : read (storeSize target memory sigLen 0) ⟨hash, sha256Len⟩ = digest.toList)
    (valid : scalarValid scalar.toList = true) :
    Serves (Step algorithms) state (p256SignHash target true memory priv hash sig p256DerMax sigLen)
      fun after out => after = state ∧ ∃ r s, r < 2 ^ 256 ∧ s < 2 ^ 256 ∧
        algorithms.verifies (algorithms.publicKey scalar) digest (signatureDer r s) ∧
        out = (cryptoOk, storeSize target
          (write (storeSize target memory sigLen 0) sig (signatureDer r s)) sigLen
          (signatureDer r s).length) := by
  have checked : scalarValid (read (storeSize target memory sigLen 0) ⟨priv, p256ScalarLen⟩) = true := by
    rw [given]
    exact valid
  rw [p256SignHash, if_neg there, if_neg pointers, if_neg (Bool.eq_false_iff.mp lengthApart)]
  dsimp only
  rw [if_neg (lt_irrefl p256DerMax), if_neg (Bool.eq_false_iff.mp apart), if_neg (by decide),
    if_neg (by simp [checked]), given, hashed]
  refine (signWork_serves valid).bind ?_
  rintro after attempt ⟨pairId, der, r, s, fresh, small, small', signed, bytes, rfl, rfl⟩
  refine (keyDrop_serves (State.put_there state pairId _) _).bind ?_
  rintro after status ⟨rfl, rfl⟩
  rw [if_pos rfl]
  dsimp only
  rw [bytes]
  exact ⟨State.put_drop _ fresh, r, s, small, small', signed, rfl⟩

theorem p256SignHash_refuses {scalar : Bytes 32} (pointers : ¬ (priv = 0 ∨ hash = 0 ∨ sig = 0))
    (there : sigLen ≠ 0) (lengthApart : signLenOverlap target priv hash sig sigLen = false)
    (apart : signOverlap target priv hash sig = false)
    (given : read (storeSize target memory sigLen 0) ⟨priv, p256ScalarLen⟩ = scalar.toList)
    (invalid : scalarValid scalar.toList = false) :
    Serves (Step algorithms) state (p256SignHash target true memory priv hash sig p256DerMax sigLen)
      fun after out => after = state ∧ out.1 = cryptoKey := by
  have checked : scalarValid (read (storeSize target memory sigLen 0) ⟨priv, p256ScalarLen⟩) = false := by
    rw [given]
    exact invalid
  rw [p256SignHash, if_neg there, if_neg pointers, if_neg (Bool.eq_false_iff.mp lengthApart)]
  dsimp only
  rw [if_neg (lt_irrefl p256DerMax), if_neg (Bool.eq_false_iff.mp apart), if_neg (by decide),
    if_pos (by simp [checked])]
  exact ⟨rfl, rfl⟩

end Functions

/-! `p256_verify_hash`. -/

def IsPublic (algorithms : Algorithms) (owner : Bytes 32 × Bytes 32) : Prop :=
  ∃ scalar : Bytes 32, scalarValid scalar.toList = true ∧ owner = algorithms.publicKey scalar

theorem verifyRaw_serves {r s : Nat} (small : r < 2 ^ 256) (small' : s < 2 ^ 256) :
    Serves (Step algorithms) state (verifyRaw (signatureDer r s)) fun after raw =>
      after = state ∧ raw = some (rawSignature r s) := by
  rw [verifyRaw]
  refine serves_accepted ⟨rfl, le_rfl, r, s, small, small', rfl⟩ ?_
  rintro ⟨status, raw, rawLen⟩ after ⟨rfl, rfl, rfl, told⟩
  have bytes := told r s small small' rfl
  dsimp only
  rw [if_neg (not_not.mpr rfl), bytes]
  refine serves_accepted ⟨rfl, length_rawSignature r s, le_rfl⟩ ?_
  rintro ⟨status, canonical, canonicalLen⟩ after ⟨rfl, rfl, told⟩
  rcases told r s small small' rfl with ⟨rfl, same⟩
  dsimp only
  rw [if_neg (by simp [same])]
  exact ⟨rfl, rfl⟩

/-- The key is held, and the signature checked under it, or there is no such key. -/
def Verdict (algorithms : Algorithms) (state : State) (owner : Bytes 32 × Bytes 32) (digest : Bytes 32)
    (r s : Nat) (after : State) (out : Int × KeyId × Bool) : Prop :=
  (out.2.2 = true ∧ IsPublic algorithms owner ∧
    (∃ entry, state.keys out.2.1 = none ∧ after = state.put out.2.1 entry) ∧
    (out.1 = psaSuccess ↔ algorithms.verifies owner digest (signatureDer r s))) ∨
  (out.2.2 = false ∧ ¬ IsPublic algorithms owner ∧ after = state ∧ out.1 ≠ psaSuccess)

theorem verifyWork_serves (owner : Bytes 32 × Bytes 32) (digest : Bytes 32) {r s : Nat}
    (small : r < 2 ^ 256) (small' : s < 2 ^ 256) :
    Serves (Step algorithms) state
      (verifyWork owner.1.toList owner.2.toList digest.toList (rawSignature r s))
      (Verdict algorithms state owner digest r s) := by
  rw [verifyWork, publicImport]
  by_cases known : IsPublic algorithms owner
  · have formed : WellFormed algorithms publicAttr (point owner) := by
      rcases known with ⟨scalar, valid, rfl⟩
      exact ⟨scalar, valid, rfl⟩
    refine serves_accepted formed ?_
    rintro ⟨status, keyId⟩ after ⟨rfl, fresh, rfl⟩
    have held := State.put_key state keyId ⟨publicAttr, point owner⟩
    dsimp only
    rw [whenOk_success]
    refine serves_accepted ⟨⟨_, held, rfl, rfl⟩, List.Vector.toList_length digest⟩ ?_
    rintro status after ⟨rfl, told⟩
    exact Or.inl ⟨rfl, known, ⟨_, fresh, rfl⟩, told _ owner digest r s held rfl rfl small small' rfl⟩
  · refine serves_perform ?_
    rintro ⟨status, keyId⟩ after step
    cases step with
    | served accepts =>
        rcases accepts with ⟨scalar, valid, same⟩
        exact absurd ⟨scalar, valid, point_injective same⟩ known
    | refused bad failed =>
        have failed : status ≠ psaSuccess := failed
        have skipped : ∀ next : Psa Int, whenOk status next = pure status := fun _ => if_neg failed
        dsimp only
        rw [skipped]
        exact Or.inr ⟨decide_eq_false failed, known, rfl, failed⟩

/-- `p256_verify_hash` accepts the signatures that verify under a key that there is, in their one
encoding, and no other bytes. -/
theorem signatures_are_checked (algorithms : Algorithms) (state : State) (memory : Space)
    {x y hash sig sigLen : Nat} (arguments : ¬ (x = 0 ∨ y = 0 ∨ hash = 0 ∨ (sig = 0 ∧ sigLen ≠ 0)))
    (owner : Bytes 32 × Bytes 32) (digest : Bytes 32)
    (first : read memory ⟨x, p256ScalarLen⟩ = owner.1.toList)
    (second : read memory ⟨y, p256ScalarLen⟩ = owner.2.toList)
    (hashed : read memory ⟨hash, sha256Len⟩ = digest.toList) :
    Serves (Step algorithms) state (p256VerifyHash true memory x y hash sig sigLen) fun after out =>
      after = state ∧ out.2 = memory ∧
        (out.1 = cryptoOk ↔ IsPublic algorithms owner ∧ ∃ r s, r < 2 ^ 256 ∧ s < 2 ^ 256 ∧
          read memory ⟨sig, sigLen⟩ = signatureDer r s ∧
          algorithms.verifies owner digest (signatureDer r s)) := by
  rcases derStrict_iff (read memory ⟨sig, sigLen⟩) with ⟨accepted, same, meaning⟩
  have strict := same []
  rw [List.append_nil, length_read] at strict
  rw [p256VerifyHash, if_neg arguments, if_neg (by decide), strict]
  cases accepted with
  | false =>
      have refused : cryptoDer ≠ cryptoOk := by decide
      rw [if_pos (by decide)]
      refine ⟨rfl, rfl, iff_of_false refused ?_⟩
      rintro ⟨-, r, s, small, small', der, -⟩
      exact Bool.false_ne_true (meaning.mpr ⟨r, s, small, small', der⟩)
  | true =>
      rcases meaning.mp rfl with ⟨r, s, small, small', der⟩
      rw [if_neg (not_not.mpr rfl), der]
      refine (verifyRaw_serves small small').bind ?_
      rintro after raw ⟨rfl, rfl⟩
      dsimp only
      rw [first, second, hashed]
      refine (verifyWork_serves owner digest small small').bind ?_
      rintro after ⟨status, keyId, live⟩ verdict
      have only : (∃ r' s', r' < 2 ^ 256 ∧ s' < 2 ^ 256 ∧ signatureDer r s = signatureDer r' s' ∧
          algorithms.verifies owner digest (signatureDer r' s')) ↔
          algorithms.verifies owner digest (signatureDer r s) := by
        constructor
        · rintro ⟨r', s', -, -, encoded, verified⟩
          rw [encoded]
          exact verified
        · intro verified
          exact ⟨r, s, small, small', rfl, verified⟩
      rw [only]
      dsimp only [Verdict] at verdict
      rcases verdict with ⟨rfl, known, ⟨entry, fresh, rfl⟩, verified⟩ | ⟨rfl, unknown, rfl, failed⟩
      · refine (keyDrop_serves (State.put_there _ keyId entry) status).bind ?_
        rintro after left ⟨rfl, rfl⟩
        rw [State.put_drop entry fresh]
        by_cases good : left = psaSuccess
        · rw [if_neg (not_not.mpr good)]
          exact ⟨rfl, rfl, iff_of_true rfl ⟨known, verified.mp good⟩⟩
        · rw [if_pos good]
          refine ⟨rfl, rfl, ?_⟩
          dsimp only
          rw [if_neg (by decide), fromPsa_ok]
          exact iff_of_false good fun both => good (verified.mpr both.2)
      · have dropped : Serves (Step algorithms) after (keyDrop keyId false status) fun last left =>
            last = after ∧ left = status := by
          rw [keyDrop, if_neg Bool.false_ne_true]
          exact ⟨rfl, rfl⟩
        refine dropped.bind ?_
        rintro after left ⟨rfl, rfl⟩
        rw [if_pos failed]
        refine ⟨rfl, rfl, ?_⟩
        dsimp only
        rw [if_pos (by decide), keyError_ok]
        exact iff_of_false failed fun both => unknown both.1

/-- Every signature is that of the numbers 1 and 1. -/
def plainAlgorithms : Algorithms where
  publicKey scalar := (scalar, scalar)
  verifies _ _ signature := signature = signatureDer 1 1
  scheme :=
    { sealed := fun _ _ _ plain => (plain, List.Vector.replicate 16 0)
      sealed_injective := fun _ _ _ _ _ same => congrArg Prod.fst same }

def signedMemory : Space := write (fun _ => 1) 400 (signatureDer 1 1)

theorem sample_signature_is_checked :
    Serves (Step plainAlgorithms) {} (p256VerifyHash true signedMemory 100 200 300 400 8) fun after out =>
      after = {} ∧ out = (cryptoOk, signedMemory) := by
  let ones : Bytes 32 := List.Vector.replicate 32 1
  have before : ∀ first, first + 32 ≤ 400 → read signedMemory ⟨first, 32⟩ = ones.toList := by
    intro first low
    rw [signedMemory, read_write_apart _ _ _ _ (Or.inl low)]
    rfl
  have encoded : read signedMemory ⟨400, 8⟩ = signatureDer 1 1 := by
    have length : (signatureDer 1 1).length = 8 := by decide
    have whole := read_write (fun _ => 1) 400 (signatureDer 1 1)
    rw [length] at whole
    exact whole
  refine (signatures_are_checked plainAlgorithms {} signedMemory (by decide) (ones, ones) ones
    (before 100 (by decide)) (before 200 (by decide)) (before 300 (by decide))).imp ?_
  rintro after out ⟨same, kept, verdict⟩
  have accepted : out.1 = cryptoOk :=
    verdict.mpr ⟨⟨ones, by decide, rfl⟩, 1, 1, by norm_num, by norm_num, encoded, rfl⟩
  exact ⟨same, Prod.ext accepted kept⟩

end P4Key.Crypto.Ideal
