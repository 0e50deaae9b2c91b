import P4Key.Crypto.Outcomes

/-! When a function gives its output to the caller. -/

namespace P4Key.Crypto

open Memory AddressSpace CallProgram

/-- A success comes with what was published, and an error behind the checks with blank outputs. -/
structure Released (passed : Prop) (published : List (Event Reply) → Space → Prop)
    (outputs : List Range) (events : List (Event Reply)) (result : Int) (left : Space) : Prop where
  success : result = cryptoOk → published events left
  failure : passed → result ≠ cryptoOk → ∀ output ∈ outputs, read left output = zeros output.len

theorem Checked.released {code : Int} {refused overlaps ready passed : Prop} {memory left : Space}
    {ran : List (Event Reply) → Int → Space → Prop} {events : List (Event Reply)} {result : Int}
    {published : List (Event Reply) → Space → Prop} {outputs : List Range}
    (checked : Checked code refused overlaps ready memory ran events result left)
    (error : code ≠ cryptoOk) (checks : passed → ¬ refused ∧ ¬ overlaps ∧ ready)
    (behind : ran events result left → Released passed published outputs events result left) :
    Released passed published outputs events result left := by
  cases checked with
  | refused argument =>
    exact ⟨fun ok => absurd ok error, fun passed => absurd argument (checks passed).1⟩
  | overlap _ shared =>
    exact ⟨fun ok => absurd ok (by decide), fun passed => absurd shared (checks passed).2.1⟩
  | state _ _ unready =>
    exact ⟨fun ok => absurd ok (by decide), fun passed => absurd (checks passed).2.2 unready⟩
  | ran _ _ _ run => exact behind run

theorem GcmRan.published {memory written left : Space} {ideal : KeyId → List (Event Reply)}
    {ranges : List Range} {wipe : Space → Space} {events : List (Event Reply)} {result : Int}
    (ran : GcmRan memory ideal written ranges wipe events result left) (ok : result = cryptoOk) :
    ∃ keyId, events = ideal keyId ++ dropEvents [keyId] ∧ left = written := by
  obtain ⟨body, tail, attempt, split, worked, ended, -⟩ := ran
  rcases ended with ⟨-, success, same, last⟩ | ⟨failed, -⟩
  · refine ⟨attempt.keyId, ?_, same.trans (worked.left success)⟩
    rw [split, worked.trail.passed success, last]
    rfl
  · exact absurd ok failed

theorem GcmRan.wiped {memory written left : Space} {ideal : KeyId → List (Event Reply)}
    {ranges : List Range} {wipe : Space → Space} {events : List (Event Reply)} {result : Int}
    (ran : GcmRan memory ideal written ranges wipe events result left) (error : result ≠ cryptoOk) :
    ∃ before, left = wipe before := by
  obtain ⟨body, tail, attempt, -, -, ended, -⟩ := ran
  rcases ended with ⟨ok, -⟩ | ⟨-, -, same⟩
  · exact absurd ok error
  · exact ⟨attempt.memory, same⟩

section Functions

variable (target : Target) (memory : Space)

/-- The history and the memory of a success of `gcm_open`: every call succeeds, the body has the
length of the ciphertext, nothing is left over, and the key goes at the first attempt. -/
def OpenPublished (key nonce aad aadLen cipher cipherLen tag plain : Nat)
    (events : List (Event Reply)) (left : Space) : Prop :=
  ∃ (keyId : KeyId) (body : Bytes cipherLen) (tail : Bytes gcmTagLen),
    events = openEvents memory key nonce aad aadLen cipher cipherLen tag plain body tail keyId ++
      dropEvents [keyId] ∧ left = write memory plain body.toList

def SealPublished (key nonce aad aadLen plain plainLen cipher tag : Nat)
    (events : List (Event Reply)) (left : Space) : Prop :=
  ∃ (keyId : KeyId) (body : Bytes plainLen) (tail tagBytes : Bytes gcmTagLen),
    events = sealEvents memory key nonce aad aadLen plain plainLen body tail tagBytes keyId ++
      dropEvents [keyId] ∧ left = write (write memory cipher body.toList) tag tagBytes.toList

def MakePublished (priv x y : Nat) (events : List (Event Reply)) (left : Space) : Prop :=
  ∃ attempt : MakeAttempt,
    events = makeEvents attempt ++ dropEvents [attempt.checkId, attempt.pairId] ∧
    attempt.pub.head = 0x04 ∧ scalarValid attempt.priv.toList = true ∧
    left = publishPoint (write (makeCleared memory priv x y) priv attempt.priv.toList) x y
      attempt.pub

def PubPublished (priv x y : Nat) (events : List (Event Reply)) (left : Space) : Prop :=
  ∃ attempt : PubAttempt,
    events = pubEvents (read (pubCleared memory x y) ⟨priv, p256ScalarLen⟩) attempt ++
      dropEvents [attempt.pairId] ∧
    attempt.pub.head = 0x04 ∧ left = publishPoint (pubCleared memory x y) x y attempt.pub

theorem gcmOpen_released (ready : Bool) (key nonce aad aadLen cipher cipherLen tag plain : Nat) :
    Ends [] (gcmOpen target ready memory key nonce aad aadLen cipher cipherLen tag plain)
      fun events (result, left) => Released
        (¬ OpenBadArg key nonce aad aadLen cipher cipherLen tag plain ∧
          ¬ openOverlap target key nonce aad aadLen cipher cipherLen tag plain = true ∧
          ready = true)
        (OpenPublished memory key nonce aad aadLen cipher cipherLen tag plain)
        [⟨plain, cipherLen⟩] events result left := by
  apply (gcmOpen_ends target ready memory key nonce aad aadLen cipher cipherLen tag plain).imp
  intro events (result, left) ended
  apply ended.released (by decide) id
  intro ⟨body, tail, ran⟩
  constructor
  · intro ok
    obtain ⟨keyId, history, written⟩ := ran.published ok
    exact ⟨keyId, body, tail, history, written⟩
  · intro _ error output listed
    obtain ⟨before, rfl⟩ := ran.wiped error
    rw [List.mem_singleton.mp listed]
    exact (openWipe_blank plain cipherLen before).read

theorem gcmSeal_released (ready : Bool) (key nonce aad aadLen plain plainLen cipher tag : Nat) :
    Ends [] (gcmSeal target ready memory key nonce aad aadLen plain plainLen cipher tag)
      fun events (result, left) => Released
        (¬ SealBadArg key nonce aad aadLen plain plainLen cipher tag ∧
          ¬ sealOverlap target key nonce aad aadLen plain plainLen cipher tag = true ∧
          ready = true)
        (SealPublished memory key nonce aad aadLen plain plainLen cipher tag)
        [⟨cipher, plainLen⟩, ⟨tag, gcmTagLen⟩] events result left := by
  apply (gcmSeal_ends target ready memory key nonce aad aadLen plain plainLen cipher tag).imp
  intro events (result, left) ended
  apply ended.released (by decide) id
  intro ⟨body, tail, tagBytes, ran⟩
  constructor
  · intro ok
    obtain ⟨keyId, history, written⟩ := ran.published ok
    exact ⟨keyId, body, tail, tagBytes, history, written⟩
  · intro _ error
    obtain ⟨before, rfl⟩ := ran.wiped error
    obtain ⟨first, second⟩ := sealWipe_blank cipher plainLen tag before
    exact List.forall_mem_cons.mpr ⟨first.read, List.forall_mem_singleton.mpr second.read⟩

theorem p256Make_released (ready : Bool) (priv x y : Nat) :
    Ends [] (p256Make target ready memory priv x y) fun events (result, left) => Released
      (¬ (priv = 0 ∨ x = 0 ∨ y = 0) ∧ ¬ makeOverlap target priv x y = true ∧ ready = true)
      (MakePublished memory priv x y)
      [⟨priv, p256ScalarLen⟩, ⟨x, p256ScalarLen⟩, ⟨y, p256ScalarLen⟩] events result left := by
  apply (p256Make_ends target ready memory priv x y).imp
  intro events (result, left) ended
  apply ended.released (by decide) id
  intro ⟨attempt, run, formed, published, cleared⟩
  obtain ⟨body, tail, split, trail, -, done, -⟩ := run
  constructor
  · intro ok
    obtain ⟨success, last⟩ := done ok
    obtain ⟨pair, check, form, valid⟩ := formed success
    refine ⟨attempt, ?_, form, valid, published ok⟩
    rw [split, trail.passed success, last, MakeAttempt.drops, pair, check]
    rfl
  · intro _ error
    have blank := blank_clear memory ⟨priv, p256ScalarLen⟩
    have blank' := blank_clear (clear memory ⟨priv, p256ScalarLen⟩) ⟨x, p256ScalarLen⟩
    rw [cleared error, makeCleared]
    exact List.forall_mem_cons.mpr ⟨((blank.clear _).clear _).read, List.forall_mem_cons.mpr
      ⟨(blank'.clear _).read, List.forall_mem_singleton.mpr (blank_clear _ _).read⟩⟩

theorem p256Pub_released (ready : Bool) (priv x y : Nat) :
    Ends [] (p256Pub target ready memory priv x y) fun events (result, left) => Released
      (¬ (priv = 0 ∨ x = 0 ∨ y = 0) ∧ ¬ pubOverlap target priv x y = true ∧ ready = true ∧
        scalarValid (read memory ⟨priv, p256ScalarLen⟩) = true)
      (PubPublished memory priv x y)
      [⟨x, p256ScalarLen⟩, ⟨y, p256ScalarLen⟩] events result left := by
  apply (p256Pub_ends target ready memory priv x y).imp
  intro events (result, left) ended
  apply ended.released (by decide) fun ⟨pointers, apart, set, _⟩ => ⟨pointers, apart, set⟩
  intro ran
  rcases ran with ⟨invalid, -, refused, -⟩ | ⟨-, attempt, run, formed, published, cleared⟩
  · exact ⟨fun ok => absurd (refused.symm.trans ok) (by decide),
      fun passed => absurd (invalid.symm.trans passed.2.2.2) (by decide)⟩
  · obtain ⟨body, tail, split, trail, -, done, -⟩ := run
    constructor
    · intro ok
      obtain ⟨success, last⟩ := done ok
      obtain ⟨pair, form⟩ := formed success
      refine ⟨attempt, ?_, form, published ok⟩
      rw [split, trail.passed success, last, pair]
      rfl
    · intro _ error
      have blank := blank_clear memory ⟨x, p256ScalarLen⟩
      rw [cleared error, pubCleared]
      exact List.forall_mem_cons.mpr
        ⟨(blank.clear _).read, List.forall_mem_singleton.mpr (blank_clear _ _).read⟩

/-- What `p256_sign_hash` leaves: behind a success a strict DER signature of the length it reports,
behind an error that is no overlap a length of zero and nothing else changed. -/
structure SignReleased (priv hash sig sigLen : Nat) (result : Int) (left : Space) : Prop where
  success : result = cryptoOk → sig ≤ target.uintptrMax → sigLen ≤ target.uintptrMax →
    8 ≤ loadSize target left sigLen ∧ loadSize target left sigLen ≤ 72 ∧
      derStrict (read left ⟨sig, loadSize target left sigLen⟩) (loadSize target left sigLen) =
        some true
  failure : result ≠ cryptoOk → result ≠ cryptoOverlap → sigLen ≠ 0 →
    loadSize target left sigLen = 0 ∧ Keeps [⟨sigLen, target.sizeLen⟩] memory left
  apart : result ≠ cryptoOk → result ≠ cryptoOverlap → sigLen ≠ 0 →
    ¬ (priv = 0 ∨ hash = 0 ∨ sig = 0) → sig ≤ target.uintptrMax → sigLen ≤ target.uintptrMax →
    read left ⟨sig, p256DerMax⟩ = read memory ⟨sig, p256DerMax⟩

variable {target memory}

theorem signature_apart {priv hash sig sigLen : Nat}
    (apart : ¬ signLenOverlap target priv hash sig sigLen = true) (pointer : target.Points sig)
    (pointer' : target.Points sigLen) {len : Nat} (short : len ≤ p256DerMax) :
    ¬ Range.Meets ⟨sig, len⟩ ⟨sigLen, target.sizeLen⟩ := by
  intro ⟨address, ⟨low, high⟩, there⟩
  have meets : Range.Meets ⟨sigLen, target.sizeLen⟩ ⟨sig, p256DerMax⟩ :=
    ⟨address, there, low, Nat.lt_of_lt_of_le high (Nat.add_le_add_left short sig)⟩
  have found := overlap_of_meets target pointer' pointer meets
  apply apart
  simp only [signLenOverlap, Bool.or_eq_true]
  exact Or.inr found

theorem Signed.error {ready : Bool} {priv hash sig sigCap sigLen : Nat}
    {events : List (Event Reply)} {result : Int} {left : Space}
    (ended : Signed target ready memory priv hash sig sigCap sigLen events result left)
    (error : result ≠ cryptoOk) (other : result ≠ cryptoOverlap) (length : sigLen ≠ 0) :
    left = storeSize target memory sigLen 0 ∧ (¬ (priv = 0 ∨ hash = 0 ∨ sig = 0) →
      ¬ signLenOverlap target priv hash sig sigLen = true) := by
  cases ended with
  | noLength null => exact absurd null length
  | badArg _ null => exact ⟨rfl, absurd null⟩
  | overlap => exact absurd rfl other
  | checked _ _ apart rest =>
    refine ⟨?_, fun _ => apart⟩
    cases rest with
    | refused => rfl
    | overlap => exact absurd rfl other
    | state => rfl
    | ran _ _ _ run =>
      rcases run with ⟨-, -, -, same⟩ | ⟨-, _, _, -, -, -, cleared⟩
      · exact same
      · exact cleared error

theorem Signed.ok {ready : Bool} {priv hash sig sigCap sigLen : Nat}
    {events : List (Event Reply)} {result : Int} {left : Space}
    (ended : Signed target ready memory priv hash sig sigCap sigLen events result left)
    (ok : result = cryptoOk) :
    ∃ (der : Bytes p256DerMax) (derLen : Nat), sig ≠ 0 ∧ sigLen ≠ 0 ∧
      ¬ signLenOverlap target priv hash sig sigLen = true ∧
      derStrict der.toList derLen = some true ∧
      left = storeSize target (write (storeSize target memory sigLen 0) sig
        (der.toList.take derLen)) sigLen derLen := by
  cases ended with
  | noLength => exact absurd ok (by decide)
  | badArg => exact absurd ok (by decide)
  | overlap => exact absurd ok (by decide)
  | checked length pointers apart rest =>
    cases rest with
    | refused => exact absurd ok (by decide)
    | overlap => exact absurd ok (by decide)
    | state => exact absurd ok (by decide)
    | ran _ _ _ run =>
      rcases run with ⟨-, -, refused, -⟩ | ⟨-, attempt, raw, ran, formed, written, -⟩
      · exact absurd (refused.symm.trans ok) (by decide)
      · obtain ⟨_, _, _, _, _, done, _⟩ := ran
        exact ⟨attempt.der, attempt.derLen, fun null => pointers (Or.inr (Or.inr null)), length,
          apart, (formed (done ok).1).2, written ok⟩

variable (target memory)

theorem p256SignHash_released (ready : Bool) (priv hash sig sigCap sigLen : Nat) :
    Ends [] (p256SignHash target ready memory priv hash sig sigCap sigLen)
      fun _ (result, left) => SignReleased target memory priv hash sig sigLen result left := by
  apply (p256SignHash_ends target ready memory priv hash sig sigCap sigLen).imp
  intro events (result, left) ended
  have listed : (⟨sigLen, target.sizeLen⟩ : Range) ∈ [⟨sigLen, target.sizeLen⟩] :=
    List.mem_singleton_self _
  constructor
  · intro ok inside inside'
    obtain ⟨der, derLen, pointer, pointer', apart, strict, rfl⟩ := ended.ok ok
    obtain ⟨low, high⟩ := derStrict_bounds strict
    have small : derLen < 256 ^ target.sizeLen :=
      calc
        derLen < 256 ^ 1 := by omega
        _ ≤ 256 ^ target.sizeLen := Nat.pow_le_pow_right (by decide) target.counts
    rw [loadSize_storeSize target _ sigLen small]
    refine ⟨low, high, ?_⟩
    have length : (der.toList.take derLen).length = derLen := by
      rw [List.length_take, List.Vector.toList_length]
      exact Nat.min_eq_left high
    have written := read_write (storeSize target memory sigLen 0) sig (der.toList.take derLen)
    rw [length] at written
    have around := storeSize_keeps
      (write (storeSize target memory sigLen 0) sig (der.toList.take derLen)) derLen listed
    have kept := around.read (List.forall_mem_singleton.mpr
      (signature_apart apart ⟨pointer, inside⟩ ⟨pointer', inside'⟩ high))
    rw [kept, written, derStrict_take _ _ (by rw [List.Vector.toList_length]; exact high)]
    exact strict
  · intro error other length
    rw [(ended.error error other length).1]
    exact ⟨loadSize_storeSize target memory sigLen (Nat.pow_pos (by decide)),
      storeSize_keeps memory 0 listed⟩
  · intro error other length pointers inside inside'
    obtain ⟨rfl, apart⟩ := ended.error error other length
    have pointer : sig ≠ 0 := fun null => pointers (Or.inr (Or.inr null))
    exact (storeSize_keeps memory 0 listed).read (List.forall_mem_singleton.mpr
      (signature_apart (apart pointers) ⟨pointer, inside⟩ ⟨length, inside'⟩ (Nat.le_refl _)))

end Functions

/-- Output goes to the caller on full success only. -/
theorem outputs_released_on_success (target : Target) (ready : Bool) (memory : Space) :
    (∀ key nonce aad aadLen cipher cipherLen tag plain events result left,
      Execution (gcmOpen target ready memory key nonce aad aadLen cipher cipherLen tag plain) events
          (result, left) →
        Released
          (¬ OpenBadArg key nonce aad aadLen cipher cipherLen tag plain ∧
            ¬ openOverlap target key nonce aad aadLen cipher cipherLen tag plain = true ∧
            ready = true)
          (OpenPublished memory key nonce aad aadLen cipher cipherLen tag plain)
          [⟨plain, cipherLen⟩] events result left) ∧
    (∀ key nonce aad aadLen plain plainLen cipher tag events result left,
      Execution (gcmSeal target ready memory key nonce aad aadLen plain plainLen cipher tag) events
          (result, left) →
        Released
          (¬ SealBadArg key nonce aad aadLen plain plainLen cipher tag ∧
            ¬ sealOverlap target key nonce aad aadLen plain plainLen cipher tag = true ∧
            ready = true)
          (SealPublished memory key nonce aad aadLen plain plainLen cipher tag)
          [⟨cipher, plainLen⟩, ⟨tag, gcmTagLen⟩] events result left) ∧
    (∀ priv x y events result left,
      Execution (p256Make target ready memory priv x y) events (result, left) →
        Released
          (¬ (priv = 0 ∨ x = 0 ∨ y = 0) ∧ ¬ makeOverlap target priv x y = true ∧ ready = true)
          (MakePublished memory priv x y)
          [⟨priv, p256ScalarLen⟩, ⟨x, p256ScalarLen⟩, ⟨y, p256ScalarLen⟩] events result left) ∧
    (∀ priv x y events result left,
      Execution (p256Pub target ready memory priv x y) events (result, left) →
        Released
          (¬ (priv = 0 ∨ x = 0 ∨ y = 0) ∧ ¬ pubOverlap target priv x y = true ∧ ready = true ∧
            scalarValid (read memory ⟨priv, p256ScalarLen⟩) = true)
          (PubPublished memory priv x y)
          [⟨x, p256ScalarLen⟩, ⟨y, p256ScalarLen⟩] events result left) ∧
    ∀ priv hash sig sigCap sigLen events result left,
      Execution (p256SignHash target ready memory priv hash sig sigCap sigLen) events
          (result, left) →
        SignReleased target memory priv hash sig sigLen result left := by
  refine ⟨?_, ?_, ?_, ?_, ?_⟩
  · intro key nonce aad aadLen cipher cipherLen tag plain events result left run
    exact (gcmOpen_released target memory ready key nonce aad aadLen cipher cipherLen tag plain).post run
  · intro key nonce aad aadLen plain plainLen cipher tag events result left run
    exact (gcmSeal_released target memory ready key nonce aad aadLen plain plainLen cipher tag).post run
  · intro priv x y events result left run
    exact (p256Make_released target memory ready priv x y).post run
  · intro priv x y events result left run
    exact (p256Pub_released target memory ready priv x y).post run
  · intro priv hash sig sigCap sigLen events result left run
    exact (p256SignHash_released target memory ready priv hash sig sigCap sigLen).post run

/-- A PSA in which every call succeeds. Its signatures are `r = 7` and `s = 8`. -/
def smoothReplies : (c : Call) → Reply c
  | .importKey _ _ => (psaSuccess, 7)
  | .generateKey _ => (psaSuccess, 7)
  | .exportKey _ size => (psaSuccess, List.Vector.replicate _ 1, size)
  | .exportPublicKey _ size => (psaSuccess, List.Vector.replicate _ 4, size)
  | .signHash _ _ size => (psaSuccess, List.Vector.replicate _ 0, size)
  | .aeadUpdate _ size => (psaSuccess, List.Vector.replicate _ 0, size)
  | .aeadFinish _ tagSize =>
    (psaSuccess, (List.Vector.replicate _ 0, 0), List.Vector.replicate _ 0, tagSize)
  | .aeadVerify _ _ => (psaSuccess, List.Vector.replicate _ 0, 0)
  | .rawToDer _ _ size =>
    (psaSuccess, load size [0x30, 0x06, 0x02, 0x01, 0x07, 0x02, 0x01, 0x08] 0, 8)
  | .derToRaw _ _ size => (psaSuccess, List.Vector.replicate _ 0, size)
  | .destroyKey _ => psaSuccess
  | .verifyHash _ _ _ => psaSuccess
  | .aeadEncryptSetup _ => psaSuccess
  | .aeadDecryptSetup _ => psaSuccess
  | .aeadSetNonce _ => psaSuccess
  | .aeadSetLengths _ _ => psaSuccess
  | .aeadUpdateAd _ => psaSuccess
  | .aeadAbort => psaSuccess

def smoothSign : Psa (Int × Space) := p256SignHash esp32p4 true (fun _ => 1) 100 200 300 72 400

def smoothOpen : Psa (Int × Space) := gcmOpen esp32p4 true (fun _ => 1) 100 200 0 0 300 1 400 500

/-- There the ciphertext opens after the whole history, and the hash is signed. -/
theorem outputs_released_on_success_smooth :
    OpenPublished (fun _ => 1) 100 200 0 0 300 1 400 500 (smoothOpen.trace smoothReplies)
      (smoothOpen.value smoothReplies).2 ∧
    derStrict (read (smoothSign.value smoothReplies).2 ⟨300, 8⟩) 8 = some true := by
  obtain ⟨opens, -, -, -, signs⟩ := outputs_released_on_success esp32p4 true fun _ => 1
  have opened := opens 100 200 0 0 300 1 400 500 (smoothOpen.trace smoothReplies)
    (smoothOpen.value smoothReplies).1 (smoothOpen.value smoothReplies).2
    (execution_value smoothReplies smoothOpen)
  have signed := signs 100 200 300 72 400 (smoothSign.trace smoothReplies)
    (smoothSign.value smoothReplies).1 (smoothSign.value smoothReplies).2
    (execution_value smoothReplies smoothSign)
  have length : loadSize esp32p4 (smoothSign.value smoothReplies).2 400 = 8 := by decide +kernel
  obtain ⟨-, -, strict⟩ := signed.success (by decide +kernel) (by decide) (by decide)
  rw [length] at strict
  exact ⟨opened.success (by decide +kernel), strict⟩

/-- A library that is not ready leaves the plaintext as it was, and a NULL key leaves a length of
zero wherever the caller puts it, even inside the signature. -/
theorem outputs_untouched_before_checks :
    (∃ left, Execution (gcmOpen esp32p4 false (fun _ => 1) 100 200 0 0 300 1 400 500) []
        (cryptoState, left) ∧
      ¬ OpenBadArg 100 200 0 0 300 1 400 500 ∧
      openOverlap esp32p4 100 200 0 0 300 1 400 500 = false ∧
      read left ⟨500, 1⟩ ≠ zeros 1) ∧
    ∃ left, Execution (p256SignHash esp32p4 true (fun _ => 1) 0 200 300 72 300) []
        (cryptoBadArg, left) ∧
      read left ⟨300, p256DerMax⟩ ≠ read (fun _ => 1) ⟨300, p256DerMax⟩ := by
  refine ⟨⟨fun _ => 1, ?_, by decide, by decide, by decide⟩,
    ⟨storeSize esp32p4 (fun _ => 1) 300 0, ?_, by decide +kernel⟩⟩
  · rw [gcmOpen, if_neg (by decide), if_neg (by decide), if_pos (by decide)]
    exact .done _
  · rw [p256SignHash, if_neg (by decide), if_pos (by decide)]
    exact .done _

end P4Key.Crypto
