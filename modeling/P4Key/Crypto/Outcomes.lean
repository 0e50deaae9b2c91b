import P4Key.Crypto.Cleanup

/-! How each of the six functions can end.

The checks come first and answer without a call. Behind them the calls before
the cleanup, the cleanup, the result and the memory hang together as the
specification of the function says. -/

namespace P4Key.Crypto

open Memory AddressSpace CallProgram

/-- A function whose checks are its arguments, with the error `code`, then the overlaps and then
the state of the library. -/
inductive Checked (code : Int) (refused overlaps ready : Prop) (memory : Space)
    (ran : List (Event Reply) → Int → Space → Prop) : List (Event Reply) → Int → Space → Prop where
  | refused (argument : refused) : Checked code refused overlaps ready memory ran [] code memory
  | overlap (arguments : ¬ refused) (shared : overlaps) :
      Checked code refused overlaps ready memory ran [] cryptoOverlap memory
  | state (arguments : ¬ refused) (apart : ¬ overlaps) (unready : ¬ ready) :
      Checked code refused overlaps ready memory ran [] cryptoState memory
  | ran {events : List (Event Reply)} {result : Int} {left : Space} (arguments : ¬ refused)
      (apart : ¬ overlaps) (set : ready) (run : ran events result left) :
      Checked code refused overlaps ready memory ran events result left

theorem checked_ends {code : Int} {refused : Prop} [Decidable refused] {overlaps ready : Bool}
    {memory : Space} {work : Psa (Int × Space)} {ran : List (Event Reply) → Int → Space → Prop}
    (holds : Ends [] work fun events (result, left) => ran events result left) :
    Ends []
      (if refused then pure (code, memory)
      else if overlaps then pure (cryptoOverlap, memory)
      else if !ready then pure (cryptoState, memory)
      else work)
      fun events (result, left) =>
        Checked code refused (overlaps = true) (ready = true) memory ran events result left := by
  split
  · exact .refused ‹_›
  · rename_i arguments
    split
    · exact .overlap arguments ‹_›
    · rename_i apart
      split
      · rename_i unready
        exact .state arguments apart (by simpa using unready)
      · rename_i set
        apply holds.imp
        intro events (result, left) run
        exact .ran arguments apart (by simpa using set) run

theorem Checked.run_of_ok {code : Int} {refused overlaps ready : Prop} {memory left : Space}
    {ran : List (Event Reply) → Int → Space → Prop} {events : List (Event Reply)} {result : Int}
    (checked : Checked code refused overlaps ready memory ran events result left)
    (error : code ≠ cryptoOk) (ok : result = cryptoOk) : ran events result left := by
  cases checked with
  | refused => exact absurd ok error
  | overlap => exact absurd ok (by decide)
  | state => exact absurd ok (by decide)
  | ran _ _ _ run => exact run

/-- A GCM function behind its checks: `ideal` are the calls before the cleanup and `left` is the
memory if all go well. -/
def GcmRan (memory : Space) (ideal : KeyId → List (Event Reply)) (written : Space)
    (ranges : List Range) (wipe : Space → Space) (events : List (Event Reply)) (result : Int)
    (left : Space) : Prop :=
  ∃ body tail attempt, events = body ++ tail ∧
    Worked memory ideal written ranges body attempt ∧ Ended wipe attempt tail result left ∧
    Cleanup (liveKeys attempt.keyLive attempt.keyId) tail (result = cryptoOk)

section Functions

variable (target : Target) (ready : Bool) (memory : Space)

theorem gcmSeal_ends (key nonce aad aadLen plain plainLen cipher tag : Nat) :
    Ends [] (gcmSeal target ready memory key nonce aad aadLen plain plainLen cipher tag)
      fun events (result, left) =>
        Checked cryptoBadArg (SealBadArg key nonce aad aadLen plain plainLen cipher tag)
          (sealOverlap target key nonce aad aadLen plain plainLen cipher tag = true) (ready = true)
          memory (fun events result left =>
            ∃ (body : Bytes plainLen) (tail tagBytes : Bytes gcmTagLen),
              GcmRan memory
                (sealEvents memory key nonce aad aadLen plain plainLen body tail tagBytes)
                (write (write memory cipher body.toList) tag tagBytes.toList)
                [⟨cipher, plainLen⟩, ⟨tag, gcmTagLen⟩] (sealWipe cipher plainLen tag)
                events result left) events result left := by
  apply checked_ends
  apply (ensures_bind _ _ _).mpr
  apply (sealWork_worked memory key nonce aad aadLen plain plainLen cipher tag).imp
  intro body attempt ⟨bytes, tailBytes, tagBytes, worked⟩
  apply (aeadEnd_ends (sealWipe cipher plainLen tag) attempt worked.live body).imp
  intro events (result, left) ⟨tail, split, ended, cleanup⟩
  exact ⟨bytes, tailBytes, tagBytes, body, tail, attempt, split, worked, ended, cleanup⟩

theorem gcmOpen_ends (key nonce aad aadLen cipher cipherLen tag plain : Nat) :
    Ends [] (gcmOpen target ready memory key nonce aad aadLen cipher cipherLen tag plain)
      fun events (result, left) =>
        Checked cryptoBadArg (OpenBadArg key nonce aad aadLen cipher cipherLen tag plain)
          (openOverlap target key nonce aad aadLen cipher cipherLen tag plain = true) (ready = true)
          memory (fun events result left =>
            ∃ (body : Bytes cipherLen) (tail : Bytes gcmTagLen),
              GcmRan memory
                (openEvents memory key nonce aad aadLen cipher cipherLen tag plain body tail)
                (write memory plain body.toList) [⟨plain, cipherLen⟩] (openWipe plain cipherLen)
                events result left) events result left := by
  apply checked_ends
  apply (ensures_bind _ _ _).mpr
  apply (openWork_worked memory key nonce aad aadLen cipher cipherLen tag plain).imp
  intro body attempt ⟨bytes, tailBytes, worked⟩
  apply (aeadEnd_ends (openWipe plain cipherLen) attempt worked.live body).imp
  intro events (result, left) ⟨tail, split, ended, cleanup⟩
  exact ⟨bytes, tailBytes, body, tail, attempt, split, worked, ended, cleanup⟩

/-- The calls and the cleanup of a function that uses a pair or a public key: it drops its
keys in the order of `drops`. -/
def KeyRan (keys drops : List KeyId) (ideal : List (Event Reply)) (status result : Int)
    (events : List (Event Reply)) : Prop :=
  ∃ body tail, events = body ++ tail ∧ Trail keys ideal body status ∧
    (keys.Nodup → Cleanup keys tail (result = cryptoOk)) ∧
    (result = cryptoOk → status = psaSuccess ∧ tail = dropEvents drops) ∧ result ≠ cryptoOverlap

def MakeAttempt.drops (attempt : MakeAttempt) : List KeyId :=
  liveKeys attempt.checkLive attempt.checkId ++ liveKeys attempt.pairLive attempt.pairId

def makeCleared (priv x y : Nat) : Space :=
  clear (clear (clear memory ⟨priv, p256ScalarLen⟩) ⟨x, p256ScalarLen⟩) ⟨y, p256ScalarLen⟩

def MakeRan (priv x y : Nat) (events : List (Event Reply)) (result : Int) (left : Space) : Prop :=
  ∃ attempt, KeyRan attempt.keys attempt.drops (makeEvents attempt) attempt.status result events ∧
    (attempt.status = psaSuccess → attempt.pairLive = true ∧ attempt.checkLive = true ∧
      attempt.pub.head = 0x04 ∧ scalarValid attempt.priv.toList = true) ∧
    (result = cryptoOk → left = publishPoint
      (write (makeCleared memory priv x y) priv attempt.priv.toList) x y attempt.pub) ∧
    (result ≠ cryptoOk → left = makeCleared memory priv x y)

theorem p256Make_ends (priv x y : Nat) :
    Ends [] (p256Make target ready memory priv x y) fun events (result, left) =>
      Checked cryptoBadArg (priv = 0 ∨ x = 0 ∨ y = 0) (makeOverlap target priv x y = true)
        (ready = true) memory (MakeRan memory priv x y) events result left := by
  apply checked_ends
  apply (ensures_bind _ _ _).mpr
  apply makeWork_trail.imp
  intro body attempt ⟨trail, formed⟩
  apply (ensures_bind _ _ _).mpr
  apply (keyDrop_ends attempt.checkId attempt.checkLive attempt.status body).imp
  intro events₁ status₁ ⟨first, tail₁, split₁, cleanup₁, last₁⟩
  apply (ensures_bind _ _ _).mpr
  apply (keyDrop_ends attempt.pairId attempt.pairLive status₁ events₁).imp
  intro events₂ status₂ ⟨second, tail₂, split₂, cleanup₂, last₂⟩
  have calls : ∀ result, (result = cryptoOk ↔ status₂ = psaSuccess) → result ≠ cryptoOverlap →
      KeyRan attempt.keys attempt.drops (makeEvents attempt) attempt.status result events₂ := by
    intro result ok apart
    refine ⟨body, tail₁ ++ tail₂, by rw [split₂, split₁, List.append_assoc], trail, ?_, ?_, apart⟩
    · intro nodup
      rw [MakeAttempt.keys, List.nodup_append] at nodup
      have both := cleanup₁.append cleanup₂ fun key member other =>
        nodup.2.2 key other key member rfl
      have ordered : Cleanup attempt.keys (tail₁ ++ tail₂) _ := both.congr fun key => by
        rw [MakeAttempt.keys, List.mem_append, List.mem_append, or_comm]
      exact ordered.imp fun done => ⟨second (ok.mp done), ok.mp done⟩
    · intro done
      have success := second (ok.mp done)
      rw [last₁ success, last₂ (ok.mp done)]
      exact ⟨first success, List.map_append.symm⟩
  split
  · rename_i success
    exact ⟨attempt, calls cryptoOk (iff_of_true rfl success) (by decide), formed, fun _ => rfl,
      fun failed => absurd rfl failed⟩
  · rename_i failure
    exact ⟨attempt, calls _ (fromPsa_ok status₂) (fromPsa_overlap status₂), formed,
      fun ok => absurd ((fromPsa_ok status₂).mp ok) failure, fun _ => rfl⟩

theorem keyRan_drop {live : Bool} {key : KeyId} {ideal body events : List (Event Reply)}
    {status status' : Int} (trail : Trail (liveKeys live key) ideal body status)
    (dropped : (status' = psaSuccess → status = psaSuccess) ∧
      ∃ tail, events = body ++ tail ∧ Cleanup (liveKeys live key) tail (status' = psaSuccess) ∧
        (status' = psaSuccess → tail = dropEvents (liveKeys live key)))
    {result : Int} (ok : result = cryptoOk → status' = psaSuccess) (apart : result ≠ cryptoOverlap) :
    KeyRan (liveKeys live key) (liveKeys live key) ideal status result events := by
  obtain ⟨passed, tail, split, cleanup, last⟩ := dropped
  exact ⟨body, tail, split, trail, fun _ => cleanup.imp ok,
    fun done => ⟨passed (ok done), last (ok done)⟩, apart⟩

def pubCleared (x y : Nat) : Space :=
  clear (clear memory ⟨x, p256ScalarLen⟩) ⟨y, p256ScalarLen⟩

def PubRan (priv x y : Nat) (events : List (Event Reply)) (result : Int) (left : Space) : Prop :=
  (scalarValid (read memory ⟨priv, p256ScalarLen⟩) = false ∧ events = [] ∧ result = cryptoKey ∧
      left = memory) ∨
    (scalarValid (read memory ⟨priv, p256ScalarLen⟩) = true ∧
      ∃ attempt, KeyRan (liveKeys attempt.pairLive attempt.pairId)
          (liveKeys attempt.pairLive attempt.pairId)
          (pubEvents (read (pubCleared memory x y) ⟨priv, p256ScalarLen⟩) attempt)
          attempt.status result events ∧
        (attempt.status = psaSuccess → attempt.pairLive = true ∧ attempt.pub.head = 0x04) ∧
        (result = cryptoOk → left = publishPoint (pubCleared memory x y) x y attempt.pub) ∧
        (result ≠ cryptoOk → left = pubCleared memory x y))

theorem p256Pub_ends (priv x y : Nat) :
    Ends [] (p256Pub target ready memory priv x y) fun events (result, left) =>
      Checked cryptoBadArg (priv = 0 ∨ x = 0 ∨ y = 0) (pubOverlap target priv x y = true)
        (ready = true) memory (PubRan memory priv x y) events result left := by
  apply checked_ends
  split
  · rename_i invalid
    exact Or.inl ⟨by simpa using invalid, rfl, rfl, rfl⟩
  · rename_i valid
    apply (ensures_bind _ _ _).mpr
    apply (pubWork_trail _).imp
    intro body attempt ⟨trail, formed⟩
    apply (ensures_bind _ _ _).mpr
    apply (keyDrop_ends attempt.pairId attempt.pairLive attempt.status body).imp
    intro events status dropped
    split
    · rename_i success
      refine Or.inr ⟨by simpa using valid, attempt, ?_⟩
      exact ⟨keyRan_drop trail dropped (fun _ => success) (by decide), formed, fun _ => rfl,
        fun failed => absurd rfl failed⟩
    · rename_i failure
      refine Or.inr ⟨by simpa using valid, attempt, ?_⟩
      exact ⟨keyRan_drop trail dropped (keyError_ok status).mp (keyError_overlap status), formed,
        fun ok => absurd ((keyError_ok status).mp ok) failure, fun _ => rfl⟩

theorem p256Pub_valid {priv x y : Nat} {events : List (Event Reply)} {result : Int} {left : Space}
    (run : Execution (p256Pub target ready memory priv x y) events (result, left))
    (ok : result = cryptoOk) : scalarValid (read memory ⟨priv, p256ScalarLen⟩) = true := by
  have ran := Checked.run_of_ok ((p256Pub_ends target ready memory priv x y).post run) (by decide) ok
  rcases ran with ⟨-, -, refused, -⟩ | ⟨valid, -⟩
  · exact absurd (refused.symm.trans ok) (by decide)
  · exact valid

def SignRan (priv hash sig sigLen : Nat) (events : List (Event Reply)) (result : Int)
    (left : Space) : Prop :=
  (scalarValid (read memory ⟨priv, p256ScalarLen⟩) = false ∧ events = [] ∧ result = cryptoKey ∧
      left = memory) ∨
    (scalarValid (read memory ⟨priv, p256ScalarLen⟩) = true ∧
      ∃ attempt raw, KeyRan (liveKeys attempt.pairLive attempt.pairId)
          (liveKeys attempt.pairLive attempt.pairId)
          (signEvents (read memory ⟨priv, p256ScalarLen⟩) (read memory ⟨hash, sha256Len⟩) raw attempt)
          attempt.status result events ∧
        (attempt.status = psaSuccess → attempt.pairLive = true ∧
          derStrict attempt.der.toList attempt.derLen = some true) ∧
        (result = cryptoOk → left = storeSize target
          (write memory sig (attempt.der.toList.take attempt.derLen)) sigLen attempt.derLen) ∧
        (result ≠ cryptoOk → left = memory))

/-- The ways in which `p256_sign_hash` can end: it checks the length first, and clears it. -/
inductive Signed (priv hash sig sigCap sigLen : Nat) :
    List (Event Reply) → Int → Space → Prop where
  | noLength (null : sigLen = 0) : Signed priv hash sig sigCap sigLen [] cryptoBadArg memory
  | badArg (length : sigLen ≠ 0) (null : priv = 0 ∨ hash = 0 ∨ sig = 0) :
      Signed priv hash sig sigCap sigLen [] cryptoBadArg (storeSize target memory sigLen 0)
  | overlap (length : sigLen ≠ 0) (pointers : ¬ (priv = 0 ∨ hash = 0 ∨ sig = 0))
      (shared : signLenOverlap target priv hash sig sigLen = true) :
      Signed priv hash sig sigCap sigLen [] cryptoOverlap memory
  | checked {events : List (Event Reply)} {result : Int} {left : Space} (length : sigLen ≠ 0)
      (pointers : ¬ (priv = 0 ∨ hash = 0 ∨ sig = 0))
      (apart : ¬ signLenOverlap target priv hash sig sigLen = true)
      (rest : Checked cryptoSmall (sigCap < p256DerMax) (signOverlap target priv hash sig = true)
        (ready = true) (storeSize target memory sigLen 0)
        (SignRan target (storeSize target memory sigLen 0) priv hash sig sigLen)
        events result left) :
      Signed priv hash sig sigCap sigLen events result left

theorem p256SignHash_ends (priv hash sig sigCap sigLen : Nat) :
    Ends [] (p256SignHash target ready memory priv hash sig sigCap sigLen)
      fun events (result, left) =>
        Signed target ready memory priv hash sig sigCap sigLen events result left := by
  rw [p256SignHash]
  split
  · exact .noLength ‹_›
  · rename_i length
    split
    · exact .badArg length ‹_›
    · rename_i pointers
      split
      · exact .overlap length pointers ‹_›
      · rename_i apart
        refine Ensures.imp (checked_ends (?_ : Ends [] _ fun events (result, left) =>
          SignRan target (storeSize target memory sigLen 0) priv hash sig sigLen events result left))
          fun events (result, left) rest => .checked length pointers apart rest
        split
        · rename_i invalid
          exact Or.inl ⟨by simpa using invalid, rfl, rfl, rfl⟩
        · rename_i valid
          apply (ensures_bind _ _ _).mpr
          apply (signWork_trail _ _).imp
          intro body attempt ⟨raw, trail, formed⟩
          apply (ensures_bind _ _ _).mpr
          apply (keyDrop_ends attempt.pairId attempt.pairLive attempt.status body).imp
          intro events status dropped
          split
          · rename_i success
            refine Or.inr ⟨by simpa using valid, attempt, raw, ?_⟩
            exact ⟨keyRan_drop trail dropped (fun _ => success) (by decide), formed, fun _ => rfl,
              fun failed => absurd rfl failed⟩
          · rename_i failure
            split
            · refine Or.inr ⟨by simpa using valid, attempt, raw, ?_⟩
              have refused : cryptoDer ≠ cryptoOk := by decide
              exact ⟨keyRan_drop trail dropped (fun ok => absurd ok refused) (by decide), formed,
                fun ok => absurd ok refused, fun _ => rfl⟩
            · refine Or.inr ⟨by simpa using valid, attempt, raw, ?_⟩
              exact ⟨keyRan_drop trail dropped (fromPsa_ok status).mp (fromPsa_overlap status),
                formed, fun ok => absurd ((fromPsa_ok status).mp ok) failure, fun _ => rfl⟩

def VerifyRan (x y hash : Nat) (events : List (Event Reply)) (result : Int) : Prop :=
  (result = cryptoDer ∧ Trail [] events events psaSuccess) ∨
    ∃ before raw status publicId publicLive, Trail [] before before psaSuccess ∧
      KeyRan (liveKeys publicLive publicId) (liveKeys publicLive publicId) (before ++
        [⟨.importKey publicAttr
            (0x04 :: (read memory ⟨x, p256ScalarLen⟩ ++ read memory ⟨y, p256ScalarLen⟩)),
          (psaSuccess, publicId)⟩,
        ⟨.verifyHash publicId (read memory ⟨hash, sha256Len⟩) raw, psaSuccess⟩]) status result events

theorem p256VerifyHash_ends (x y hash sig sigLen : Nat) :
    Ends [] (p256VerifyHash ready memory x y hash sig sigLen) fun events (result, left) =>
      left = memory ∧ ((result ≠ cryptoOk ∧ events = []) ∨
        VerifyRan memory x y hash events result) := by
  rw [p256VerifyHash]
  split
  · exact ⟨rfl, Or.inl ⟨by decide, rfl⟩⟩
  · split
    · exact ⟨rfl, Or.inl ⟨by decide, rfl⟩⟩
    · split
      · exact ⟨rfl, Or.inl ⟨by decide, rfl⟩⟩
      · apply (ensures_bind _ _ _).mpr
        apply (verifyRaw_trail _).imp
        intro before raw quiet
        cases raw with
        | none => exact ⟨rfl, Or.inr (Or.inl ⟨rfl, quiet⟩)⟩
        | some raw =>
          apply (ensures_bind _ _ _).mpr
          apply (verifyWork_trail _ _ _ raw quiet).imp
          intro body (status, publicId, publicLive) ⟨trail, live⟩
          apply (ensures_bind _ _ _).mpr
          apply (keyDrop_ends publicId publicLive status body).imp
          intro events status' dropped
          split
          · rename_i failure
            refine ⟨rfl, Or.inr (Or.inr ⟨before, raw, status, publicId, publicLive, quiet, ?_⟩)⟩
            apply keyRan_drop trail dropped
            · split
              · exact (keyError_ok status').mp
              · exact (fromPsa_ok status').mp
            · split
              · exact keyError_overlap status'
              · exact fromPsa_overlap status'
          · rename_i success
            refine ⟨rfl, Or.inr (Or.inr ⟨before, raw, status, publicId, publicLive, quiet, ?_⟩)⟩
            exact keyRan_drop trail dropped (fun _ => not_not.mp success) (by decide)

end Functions

inductive Entry where
  | gcmSeal (key nonce aad aadLen plain plainLen cipher tag : Nat)
  | gcmOpen (key nonce aad aadLen cipher cipherLen tag plain : Nat)
  | p256Make (priv x y : Nat)
  | p256Pub (priv x y : Nat)
  | p256SignHash (priv hash sig sigCap sigLen : Nat)
  | p256VerifyHash (x y hash sig sigLen : Nat)

def Entry.run (target : Target) (ready : Bool) (memory : Space) : Entry → Psa (Int × Space)
  | .gcmSeal key nonce aad aadLen plain plainLen cipher tag =>
    P4Key.Crypto.gcmSeal target ready memory key nonce aad aadLen plain plainLen cipher tag
  | .gcmOpen key nonce aad aadLen cipher cipherLen tag plain =>
    P4Key.Crypto.gcmOpen target ready memory key nonce aad aadLen cipher cipherLen tag plain
  | .p256Make priv x y => P4Key.Crypto.p256Make target ready memory priv x y
  | .p256Pub priv x y => P4Key.Crypto.p256Pub target ready memory priv x y
  | .p256SignHash priv hash sig sigCap sigLen =>
    P4Key.Crypto.p256SignHash target ready memory priv hash sig sigCap sigLen
  | .p256VerifyHash x y hash sig sigLen =>
    P4Key.Crypto.p256VerifyHash ready memory x y hash sig sigLen

end P4Key.Crypto
