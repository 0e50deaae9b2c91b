import P4Key.Crypto.Outcomes

/-! Which calls are refused with `P4_CRYPTO_OVERLAP`.

Each function compares pairs of ranges from a list of its own. The lists are
complete: a call is refused exactly if a range that the function may write
meets another such range or a range that it reads. -/

namespace P4Key.Crypto

open Memory AddressSpace CallProgram

theorem overlap_meets {target : Target} {a aLen b bLen : Nat} (one : target.Holds ⟨a, aLen⟩)
    (two : target.Holds ⟨b, bLen⟩) :
    overlap target a aLen b bLen = true ↔ Range.Meets ⟨a, aLen⟩ ⟨b, bLen⟩ :=
  overlap_iff target ⟨a, aLen⟩ ⟨b, bLen⟩ one two

/-! `Aliased`, one range at a time. -/

theorem aliased_nil (reads : List Range) : ¬ Aliased [] reads := by
  simp [Aliased]

theorem aliased_cons (range : Range) (writes reads : List Range) :
    Aliased (range :: writes) reads ↔
      (∃ other ∈ writes, range.Meets other) ∨ (∃ other ∈ reads, range.Meets other) ∨
        Aliased writes reads := by
  have here : (¬ ∀ other ∈ writes, ¬ range.Meets other) ↔ ∃ other ∈ writes, range.Meets other := by
    simp only [not_forall, not_not, exists_prop]
  rw [Aliased, Aliased, List.pairwise_cons, not_and_or, here, List.exists_mem_cons_iff,
    or_or_or_comm, or_assoc]

section Pairs

variable {target : Target}

theorem sealOverlap_iff {key nonce aad aadLen plain plainLen cipher tag : Nat}
    (holds : ∀ range ∈ [⟨key, aes256KeyLen⟩, ⟨nonce, gcmNonceLen⟩, ⟨aad, aadLen⟩,
      ⟨plain, plainLen⟩, ⟨cipher, plainLen⟩, ⟨tag, gcmTagLen⟩], target.Holds range) :
    sealOverlap target key nonce aad aadLen plain plainLen cipher tag = true ↔
      Aliased [⟨cipher, plainLen⟩, ⟨tag, gcmTagLen⟩]
        [⟨key, aes256KeyLen⟩, ⟨nonce, gcmNonceLen⟩, ⟨aad, aadLen⟩, ⟨plain, plainLen⟩] := by
  simp only [List.forall_mem_cons, List.not_mem_nil, false_implies, implies_true, and_true] at holds
  obtain ⟨keyHolds, nonceHolds, aadHolds, plainHolds, cipherHolds, tagHolds⟩ := holds
  simp only [sealOverlap, Bool.or_eq_true, overlap_meets cipherHolds keyHolds,
    overlap_meets cipherHolds nonceHolds, overlap_meets cipherHolds aadHolds,
    overlap_meets cipherHolds plainHolds, overlap_meets cipherHolds tagHolds,
    overlap_meets tagHolds keyHolds, overlap_meets tagHolds nonceHolds,
    overlap_meets tagHolds aadHolds, overlap_meets tagHolds plainHolds, aliased_cons, aliased_nil,
    List.exists_mem_cons_iff, List.not_mem_nil, false_and, exists_false, or_false]
  tauto

theorem openOverlap_iff {key nonce aad aadLen cipher cipherLen tag plain : Nat}
    (holds : ∀ range ∈ [⟨key, aes256KeyLen⟩, ⟨nonce, gcmNonceLen⟩, ⟨aad, aadLen⟩,
      ⟨cipher, cipherLen⟩, ⟨tag, gcmTagLen⟩, ⟨plain, cipherLen⟩], target.Holds range) :
    openOverlap target key nonce aad aadLen cipher cipherLen tag plain = true ↔
      Aliased [⟨plain, cipherLen⟩]
        [⟨key, aes256KeyLen⟩, ⟨nonce, gcmNonceLen⟩, ⟨aad, aadLen⟩, ⟨cipher, cipherLen⟩,
          ⟨tag, gcmTagLen⟩] := by
  simp only [List.forall_mem_cons, List.not_mem_nil, false_implies, implies_true, and_true] at holds
  obtain ⟨keyHolds, nonceHolds, aadHolds, cipherHolds, tagHolds, plainHolds⟩ := holds
  simp only [openOverlap, Bool.or_eq_true, overlap_meets plainHolds keyHolds,
    overlap_meets plainHolds nonceHolds, overlap_meets plainHolds aadHolds,
    overlap_meets plainHolds cipherHolds, overlap_meets plainHolds tagHolds, aliased_cons,
    aliased_nil, List.exists_mem_cons_iff, List.not_mem_nil, false_and, exists_false, or_false,
    false_or, or_assoc]

theorem makeOverlap_iff {priv x y : Nat}
    (holds : ∀ range ∈ [⟨priv, p256ScalarLen⟩, ⟨x, p256ScalarLen⟩, ⟨y, p256ScalarLen⟩],
      target.Holds range) :
    makeOverlap target priv x y = true ↔
      Aliased [⟨priv, p256ScalarLen⟩, ⟨x, p256ScalarLen⟩, ⟨y, p256ScalarLen⟩] [] := by
  simp only [List.forall_mem_cons, List.not_mem_nil, false_implies, implies_true, and_true] at holds
  obtain ⟨privHolds, xHolds, yHolds⟩ := holds
  simp only [makeOverlap, Bool.or_eq_true, overlap_meets privHolds xHolds,
    overlap_meets privHolds yHolds, overlap_meets xHolds yHolds, aliased_cons, aliased_nil,
    List.exists_mem_cons_iff, List.not_mem_nil, false_and, exists_false, or_false, false_or]

theorem pubOverlap_iff {priv x y : Nat}
    (holds : ∀ range ∈ [⟨priv, p256ScalarLen⟩, ⟨x, p256ScalarLen⟩, ⟨y, p256ScalarLen⟩],
      target.Holds range) :
    pubOverlap target priv x y = true ↔
      Aliased [⟨x, p256ScalarLen⟩, ⟨y, p256ScalarLen⟩] [⟨priv, p256ScalarLen⟩] := by
  simp only [List.forall_mem_cons, List.not_mem_nil, false_implies, implies_true, and_true] at holds
  obtain ⟨privHolds, xHolds, yHolds⟩ := holds
  simp only [pubOverlap, Bool.or_eq_true, overlap_meets xHolds privHolds,
    overlap_meets yHolds privHolds, overlap_meets xHolds yHolds, aliased_cons, aliased_nil,
    List.exists_mem_cons_iff, List.not_mem_nil, false_and, exists_false, or_false]
  tauto

theorem signOverlap_iff {priv hash sig sigLen : Nat}
    (holds : ∀ range ∈ [⟨priv, p256ScalarLen⟩, ⟨hash, sha256Len⟩, ⟨sig, p256DerMax⟩,
      ⟨sigLen, target.sizeLen⟩], target.Holds range) :
    signLenOverlap target priv hash sig sigLen = true ∨ signOverlap target priv hash sig = true ↔
      Aliased [⟨sigLen, target.sizeLen⟩, ⟨sig, p256DerMax⟩]
        [⟨priv, p256ScalarLen⟩, ⟨hash, sha256Len⟩] := by
  simp only [List.forall_mem_cons, List.not_mem_nil, false_implies, implies_true, and_true] at holds
  obtain ⟨privHolds, hashHolds, sigHolds, lenHolds⟩ := holds
  simp only [signLenOverlap, signOverlap, Bool.or_eq_true, overlap_meets lenHolds privHolds,
    overlap_meets lenHolds hashHolds, overlap_meets lenHolds sigHolds,
    overlap_meets sigHolds privHolds, overlap_meets sigHolds hashHolds, aliased_cons, aliased_nil,
    List.exists_mem_cons_iff, List.not_mem_nil, false_and, exists_false, or_false]
  tauto

end Pairs

/-! No other error is an overlap. -/

theorem Checked.overlap_iff {code : Int} {refused overlaps ready : Prop} {memory left : Space}
    {ran : List (Event Reply) → Int → Space → Prop} {events : List (Event Reply)} {result : Int}
    (checked : Checked code refused overlaps ready memory ran events result left)
    (arguments : ¬ refused) (behind : ran events result left → result ≠ cryptoOverlap) :
    result = cryptoOverlap ↔ overlaps := by
  cases checked with
  | refused argument => exact absurd argument arguments
  | overlap _ shared => exact iff_of_true rfl shared
  | state _ apart _ => exact iff_of_false (by decide) apart
  | ran _ apart _ run => exact iff_of_false (behind run) apart

theorem GcmRan.not_overlap {memory written left : Space} {ideal : KeyId → List (Event Reply)}
    {ranges : List Range} {wipe : Space → Space} {events : List (Event Reply)} {result : Int}
    (ran : GcmRan memory ideal written ranges wipe events result left) :
    result ≠ cryptoOverlap := by
  obtain ⟨_, _, _, _, _, ended, _⟩ := ran
  rcases ended with ⟨rfl, -⟩ | ⟨-, apart, -⟩
  · decide
  · exact apart

theorem KeyRan.not_overlap {keys drops : List KeyId} {ideal events : List (Event Reply)}
    {status result : Int} (ran : KeyRan keys drops ideal status result events) :
    result ≠ cryptoOverlap := by
  obtain ⟨_, _, _, _, _, _, apart⟩ := ran
  exact apart

/-! What the lists call writes is all that a function may change. -/

def Entry.writes (target : Target) : Entry → List Range
  | .gcmSeal _ _ _ _ _ plainLen cipher tag => [⟨cipher, plainLen⟩, ⟨tag, gcmTagLen⟩]
  | .gcmOpen _ _ _ _ _ cipherLen _ plain => [⟨plain, cipherLen⟩]
  | .p256Make priv x y => [⟨priv, p256ScalarLen⟩, ⟨x, p256ScalarLen⟩, ⟨y, p256ScalarLen⟩]
  | .p256Pub _ x y => [⟨x, p256ScalarLen⟩, ⟨y, p256ScalarLen⟩]
  | .p256SignHash _ _ sig _ sigLen => [⟨sigLen, target.sizeLen⟩, ⟨sig, p256DerMax⟩]
  | .p256VerifyHash _ _ _ _ _ => []

theorem Checked.keeps {code : Int} {refused overlaps ready : Prop} {memory left : Space}
    {ran : List (Event Reply) → Int → Space → Prop} {events : List (Event Reply)} {result : Int}
    {writes : List Range}
    (checked : Checked code refused overlaps ready memory ran events result left)
    (behind : ran events result left → Keeps writes memory left) : Keeps writes memory left := by
  cases checked with
  | refused => exact Keeps.refl _ _
  | overlap => exact Keeps.refl _ _
  | state => exact Keeps.refl _ _
  | ran _ _ _ run => exact behind run

theorem GcmRan.keeps {memory written left : Space} {ideal : KeyId → List (Event Reply)}
    {ranges : List Range} {wipe : Space → Space} {events : List (Event Reply)} {result : Int}
    (ran : GcmRan memory ideal written ranges wipe events result left)
    (wiped : ∀ before, Keeps ranges before (wipe before)) : Keeps ranges memory left := by
  obtain ⟨_, _, attempt, _, worked, ended, _⟩ := ran
  rcases ended with ⟨-, -, rfl, -⟩ | ⟨-, -, rfl⟩
  · exact worked.keeps
  · exact worked.keeps.trans (wiped attempt.memory)

theorem Signed.keeps {target : Target} {ready : Bool} {memory left : Space}
    {priv hash sig sigCap sigLen : Nat} {events : List (Event Reply)} {result : Int}
    (ended : Signed target ready memory priv hash sig sigCap sigLen events result left) :
    Keeps [⟨sigLen, target.sizeLen⟩, ⟨sig, p256DerMax⟩] memory left := by
  have cleared : Keeps [⟨sigLen, target.sizeLen⟩, ⟨sig, p256DerMax⟩] memory
      (storeSize target memory sigLen 0) := storeSize_keeps memory 0 List.mem_cons_self
  cases ended with
  | noLength => exact Keeps.refl _ _
  | badArg => exact cleared
  | overlap => exact Keeps.refl _ _
  | checked _ _ _ rest =>
    apply cleared.trans
    apply rest.keeps
    intro run
    rcases run with ⟨-, -, -, rfl⟩ | ⟨-, attempt, raw, -, -, written, same⟩
    · exact Keeps.refl _ _
    · by_cases ok : result = cryptoOk
      · have short : (attempt.der.toList.take attempt.derLen).length ≤ p256DerMax :=
          (List.length_take_le' _ _).trans (Nat.le_of_eq (List.Vector.toList_length _))
        rw [written ok]
        exact (keeps_write _ (List.mem_cons_of_mem _ List.mem_cons_self) short).trans
          (storeSize_keeps _ _ List.mem_cons_self)
      · rw [same ok]
        exact Keeps.refl _ _

theorem entry_keeps (target : Target) (ready : Bool) (memory : Space) (entry : Entry) :
    Ends [] (entry.run target ready memory) fun _ (_, left) =>
      Keeps (entry.writes target) memory left := by
  cases entry with
  | gcmSeal key nonce aad aadLen plain plainLen cipher tag =>
    apply (gcmSeal_ends target ready memory key nonce aad aadLen plain plainLen cipher tag).imp
    intro events (result, left) ended
    exact ended.keeps fun ⟨_, _, _, ran⟩ => ran.keeps (sealWipe_keeps cipher plainLen tag)
  | gcmOpen key nonce aad aadLen cipher cipherLen tag plain =>
    apply (gcmOpen_ends target ready memory key nonce aad aadLen cipher cipherLen tag plain).imp
    intro events (result, left) ended
    exact ended.keeps fun ⟨_, _, ran⟩ => ran.keeps (openWipe_keeps plain cipherLen)
  | p256Make priv x y =>
    apply (p256Make_ends target ready memory priv x y).imp
    intro events (result, left) ended
    apply ended.keeps
    intro ⟨attempt, _, _, written, same⟩
    have cleared : Keeps [⟨priv, p256ScalarLen⟩, ⟨x, p256ScalarLen⟩, ⟨y, p256ScalarLen⟩] memory
        (makeCleared memory priv x y) :=
      ((keeps_clear _ (by simp)).trans (keeps_clear _ (by simp))).trans (keeps_clear _ (by simp))
    by_cases ok : result = cryptoOk
    · rw [written ok]
      apply cleared.trans
      apply Keeps.trans _ (publishPoint_keeps _ _ (by simp) (by simp))
      exact keeps_write _ List.mem_cons_self (Nat.le_of_eq (List.Vector.toList_length _))
    · rw [same ok]
      exact cleared
  | p256Pub priv x y =>
    apply (p256Pub_ends target ready memory priv x y).imp
    intro events (result, left) ended
    apply ended.keeps
    intro ran
    have cleared : Keeps [⟨x, p256ScalarLen⟩, ⟨y, p256ScalarLen⟩] memory (pubCleared memory x y) :=
      (keeps_clear _ (by simp)).trans (keeps_clear _ (by simp))
    rcases ran with ⟨-, -, -, rfl⟩ | ⟨-, attempt, -, -, written, same⟩
    · exact Keeps.refl _ _
    · by_cases ok : result = cryptoOk
      · rw [written ok]
        exact cleared.trans (publishPoint_keeps _ _ (by simp) (by simp))
      · rw [same ok]
        exact cleared
  | p256SignHash priv hash sig sigCap sigLen =>
    apply (p256SignHash_ends target ready memory priv hash sig sigCap sigLen).imp
    intro events (result, left) ended
    exact ended.keeps
  | p256VerifyHash x y hash sig sigLen =>
    apply (p256VerifyHash_ends ready memory x y hash sig sigLen).imp
    intro events (result, left) ⟨same, _⟩
    rw [same]
    exact Keeps.refl _ _

def RefusedIff (program : Psa (Int × Space)) (aliased : Prop) : Prop :=
  ∀ events result left, Execution program events (result, left) →
    (result = cryptoOverlap ↔ aliased)

theorem refusedIff_of_ends {program : Psa (Int × Space)} {overlaps aliased : Prop}
    (ends : Ends [] program fun _ (result, _) => (result = cryptoOverlap ↔ overlaps))
    (same : overlaps ↔ aliased) : RefusedIff program aliased := by
  intro events result left run
  exact Iff.trans (ends.post run) same

section Functions

variable (target : Target) (ready : Bool) (memory : Space)

theorem gcmSeal_refused {key nonce aad aadLen plain plainLen cipher tag : Nat}
    (pointers : ¬ SealBadArg key nonce aad aadLen plain plainLen cipher tag) :
    Ends [] (gcmSeal target ready memory key nonce aad aadLen plain plainLen cipher tag)
      fun _ (result, _) => (result = cryptoOverlap ↔
        sealOverlap target key nonce aad aadLen plain plainLen cipher tag = true) := by
  apply (gcmSeal_ends target ready memory key nonce aad aadLen plain plainLen cipher tag).imp
  intro events (result, left) ended
  exact ended.overlap_iff pointers fun ⟨_, _, _, ran⟩ => ran.not_overlap

theorem gcmOpen_refused {key nonce aad aadLen cipher cipherLen tag plain : Nat}
    (pointers : ¬ OpenBadArg key nonce aad aadLen cipher cipherLen tag plain) :
    Ends [] (gcmOpen target ready memory key nonce aad aadLen cipher cipherLen tag plain)
      fun _ (result, _) => (result = cryptoOverlap ↔
        openOverlap target key nonce aad aadLen cipher cipherLen tag plain = true) := by
  apply (gcmOpen_ends target ready memory key nonce aad aadLen cipher cipherLen tag plain).imp
  intro events (result, left) ended
  exact ended.overlap_iff pointers fun ⟨_, _, ran⟩ => ran.not_overlap

theorem p256Make_refused {priv x y : Nat} (pointers : ¬ (priv = 0 ∨ x = 0 ∨ y = 0)) :
    Ends [] (p256Make target ready memory priv x y)
      fun _ (result, _) => (result = cryptoOverlap ↔ makeOverlap target priv x y = true) := by
  apply (p256Make_ends target ready memory priv x y).imp
  intro events (result, left) ended
  exact ended.overlap_iff pointers fun ⟨_, ran, _⟩ => ran.not_overlap

theorem p256Pub_refused {priv x y : Nat} (pointers : ¬ (priv = 0 ∨ x = 0 ∨ y = 0)) :
    Ends [] (p256Pub target ready memory priv x y)
      fun _ (result, _) => (result = cryptoOverlap ↔ pubOverlap target priv x y = true) := by
  apply (p256Pub_ends target ready memory priv x y).imp
  intro events (result, left) ended
  apply ended.overlap_iff pointers
  intro ran
  rcases ran with ⟨-, -, rfl, -⟩ | ⟨-, _, ran, -⟩
  · decide
  · exact ran.not_overlap

theorem p256SignHash_refused {priv hash sig sigCap sigLen : Nat}
    (pointers : ¬ (sigLen = 0 ∨ priv = 0 ∨ hash = 0 ∨ sig = 0)) (room : p256DerMax ≤ sigCap) :
    Ends [] (p256SignHash target ready memory priv hash sig sigCap sigLen)
      fun _ (result, _) => (result = cryptoOverlap ↔
        signLenOverlap target priv hash sig sigLen = true ∨
          signOverlap target priv hash sig = true) := by
  apply (p256SignHash_ends target ready memory priv hash sig sigCap sigLen).imp
  intro events (result, left) ended
  cases ended with
  | noLength null => exact absurd (Or.inl null) pointers
  | badArg _ null => exact absurd (Or.inr null) pointers
  | overlap _ _ shared => exact iff_of_true rfl (Or.inl shared)
  | checked _ _ apart rest =>
    rw [or_iff_right apart]
    apply rest.overlap_iff (Nat.not_lt.mpr room)
    intro ran
    rcases ran with ⟨-, -, rfl, -⟩ | ⟨-, _, _, ran, -⟩
    · decide
    · exact ran.not_overlap

/-- The comparison of two ranges is exact, and so are the lists of the functions. -/
theorem aliasing_refused :
    (∀ left right : Range, target.Holds left → target.Holds right →
      (overlap target left.first left.len right.first right.len = true ↔ left.Meets right)) ∧
    (∀ a aLen b bLen, overlap target a aLen b bLen = overlap target b bLen a aLen) ∧
    (∀ left right : Range, 0 < left.len → 0 < right.len → target.Points left.first →
      target.Points right.first →
      (target.uintptrMax + 1 < left.first + left.len ∨
        target.uintptrMax + 1 < right.first + right.len) →
      overlap target left.first left.len right.first right.len = true) ∧
    (∀ key nonce aad aadLen plain plainLen cipher tag,
      ¬ SealBadArg key nonce aad aadLen plain plainLen cipher tag →
      (∀ range ∈ [⟨key, aes256KeyLen⟩, ⟨nonce, gcmNonceLen⟩, ⟨aad, aadLen⟩, ⟨plain, plainLen⟩,
        ⟨cipher, plainLen⟩, ⟨tag, gcmTagLen⟩], target.Holds range) →
      RefusedIff (gcmSeal target ready memory key nonce aad aadLen plain plainLen cipher tag)
        (Aliased [⟨cipher, plainLen⟩, ⟨tag, gcmTagLen⟩]
          [⟨key, aes256KeyLen⟩, ⟨nonce, gcmNonceLen⟩, ⟨aad, aadLen⟩, ⟨plain, plainLen⟩])) ∧
    (∀ key nonce aad aadLen cipher cipherLen tag plain,
      ¬ OpenBadArg key nonce aad aadLen cipher cipherLen tag plain →
      (∀ range ∈ [⟨key, aes256KeyLen⟩, ⟨nonce, gcmNonceLen⟩, ⟨aad, aadLen⟩, ⟨cipher, cipherLen⟩,
        ⟨tag, gcmTagLen⟩, ⟨plain, cipherLen⟩], target.Holds range) →
      RefusedIff (gcmOpen target ready memory key nonce aad aadLen cipher cipherLen tag plain)
        (Aliased [⟨plain, cipherLen⟩]
          [⟨key, aes256KeyLen⟩, ⟨nonce, gcmNonceLen⟩, ⟨aad, aadLen⟩, ⟨cipher, cipherLen⟩,
            ⟨tag, gcmTagLen⟩])) ∧
    (∀ priv x y, ¬ (priv = 0 ∨ x = 0 ∨ y = 0) →
      (∀ range ∈ [⟨priv, p256ScalarLen⟩, ⟨x, p256ScalarLen⟩, ⟨y, p256ScalarLen⟩],
        target.Holds range) →
      RefusedIff (p256Make target ready memory priv x y)
        (Aliased [⟨priv, p256ScalarLen⟩, ⟨x, p256ScalarLen⟩, ⟨y, p256ScalarLen⟩] []) ∧
      RefusedIff (p256Pub target ready memory priv x y)
        (Aliased [⟨x, p256ScalarLen⟩, ⟨y, p256ScalarLen⟩] [⟨priv, p256ScalarLen⟩])) ∧
    ∀ priv hash sig sigCap sigLen, ¬ (sigLen = 0 ∨ priv = 0 ∨ hash = 0 ∨ sig = 0) →
      p256DerMax ≤ sigCap →
      (∀ range ∈ [⟨priv, p256ScalarLen⟩, ⟨hash, sha256Len⟩, ⟨sig, p256DerMax⟩,
        ⟨sigLen, target.sizeLen⟩], target.Holds range) →
      RefusedIff (p256SignHash target ready memory priv hash sig sigCap sigLen)
        (Aliased [⟨sigLen, target.sizeLen⟩, ⟨sig, p256DerMax⟩]
          [⟨priv, p256ScalarLen⟩, ⟨hash, sha256Len⟩]) := by
  refine ⟨overlap_iff target, overlap_comm target, overlap_top target, ?_, ?_, ?_, ?_⟩
  · intro key nonce aad aadLen plain plainLen cipher tag pointers holds
    exact refusedIff_of_ends (gcmSeal_refused target ready memory pointers) (sealOverlap_iff holds)
  · intro key nonce aad aadLen cipher cipherLen tag plain pointers holds
    exact refusedIff_of_ends (gcmOpen_refused target ready memory pointers) (openOverlap_iff holds)
  · intro priv x y pointers holds
    exact ⟨refusedIff_of_ends (p256Make_refused target ready memory pointers)
        (makeOverlap_iff holds),
      refusedIff_of_ends (p256Pub_refused target ready memory pointers) (pubOverlap_iff holds)⟩
  · intro priv hash sig sigCap sigLen pointers room holds
    exact refusedIff_of_ends (p256SignHash_refused target ready memory pointers room)
      (signOverlap_iff holds)

end Functions

/-- On the device: ranges at the top of the address space, a tag that begins with the last byte of
the ciphertext, and a signature next to its length. -/
theorem aliasing_refused_device :
    overlap esp32p4 0xfffffff0 16 0xffffffff 1 = true ∧
    overlap esp32p4 0xfffffff0 32 100 1 = true ∧
    (∀ events result left, Execution (gcmSeal esp32p4 true (fun _ => 0) 100 200 0 0 300 8 400 407)
      events (result, left) → result = cryptoOverlap) ∧
    ∀ events result left, Execution (p256SignHash esp32p4 true (fun _ => 0) 100 200 304 72 300)
      events (result, left) → result ≠ cryptoOverlap := by
  obtain ⟨meets, -, top, seals, -, -, signs⟩ := aliasing_refused esp32p4 true fun _ => 0
  refine ⟨?_, ?_, ?_, ?_⟩
  · exact (meets ⟨0xfffffff0, 16⟩ ⟨0xffffffff, 1⟩ (by decide) (by decide)).mpr (by decide)
  · exact top ⟨0xfffffff0, 32⟩ ⟨100, 1⟩ (by decide) (by decide) (by decide) (by decide) (by decide)
  · intro events result left run
    have refused := seals 100 200 0 0 300 8 400 407 (by decide) (by decide) events result left run
    exact refused.mpr (by decide)
  · intro events result left run
    have refused := signs 100 200 304 72 300 (by decide) (by decide) (by decide) events result left
      run
    exact refused.not.mpr (by decide)

end P4Key.Crypto
