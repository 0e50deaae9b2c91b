import P4Key.Cbor.Reader

/-! The bit set of keys as a set: its operations in both directions. -/

namespace P4Key.Cbor

theorem mem_keysSeen {seen : UInt32} {key : Nat} :
    key ∈ keysSeen seen ↔ 0 < key ∧ key ≤ 32 ∧ seen.toNat.testBit (key - 1) = true := Iff.rfl

/-- The low bits stand for the first keys. -/
theorem mem_keysSeen_low {mask : UInt32} {count key : Nat} (low : mask.toNat = 2 ^ count - 1)
    (small : count ≤ 32) : key ∈ keysSeen mask ↔ 0 < key ∧ key ≤ count := by
  rw [mem_keysSeen, low, Nat.testBit_two_pow_sub_one, decide_eq_true_eq]
  omega

theorem keysSeen_injective {seen other : UInt32} (same : keysSeen seen = keysSeen other) :
    seen = other := by
  apply UInt32.toNat_inj.mp
  apply Nat.eq_of_testBit_eq
  intro i
  by_cases inside : i < 32
  · have members : i + 1 ∈ keysSeen seen ↔ i + 1 ∈ keysSeen other := by rw [same]
    simp only [mem_keysSeen, Nat.add_sub_cancel] at members
    have both : seen.toNat.testBit i = true ↔ other.toNat.testBit i = true := by
      constructor
      · intro bit
        exact (members.mp ⟨by omega, by omega, bit⟩).2.2
      · intro bit
        exact (members.mpr ⟨by omega, by omega, bit⟩).2.2
    exact Bool.eq_iff_iff.mpr both
  · have high : 2 ^ 32 ≤ 2 ^ i := Nat.pow_le_pow_right (by decide) (by omega)
    rw [Nat.testBit_lt_two_pow (Nat.lt_of_lt_of_le seen.toNat_lt high),
      Nat.testBit_lt_two_pow (Nat.lt_of_lt_of_le other.toNat_lt high)]

theorem knownKeyOnce_new {seen : UInt32} {key : Nat} (positive : key ≠ 0) (small : key ≤ 32)
    (fresh : key ∉ keysSeen seen) : ∃ seen', knownKeyOnce seen (UInt8.ofNat key) = some seen' := by
  have bit := keyBit key (by omega) small
  have absent : seen.toNat.testBit (key - 1) = false := by
    rw [Bool.eq_false_iff]
    intro set
    exact fresh ⟨by omega, small, set⟩
  have masked : seen &&& (1 : UInt32) <<< ((UInt8.ofNat key).toUInt32 - 1) = 0 := by
    apply UInt32.toNat_inj.mp
    rw [UInt32.toNat_and, bit, Nat.and_two_pow, absent]
    simp
  have range : ¬ (UInt8.ofNat key = 0 ∨ UInt8.ofNat key > 32) := by
    have same : (UInt8.ofNat key).toNat = key := by
      rw [UInt8.toNat_ofNat']
      omega
    rintro (zero | large)
    · rw [zero] at same
      exact positive same.symm
    · rw [gt_iff_lt, UInt8.lt_iff_toNat_lt, same] at large
      exact absurd large (Nat.not_lt.mpr small)
  rw [knownKeyOnce, if_neg range]
  simp only
  rw [if_neg (not_not.mpr masked)]
  exact ⟨_, rfl⟩

theorem knownKeyOnce_iff {seen seen' : UInt32} {key : Nat} (small : key ≤ 32) :
    knownKeyOnce seen (UInt8.ofNat key) = some seen' ↔
      key ≠ 0 ∧ key ∉ keysSeen seen ∧ keysSeen seen' = insert key (keysSeen seen) := by
  constructor
  · intro accepted
    rcases knownKeyOnce_spec seen seen' key small accepted with ⟨positive, fresh, result⟩
    exact ⟨by omega, fresh, result⟩
  · rintro ⟨positive, fresh, result⟩
    rcases knownKeyOnce_new positive small fresh with ⟨found, accepted⟩
    have spec := knownKeyOnce_spec seen found key small accepted
    rw [accepted, keysSeen_injective (spec.2.2.trans result.symm)]

theorem mask_iff {seen required : UInt32} :
    seen &&& required = required ↔ ∀ key ∈ keysSeen required, key ∈ keysSeen seen := by
  constructor
  · intro held key member
    exact mem_keysSeen_of_mask seen required held key member
  · intro all
    apply keysSeen_injective
    ext key
    simp only [mem_keysSeen, UInt32.toNat_and, Nat.testBit_and, Bool.and_eq_true]
    constructor
    · rintro ⟨positive, small, -, bit⟩
      exact ⟨positive, small, bit⟩
    · rintro ⟨positive, small, bit⟩
      exact ⟨positive, small, (all key ⟨positive, small, bit⟩).2.2, bit⟩

end P4Key.Cbor
