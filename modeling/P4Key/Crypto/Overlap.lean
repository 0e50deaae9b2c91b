import P4Key.Library.AddressSpace

/-! `p4_crypto_overlap` of p4_crypto.c.

A pointer is an address, and zero is NULL. The sum of an address and a length
wraps at the width of a pointer, which is a parameter. -/

namespace P4Key.Crypto

open AddressSpace

structure Target where
  uintptrMax : Nat
  sizeLen : Nat
  counts : 0 < sizeLen

def esp32p4 : Target := ⟨0xffffffff, 4, by decide⟩

def Target.wrap (target : Target) (n : Nat) : Nat := n % (target.uintptrMax + 1)

/-- `first + len - 1` in `uintptr_t`. -/
def Target.last (target : Target) (first len : Nat) : Nat :=
  target.wrap (target.wrap (first + len) + target.uintptrMax)

def overlap (target : Target) (a aLen b bLen : Nat) : Bool :=
  if aLen = 0 ∨ bLen = 0 then false
  else if a = 0 ∨ b = 0 then false
  else if aLen - 1 > target.uintptrMax - a ∨ bLen - 1 > target.uintptrMax - b then true
  else a ≤ target.last b bLen && b ≤ target.last a aLen

def Target.Holds (target : Target) (range : Range) : Prop :=
  (range.first ≠ 0 ∨ range.len = 0) ∧ range.first + range.len ≤ target.uintptrMax + 1

instance (target : Target) (range : Range) : Decidable (target.Holds range) :=
  inferInstanceAs (Decidable (_ ∧ _))

/-- The two wraps cancel, also for a range that ends at the top. -/
theorem Target.last_eq (target : Target) (first len : Nat) (nonempty : 0 < len)
    (inside : first + len ≤ target.uintptrMax + 1) : target.last first len = first + len - 1 := by
  rw [Target.last, Target.wrap, Target.wrap, Nat.mod_add_mod]
  have split : first + len + target.uintptrMax = (first + len - 1) + (target.uintptrMax + 1) := by
    omega
  rw [split, Nat.add_mod_right, Nat.mod_eq_of_lt (by omega)]

theorem overlap_iff (target : Target) (left right : Range) (one : target.Holds left)
    (two : target.Holds right) :
    overlap target left.first left.len right.first right.len = true ↔ left.Meets right := by
  obtain ⟨pointer, inside⟩ := one
  obtain ⟨pointer', inside'⟩ := two
  rw [Range.meets_iff, overlap]
  by_cases empty : left.len = 0 ∨ right.len = 0
  · rw [if_pos empty]
    apply iff_of_false Bool.false_ne_true
    omega
  · rw [if_neg empty, if_neg (by omega), if_neg (by omega), target.last_eq _ _ (by omega) inside,
      target.last_eq _ _ (by omega) inside', Bool.and_eq_true, decide_eq_true_eq, decide_eq_true_eq]
    omega

theorem overlap_comm (target : Target) (a aLen b bLen : Nat) :
    overlap target a aLen b bLen = overlap target b bLen a aLen := by
  rw [overlap, overlap, Bool.and_comm]
  simp only [or_comm]

def Target.Points (target : Target) (address : Nat) : Prop :=
  address ≠ 0 ∧ address ≤ target.uintptrMax

instance (target : Target) (address : Nat) : Decidable (target.Points address) :=
  inferInstanceAs (Decidable (_ ∧ _))

theorem overlap_top (target : Target) (left right : Range) (nonempty : 0 < left.len)
    (nonempty' : 0 < right.len) (pointer : target.Points left.first)
    (pointer' : target.Points right.first)
    (past : target.uintptrMax + 1 < left.first + left.len ∨
      target.uintptrMax + 1 < right.first + right.len) :
    overlap target left.first left.len right.first right.len = true := by
  obtain ⟨proper, small⟩ := pointer
  obtain ⟨proper', small'⟩ := pointer'
  rw [overlap, if_neg (by omega), if_neg (by omega), if_pos (by omega)]

/-- Objects that share a byte are found, also where one runs past the top. -/
theorem overlap_of_meets (target : Target) {left right : Range} (pointer : target.Points left.first)
    (pointer' : target.Points right.first) (meets : left.Meets right) :
    overlap target left.first left.len right.first right.len = true := by
  obtain ⟨nonempty, nonempty', -⟩ := (Range.meets_iff _ _).mp meets
  by_cases past : target.uintptrMax + 1 < left.first + left.len ∨
      target.uintptrMax + 1 < right.first + right.len
  · exact overlap_top target left right nonempty nonempty' pointer pointer' past
  · rw [not_or, Nat.not_lt, Nat.not_lt] at past
    exact (overlap_iff target left right ⟨Or.inl pointer.1, past.1⟩
      ⟨Or.inl pointer'.1, past.2⟩).mpr meets

end P4Key.Crypto
