import P4Key.Crypto.Scalar
import P4Key.Library.Der

/-! The comparison of `p4_p256_scalar_valid` is the order of big-endian numbers.

Two flags hold the order of the bytes compared so far. A turn of the loop
composes it with the order of the next two bytes, which is how two lists are
ordered lexicographically, and for two lists of one length how the numbers are
ordered that they spell. -/

namespace P4Key.Crypto

open Memory

def groupOrder : Nat :=
  0xffffffff00000000ffffffffffffffffbce6faada7179e84f3b9cac2fc632551

theorem loadBE_order : loadBE p256Order = groupOrder := by decide

def lessFlag : Ordering → UInt32
  | .lt => 1
  | .eq => 0
  | .gt => 0

def greaterFlag : Ordering → UInt32
  | .lt => 0
  | .eq => 0
  | .gt => 1

/-- The accumulators after a prefix whose order is `verdict`. -/
def decided (nonzero : UInt32) (verdict : Ordering) : Comparison :=
  ⟨nonzero, lessFlag verdict, greaterFlag verdict⟩

theorem lessFlag_then (first second : Ordering) :
    lessFlag first ||| ((1 ^^^ (lessFlag first ||| greaterFlag first)) &&& lessFlag second) =
      lessFlag (first.then second) := by
  cases first <;> cases second <;> decide

theorem greaterFlag_then (first second : Ordering) :
    greaterFlag first ||| ((1 ^^^ (lessFlag first ||| greaterFlag first)) &&& greaterFlag second) =
      greaterFlag (first.then second) := by
  cases first <;> cases second <;> decide

theorem greaterFlag_swap (verdict : Ordering) : lessFlag verdict.swap = greaterFlag verdict := by
  cases verdict <;> rfl

/-- The sign bit of the wrapped difference of two bytes. -/
theorem borrow (a b : UInt8) : (a.toUInt32 - b.toUInt32) >>> 31 = lessFlag (compare a b) := by
  have boundA := a.toNat_lt
  have boundB := b.toNat_lt
  have difference : ((a.toUInt32 - b.toUInt32) >>> 31).toNat =
      (4294967296 - b.toNat + a.toNat) % 4294967296 / 2147483648 := by
    rw [UInt32.toNat_shiftRight, UInt32.toNat_sub, Nat.shiftRight_eq_div_pow]
    simp only [UInt8.toNat_toUInt32]
    rfl
  apply UInt32.toNat_inj.mp
  rw [difference]
  cases order : compare a b with
  | lt =>
      have below : a.toNat < b.toNat := UInt8.lt_iff_toNat_lt.mp (Std.compare_eq_lt.mp order)
      change _ = 1
      omega
  | eq =>
      rw [Std.LawfulEqOrd.eq_of_compare order]
      change _ = 0
      omega
  | gt =>
      have above : b.toNat < a.toNat := UInt8.lt_iff_toNat_lt.mp (Std.compare_eq_gt.mp order)
      change _ = 0
      omega

/-- The first difference stays: one turn composes the orders. -/
theorem compareByte_decided (nonzero : UInt32) (verdict : Ordering) (a b : UInt8) :
    compareByte (decided nonzero verdict) (a, b) =
      decided (nonzero ||| a.toUInt32) (verdict.then (compare a b)) := by
  have back : (b.toUInt32 - a.toUInt32) >>> 31 = greaterFlag (compare a b) := by
    rw [borrow, Std.OrientedOrd.eq_swap, greaterFlag_swap]
  simp only [compareByte, decided, borrow a b, back, lessFlag_then, greaterFlag_then]

theorem compare_run (left right : List UInt8) (nonzero : UInt32) (verdict : Ordering)
    (same : left.length = right.length) :
    (left.zip right).foldl compareByte (decided nonzero verdict) =
      decided (left.foldl (fun seen byte => seen ||| byte.toUInt32) nonzero)
        (verdict.then (compare left right)) := by
  induction left generalizing right nonzero verdict with
  | nil =>
      have none : right = [] := List.eq_nil_of_length_eq_zero same.symm
      subst none
      cases verdict <;> rfl
  | cons a left ih =>
      cases right with
      | nil => simp at same
      | cons b right =>
          have rest : left.length = right.length := by simpa using same
          calc
            ((a :: left).zip (b :: right)).foldl compareByte (decided nonzero verdict) =
                (left.zip right).foldl compareByte
                  (decided (nonzero ||| a.toUInt32) (verdict.then (compare a b))) := by
              rw [List.zip_cons_cons, List.foldl_cons, compareByte_decided]
            _ = decided ((a :: left).foldl (fun seen byte => seen ||| byte.toUInt32) nonzero)
                ((verdict.then (compare a b)).then (compare left right)) := by
              rw [ih right _ _ rest, List.foldl_cons]
            _ = _ := by rw [List.compare_cons_cons, Ordering.then_assoc]

theorem compare_lt (left right : List UInt8) : compare left right = .lt ↔ left < right := by
  induction left generalizing right with
  | nil =>
      cases right with
      | nil => decide
      | cons b right => simp
  | cons a left ih =>
      cases right with
      | nil => simp
      | cons b right =>
          rw [List.compare_cons_cons, List.cons_lt_cons_iff, ← ih right, Ordering.then_eq_lt,
            Std.compare_eq_lt, Std.compare_eq_iff_eq]

theorem compare_loadBE (left right : List UInt8) (same : left.length = right.length) :
    compare left right = compare (loadBE left) (loadBE right) := by
  induction left generalizing right with
  | nil =>
      have none : right = [] := List.eq_nil_of_length_eq_zero same.symm
      subst none
      rfl
  | cons a left ih =>
      cases right with
      | nil => simp at same
      | cons b right =>
          have rest : left.length = right.length := by simpa using same
          have lowA := loadBE_lt left
          have lowB := loadBE_lt right
          rw [← rest] at lowB
          rw [List.compare_cons_cons, ih right rest, Der.loadBE_cons, Der.loadBE_cons, ← rest]
          generalize 256 ^ left.length = unit at lowA lowB
          cases order : compare a b with
          | lt =>
              have less : a.toNat < b.toNat := UInt8.lt_iff_toNat_lt.mp (Std.compare_eq_lt.mp order)
              have step : (a.toNat + 1) * unit ≤ b.toNat * unit := Nat.mul_le_mul_right unit less
              rw [Nat.add_mul] at step
              exact (Nat.compare_eq_lt.mpr (by omega)).symm
          | eq =>
              rw [Std.LawfulEqOrd.eq_of_compare order]
              change compare _ _ = _
              simp only [Nat.compare_eq_ite_lt, Nat.add_lt_add_iff_left]
          | gt =>
              have less : b.toNat < a.toNat := UInt8.lt_iff_toNat_lt.mp (Std.compare_eq_gt.mp order)
              have step : (b.toNat + 1) * unit ≤ a.toNat * unit := Nat.mul_le_mul_right unit less
              rw [Nat.add_mul] at step
              exact (Nat.compare_eq_gt.mpr (by omega)).symm

theorem collected_zero (bytes : List UInt8) (seen : UInt32) :
    bytes.foldl (fun seen byte => seen ||| byte.toUInt32) seen = 0 ↔
      seen = 0 ∧ loadBE bytes = 0 := by
  induction bytes generalizing seen with
  | nil => simp [loadBE]
  | cons byte rest ih =>
      have unit : 256 ^ rest.length ≠ 0 := by positivity
      have none : byte.toUInt32 = 0 ↔ byte.toNat = 0 := by
        rw [← UInt32.toNat_inj, UInt8.toNat_toUInt32]
        rfl
      rw [List.foldl_cons, ih, UInt32.or_eq_zero_iff, none, Der.loadBE_cons,
        Nat.add_eq_zero_iff, Nat.mul_eq_zero, and_assoc]
      simp only [unit, or_false]

/-- What the accumulators hold after the loop, for two arrays of one length. -/
theorem compare_flags {size : Nat} (left right : Bytes size) :
    (left.toList.zip right.toList).foldl compareByte ⟨0, 0, 0⟩ =
      decided (left.toList.foldl (fun seen byte => seen ||| byte.toUInt32) 0)
        (compare left.toList right.toList) := by
  have same : left.toList.length = right.toList.length := by
    rw [List.Vector.toList_length, List.Vector.toList_length]
  exact compare_run left.toList right.toList 0 .eq same

theorem lessFlag_iff {size : Nat} (left right : Bytes size) :
    lessFlag (compare left.toList right.toList) ≠ 0 ↔ loadBE left.toList < loadBE right.toList := by
  have same : left.toList.length = right.toList.length := by
    rw [List.Vector.toList_length, List.Vector.toList_length]
  rw [compare_loadBE _ _ same, ← Nat.compare_eq_lt]
  cases compare (loadBE left.toList) (loadBE right.toList) <;> decide

theorem scalarValid_iff (scalar : Bytes 32) :
    scalarValid scalar.toList = true ↔
      0 < loadBE scalar.toList ∧ loadBE scalar.toList < groupOrder := by
  have flags := compare_flags scalar ⟨p256Order, rfl⟩
  have less := lessFlag_iff scalar ⟨p256Order, rfl⟩
  have collected := collected_zero scalar.toList 0
  change (scalar.toList.zip p256Order).foldl compareByte ⟨0, 0, 0⟩ =
    decided _ (compare scalar.toList p256Order) at flags
  calc scalarValid scalar.toList = true
    _ ↔ scalar.toList.foldl (fun seen byte => seen ||| byte.toUInt32) 0 ≠ 0 ∧
        lessFlag (compare scalar.toList p256Order) ≠ 0 := by
      simp only [scalarValid, flags, decided, Bool.and_eq_true, bne_iff_ne]
    _ ↔ _ := by
      rw [ne_eq, collected, Nat.pos_iff_ne_zero, ← loadBE_order]
      exact and_congr (by simp only [true_and, ne_eq]) less

/-- The check accepts the numbers between zero and the order of the group, and its loop
computes the lexicographic order of any two arrays of one length. -/
theorem scalarValid_range :
    (∀ scalar : Bytes 32, scalarValid scalar.toList = true ↔
      0 < loadBE scalar.toList ∧ loadBE scalar.toList < groupOrder) ∧
    ∀ (size : Nat) (left right : Bytes size),
      let result := (left.toList.zip right.toList).foldl compareByte ⟨0, 0, 0⟩
      result.less = (if left.toList < right.toList then 1 else 0) ∧
        result.greater = (if right.toList < left.toList then 1 else 0) := by
  refine ⟨scalarValid_iff, fun size left right => ?_⟩
  have back := Std.OrientedOrd.eq_swap (a := left.toList) (b := right.toList)
  simp only [compare_flags, decided, ← compare_lt]
  rw [back]
  cases compare right.toList left.toList <;> exact ⟨rfl, rfl⟩

end P4Key.Crypto
