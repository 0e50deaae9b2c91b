import Mathlib.Data.Nat.Size
import P4Key.Library.Memory

/-! DER of numbers and of sequences.

A nonnegative INTEGER has one encoding: the shortest contents whose first bit, the sign, is
zero. `Shortest` says the same of contents octets that a reader has before it. -/

namespace Der

open Memory

def width (n : Nat) : Nat := n.size / 8 + 1

def contents (n : Nat) : List UInt8 := storeBE (width n) n

/-- Short form below 128, else the number of length octets and the octets. -/
def lengthOctets (len : Nat) : List UInt8 :=
  if len < 128 then [UInt8.ofNat len]
  else
    let count := (len.size + 7) / 8
    UInt8.ofNat (128 + count) :: storeBE count len

def tlv (tag : UInt8) (body : List UInt8) : List UInt8 := tag :: (lengthOctets body.length ++ body)

def integer (n : Nat) : List UInt8 := tlv 0x02 (contents n)

def sequence (elements : List (List UInt8)) : List UInt8 := tlv 0x30 elements.flatten

theorem tlv_short (tag : UInt8) (body : List UInt8) (short : body.length < 128) :
    tlv tag body = tag :: UInt8.ofNat body.length :: body := by
  rw [tlv, lengthOctets, if_pos short]
  rfl

/-- The first bit is zero, and the first nine bits are not all zero. -/
def Shortest : List UInt8 → Prop
  | [] => False
  | [first] => first < 0x80
  | first :: second :: _ => first < 0x80 ∧ (first = 0 → 0x80 ≤ second)

instance (body : List UInt8) : Decidable (Shortest body) := by
  match body with
  | [] => exact instDecidableFalse
  | [first] => exact inferInstanceAs (Decidable (first < 0x80))
  | first :: second :: _ => exact inferInstanceAs (Decidable (_ ∧ _))

@[simp] theorem length_contents (n : Nat) : (contents n).length = width n := by
  simp [contents]

theorem width_pos (n : Nat) : 0 < width n := Nat.succ_pos _

theorem width_le (n octets : Nat) : width n ≤ octets + 1 ↔ n < 128 * 256 ^ octets := by
  have power : 128 * 256 ^ octets = 2 ^ (8 * octets + 7) := by
    rw [Nat.pow_add, Nat.pow_mul]
    ring
  calc
    width n ≤ octets + 1 ↔ n.size ≤ 8 * octets + 7 := by
      rw [width]
      omega
    _ ↔ n < 128 * 256 ^ octets := by rw [Nat.size_le, power]

theorem loadBE_contents (n : Nat) : loadBE (contents n) = n := by
  apply loadBE_storeBE
  have free := (width_le n (n.size / 8)).mp (by rw [width])
  rw [width, Nat.pow_succ]
  omega

theorem loadBE_cons (first : UInt8) (rest : List UInt8) :
    loadBE (first :: rest) = first.toNat * 256 ^ rest.length + loadBE rest := by
  induction rest using List.reverseRecOn with
  | nil => simp [loadBE]
  | append_singleton rest byte ih =>
      calc
        loadBE (first :: (rest ++ [byte])) = loadBE (first :: rest) * 256 + byte.toNat :=
          loadBE_append_byte (first :: rest) byte
        _ = first.toNat * 256 ^ (rest ++ [byte]).length + loadBE (rest ++ [byte]) := by
          rw [ih, loadBE_append_byte, List.length_append, List.length_singleton, Nat.pow_succ]
          ring

theorem loadBE_cons_lt (first : UInt8) (rest : List UInt8) (bound : Nat) :
    loadBE (first :: rest) < bound * 256 ^ rest.length ↔ first.toNat < bound := by
  rw [loadBE_cons]
  have low := loadBE_lt rest
  constructor
  · intro below
    by_contra above
    have := Nat.mul_le_mul_right (256 ^ rest.length) (Nat.le_of_not_lt above)
    omega
  · intro below
    have := Nat.mul_le_mul_right (256 ^ rest.length) (Nat.succ_le_of_lt below)
    rw [Nat.succ_mul] at this
    omega

theorem width_loadBE (first : UInt8) (rest : List UInt8) :
    width (loadBE (first :: rest)) ≤ rest.length + 1 ↔ first < 0x80 := by
  rw [width_le, loadBE_cons_lt]
  rfl

/-- Contents are the encoding of their value exactly if they are the shortest. -/
theorem shortest_iff (body : List UInt8) : Shortest body ↔ body = contents (loadBE body) := by
  have exact_width : body = contents (loadBE body) ↔ width (loadBE body) = body.length := by
    constructor
    · intro same
      have := congrArg List.length same
      rw [length_contents] at this
      exact this.symm
    · intro size
      rw [contents, size, storeBE_loadBE]
  rw [exact_width]
  match body with
  | [] =>
      have := width_pos (loadBE [])
      simp only [Shortest, List.length_nil, false_iff]
      omega
  | [first] =>
      have positive := width_pos (loadBE [first])
      have fits := width_loadBE first []
      rw [List.length_nil] at fits
      rw [Shortest, ← fits, List.length_singleton]
      omega
  | first :: second :: rest =>
      have fits := width_loadBE first (second :: rest)
      have shorter : width (loadBE (first :: second :: rest)) ≤ rest.length + 1 ↔
          first = 0 ∧ second < 0x80 := by
        rw [width_le]
        constructor
        · intro small
          have zero : first.toNat < 1 := by
            rw [← loadBE_cons_lt first (second :: rest), List.length_cons, Nat.pow_succ]
            omega
          have first_zero : first = 0 := UInt8.toNat_inj.mp (by simpa using zero)
          subst first
          rw [loadBE_cons, UInt8.toNat_zero, Nat.zero_mul, Nat.zero_add,
            loadBE_cons_lt second rest] at small
          exact ⟨rfl, small⟩
        · rintro ⟨rfl, low⟩
          rw [loadBE_cons, UInt8.toNat_zero, Nat.zero_mul, Nat.zero_add, loadBE_cons_lt]
          exact low
      rw [List.length_cons] at fits
      rw [Shortest, ← fits, List.length_cons, List.length_cons, ← UInt8.not_lt]
      by_cases zero : first = 0
      · simp only [zero, true_and, forall_const] at shorter ⊢
        rw [← shorter]
        omega
      · simp only [zero, false_and, iff_false, false_implies, and_true] at shorter ⊢
        omega

theorem shortest_contents (n : Nat) : Shortest (contents n) := by
  rw [shortest_iff, loadBE_contents]

theorem length_integer (n : Nat) (short : width n < 128) : (integer n).length = 2 + width n := by
  rw [integer, tlv_short _ _ (by rwa [length_contents]), List.length_cons, List.length_cons,
    length_contents]
  omega

theorem tlv_append_inj {tag : UInt8} {left right after after' : List UInt8}
    (short : left.length < 128) (short' : right.length < 128)
    (same : tlv tag left ++ after = tlv tag right ++ after') : left = right ∧ after = after' := by
  rw [tlv_short _ _ short, tlv_short _ _ short'] at same
  simp only [List.cons_append, List.cons.injEq, true_and] at same
  obtain ⟨size, bytes⟩ := same
  have lengths : left.length = right.length := by
    have := congrArg UInt8.toNat size
    rw [UInt8.toNat_ofNat', UInt8.toNat_ofNat'] at this
    omega
  exact List.append_inj bytes lengths

theorem tlv_inj {tag : UInt8} {left right : List UInt8} (short : left.length < 128)
    (short' : right.length < 128) (same : tlv tag left = tlv tag right) : left = right := by
  have padded : tlv tag left ++ [] = tlv tag right ++ [] := by rw [same]
  exact (tlv_append_inj short short' padded).1

theorem length_le_tlv (tag : UInt8) (body : List UInt8) : body.length ≤ (tlv tag body).length := by
  rw [tlv, List.length_cons, List.length_append]
  omega

example : integer 0 = [0x02, 0x01, 0x00] := by decide
example : integer 128 = [0x02, 0x02, 0x00, 0x80] := by decide

end Der
