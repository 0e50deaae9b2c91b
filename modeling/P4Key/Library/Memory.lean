import Mathlib.Data.Vector.Basic
import Mathlib.Tactic

/-! Byte regions as lists.

A region keeps its length under every store. A store that does not fit writes
only the bytes inside the region, so the bounds that a program checks are
proved where they are used and never assumed here. -/

namespace Memory

abbrev Bytes (size : Nat) : Type := List.Vector UInt8 size

/-- Overwrites `mem` from `offset` on with `src`, inside the region. -/
def store (mem : List UInt8) (offset : Nat) (src : List UInt8) : List UInt8 :=
  mem.take offset ++ (src.take (mem.length - offset) ++ mem.drop (offset + src.length))

def slice (mem : List UInt8) (offset len : Nat) : List UInt8 :=
  (mem.drop offset).take len

def zeros (len : Nat) : List UInt8 := List.replicate len 0

def clear (mem : List UInt8) (len : Nat) : List UInt8 := store mem 0 (zeros len)

@[simp] theorem length_zeros (len : Nat) : (zeros len).length = len := by
  simp [zeros]

@[simp] theorem length_store (mem : List UInt8) (offset : Nat) (src : List UInt8) :
    (store mem offset src).length = mem.length := by
  simp only [store, List.length_append, List.length_take, List.length_drop]
  omega

theorem store_fits (mem : List UInt8) (offset : Nat) (src : List UInt8)
    (fits : offset + src.length ≤ mem.length) :
    store mem offset src = mem.take offset ++ (src ++ mem.drop (offset + src.length)) := by
  have whole : src.take (mem.length - offset) = src := List.take_of_length_le (by omega)
  rw [store, whole]

@[simp] theorem store_nil (mem : List UInt8) (offset : Nat) : store mem offset [] = mem := by
  simp [store]

theorem head_store_zero (mem : List UInt8) (byte : UInt8) (head : UInt8)
    (same : (store mem 0 [byte]).head? = some head) : head = byte := by
  cases mem with
  | nil => simp [store] at same
  | cons first rest =>
      simp [store] at same
      exact same.symm

theorem clear_whole {mem : List UInt8} {len : Nat} (size : mem.length = len) :
    clear mem len = zeros len := by
  rw [clear, store_fits _ _ _ (by rw [length_zeros]; omega), List.take_zero, List.nil_append,
    List.drop_of_length_le (by rw [length_zeros]; omega), List.append_nil]

theorem store_prefix (done rest src : List UInt8) (fits : src.length ≤ rest.length) :
    store (done ++ rest) done.length src = (done ++ src) ++ rest.drop src.length := by
  rw [store_fits _ _ _ (by simp only [List.length_append]; omega)]
  rw [List.take_left, List.drop_length_add_append]
  simp only [List.append_assoc]

theorem store_zeros (done src : List UInt8) (offset space : Nat) (here : offset = done.length)
    (fits : src.length ≤ space) :
    store (done ++ zeros space) offset src = (done ++ src) ++ zeros (space - src.length) := by
  rw [here, store_prefix _ _ _ (by rw [length_zeros]; exact fits)]
  simp [zeros]

theorem store_store (mem : List UInt8) (offset : Nat) (first second : List UInt8)
    (fits : offset + first.length + second.length ≤ mem.length) :
    store (store mem offset first) (offset + first.length) second =
      store mem offset (first ++ second) := by
  have split : mem = mem.take offset ++ mem.drop offset := (List.take_append_drop _ _).symm
  have size : (mem.take offset).length = offset := by
    rw [List.length_take]
    omega
  rw [store_fits mem offset first (by omega),
    store_fits mem offset (first ++ second) (by rw [List.length_append]; omega)]
  have written : (mem.take offset ++ first).length = offset + first.length := by
    rw [List.length_append, size]
  rw [← List.append_assoc, ← written, store_prefix _ _ _ (by rw [written, List.length_drop]; omega)]
  rw [List.drop_drop, written]
  simp only [List.append_assoc, List.length_append, Nat.add_assoc]

theorem take_store (mem : List UInt8) (src : List UInt8) (fits : src.length ≤ mem.length) :
    (store mem 0 src).take src.length = src := by
  rw [store_fits mem 0 src (by omega)]
  simp

theorem take_store_at (mem : List UInt8) (offset : Nat) (src : List UInt8)
    (fits : offset + src.length ≤ mem.length) :
    (store mem offset src).take (offset + src.length) = mem.take offset ++ src := by
  have size : (mem.take offset ++ src).length = offset + src.length := by
    rw [List.length_append, List.length_take]
    omega
  rw [store_fits mem offset src fits, ← List.append_assoc, ← size, List.take_left]

theorem slice_append (before field after : List UInt8) (offset len : Nat)
    (here : offset = before.length) (size : len = field.length) :
    slice (before ++ (field ++ after)) offset len = field := by
  rw [slice, here, size, List.drop_left, List.take_left]

theorem slice_append_drop (mem : List UInt8) (offset len : Nat) :
    slice mem offset len ++ mem.drop (offset + len) = mem.drop offset := by
  rw [slice, ← List.drop_drop, List.take_append_drop]

theorem length_slice (mem : List UInt8) (offset len : Nat) (fits : offset + len ≤ mem.length) :
    (slice mem offset len).length = len := by
  rw [slice, List.length_take, List.length_drop]
  omega

def storeInto {size : Nat} (mem : Bytes size) (offset : Nat) (src : List UInt8) : Bytes size :=
  ⟨store mem.toList offset src, by rw [length_store, List.Vector.toList_length]⟩

@[simp] theorem storeInto_toList {size : Nat} (mem : Bytes size) (offset : Nat) (src : List UInt8) :
    (storeInto mem offset src).toList = store mem.toList offset src := rfl

/-- The array of `size` bytes that begins at `offset`. -/
def load (size : Nat) (mem : List UInt8) (offset : Nat) : Bytes size :=
  List.Vector.ofFn fun i => mem.getD (offset + i) 0

theorem load_toList (size : Nat) (mem : List UInt8) (offset : Nat)
    (fits : offset + size ≤ mem.length) : (load size mem offset).toList = slice mem offset size := by
  rw [load, List.Vector.toList_ofFn]
  apply List.ext_getElem
  · rw [List.length_ofFn, length_slice _ _ _ fits]
  · intro i left right
    rw [List.length_ofFn] at left
    have bound : offset + i < mem.length := by omega
    rw [List.getElem_ofFn, List.getD_eq_getElem?_getD, List.getElem?_eq_getElem bound,
      Option.getD_some]
    simp only [slice, List.getElem_take, List.getElem_drop]

theorem load_eq (size : Nat) (mem : List UInt8) (offset : Nat) (field : Bytes size)
    (fits : offset + size ≤ mem.length) (same : slice mem offset size = field.toList) :
    load size mem offset = field := by
  apply List.Vector.toList_injective
  rw [load_toList size mem offset fits, same]

theorem load_short (size : Nat) (mem : List UInt8) (short : mem.length ≤ size) :
    (load size mem 0).toList = mem ++ zeros (size - mem.length) := by
  apply List.ext_getElem
  · rw [List.Vector.toList_length, List.length_append, length_zeros]
    omega
  · intro i left right
    have element : (load size mem 0).toList[i] = mem.getD i 0 := by
      simp only [load, List.Vector.toList_ofFn, List.getElem_ofFn, Nat.zero_add]
    rw [List.Vector.toList_length] at left
    rw [element, List.getD_eq_getElem?_getD, List.getElem_append]
    by_cases inside : i < mem.length
    · rw [dif_pos inside, List.getElem?_eq_getElem inside, Option.getD_some]
    · rw [dif_neg inside, List.getElem?_eq_none (by omega), Option.getD_none]
      simp [zeros]

theorem load_store (mem src : List UInt8) (fits : src.length ≤ mem.length) :
    (load src.length (store mem 0 src) 0).toList = src := by
  rw [load_toList _ _ _ (by rw [length_store, Nat.zero_add]; exact fits), slice, List.drop_zero,
    take_store mem src fits]

theorem load_self {size : Nat} (field : Bytes size) : load size field.toList 0 = field := by
  apply load_eq
  · rw [List.Vector.toList_length, Nat.zero_add]
  · rw [slice, List.drop_zero]
    exact List.take_of_length_le (by rw [List.Vector.toList_length])

def ZeroFrom (mem : List UInt8) (offset : Nat) : Prop := ∀ byte ∈ mem.drop offset, byte = 0

theorem ZeroFrom.later {mem : List UInt8} {offset further : Nat} (zero : ZeroFrom mem offset)
    (order : offset ≤ further) : ZeroFrom mem further := by
  intro byte member
  have split : further = offset + (further - offset) := by omega
  rw [split, ← List.drop_drop] at member
  exact zero byte (List.mem_of_mem_drop member)

theorem drop_store (mem : List UInt8) (offset : Nat) (src : List UInt8) :
    (store mem offset src).drop (offset + src.length) = mem.drop (offset + src.length) := by
  by_cases fits : offset + src.length ≤ mem.length
  · have written : (mem.take offset ++ src).length = offset + src.length := by
      rw [List.length_append, List.length_take, Nat.min_eq_left (by omega)]
    rw [store_fits mem offset src fits, ← List.append_assoc, ← written, List.drop_left]
  · rw [List.drop_eq_nil_of_le (by rw [length_store]; omega), List.drop_eq_nil_of_le (by omega)]

theorem ZeroFrom.store {mem : List UInt8} {offset : Nat} (zero : ZeroFrom mem offset)
    (src : List UInt8) : ZeroFrom (Memory.store mem offset src) (offset + src.length) := by
  intro byte member
  rw [drop_store] at member
  exact zero.later (Nat.le_add_right _ _) byte member

theorem toList_replicate (size : Nat) :
    (List.Vector.replicate size (0 : UInt8)).toList = zeros size := rfl

theorem zeroFrom_replicate (size offset : Nat) :
    ZeroFrom (List.Vector.replicate size (0 : UInt8)).toList offset := by
  intro byte member
  rw [toList_replicate] at member
  exact List.eq_of_mem_replicate (List.mem_of_mem_drop member)

theorem zeroFrom_zero {size : Nat} {mem : Bytes size} (zero : ZeroFrom mem.toList 0) :
    mem = List.Vector.replicate size 0 := by
  apply List.Vector.toList_injective
  rw [toList_replicate, zeros, List.eq_replicate_iff]
  exact ⟨mem.toList_length, zero⟩

/-! Big-endian numbers. -/

def loadBE (bytes : List UInt8) : Nat :=
  bytes.foldl (fun value byte => value * 256 + byte.toNat) 0

/-- The low `width` bytes of `n`, most significant first. -/
def storeBE : Nat → Nat → List UInt8
  | 0, _ => []
  | width + 1, n => storeBE width (n / 256) ++ [UInt8.ofNat n]

@[simp] theorem length_storeBE (width n : Nat) : (storeBE width n).length = width := by
  induction width generalizing n with
  | zero => rfl
  | succ width ih => simp [storeBE, ih]

theorem loadBE_append_byte (bytes : List UInt8) (byte : UInt8) :
    loadBE (bytes ++ [byte]) = loadBE bytes * 256 + byte.toNat := by
  simp [loadBE]

theorem loadBE_storeBE (width n : Nat) (bound : n < 256 ^ width) :
    loadBE (storeBE width n) = n := by
  induction width generalizing n with
  | zero =>
      have : n = 0 := by simpa using bound
      subst n
      rfl
  | succ width ih =>
      have high : n / 256 < 256 ^ width := by
        rw [Nat.div_lt_iff_lt_mul (by decide)]
        simpa [Nat.pow_succ] using bound
      rw [storeBE, loadBE_append_byte, ih _ high, UInt8.toNat_ofNat']
      omega

theorem loadBE_lt (bytes : List UInt8) : loadBE bytes < 256 ^ bytes.length := by
  induction bytes using List.reverseRecOn with
  | nil => decide
  | append_singleton bytes byte ih =>
      rw [loadBE_append_byte, List.length_append, List.length_singleton, Nat.pow_succ]
      have := byte.toNat_lt
      omega

theorem storeBE_loadBE (bytes : List UInt8) : storeBE bytes.length (loadBE bytes) = bytes := by
  induction bytes using List.reverseRecOn with
  | nil => rfl
  | append_singleton bytes byte ih =>
      have low : UInt8.ofNat (loadBE bytes * 256 + byte.toNat) = byte := by
        apply UInt8.toNat_inj.mp
        rw [UInt8.toNat_ofNat']
        have := byte.toNat_lt
        omega
      have high : (loadBE bytes * 256 + byte.toNat) / 256 = loadBE bytes := by
        have := byte.toNat_lt
        omega
      rw [List.length_append, List.length_singleton, loadBE_append_byte, storeBE, high, ih, low]

end Memory
