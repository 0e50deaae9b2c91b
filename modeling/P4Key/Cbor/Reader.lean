import Mathlib.Data.Nat.Bitwise
import P4Key.Cbor.Writer

/-! The CBOR reader of p4_cbor.c.

A `p4_cbor_get_*` call is a function from the reader to the value it stores
through its output pointers, if it returns true, and to the reader after it. -/

namespace P4Key.Cbor

open Memory

structure Reader where
  data : List UInt8
  offset : Nat
  failed : Bool
  deriving DecidableEq, Repr

abbrev Get (α : Type) : Type := Reader → Option α × Reader

def Get.fail {α : Type} : Get α := fun reader => (none, { reader with failed := true })

def readerTake (len : Nat) : Get (List UInt8) := fun reader =>
  if reader.failed ∨ reader.offset > reader.data.length ∨
      len > reader.data.length - reader.offset then
    Get.fail reader
  else
    (some (slice reader.data reader.offset len), { reader with offset := reader.offset + len })

def argumentBytes (additional : UInt8) : Option Nat :=
  if additional = 24 then some 1
  else if additional = 25 then some 2
  else if additional = 26 then some 4
  else if additional = 27 then some 8
  else none

def overlong (bytes decoded : Nat) : Bool :=
  (bytes == 1 && decide (decoded < 24)) || (bytes == 2 && decide (decoded ≤ 0xff)) ||
    (bytes == 4 && decide (decoded ≤ 0xffff)) || (bytes == 8 && decide (decoded ≤ 0xffffffff))

def readerHead : Get (UInt8 × Nat) := fun reader =>
  match readerTake 1 reader with
  | (none, reader) => (none, reader)
  | (some bytes, reader) =>
    let first := bytes.headD 0
    let major := first >>> 5
    let additional := first &&& 0x1f
    if additional < 24 then (some (major, additional.toNat), reader)
    else
      match argumentBytes additional with
      | none => Get.fail reader
      | some count =>
        match readerTake count reader with
        | (none, reader) => (none, reader)
        | (some encoded, reader) =>
          let decoded := loadBE encoded
          if overlong count decoded then Get.fail reader
          else (some (major, decoded), reader)

def readerContainer (expectedMajor : UInt8) : Get Nat := fun reader =>
  match readerHead reader with
  | (none, reader) => Get.fail reader
  | (some (major, value), reader) =>
    if major ≠ expectedMajor ∨ value > maxContainerItems then Get.fail reader
    else (some value, reader)

def readerData (expectedMajor : UInt8) : Get (List UInt8) := fun reader =>
  match readerHead reader with
  | (none, reader) => Get.fail reader
  | (some (major, value), reader) =>
    if major ≠ expectedMajor ∨ value > maxBytes then Get.fail reader
    else readerTake value reader

def readerInit (data : List UInt8) : Reader where
  data := data
  offset := 0
  failed := decide (data.length > maxBytes)

def getMap : Get Nat := readerContainer 5

def getArray : Get Nat := readerContainer 4

def getUint : Get Nat := fun reader =>
  match readerHead reader with
  | (none, reader) => Get.fail reader
  | (some (major, value), reader) =>
    if major ≠ 0 then Get.fail reader else (some value, reader)

def int64Max : Nat := 0x7fffffffffffffff

def getInt : Get Int := fun reader =>
  match readerHead reader with
  | (none, reader) => Get.fail reader
  | (some (major, encoded), reader) =>
    if (major ≠ 0 ∧ major ≠ 1) ∨ (major = 0 ∧ encoded > int64Max) ∨
        (major = 1 ∧ encoded > int64Max) then Get.fail reader
    else (some (if major = 0 then (encoded : Int) else -1 - (encoded : Int)), reader)

def getBytes : Get (List UInt8) := readerData 2

def getText : Get (List UInt8) := readerData 3

def getBool : Get Bool := fun reader =>
  match readerHead reader with
  | (none, reader) => Get.fail reader
  | (some (major, encoded), reader) =>
    if major ≠ 7 ∨ (encoded ≠ 20 ∧ encoded ≠ 21) then Get.fail reader
    else (some (encoded == 21), reader)

def skipItems (item : Get Unit) : Nat → Get Unit
  | 0 => fun reader => (some (), reader)
  | count + 1 => fun reader =>
    match item reader with
    | (none, reader) => (none, reader)
    | (some (), reader) => skipItems item count reader

/-- `reader_skip` with a budget of nested containers. The source counts `depth` up and fails
past `P4_CBOR_MAX_DEPTH`, so an item at depth `d` has the budget `maxDepth + 1 - d`. -/
def readerSkip : Nat → Get Unit
  | 0 => Get.fail
  | budget + 1 => fun reader =>
    match readerHead reader with
    | (none, reader) => (none, reader)
    | (some (major, value), reader) =>
      if major = 0 ∨ major = 1 then (some (), reader)
      else if major = 2 ∨ major = 3 then
        -- an overlong string returns false here and leaves the failure flag alone
        if value ≤ maxBytes then
          match readerTake value reader with
          | (none, reader) => (none, reader)
          | (some _, reader) => (some (), reader)
        else (none, reader)
      else if major = 4 ∨ major = 5 then
        if value > maxContainerItems then Get.fail reader
        else skipItems (readerSkip budget) (value * if major = 5 then 2 else 1) reader
      else if major = 7 ∧ (value = 20 ∨ value = 21) then (some (), reader)
      else Get.fail reader

def skip : Get Unit := readerSkip (maxDepth + 1)

def readerDone (reader : Reader) : Bool :=
  !reader.failed && reader.offset == reader.data.length

/-- The bit set of keys seen so far, and whether `key` is new in it. -/
def knownKeyOnce (seen : UInt32) (key : UInt8) : Option UInt32 :=
  if key = 0 ∨ key > 32 then none
  else
    let bit := (1 : UInt32) <<< (key.toUInt32 - 1)
    if seen &&& bit ≠ 0 then none else some (seen ||| bit)

def keysSeen (seen : UInt32) : Set Nat :=
  {key | 0 < key ∧ key ≤ 32 ∧ seen.toNat.testBit (key - 1) = true}

@[simp] theorem keysSeen_zero : keysSeen 0 = ∅ := by
  ext key
  simp [keysSeen]

theorem keyBit (key : Nat) (positive : 0 < key) (small : key ≤ 32) :
    ((1 : UInt32) <<< ((UInt8.ofNat key).toUInt32 - 1)).toNat = 2 ^ (key - 1) := by
  have all : ∀ k : Fin 33, 0 < k.val →
      ((1 : UInt32) <<< ((UInt8.ofNat k.val).toUInt32 - 1)).toNat = 2 ^ (k.val - 1) := by decide
  exact all ⟨key, by omega⟩ positive

/-- A key is accepted once, and the set then holds it besides what it held before. -/
theorem knownKeyOnce_spec (seen seen' : UInt32) (key : Nat) (small : key ≤ 32)
    (accepted : knownKeyOnce seen (UInt8.ofNat key) = some seen') :
    0 < key ∧ key ∉ keysSeen seen ∧ keysSeen seen' = insert key (keysSeen seen) := by
  rw [knownKeyOnce] at accepted
  split at accepted
  · cases accepted
  · rename_i range
    have positive : 0 < key := by
      rcases Nat.eq_zero_or_pos key with zero | positive
      · subst key
        exact absurd (Or.inl rfl) range
      · exact positive
    have bit := keyBit key positive small
    simp only at accepted
    split at accepted
    · cases accepted
    · rename_i fresh
      rw [ne_eq, not_not] at fresh
      cases accepted
      have absent : seen.toNat.testBit (key - 1) = false := by
        have masked : seen.toNat &&& 2 ^ (key - 1) = 0 := by
          rw [← bit, ← UInt32.toNat_and, fresh]
          rfl
        rw [Nat.and_two_pow] at masked
        simpa using masked
      refine ⟨positive, ?_, ?_⟩
      · intro member
        simp [keysSeen, absent] at member
      · ext other
        simp only [keysSeen, Set.mem_ofPred_eq, Set.mem_insert_iff, UInt32.toNat_or, bit,
          Nat.testBit_or, Nat.testBit_two_pow, Bool.or_eq_true, decide_eq_true_eq]
        constructor
        · rintro ⟨otherPositive, otherSmall, old | new⟩
          · exact Or.inr ⟨otherPositive, otherSmall, old⟩
          · exact Or.inl (by omega)
        · rintro (rfl | ⟨otherPositive, otherSmall, old⟩)
          · exact ⟨positive, small, Or.inr rfl⟩
          · exact ⟨otherPositive, otherSmall, Or.inl old⟩

/-- A mask test passes exactly if the key of every bit in the mask was seen. -/
theorem mem_keysSeen_of_mask (seen required : UInt32) (held : seen &&& required = required)
    (key : Nat) (member : key ∈ keysSeen required) : key ∈ keysSeen seen := by
  obtain ⟨positive, small, bit⟩ := member
  refine ⟨positive, small, ?_⟩
  rw [← held, UInt32.toNat_and, Nat.testBit_and, Bool.and_eq_true] at bit
  exact bit.1

end P4Key.Cbor
