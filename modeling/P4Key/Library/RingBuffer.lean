import Mathlib.Data.Nat.ModEq
import Mathlib.Logic.Function.Basic
import Mathlib.Tactic

/-! A queue of bounded size in an array whose indices wrap. It refines a list. -/

variable {α : Type*} {capacity : Nat}

/-- `count` items from `head` on. The other cells hold anything. -/
structure RingBuffer (α : Type*) (capacity : Nat) where
  items : Fin capacity → α
  head : Fin capacity
  count : Nat
  count_le : count ≤ capacity

namespace RingBuffer

def cell (buffer : RingBuffer α capacity) (k : Nat) : Fin capacity :=
  ⟨(buffer.head + k) % capacity, Nat.mod_lt _ buffer.head.pos⟩

/-- What the queue holds, the oldest item first. -/
def toList (buffer : RingBuffer α capacity) : List α :=
  (List.range buffer.count).map fun k => buffer.items (buffer.cell k)

def push (buffer : RingBuffer α capacity) (item : α) (room : buffer.count < capacity) :
    RingBuffer α capacity where
  items := Function.update buffer.items (buffer.cell buffer.count) item
  head := buffer.head
  count := buffer.count + 1
  count_le := room

/-- The oldest item, and the queue without it. Its cell is left as it is. -/
def pop (buffer : RingBuffer α capacity) : α × RingBuffer α capacity :=
  (buffer.items buffer.head,
    { buffer with
      head := buffer.cell 1
      count := buffer.count - 1
      count_le := Nat.le_trans (Nat.sub_le _ _) buffer.count_le })

def fresh (item : α) (head : Fin capacity) : RingBuffer α capacity :=
  { items := fun _ => item, head := head, count := 0, count_le := Nat.zero_le _ }

@[simp] theorem length_toList (buffer : RingBuffer α capacity) :
    buffer.toList.length = buffer.count := by
  simp [toList]

theorem cell_ne (buffer : RingBuffer α capacity) {j k : Nat} (before : j < k) (inside : k < capacity) :
    buffer.cell j ≠ buffer.cell k := by
  intro same
  have values : (buffer.head + j) % capacity = (buffer.head + k) % capacity := Fin.mk.inj same
  have places : j % capacity = k % capacity := Nat.ModEq.add_left_cancel' (buffer.head : Nat) values
  rw [Nat.mod_eq_of_lt (Nat.lt_trans before inside), Nat.mod_eq_of_lt inside] at places
  omega

theorem cell_zero (buffer : RingBuffer α capacity) : buffer.cell 0 = buffer.head := by
  apply Fin.ext
  exact Nat.mod_eq_of_lt buffer.head.isLt

theorem cell_pop (buffer : RingBuffer α capacity) (k : Nat) :
    buffer.pop.2.cell k = buffer.cell (k + 1) := by
  apply Fin.ext
  change ((buffer.head + 1) % capacity + k) % capacity = (buffer.head + (k + 1)) % capacity
  rw [Nat.mod_add_mod]
  congr 1
  omega

theorem toList_push (buffer : RingBuffer α capacity) (item : α) (room : buffer.count < capacity) :
    (buffer.push item room).toList = buffer.toList ++ [item] := by
  have kept : ∀ k ∈ List.range buffer.count,
      (buffer.push item room).items ((buffer.push item room).cell k) = buffer.items (buffer.cell k) := by
    intro k member
    exact Function.update_of_ne (buffer.cell_ne (List.mem_range.mp member) room) _ _
  have written : (buffer.push item room).items ((buffer.push item room).cell buffer.count) = item :=
    Function.update_self _ _ _
  rw [toList, toList]
  change (List.range (buffer.count + 1)).map _ = _
  rw [List.range_succ, List.map_append, List.map_congr_left kept, List.map_singleton, written]

theorem toList_pop (buffer : RingBuffer α capacity) (full : buffer.count ≠ 0) :
    buffer.toList = buffer.pop.1 :: buffer.pop.2.toList := by
  obtain ⟨rest, size⟩ := Nat.exists_eq_succ_of_ne_zero full
  have shifted : buffer.pop.2.toList =
      (List.range rest).map fun k => buffer.items (buffer.cell (k + 1)) := by
    rw [toList]
    change (List.range (buffer.count - 1)).map _ = _
    rw [size, Nat.succ_sub_one]
    apply List.map_congr_left
    intro k _
    rw [cell_pop]
    rfl
  rw [shifted, toList, size, List.range_succ_eq_map, List.map_cons, List.map_map, cell_zero]
  rfl

theorem toList_eq_nil (buffer : RingBuffer α capacity) : buffer.toList = [] ↔ buffer.count = 0 := by
  rw [← List.length_eq_zero_iff, length_toList]

end RingBuffer
