import P4Key.Cbor.Items

/-! Readers that have failed.

Every way in which a get can fail sets the flag, and no get succeeds once it is set. -/

namespace P4Key.Cbor

open Memory

def Flags {α : Type} (get : Get α) : Prop :=
  ∀ reader after, get reader = (none, after) → after.failed = true

def Sticks {α : Type} (get : Get α) : Prop :=
  ∀ reader, reader.failed = true → ∃ after, get reader = (none, after) ∧ after.failed = true

theorem fail_flags {α : Type} {reader after : Reader}
    (failed : (Get.fail : Get α) reader = (none, after)) : after.failed = true := by
  cases failed
  rfl

theorem guard_flags {α : Type} {c : Prop} [Decidable c] {value : α} {reader after : Reader}
    (refused : (if c then Get.fail reader else (some value, reader)) = (none, after)) :
    after.failed = true := by
  split at refused
  · exact fail_flags refused
  · cases refused

theorem readerTake_flags (len : Nat) : Flags (readerTake len) := by
  intro reader after failed
  rw [readerTake] at failed
  split at failed
  · exact fail_flags failed
  · cases failed

theorem readerTake_sticks (len : Nat) : Sticks (readerTake len) := by
  intro reader failed
  rw [readerTake, if_pos (Or.inl failed)]
  exact ⟨_, rfl, rfl⟩

theorem readerHead_sticks : Sticks readerHead := by
  intro reader failed
  rcases readerTake_sticks 1 reader failed with ⟨after, taken, flag⟩
  simp only [readerHead, taken]
  exact ⟨after, rfl, flag⟩

theorem readerHead_flags : Flags readerHead := by
  intro reader after failed
  rw [readerHead] at failed
  rcases first : readerTake 1 reader with ⟨_ | bytes, reader₁⟩
  · rw [first] at failed
    cases failed
    exact readerTake_flags 1 _ _ first
  rw [first] at failed
  simp only at failed
  split at failed
  · cases failed
  split at failed
  · exact fail_flags failed
  · rename_i count here
    rcases second : readerTake count reader₁ with ⟨_ | encoded, reader₂⟩
    · rw [second] at failed
      cases failed
      exact readerTake_flags count _ _ second
    · rw [second] at failed
      exact guard_flags failed

/-! Every get reads a head first, and gives up if there is none. -/

section Gets

variable {α : Type} {get : Get α}

theorem Sticks.of_head
    (first : ∀ reader after, readerHead reader = (none, after) → get reader = Get.fail after) :
    Sticks get := by
  intro reader failed
  rcases readerHead_sticks reader failed with ⟨after, head, flag⟩
  rw [first reader after head]
  exact ⟨_, rfl, rfl⟩

theorem Flags.of_head
    (first : ∀ reader after, readerHead reader = (none, after) → get reader = Get.fail after)
    (second : ∀ reader major value after failed, readerHead reader = (some (major, value), after) →
      get reader = (none, failed) → failed.failed = true) : Flags get := by
  intro reader after failed
  rcases head : readerHead reader with ⟨_ | ⟨major, value⟩, middle⟩
  · rw [first reader middle head] at failed
    exact fail_flags failed
  · exact second reader major value middle after head failed

end Gets

theorem readerContainer_none {major : UInt8} {reader after : Reader}
    (head : readerHead reader = (none, after)) : readerContainer major reader = Get.fail after := by
  simp only [readerContainer, head]

theorem readerData_none {major : UInt8} {reader after : Reader}
    (head : readerHead reader = (none, after)) : readerData major reader = Get.fail after := by
  simp only [readerData, head]

theorem getUint_none {reader after : Reader} (head : readerHead reader = (none, after)) :
    getUint reader = Get.fail after := by
  simp only [getUint, head]

theorem getInt_none {reader after : Reader} (head : readerHead reader = (none, after)) :
    getInt reader = Get.fail after := by
  simp only [getInt, head]

theorem getBool_none {reader after : Reader} (head : readerHead reader = (none, after)) :
    getBool reader = Get.fail after := by
  simp only [getBool, head]

theorem readerContainer_flags (major : UInt8) : Flags (readerContainer major) := by
  refine .of_head (fun _ _ => readerContainer_none) ?_
  intro reader found value after failed head refused
  simp only [readerContainer, head] at refused
  exact guard_flags refused

theorem readerData_flags (major : UInt8) : Flags (readerData major) := by
  refine .of_head (fun _ _ => readerData_none) ?_
  intro reader found value after failed head refused
  simp only [readerData, head] at refused
  split at refused
  · exact fail_flags refused
  · exact readerTake_flags value _ _ refused

theorem getUint_flags : Flags getUint := by
  refine .of_head (fun _ _ => getUint_none) ?_
  intro reader found value after failed head refused
  simp only [getUint, head] at refused
  exact guard_flags refused

theorem getInt_flags : Flags getInt := by
  refine .of_head (fun _ _ => getInt_none) ?_
  intro reader found value after failed head refused
  simp only [getInt, head] at refused
  exact guard_flags refused

theorem getBool_flags : Flags getBool := by
  refine .of_head (fun _ _ => getBool_none) ?_
  intro reader found value after failed head refused
  simp only [getBool, head] at refused
  exact guard_flags refused

theorem Flags.map {α β : Type} {get : Get α} (flags : Flags get) (f : α → β) :
    Flags (get.map f) := by
  intro reader after failed
  rw [Get.map] at failed
  rcases inner : get reader with ⟨_ | value, middle⟩
  · rw [inner] at failed
    cases failed
    exact flags _ _ inner
  · rw [inner] at failed
    cases failed

theorem Sticks.map {α β : Type} {get : Get α} (sticks : Sticks get) (f : α → β) :
    Sticks (get.map f) := by
  intro reader failed
  rcases sticks reader failed with ⟨after, refused, flag⟩
  rw [Get.map, refused]
  exact ⟨after, rfl, flag⟩

theorem Kind.get_flags (kind : Kind) : Flags kind.get := by
  cases kind with
  | uint => exact getUint_flags.map _
  | int => exact getInt_flags.map _
  | bytes => exact (readerData_flags 2).map _
  | text => exact (readerData_flags 3).map _
  | bool => exact getBool_flags.map _
  | array => exact (readerContainer_flags 4).map _
  | map => exact (readerContainer_flags 5).map _

theorem Kind.get_sticks (kind : Kind) : Sticks kind.get := by
  cases kind with
  | uint => exact (Sticks.of_head fun _ _ => getUint_none).map _
  | int => exact (Sticks.of_head fun _ _ => getInt_none).map _
  | bytes => exact (Sticks.of_head fun _ _ => readerData_none).map _
  | text => exact (Sticks.of_head fun _ _ => readerData_none).map _
  | bool => exact (Sticks.of_head fun _ _ => getBool_none).map _
  | array => exact (Sticks.of_head fun _ _ => readerContainer_none).map _
  | map => exact (Sticks.of_head fun _ _ => readerContainer_none).map _

/-- `reader_skip` needs no failure of its own: its head fails on a failed reader. -/
theorem readerSkip_sticks (budget : Nat) : Sticks (readerSkip budget) := by
  intro reader failed
  cases budget with
  | zero => exact ⟨_, rfl, rfl⟩
  | succ budget =>
      rcases readerHead_sticks reader failed with ⟨after, head, flag⟩
      simp only [readerSkip, head]
      exact ⟨after, rfl, flag⟩

end P4Key.Cbor
