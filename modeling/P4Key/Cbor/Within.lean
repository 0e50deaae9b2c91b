import P4Key.Cbor.Items

/-! Where a writer writes.

A put that fails half way has stored the items before it. It never stores at or behind the
capacity, and on a writer that has failed it stores nothing. -/

namespace P4Key.Cbor

open Memory

structure Writer.Keeps (writer after : Writer) : Prop where
  cap : after.cap = writer.cap
  size : after.data.length = writer.data.length
  beyond : after.data.drop writer.cap = writer.data.drop writer.cap
  inside : writer.len ≤ writer.cap → after.len ≤ writer.cap
  stuck : writer.failed = true → after.failed = true ∧ after.data = writer.data

theorem Writer.Keeps.trans {first second third : Writer} (left : first.Keeps second)
    (right : second.Keeps third) : first.Keeps third where
  cap := right.cap.trans left.cap
  size := right.size.trans left.size
  beyond := by
    have last := right.beyond
    rw [left.cap] at last
    exact last.trans left.beyond
  inside := by
    intro fits
    have last := right.inside
    rw [left.cap] at last
    exact last (left.inside fits)
  stuck := by
    intro failed
    obtain ⟨still, same⟩ := left.stuck failed
    obtain ⟨last, data⟩ := right.stuck still
    exact ⟨last, data.trans same⟩

def Within (put : Put) : Prop := ∀ writer : Writer, writer.Keeps (put writer).2

theorem fail_within : Within Put.fail := by
  intro writer
  exact ⟨rfl, rfl, rfl, id, fun _ => ⟨rfl, rfl⟩⟩

theorem writerAdd_within (data : List UInt8) : Within (writerAdd data) := by
  intro writer
  rw [writerAdd]
  split
  · exact fail_within writer
  · rename_i fits
    simp only [not_or] at fits
    have later : writer.cap = writer.len + data.length + (writer.cap - writer.len - data.length) := by
      omega
    refine ⟨rfl, length_store _ _ _, ?_, fun _ => ?_, fun failed => absurd failed fits.1⟩
    · rw [later, ← List.drop_drop, drop_store, List.drop_drop]
    · show writer.len + data.length ≤ writer.cap
      omega

theorem Within.andThen {first second : Put} (left : Within first) (right : Within second) :
    Within (first.andThen second) := by
  intro writer
  have one := left writer
  rw [Put.andThen]
  rcases head : first writer with ⟨_ | _, middle⟩
  · rw [head] at one
    exact one
  · rw [head] at one
    exact one.trans (right middle)

theorem putContainer_within (major : UInt8) (count : Nat) : Within (putContainer major count) := by
  rw [putContainer]
  split
  · exact fail_within
  · exact writerAdd_within _

theorem putData_within (major : UInt8) (data : List UInt8) : Within (putData major data) := by
  rw [putData]
  split
  · exact fail_within
  · exact (writerAdd_within _).andThen (writerAdd_within data)

theorem Item.put_within (item : Item) : Within item.put := by
  cases item with
  | uint value => exact writerAdd_within _
  | int value =>
      rw [Item.put, putInt]
      split <;> exact writerAdd_within _
  | bytes data => exact putData_within 2 data
  | text data => exact putData_within 3 data
  | bool value => exact writerAdd_within _
  | array items => exact putContainer_within 4 items
  | map pairs => exact putContainer_within 5 pairs

theorem putItems_within (items : List Item) : Within (putItems items) := by
  induction items with
  | nil => exact fun writer => ⟨rfl, rfl, rfl, id, fun failed => ⟨failed, rfl⟩⟩
  | cons item rest ih => exact (item.put_within).andThen ih

theorem putItems_failed (item : Item) (rest : List Item) (writer : Writer)
    (failed : writer.failed = true) :
    (putItems (item :: rest) writer).1 = false ∧
      (putItems (item :: rest) writer).2.data = writer.data := by
  refine ⟨?_, ((putItems_within (item :: rest) writer).stuck failed).2⟩
  have refused := Item.put_failed item writer failed
  rw [putItems, Put.andThen]
  rcases head : item.put writer with ⟨_ | _, after⟩
  · rfl
  · rw [head] at refused
    cases refused

theorem putItems_wide (item : Item) (rest : List Item) (data : List UInt8) (cap : Nat)
    (wide : maxBytes < cap) :
    ∃ writer, putItems (item :: rest) (writerInit data cap) = (false, writer) ∧ writer.data = data := by
  have failed : (writerInit data cap).failed = true := by
    simp only [writerInit, decide_eq_true_eq]
    omega
  have stopped := putItems_failed item rest _ failed
  rcases whole : putItems (item :: rest) (writerInit data cap) with ⟨ok, writer⟩
  rw [whole] at stopped
  rcases stopped with ⟨rfl, same⟩
  exact ⟨writer, rfl, same⟩

end P4Key.Cbor
