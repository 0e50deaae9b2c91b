import P4Key.Cbor.Within

/-! When a sequence of puts fits.

Callers may go on after a put has failed and ask the writer once at the end. A
put that is refused, before or between its two stores, sets the flag, so what
the writer says at the end is whether the whole sequence has fitted. -/

namespace P4Key.Cbor

open Memory

/-- One put after another, whatever they return: the results and the writer at the end. -/
def putEach : List Item → Writer → List Bool × Writer
  | [], writer => ([], writer)
  | item :: rest, writer =>
    let (done, writer) := item.put writer
    let (results, writer) := putEach rest writer
    (done :: results, writer)

def Item.Bounded : Item → Prop
  | .uint _ => True
  | .int _ => True
  | .bytes data => data.length ≤ maxBytes
  | .text data => data.length ≤ maxBytes
  | .bool _ => True
  | .array items => items ≤ maxContainerItems
  | .map pairs => pairs ≤ maxContainerItems

instance : (item : Item) → Decidable item.Bounded
  | .uint _ => isTrue trivial
  | .int _ => isTrue trivial
  | .bytes data => inferInstanceAs (Decidable (data.length ≤ maxBytes))
  | .text data => inferInstanceAs (Decidable (data.length ≤ maxBytes))
  | .bool _ => isTrue trivial
  | .array items => inferInstanceAs (Decidable (items ≤ maxContainerItems))
  | .map pairs => inferInstanceAs (Decidable (pairs ≤ maxContainerItems))

def encodedLength (items : List Item) : Nat := (items.map fun item => item.encoding.length).sum

def Fits (cap : Nat) (items : List Item) : Prop :=
  cap ≤ maxBytes ∧ (∀ item ∈ items, item.Bounded) ∧ encodedLength items ≤ cap

def Writer.Room (writer : Writer) (items : List Item) : Prop :=
  (∀ item ∈ items, item.Bounded) ∧ writer.len + encodedLength items ≤ writer.cap

theorem length_encodings (items : List Item) : (encodings items).length = encodedLength items := by
  rw [encodings, List.length_flatten, List.map_map]
  rfl

structure Writer.Ready (writer : Writer) : Prop where
  working : writer.failed = false
  backed : writer.Backed
  inside : writer.len ≤ writer.cap

theorem Writer.Ready.append {writer : Writer} (ready : writer.Ready) (encoding : List UInt8)
    (fits : writer.len + encoding.length ≤ writer.cap) : (writer.append encoding).Ready where
  working := ready.working
  backed := by
    have room := ready.backed
    unfold Writer.Backed at *
    simpa using room
  inside := fits

/-- `put` fails with the flag set on every writer that has no room for `encoding`. -/
def Refuses (put : Put) (encoding : List UInt8) : Prop :=
  ∀ writer : Writer, writer.Ready → writer.cap < writer.len + encoding.length →
    (put writer).1 = false ∧ (put writer).2.failed = true

theorem writerAdd_refuses (data : List UInt8) : Refuses (writerAdd data) data := by
  intro writer ready full
  have inside := ready.inside
  have stop : writer.failed ∨ writer.len > writer.cap ∨ data.length > writer.cap - writer.len := by
    omega
  rw [writerAdd, if_pos stop]
  exact ⟨rfl, rfl⟩

theorem Refuses.andThen {first second : Put} {left right : List UInt8}
    (appends : Appends first left) (one : Refuses first left) (two : Refuses second right) :
    Refuses (first.andThen second) (left ++ right) := by
  intro writer ready full
  rw [List.length_append] at full
  rw [Put.andThen]
  by_cases fits : writer.len + left.length ≤ writer.cap
  · rw [appends writer ready.working ready.backed fits]
    have later : (writer.append left).cap < (writer.append left).len + right.length := by
      rw [Writer.append_cap, Writer.append_len]
      omega
    exact two (writer.append left) (ready.append left fits) later
  · have refused := one writer ready (by omega)
    rcases head : first writer with ⟨_ | _, after⟩
    · rw [head] at refused
      exact refused
    · rw [head] at refused
      cases refused.1

theorem putContainer_refuses (major : UInt8) (count : Nat) :
    Refuses (putContainer major count) (headBytes major count) := by
  rw [putContainer]
  split
  · exact fun _ _ _ => ⟨rfl, rfl⟩
  · exact writerAdd_refuses _

theorem putData_refuses (major : UInt8) (data : List UInt8) :
    Refuses (putData major data) (headBytes major data.length ++ data) := by
  rw [putData]
  split
  · exact fun _ _ _ => ⟨rfl, rfl⟩
  · exact (writerAdd_refuses _).andThen (writerAdd_appends _) (writerAdd_refuses data)

theorem Item.put_refuses (item : Item) : Refuses item.put item.encoding := by
  cases item with
  | uint value => exact writerAdd_refuses _
  | int value =>
      rw [Item.put, putInt, Item.encoding]
      split <;> exact writerAdd_refuses _
  | bytes data => exact putData_refuses 2 data
  | text data => exact putData_refuses 3 data
  | bool value => exact writerAdd_refuses _
  | array items => exact putContainer_refuses 4 items
  | map pairs => exact putContainer_refuses 5 pairs

theorem Item.put_bounded (item : Item) (bounded : item.Bounded) :
    Appends item.put item.encoding := by
  cases item with
  | uint value => exact putUint_appends value
  | int value => exact putInt_appends value
  | bytes data => exact putData_appends 2 data bounded
  | text data => exact putData_appends 3 data bounded
  | bool value => exact writerAdd_appends _
  | array items => exact putArray_appends items bounded
  | map pairs => exact putMap_appends pairs bounded

theorem Item.put_unbounded (item : Item) (unbounded : ¬ item.Bounded) : item.put = Put.fail := by
  cases item with
  | uint value => exact absurd trivial unbounded
  | int value => exact absurd trivial unbounded
  | bytes data => exact if_pos (Nat.lt_of_not_le unbounded)
  | text data => exact if_pos (Nat.lt_of_not_le unbounded)
  | bool value => exact absurd trivial unbounded
  | array items => exact if_pos (Nat.lt_of_not_le unbounded)
  | map pairs => exact if_pos (Nat.lt_of_not_le unbounded)

theorem Writer.room_singleton (writer : Writer) (item : Item) :
    writer.Room [item] ↔ item.Bounded ∧ writer.len + item.encoding.length ≤ writer.cap := by
  simp [Writer.Room, encodedLength]

theorem Item.put_exact (item : Item) (writer : Writer) (ready : writer.Ready) :
    (writer.Room [item] ∧ item.put writer = (true, writer.append item.encoding)) ∨
    (¬ writer.Room [item] ∧ (item.put writer).1 = false ∧ (item.put writer).2.failed = true) := by
  rw [Writer.room_singleton]
  by_cases bounded : item.Bounded
  · by_cases fits : writer.len + item.encoding.length ≤ writer.cap
    · exact Or.inl ⟨⟨bounded, fits⟩, item.put_bounded bounded writer ready.working ready.backed fits⟩
    · exact Or.inr ⟨fun room => fits room.2, item.put_refuses writer ready (by omega)⟩
  · apply Or.inr
    rw [item.put_unbounded bounded]
    exact ⟨fun room => bounded room.1, rfl, rfl⟩

theorem Writer.room_cons (writer : Writer) (item : Item) (rest : List Item)
    (here : writer.Room [item]) :
    writer.Room (item :: rest) ↔ (writer.append item.encoding).Room rest := by
  rw [Writer.room_singleton] at here
  simp only [Writer.Room, encodedLength, List.forall_mem_cons, here.1, true_and, List.map_cons,
    List.sum_cons, Writer.append_len, Writer.append_cap, Nat.add_assoc]

theorem Writer.room_head {writer : Writer} {item : Item} {rest : List Item}
    (room : writer.Room (item :: rest)) : writer.Room [item] := by
  rw [Writer.room_singleton]
  obtain ⟨bounded, fits⟩ := room
  rw [encodedLength, List.map_cons, List.sum_cons] at fits
  exact ⟨bounded item List.mem_cons_self, by omega⟩

theorem putEach_cons (item : Item) (rest : List Item) (writer : Writer) :
    putEach (item :: rest) writer =
      ((item.put writer).1 :: (putEach rest (item.put writer).2).1,
        (putEach rest (item.put writer).2).2) := rfl

theorem putEach_failed (items : List Item) (writer : Writer) (failed : writer.failed = true) :
    (putEach items writer).1 = List.replicate items.length false ∧
      (putEach items writer).2.failed = true := by
  induction items generalizing writer with
  | nil => exact ⟨rfl, failed⟩
  | cons item rest ih =>
      have still := ((item.put_within writer).stuck failed).1
      obtain ⟨results, last⟩ := ih (item.put writer).2 still
      rw [putEach_cons, item.put_failed writer failed, results, List.length_cons,
        List.replicate_succ]
      exact ⟨rfl, last⟩

theorem putEach_within (items : List Item) (writer : Writer) :
    writer.Keeps (putEach items writer).2 := by
  induction items generalizing writer with
  | nil => exact ⟨rfl, rfl, rfl, id, fun failed => ⟨failed, rfl⟩⟩
  | cons item rest ih => exact (item.put_within writer).trans (ih _)

/-- The results of a sequence: `done` puts that fit, and none behind them. -/
structure Results (items : List Item) (fits : List Item → Prop) (results : List Bool)
    (done : Nat) : Prop where
  bound : done ≤ items.length
  results : results = List.replicate done true ++ List.replicate (items.length - done) false
  exact : ∀ i < items.length, i < done ↔ fits (items.take (i + 1))

/-- The run: by induction on the sequence, with the room that is left. -/
theorem putEach_ready (items : List Item) (writer : Writer) (ready : writer.Ready) :
    ∃ done, Results items writer.Room (putEach items writer).1 done ∧
      ((writer.Room items ∧ done = items.length ∧
          (putEach items writer).2 = writer.append (encodings items)) ∨
        (¬ writer.Room items ∧ (putEach items writer).2.failed = true)) := by
  induction items generalizing writer with
  | nil =>
      refine ⟨0, ⟨Nat.le_refl _, rfl, fun i inside => absurd inside (Nat.not_lt_zero i)⟩,
        Or.inl ⟨⟨by simp, ready.inside⟩, rfl, ?_⟩⟩
      simp [putEach, encodings, Writer.append]
  | cons item rest ih =>
      rw [putEach_cons]
      rcases item.put_exact writer ready with ⟨room, put⟩ | ⟨full, refused, failed⟩
      · have fits := ((writer.room_singleton item).mp room).2
        obtain ⟨done, outcome, last⟩ := ih _ (ready.append item.encoding fits)
        rw [put]
        refine ⟨done + 1, ⟨by simpa using outcome.bound, ?_, ?_⟩, ?_⟩
        · rw [outcome.results, List.length_cons, List.replicate_succ, Nat.add_sub_add_right]
          rfl
        · intro i inside
          cases i with
          | zero => simpa using room
          | succ i =>
              rw [List.take_succ_cons, Writer.room_cons writer item _ room, Nat.add_lt_add_iff_right]
              exact outcome.exact i (by simpa using inside)
        · rw [writer.room_cons item rest room]
          rcases last with ⟨behind, all, whole⟩ | ⟨narrow, stopped⟩
          · refine Or.inl ⟨behind, by rw [all, List.length_cons], ?_⟩
            have total := ((writer.room_cons item rest room).mpr behind).2
            rw [← length_encodings] at total
            calc (putEach rest (writer.append item.encoding)).2
              _ = (writer.append item.encoding).append (encodings rest) := whole
              _ = writer.append (item.encoding ++ encodings rest) :=
                writer.append_append _ _ ready.backed total
          · exact Or.inr ⟨narrow, stopped⟩
      · have later := putEach_failed rest _ failed
        refine ⟨0, ⟨Nat.zero_le _, ?_, ?_⟩, Or.inr ⟨fun room => full (Writer.room_head room), later.2⟩⟩
        · rw [refused, later.1]
          rfl
        · intro i inside
          rw [List.take_succ_cons]
          exact iff_of_false (Nat.not_lt_zero i) fun room => full (Writer.room_head room)

theorem writerInit_ready (buffer beyond : List UInt8) (bound : buffer.length ≤ maxBytes) :
    (writerInit (buffer ++ beyond) buffer.length).Ready where
  working := decide_eq_false (Nat.not_lt_of_le bound)
  backed := by simp [Writer.Backed, writerInit]
  inside := Nat.zero_le _

theorem writerInit_wide (buffer beyond : List UInt8) (wide : ¬ buffer.length ≤ maxBytes) :
    (writerInit (buffer ++ beyond) buffer.length).failed = true :=
  decide_eq_true (Nat.lt_of_not_le wide)

theorem writerInit_room (data : List UInt8) (cap : Nat) (items : List Item)
    (bound : cap ≤ maxBytes) : (writerInit data cap).Room items ↔ Fits cap items := by
  simp only [Writer.Room, Fits, writerInit, Nat.zero_add, bound, true_and]

theorem writer_failed {writer : Writer} (failed : writer.failed = true) :
    writerOk writer = false ∧ writerLen writer = 0 := by
  have refused : writerOk writer = false := by rw [writerOk, failed, Bool.not_true]
  exact ⟨refused, by rw [writerLen, refused, if_neg Bool.false_ne_true]⟩

/-- A buffer of any capacity and what lies behind it, and any sequence of puts: the whole
sequence fits and is in the buffer, or the writer reports no length; and exactly the puts
up to the first that does not fit return true. -/
theorem putEach_capacity (buffer beyond : List UInt8) (items : List Item) :
    let outcome := putEach items (writerInit (buffer ++ beyond) buffer.length)
    ((Fits buffer.length items ∧ writerOk outcome.2 = true ∧
        outcome.1 = List.replicate items.length true ∧
        writerLen outcome.2 = encodedLength items ∧
        outcome.2.data.take (encodedLength items) = encodings items) ∨
      (¬ Fits buffer.length items ∧ writerOk outcome.2 = false ∧ writerLen outcome.2 = 0)) ∧
    (∃ done, Results items (Fits buffer.length) outcome.1 done) ∧
    outcome.2.data.drop buffer.length = beyond := by
  intro outcome
  have kept := putEach_within items (writerInit (buffer ++ beyond) buffer.length)
  have behind : outcome.2.data.drop buffer.length = beyond := by
    calc outcome.2.data.drop buffer.length
      _ = (buffer ++ beyond).drop buffer.length := kept.beyond
      _ = beyond := List.drop_left
  by_cases bound : buffer.length ≤ maxBytes
  · have room := fun items => writerInit_room (buffer ++ beyond) buffer.length items bound
    obtain ⟨done, results, last⟩ := putEach_ready items _ (writerInit_ready buffer beyond bound)
    refine ⟨?_, ⟨done, results.bound, results.results, ?_⟩, behind⟩
    · rw [room] at last
      rcases last with ⟨fits, all, whole⟩ | ⟨narrow, failed⟩
      · change outcome.2 = _ at whole
        have ok : writerOk outcome.2 = true := by
          rw [whole, writerOk, Writer.append_failed,
            (writerInit_ready buffer beyond bound).working, Bool.not_false]
        have start : (encodings items).length ≤ (buffer ++ beyond).length := by
          rw [length_encodings, List.length_append]
          exact fits.2.2.trans (Nat.le_add_right _ _)
        refine Or.inl ⟨fits, ok, ?_, ?_, ?_⟩
        · rw [results.results, all, Nat.sub_self, List.replicate_zero, List.append_nil]
        · rw [writerLen, if_pos ok, ← length_encodings, whole]
          exact Nat.zero_add _
        · rw [← length_encodings, whole]
          exact take_store _ _ start
      · exact Or.inr ⟨narrow, writer_failed failed⟩
    · intro i inside
      rw [← room]
      exact results.exact i inside
  · obtain ⟨results, failed⟩ := putEach_failed items _ (writerInit_wide buffer beyond bound)
    refine ⟨Or.inr ⟨fun fits => bound fits.1, writer_failed failed⟩,
      ⟨0, Nat.zero_le _, results, ?_⟩, behind⟩
    intro i inside
    exact iff_of_false (Nat.not_lt_zero i) fun fits => bound fits.1

end P4Key.Cbor
