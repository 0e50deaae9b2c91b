import P4Key.Cbor.Canonical

/-! Nested values.

A tree is written by one put for each of its nodes, in the order of the encoding,
and read by the gets that match them. `p4_cbor_skip` passes over all of it. -/

namespace P4Key.Cbor

open Memory

inductive Tree where
  | uint (value : Nat)
  | int (value : Int)
  | bytes (data : List UInt8)
  | text (data : List UInt8)
  | bool (value : Bool)
  | array (elements : List Tree)
  | map (entries : List (Tree × Tree))

mutual

def Tree.items : Tree → List Item
  | .uint value => [.uint value]
  | .int value => [.int value]
  | .bytes data => [.bytes data]
  | .text data => [.text data]
  | .bool value => [.bool value]
  | .array elements => .array elements.length :: elementItems elements
  | .map entries => .map entries.length :: entryItems entries

def elementItems : List Tree → List Item
  | [] => []
  | tree :: trees => tree.items ++ elementItems trees

def entryItems : List (Tree × Tree) → List Item
  | [] => []
  | (key, value) :: entries => key.items ++ (value.items ++ entryItems entries)

end

mutual

def Tree.depth : Tree → Nat
  | .array elements => elementDepth elements
  | .map entries => entryDepth entries
  | _ => 0

def elementDepth : List Tree → Nat
  | [] => 0
  | tree :: trees => max (tree.depth + 1) (elementDepth trees)

def entryDepth : List (Tree × Tree) → Nat
  | [] => 0
  | (key, value) :: entries => max (key.depth + 1) (max (value.depth + 1) (entryDepth entries))

end

def Tree.Valid (tree : Tree) : Prop := ∀ item ∈ tree.items, item.Valid

def Tree.encoding (tree : Tree) : List UInt8 := encodings tree.items

theorem encodings_append (first second : List Item) :
    encodings (first ++ second) = encodings first ++ encodings second := by
  simp [encodings]

@[simp] theorem encodings_cons (item : Item) (items : List Item) :
    encodings (item :: items) = item.encoding ++ encodings items := rfl

/-! Skipping. -/

theorem readerSkip_string (major : Nat) (string : major = 2 ∨ major = 3) (data : List UInt8)
    (bound : data.length ≤ maxBytes) (budget : Nat) :
    Reads (readerSkip (budget + 1)) (headBytes (UInt8.ofNat major) data.length ++ data) () := by
  intro reader rest before
  have fits : data.length < 2 ^ 64 := by
    simp only [maxBytes] at bound
    omega
  rw [List.append_assoc] at before
  have content := readerTake_reads data _ rest before.advance
  have head := readerHead_reads major data.length (by omega) fits reader _ before
  simp only [readerSkip, head]
  rw [Reader.advance_advance, ← List.length_append] at content
  rcases string with rfl | rfl
  · simp only [UInt8.reduceOfNat] at content ⊢
    simp [bound, content]
  · simp only [UInt8.reduceOfNat] at content ⊢
    simp [bound, content]

theorem readerSkip_number (major value : Nat) (number : major = 0 ∨ major = 1)
    (bound : value < 2 ^ 64) (budget : Nat) :
    Reads (readerSkip (budget + 1)) (headBytes (UInt8.ofNat major) value) () := by
  intro reader rest before
  have head := readerHead_reads major value (by omega) bound reader rest before
  simp only [readerSkip, head]
  rcases number with rfl | rfl
  · rfl
  · rfl

theorem readerSkip_bool (value : Bool) (budget : Nat) :
    Reads (readerSkip (budget + 1)) (Item.bool value).encoding () := by
  intro reader rest before
  cases value with
  | true =>
      have head := readerHead_narrow 7 21 (by decide) (by decide) reader rest before
      simp only [readerSkip, head]
      rfl
  | false =>
      have head := readerHead_narrow 7 20 (by decide) (by decide) reader rest before
      simp only [readerSkip, head]
      rfl

theorem readerSkip_container (major count : Nat) (container : major = 4 ∨ major = 5)
    (bound : count ≤ maxContainerItems) (budget : Nat) (contents : List UInt8)
    (inner : Reads (skipItems (readerSkip budget) (count * if major = 5 then 2 else 1)) contents ()) :
    Reads (readerSkip (budget + 1)) (headBytes (UInt8.ofNat major) count ++ contents) () := by
  intro reader rest before
  have fits : count < 2 ^ 64 := by
    simp only [maxContainerItems] at bound
    omega
  rw [List.append_assoc] at before
  have skipped := inner _ rest before.advance
  have head := readerHead_reads major count (by omega) fits reader _ before
  rw [Reader.advance_advance, ← List.length_append] at skipped
  simp only [readerSkip, head]
  rcases container with rfl | rfl
  · simp [Nat.not_lt.mpr bound]
    simpa using skipped
  · simp [Nat.not_lt.mpr bound]
    simpa using skipped

theorem skipItems_cons {item : Get Unit} {first rest : List UInt8} {count : Nat}
    (one : Reads item first ()) (others : Reads (skipItems item count) rest ()) :
    Reads (skipItems item (count + 1)) (first ++ rest) () := by
  intro reader tail before
  rw [List.append_assoc] at before
  simp only [skipItems, one reader _ before]
  rw [others _ tail before.advance, Reader.advance_advance, List.length_append]

theorem skipItems_nil (item : Get Unit) : Reads (skipItems item 0) [] () := by
  intro reader rest before
  rfl

mutual

/-- `reader_skip` passes over exactly the encoding of a tree that is not too deep for it. -/
theorem Tree.skip_reads (tree : Tree) (budget : Nat) (valid : ∀ item ∈ tree.items, item.Valid)
    (shallow : tree.depth ≤ budget) :
    Reads (readerSkip (budget + 1)) (encodings tree.items) () := by
  cases tree with
  | uint value =>
      have bound : value < 2 ^ 64 := valid (.uint value) (by simp [Tree.items])
      simpa [Tree.items, encodings, Item.encoding] using
        readerSkip_number 0 value (Or.inl rfl) bound budget
  | int value =>
      have bound : -2 ^ 63 ≤ value ∧ value < 2 ^ 63 := valid (.int value) (by simp [Tree.items])
      by_cases sign : value ≥ 0
      · simpa [Tree.items, encodings, Item.encoding, sign] using
          readerSkip_number 0 value.toNat (Or.inl rfl) (by omega) budget
      · simpa [Tree.items, encodings, Item.encoding, sign] using
          readerSkip_number 1 (-(value + 1)).toNat (Or.inr rfl) (by omega) budget
  | bytes data =>
      have bound : data.length ≤ maxBytes := valid (.bytes data) (by simp [Tree.items])
      simpa [Tree.items, encodings, Item.encoding] using
        readerSkip_string 2 (Or.inl rfl) data bound budget
  | text data =>
      have bound : data.length ≤ maxBytes := valid (.text data) (by simp [Tree.items])
      simpa [Tree.items, encodings, Item.encoding] using
        readerSkip_string 3 (Or.inr rfl) data bound budget
  | bool value =>
      simpa [Tree.items, encodings] using readerSkip_bool value budget
  | array elements =>
      have bound : elements.length ≤ maxContainerItems :=
        valid (.array elements.length) (by simp [Tree.items])
      have inner := elements_skip_reads elements budget
        (fun item member => valid item (by simp [Tree.items, member])) shallow
      have whole := readerSkip_container 4 elements.length (Or.inl rfl) bound budget
        (encodings (elementItems elements)) (by simpa using inner)
      simpa [Tree.items, Item.encoding] using whole
  | map entries =>
      have bound : entries.length ≤ maxContainerItems :=
        valid (.map entries.length) (by simp [Tree.items])
      have inner := entries_skip_reads entries budget
        (fun item member => valid item (by simp [Tree.items, member])) shallow
      have whole := readerSkip_container 5 entries.length (Or.inr rfl) bound budget
        (encodings (entryItems entries)) (by simpa using inner)
      simpa [Tree.items, Item.encoding] using whole

theorem elements_skip_reads (trees : List Tree) (budget : Nat)
    (valid : ∀ item ∈ elementItems trees, item.Valid) (shallow : elementDepth trees ≤ budget) :
    Reads (skipItems (readerSkip budget) trees.length) (encodings (elementItems trees)) () := by
  cases trees with
  | nil => exact skipItems_nil _
  | cons tree trees =>
      simp only [elementDepth, Nat.max_le] at shallow
      obtain ⟨deeper, rfl⟩ : ∃ deeper, budget = deeper + 1 := ⟨budget - 1, by omega⟩
      have first := tree.skip_reads deeper
        (fun item member => valid item (by simp [elementItems, member])) (by omega)
      have others := elements_skip_reads trees (deeper + 1)
        (fun item member => valid item (by simp [elementItems, member])) shallow.2
      rw [elementItems, encodings_append, List.length_cons]
      exact skipItems_cons first others

theorem entries_skip_reads (entries : List (Tree × Tree)) (budget : Nat)
    (valid : ∀ item ∈ entryItems entries, item.Valid) (shallow : entryDepth entries ≤ budget) :
    Reads (skipItems (readerSkip budget) (entries.length * 2)) (encodings (entryItems entries)) () := by
  match entries with
  | [] => exact skipItems_nil _
  | (key, value) :: entries =>
      simp only [entryDepth, Nat.max_le] at shallow
      obtain ⟨deeper, rfl⟩ : ∃ deeper, budget = deeper + 1 := ⟨budget - 1, by omega⟩
      have first := key.skip_reads deeper
        (fun item member => valid item (by simp [entryItems, member])) (by omega)
      have second := value.skip_reads deeper
        (fun item member => valid item (by simp [entryItems, member])) (by omega)
      have others := entries_skip_reads entries (deeper + 1)
        (fun item member => valid item (by simp [entryItems, member])) shallow.2.2
      rw [entryItems, encodings_append, encodings_append, List.length_cons, Nat.add_mul]
      exact skipItems_cons first (skipItems_cons second others)

end

/-! Writing and reading. -/

theorem readerInit_before (data : List UInt8) (small : data.length ≤ maxBytes) :
    (readerInit data).Before (data ++ []) := by
  refine ⟨?_, Nat.zero_le _, ?_⟩
  · simp only [readerInit, decide_eq_false_iff_not]
    omega
  · simp [readerInit]

theorem putItems_bytes (items : List Item) (valid : ∀ item ∈ items, item.Valid)
    (memory : List UInt8) (cap : Nat) (small : cap ≤ maxBytes) (backed : cap ≤ memory.length)
    (fits : (encodings items).length ≤ cap) :
    ∃ writer, putItems items (writerInit memory cap) = (true, writer) ∧ writerOk writer = true ∧
      writerLen writer = (encodings items).length ∧
      writer.data.take (encodings items).length = encodings items := by
  refine ⟨_, putItems_init items valid memory cap small backed fits, rfl, rfl, ?_⟩
  exact take_store memory (encodings items) (Nat.le_trans fits backed)

theorem readerInit_small {kinds : List Kind} {data : List UInt8} {items : List Item} {reader : Reader}
    (read : getItems kinds (readerInit data) = (some items, reader)) (done : readerDone reader = true) :
    data.length ≤ maxBytes := by
  by_contra large
  have failed : (readerInit data).failed = true := by
    simp only [readerInit, decide_eq_true_eq]
    omega
  cases kinds with
  | nil =>
      cases read
      rw [readerDone, failed] at done
      cases done
  | cons kind kinds =>
      simp only [getItems] at read
      rcases kind.get_sticks (readerInit data) failed with ⟨after, refused, -⟩
      rw [refused] at read
      cases read

/-- Reading undoes writing and writing undoes reading. -/
theorem written_is_read_back :
    (∀ (tree : Tree) (memory : List UInt8) (cap : Nat), tree.Valid → cap ≤ maxBytes →
      cap ≤ memory.length → tree.encoding.length ≤ cap →
      ∃ writer, putItems tree.items (writerInit memory cap) = (true, writer) ∧
        writerOk writer = true ∧ writerLen writer = tree.encoding.length ∧
        (∃ reader, getItems (tree.items.map Item.kind)
            (readerInit (writer.data.take (writerLen writer))) = (some tree.items, reader) ∧
          reader.offset = writerLen writer ∧ readerDone reader = true) ∧
        (tree.depth ≤ maxDepth →
          ∃ reader, skip (readerInit (writer.data.take (writerLen writer))) = (some (), reader) ∧
            reader.offset = writerLen writer)) ∧
    (∀ (kinds : List Kind) (data : List UInt8) (items : List Item) (reader : Reader)
      (memory : List UInt8) (cap : Nat), getItems kinds (readerInit data) = (some items, reader) →
      readerDone reader = true → cap ≤ maxBytes → cap ≤ memory.length → data.length ≤ cap →
      items.map Item.kind = kinds ∧
        ∃ writer, putItems items (writerInit memory cap) = (true, writer) ∧
          writerOk writer = true ∧ writerLen writer = data.length ∧
          writer.data.take (writerLen writer) = data) := by
  constructor
  · intro tree memory cap valid small backed fits
    rcases putItems_bytes tree.items valid memory cap small backed fits with ⟨writer, put, ok, len, bytes⟩
    refine ⟨writer, put, ok, len, ?_, ?_⟩
    all_goals rw [len, bytes]
    · have start := readerInit_before (encodings tree.items) (Nat.le_trans fits small)
      refine ⟨_, getItems_reads tree.items valid _ [] start, by simp [Reader.advance, readerInit], ?_⟩
      have within : (encodings tree.items).length ≤ maxBytes := Nat.le_trans fits small
      simp [readerDone, Reader.advance, readerInit, within]
    · intro shallow
      have start := readerInit_before (encodings tree.items) (Nat.le_trans fits small)
      refine ⟨_, tree.skip_reads maxDepth valid shallow _ [] start, ?_⟩
      simp [Reader.advance, readerInit]
  · intro kinds data items reader memory cap read done small backed fits
    have within := readerInit_small read done
    have start := readerInit_before data within
    rcases getItems_recovers kinds start read with ⟨same, valid, moved, tail, split⟩
    rw [List.append_nil] at split
    have whole : encodings items = data := by
      rw [readerDone, Bool.and_eq_true, beq_iff_eq, moved] at done
      have size := congrArg List.length split
      rw [List.length_append] at size
      have none : tail = [] := by
        apply List.eq_nil_of_length_eq_zero
        have reached := done.2
        simp only [Reader.advance, readerInit] at reached
        omega
      rw [split, none, List.append_nil]
    rw [← whole] at fits
    rcases putItems_bytes items valid memory cap small backed fits with ⟨writer, put, ok, len, bytes⟩
    rw [whole] at len bytes
    exact ⟨same, writer, put, ok, len, by rw [len, bytes]⟩

def sampleTree : Tree := .map [(.uint 1, .array [.int (-7), .text [0x69, 0x64], .bool true])]

theorem sample_is_read_back :
    (∃ writer, putItems sampleTree.items (writerInit (zeros 16) 16) = (true, writer) ∧
      writerOk writer = true ∧ writerLen writer = sampleTree.encoding.length ∧
      (∃ reader, getItems (sampleTree.items.map Item.kind)
          (readerInit (writer.data.take (writerLen writer))) = (some sampleTree.items, reader) ∧
        reader.offset = writerLen writer ∧ readerDone reader = true) ∧
      (sampleTree.depth ≤ maxDepth →
        ∃ reader, skip (readerInit (writer.data.take (writerLen writer))) = (some (), reader) ∧
          reader.offset = writerLen writer)) ∧
    [Item.array 2, .uint 500, .bool false].map Item.kind = [.array, .uint, .bool] ∧
      ∃ writer, putItems [.array 2, .uint 500, .bool false] (writerInit (zeros 8) 8) = (true, writer) ∧
        writerOk writer = true ∧ writerLen writer = 5 ∧
        writer.data.take (writerLen writer) = [0x82, 0x19, 0x01, 0xf4, 0xf4] :=
  ⟨written_is_read_back.1 sampleTree (zeros 16) 16 (by unfold Tree.Valid; decide) (by decide)
      (by decide) (by decide),
    written_is_read_back.2 [.array, .uint, .bool] [0x82, 0x19, 0x01, 0xf4, 0xf4]
      [.array 2, .uint 500, .bool false] ⟨[0x82, 0x19, 0x01, 0xf4, 0xf4], 5, false⟩ (zeros 8) 8
      (by decide) (by decide) (by decide) (by decide) (by decide)⟩

end P4Key.Cbor
