import P4Key.Cbor.Reader

/-! Items and their encodings.

An item is what one put writes and one get reads. Reading the encoding of an
item gives the item back, whatever follows it. -/

namespace P4Key.Cbor

open Memory

inductive Item where
  | uint (value : Nat)
  | int (value : Int)
  | bytes (data : List UInt8)
  | text (data : List UInt8)
  | bool (value : Bool)
  | array (items : Nat)
  | map (pairs : Nat)
  deriving DecidableEq, Repr

inductive Kind where
  | uint
  | int
  | bytes
  | text
  | bool
  | array
  | map
  deriving DecidableEq, Repr

def Item.kind : Item → Kind
  | .uint _ => .uint
  | .int _ => .int
  | .bytes _ => .bytes
  | .text _ => .text
  | .bool _ => .bool
  | .array _ => .array
  | .map _ => .map

def Item.put : Item → Put
  | .uint value => putUint value
  | .int value => putInt value
  | .bytes data => putBytes data
  | .text data => putText data
  | .bool value => putBool value
  | .array items => putArray items
  | .map pairs => putMap pairs

def Get.map {α β : Type} (f : α → β) (get : Get α) : Get β := fun reader =>
  match get reader with
  | (some value, reader) => (some (f value), reader)
  | (none, reader) => (none, reader)

def Kind.get : Kind → Get Item
  | .uint => getUint.map .uint
  | .int => getInt.map .int
  | .bytes => getBytes.map .bytes
  | .text => getText.map .text
  | .bool => getBool.map .bool
  | .array => getArray.map .array
  | .map => getMap.map .map

def Item.Valid : Item → Prop
  | .uint value => value < 2 ^ 64
  | .int value => -2 ^ 63 ≤ value ∧ value < 2 ^ 63
  | .bytes data => data.length ≤ maxBytes
  | .text data => data.length ≤ maxBytes
  | .bool _ => True
  | .array items => items ≤ maxContainerItems
  | .map pairs => pairs ≤ maxContainerItems

instance (item : Item) : Decidable item.Valid := by
  cases item <;> unfold Item.Valid <;> infer_instance

def Item.encoding : Item → List UInt8
  | .uint value => headBytes 0 value
  | .int value => if value ≥ 0 then headBytes 0 value.toNat else headBytes 1 (-(value + 1)).toNat
  | .bytes data => headBytes 2 data.length ++ data
  | .text data => headBytes 3 data.length ++ data
  | .bool value => [if value then 0xf5 else 0xf4]
  | .array items => headBytes 4 items
  | .map pairs => headBytes 5 pairs

theorem putInt_appends (value : Int) : Appends (putInt value) (Item.int value).encoding := by
  rw [putInt, Item.encoding]
  split
  · exact writerHead_appends 0 value.toNat
  · exact writerHead_appends 1 (-(value + 1)).toNat

theorem putArray_appends (items : Nat) (bound : items ≤ maxContainerItems) :
    Appends (putArray items) (headBytes 4 items) := by
  rw [putArray, putContainer, if_neg (by omega)]
  exact writerHead_appends 4 items

theorem Item.put_appends (item : Item) (valid : item.Valid) : Appends item.put item.encoding := by
  cases item with
  | uint value => exact putUint_appends value
  | int value => exact putInt_appends value
  | bytes data => exact putData_appends 2 data valid
  | text data => exact putData_appends 3 data valid
  | bool value => exact writerAdd_appends _
  | array items => exact putArray_appends items valid
  | map pairs => exact putMap_appends pairs valid

/-! Reading. -/

/-- A working reader with exactly `rest` before it. -/
def Reader.Before (reader : Reader) (rest : List UInt8) : Prop :=
  reader.failed = false ∧ reader.offset ≤ reader.data.length ∧
    reader.data.drop reader.offset = rest

def Reader.advance (reader : Reader) (count : Nat) : Reader :=
  { reader with offset := reader.offset + count }

theorem Reader.Before.advance {reader : Reader} {field rest : List UInt8}
    (before : reader.Before (field ++ rest)) : (reader.advance field.length).Before rest := by
  rcases before with ⟨working, inside, tail⟩
  have size := congrArg List.length tail
  rw [List.length_drop, List.length_append] at size
  refine ⟨working, ?_, ?_⟩
  · simp only [Reader.advance]
    omega
  · simp only [Reader.advance]
    rw [← List.drop_drop, tail, List.drop_left]

def Reads {α : Type} (get : Get α) (encoding : List UInt8) (value : α) : Prop :=
  ∀ reader rest, reader.Before (encoding ++ rest) →
    get reader = (some value, reader.advance encoding.length)

theorem readerTake_reads (field : List UInt8) : Reads (readerTake field.length) field field := by
  intro reader rest before
  rcases before with ⟨working, inside, tail⟩
  have size := congrArg List.length tail
  rw [List.length_drop, List.length_append] at size
  have pass : ¬ (reader.failed ∨ reader.offset > reader.data.length ∨
      field.length > reader.data.length - reader.offset) := by
    rw [working]
    simp only [Bool.false_eq_true, false_or, not_or]
    omega
  rw [readerTake, if_neg pass, slice, tail, List.take_left]
  rfl

theorem Reader.advance_advance (reader : Reader) (first second : Nat) :
    (reader.advance first).advance second = reader.advance (first + second) := by
  simp only [Reader.advance, Nat.add_assoc]

private theorem initialByte (major : Fin 8) (additional : Fin 32) :
    ((UInt8.ofNat major <<< 5 ||| UInt8.ofNat additional) >>> 5 = UInt8.ofNat major) ∧
    (UInt8.ofNat major <<< 5 ||| UInt8.ofNat additional) &&& 0x1f = UInt8.ofNat additional := by
  revert major additional
  decide +kernel

theorem initial_byte (major additional : Nat) (high : major < 8) (low : additional < 32) :
    ((UInt8.ofNat major <<< 5 ||| UInt8.ofNat additional) >>> 5 = UInt8.ofNat major) ∧
    (UInt8.ofNat major <<< 5 ||| UInt8.ofNat additional) &&& 0x1f = UInt8.ofNat additional :=
  initialByte ⟨major, high⟩ ⟨additional, low⟩

theorem readerHead_wide (major additional count value : Nat) (high : major < 8)
    (low : additional < 32) (wide : 24 ≤ additional)
    (bytes : argumentBytes (UInt8.ofNat additional) = some count) (fits : value < 256 ^ count)
    (shortest : overlong count value = false) :
    Reads readerHead
      ((UInt8.ofNat major <<< 5 ||| UInt8.ofNat additional) :: storeBE count value)
      (UInt8.ofNat major, value) := by
  intro reader rest before
  have split := initial_byte major additional high low
  have notSmall : ¬ (UInt8.ofNat additional < 24) := by
    rw [UInt8.lt_iff_toNat_lt, UInt8.toNat_ofNat']
    simp only [UInt8.reduceToNat]
    omega
  have one := readerTake_reads [UInt8.ofNat major <<< 5 ||| UInt8.ofNat additional] reader
    (storeBE count value ++ rest) (by simpa using before)
  have ahead : (reader.advance 1).Before (storeBE count value ++ rest) :=
    @Reader.Before.advance reader [UInt8.ofNat major <<< 5 ||| UInt8.ofNat additional] _
      (by simpa using before)
  have argument := readerTake_reads (storeBE count value) (reader.advance 1) rest ahead
  rw [length_storeBE] at argument
  rw [List.length_singleton] at one
  rw [readerHead, one]
  simp only [List.headD_cons, split.1, split.2, notSmall, if_false, bytes, argument,
    loadBE_storeBE count value fits, shortest, Bool.false_eq_true, Reader.advance_advance,
    List.length_cons, length_storeBE]
  rw [Nat.add_comm]

theorem readerHead_narrow (major value : Nat) (high : major < 8) (small : value < 24) :
    Reads readerHead [UInt8.ofNat major <<< 5 ||| UInt8.ofNat value] (UInt8.ofNat major, value) := by
  intro reader rest before
  have split := initial_byte major value high (by omega)
  have direct : UInt8.ofNat value < 24 := by
    rw [UInt8.lt_iff_toNat_lt, UInt8.toNat_ofNat']
    simp only [UInt8.reduceToNat]
    omega
  have one := readerTake_reads [UInt8.ofNat major <<< 5 ||| UInt8.ofNat value] reader rest before
  rw [List.length_singleton] at one
  rw [readerHead, one]
  simp only [List.headD_cons, split.1, split.2, direct, if_true, List.length_singleton]
  rw [UInt8.toNat_ofNat_of_lt' (by simp only [UInt8.size]; omega)]

theorem readerHead_reads (major value : Nat) (high : major < 8) (bound : value < 2 ^ 64) :
    Reads readerHead (headBytes (UInt8.ofNat major) value) (UInt8.ofNat major, value) := by
  rw [headBytes]
  by_cases one : value < 24
  · rw [if_pos one]
    exact readerHead_narrow major value high one
  rw [if_neg one]
  by_cases two : value ≤ 0xff
  · rw [if_pos two]
    exact readerHead_wide major 24 1 value high (by decide) (by decide) rfl (by omega)
      (by simp [overlong]; omega)
  rw [if_neg two]
  by_cases three : value ≤ 0xffff
  · rw [if_pos three]
    exact readerHead_wide major 25 2 value high (by decide) (by decide) rfl (by omega)
      (by simp [overlong]; omega)
  rw [if_neg three]
  by_cases four : value ≤ 0xffffffff
  · rw [if_pos four]
    exact readerHead_wide major 26 4 value high (by decide) (by decide) rfl (by omega)
      (by simp [overlong]; omega)
  · rw [if_neg four]
    exact readerHead_wide major 27 8 value high (by decide) (by decide) rfl (by omega)
      (by simp [overlong]; omega)

theorem Reads.map {α β : Type} {get : Get α} {encoding : List UInt8} {value : α}
    (reads : Reads get encoding value) (f : α → β) : Reads (get.map f) encoding (f value) := by
  intro reader rest before
  rw [Get.map, reads reader rest before]

theorem readerContainer_reads (major count : Nat) (high : major < 8)
    (bound : count ≤ maxContainerItems) :
    Reads (readerContainer (UInt8.ofNat major)) (headBytes (UInt8.ofNat major) count) count := by
  intro reader rest before
  have fits : count < 2 ^ 64 := by
    simp only [maxContainerItems] at bound
    omega
  have inRange : ¬ (count > maxContainerItems) := by omega
  rw [readerContainer, readerHead_reads major count high fits reader rest before]
  simp [inRange]

theorem readerData_reads (major : Nat) (data : List UInt8) (high : major < 8)
    (bound : data.length ≤ maxBytes) :
    Reads (readerData (UInt8.ofNat major))
      (headBytes (UInt8.ofNat major) data.length ++ data) data := by
  intro reader rest before
  have fits : data.length < 2 ^ 64 := by
    simp only [maxBytes] at bound
    omega
  have inRange : ¬ (data.length > maxBytes) := by omega
  rw [List.append_assoc] at before
  have content := readerTake_reads data _ rest before.advance
  rw [readerData, readerHead_reads major data.length high fits reader _ before]
  simp only [ne_eq, not_true_eq_false, inRange, or_self, if_false]
  rw [content, Reader.advance_advance, List.length_append]

theorem getUint_reads (value : Nat) (bound : value < 2 ^ 64) :
    Reads getUint (headBytes 0 value) value := by
  intro reader rest before
  have head := readerHead_reads 0 value (by decide) bound reader rest before
  rw [getUint, head]
  rfl

theorem getInt_reads (value : Int) (bound : (Item.int value).Valid) :
    Reads getInt (Item.int value).encoding value := by
  intro reader rest before
  have range : -2 ^ 63 ≤ value ∧ value < 2 ^ 63 := bound
  rw [Item.encoding] at before ⊢
  by_cases sign : value ≥ 0
  · rw [if_pos sign] at before ⊢
    have inRange : ¬ (value.toNat > int64Max) := by
      simp only [int64Max]
      omega
    have head := readerHead_reads 0 value.toNat (by decide) (by omega) reader rest before
    have same : (value.toNat : Int) = value := by omega
    rw [getInt, head]
    generalize value.toNat = encoded at *
    simp [inRange, same]
  · rw [if_neg sign] at before ⊢
    have inRange : ¬ ((-(value + 1)).toNat > int64Max) := by
      simp only [int64Max]
      omega
    have head := readerHead_reads 1 (-(value + 1)).toNat (by decide) (by omega) reader rest before
    have same : -1 - ((-(value + 1)).toNat : Int) = value := by omega
    rw [getInt, head]
    generalize (-(value + 1)).toNat = encoded at *
    simp [inRange, same]

theorem getBool_reads (value : Bool) : Reads getBool (Item.bool value).encoding value := by
  intro reader rest before
  cases value with
  | true =>
      have head := readerHead_narrow 7 21 (by decide) (by decide) reader rest before
      rw [getBool, head]
      rfl
  | false =>
      have head := readerHead_narrow 7 20 (by decide) (by decide) reader rest before
      rw [getBool, head]
      rfl

theorem Item.get_reads (item : Item) (valid : item.Valid) :
    Reads item.kind.get item.encoding item := by
  cases item with
  | uint value => exact (getUint_reads value valid).map Item.uint
  | int value => exact (getInt_reads value valid).map Item.int
  | bytes data => exact (readerData_reads 2 data (by decide) valid).map Item.bytes
  | text data => exact (readerData_reads 3 data (by decide) valid).map Item.text
  | bool value => exact (getBool_reads value).map Item.bool
  | array items => exact (readerContainer_reads 4 items (by decide) valid).map Item.array
  | map pairs => exact (readerContainer_reads 5 pairs (by decide) valid).map Item.map

/-! Sequences of items. -/

def encodings (items : List Item) : List UInt8 := (items.map Item.encoding).flatten

def putItems : List Item → Put
  | [] => fun writer => (true, writer)
  | item :: items => item.put.andThen (putItems items)

def getItems : List Kind → Get (List Item)
  | [] => fun reader => (some [], reader)
  | kind :: kinds => fun reader =>
    match kind.get reader with
    | (none, reader) => (none, reader)
    | (some item, reader) =>
      match getItems kinds reader with
      | (none, reader) => (none, reader)
      | (some items, reader) => (some (item :: items), reader)

/-- The items that the reader finds in a whole buffer, if it has nothing left after them. -/
def decode (kinds : List Kind) (data : List UInt8) : Option (List Item) :=
  match getItems kinds (readerInit data) with
  | (none, _) => none
  | (some items, reader) => if readerDone reader then some items else none

theorem putItems_appends (items : List Item) (valid : ∀ item ∈ items, item.Valid) :
    Appends (putItems items) (encodings items) := by
  induction items with
  | nil =>
      intro writer working backed fits
      simp [putItems, encodings, Writer.append]
  | cons item items ih =>
      have first := item.put_appends (valid item List.mem_cons_self)
      have rest := ih (fun other member => valid other (List.mem_cons_of_mem _ member))
      exact first.andThen rest

theorem getItems_reads (items : List Item) (valid : ∀ item ∈ items, item.Valid) :
    Reads (getItems (items.map Item.kind)) (encodings items) items := by
  induction items with
  | nil =>
      intro reader rest before
      simp [getItems, encodings, Reader.advance]
  | cons item items ih =>
      intro reader rest before
      have split : reader.Before (item.encoding ++ (encodings items ++ rest)) := by
        simpa [encodings] using before
      have first := item.get_reads (valid item List.mem_cons_self) reader _ split
      have others := ih (fun other member => valid other (List.mem_cons_of_mem _ member))
        _ rest split.advance
      simp only [List.map_cons, getItems, first, others, Reader.advance_advance]
      simp [encodings]

theorem decode_encodings (items : List Item) (valid : ∀ item ∈ items, item.Valid)
    (fits : (encodings items).length ≤ maxBytes) :
    decode (items.map Item.kind) (encodings items) = some items := by
  have start : (readerInit (encodings items)).Before (encodings items ++ []) := by
    refine ⟨?_, Nat.zero_le _, ?_⟩
    · simp only [readerInit, decide_eq_false_iff_not]
      omega
    · simp [readerInit]
  have read := getItems_reads items valid _ [] start
  have finished : readerDone ((readerInit (encodings items)).advance (encodings items).length) =
      true := by
    simp only [readerDone, Reader.advance, readerInit]
    simp [fits]
  rw [decode, read]
  simp [finished]

/-! Whole buffers. -/

@[simp] theorem putItems_singleton (item : Item) : putItems [item] = item.put := by
  funext writer
  rw [putItems, putItems, Put.andThen]
  rcases item.put writer with ⟨_ | _, after⟩ <;> rfl

theorem putItems_cons_cons (item next : Item) (items : List Item) :
    putItems (item :: next :: items) = item.put.andThen (putItems (next :: items)) := rfl

theorem Put.andThen_assoc (first second third : Put) :
    (first.andThen second).andThen third = first.andThen (second.andThen third) := by
  funext writer
  simp only [Put.andThen]
  rcases first writer with ⟨_ | _, after⟩ <;> rfl

theorem writerAdd_failed (data : List UInt8) (writer : Writer) (failed : writer.failed = true) :
    (writerAdd data writer).1 = false ∧ (writerAdd data writer).2.failed = true := by
  rw [writerAdd, if_pos (Or.inl failed)]
  exact ⟨rfl, rfl⟩

theorem Item.put_failed (item : Item) (writer : Writer) (failed : writer.failed = true) :
    (item.put writer).1 = false := by
  have container : ∀ major count, (putContainer major count writer).1 = false := by
    intro major count
    rw [putContainer]
    split
    · rfl
    · exact (writerAdd_failed _ writer failed).1
  have content : ∀ major data, (putData major data writer).1 = false := by
    intro major data
    rw [putData]
    split
    · rfl
    · have head := writerAdd_failed (headBytes major data.length) writer failed
      rw [Put.andThen]
      rcases put : writerHead major data.length writer with ⟨_ | _, after⟩
      · rfl
      · rw [writerHead] at put
        rw [put] at head
        cases head.1
  cases item with
  | uint value => exact (writerAdd_failed _ writer failed).1
  | int value =>
      rw [Item.put, putInt]
      split <;> exact (writerAdd_failed _ writer failed).1
  | bytes data => exact content 2 data
  | text data => exact content 3 data
  | bool value => exact (writerAdd_failed _ writer failed).1
  | array items => exact container 4 items
  | map pairs => exact container 5 pairs

theorem putItems_init (items : List Item) (valid : ∀ item ∈ items, item.Valid)
    (data : List UInt8) (cap : Nat) (small : cap ≤ maxBytes) (backed : cap ≤ data.length)
    (fits : (encodings items).length ≤ cap) :
    putItems items (writerInit data cap) =
      (true, { data := store data 0 (encodings items), cap := cap,
               len := (encodings items).length, failed := false }) := by
  have working : (writerInit data cap).failed = false := by
    simp only [writerInit, decide_eq_false_iff_not]
    omega
  have put := putItems_appends items valid (writerInit data cap) working backed
    (by simpa [writerInit] using fits)
  rw [put, Writer.append, working]
  simp [writerInit]

end P4Key.Cbor
