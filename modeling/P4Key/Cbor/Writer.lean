import P4Key.Library.Memory

/-! The CBOR writer of p4_cbor.c.

Every `p4_cbor_put_*` call is a function from the writer to its result and the
writer after it. The destination is modelled as the memory behind the pointer,
which may be longer than the capacity given to the writer. -/

namespace P4Key.Cbor

open Memory

def maxBytes : Nat := 2048
def maxContainerItems : Nat := 32
def maxDepth : Nat := 8

structure Writer where
  data : List UInt8
  cap : Nat
  len : Nat
  failed : Bool
  deriving DecidableEq, Repr

abbrev Put : Type := Writer → Bool × Writer

/-- C's `first && second` on two calls that share one writer. -/
def Put.andThen (first second : Put) : Put := fun writer =>
  match first writer with
  | (true, writer) => second writer
  | (false, writer) => (false, writer)

def Put.fail : Put := fun writer => (false, { writer with failed := true })

def writerAdd (data : List UInt8) : Put := fun writer =>
  if writer.failed ∨ writer.len > writer.cap ∨ data.length > writer.cap - writer.len then
    Put.fail writer
  else
    (true, { writer with
      data := store writer.data writer.len data
      len := writer.len + data.length })

def headBytes (major : UInt8) (value : Nat) : List UInt8 :=
  let first := major <<< 5
  if value < 24 then [first ||| UInt8.ofNat value]
  else if value ≤ 0xff then [first ||| 24, UInt8.ofNat value]
  else if value ≤ 0xffff then (first ||| 25) :: storeBE 2 value
  else if value ≤ 0xffffffff then (first ||| 26) :: storeBE 4 value
  else (first ||| 27) :: storeBE 8 value

def writerHead (major : UInt8) (value : Nat) : Put := writerAdd (headBytes major value)

def writerInit (data : List UInt8) (cap : Nat) : Writer where
  data := data
  cap := cap
  len := 0
  failed := decide (cap > maxBytes)

def putContainer (major : UInt8) (count : Nat) : Put :=
  if count > maxContainerItems then Put.fail else writerHead major count

def putMap (pairs : Nat) : Put := putContainer 5 pairs

def putArray (items : Nat) : Put := putContainer 4 items

def putUint (value : Nat) : Put := writerHead 0 value

def putInt (value : Int) : Put :=
  if value ≥ 0 then writerHead 0 value.toNat else writerHead 1 (-(value + 1)).toNat

def putData (major : UInt8) (data : List UInt8) : Put :=
  if data.length > maxBytes then Put.fail
  else (writerHead major data.length).andThen (writerAdd data)

def putBytes (data : List UInt8) : Put := putData 2 data

def putText (text : List UInt8) : Put := putData 3 text

def putBool (value : Bool) : Put := writerAdd [if value then 0xf5 else 0xf4]

def writerOk (writer : Writer) : Bool := !writer.failed

def writerLen (writer : Writer) : Nat := if writerOk writer then writer.len else 0

/-! What a put does: it appends one encoding, or fails. -/

def Writer.append (writer : Writer) (encoding : List UInt8) : Writer :=
  { writer with
    data := store writer.data writer.len encoding
    len := writer.len + encoding.length }

@[simp] theorem Writer.append_cap (writer : Writer) (encoding : List UInt8) :
    (writer.append encoding).cap = writer.cap := rfl

@[simp] theorem Writer.append_len (writer : Writer) (encoding : List UInt8) :
    (writer.append encoding).len = writer.len + encoding.length := rfl

@[simp] theorem Writer.append_failed (writer : Writer) (encoding : List UInt8) :
    (writer.append encoding).failed = writer.failed := rfl

@[simp] theorem Writer.append_data_length (writer : Writer) (encoding : List UInt8) :
    (writer.append encoding).data.length = writer.data.length := length_store _ _ _

/-- Room for the capacity behind the pointer. -/
def Writer.Backed (writer : Writer) : Prop := writer.cap ≤ writer.data.length

theorem Writer.append_append (writer : Writer) (first second : List UInt8)
    (backed : writer.Backed) (fits : writer.len + (first ++ second).length ≤ writer.cap) :
    (writer.append first).append second = writer.append (first ++ second) := by
  have room : writer.len + first.length + second.length ≤ writer.data.length := by
    rw [List.length_append] at fits
    have := backed
    unfold Writer.Backed at this
    omega
  simp only [Writer.append, store_store _ _ _ _ room, List.length_append, Nat.add_assoc]

def Appends (put : Put) (encoding : List UInt8) : Prop :=
  ∀ writer : Writer, writer.failed = false → writer.Backed →
    writer.len + encoding.length ≤ writer.cap → put writer = (true, writer.append encoding)

theorem writerAdd_appends (data : List UInt8) : Appends (writerAdd data) data := by
  intro writer working _ fits
  have pass : ¬ (writer.failed ∨ writer.len > writer.cap ∨
      data.length > writer.cap - writer.len) := by
    rw [working]
    simp only [Bool.false_eq_true, false_or, not_or]
    omega
  rw [writerAdd, if_neg pass]
  rfl

theorem Appends.andThen {first second : Put} {left right : List UInt8}
    (one : Appends first left) (two : Appends second right) :
    Appends (first.andThen second) (left ++ right) := by
  intro writer working backed fits
  have total : writer.len + left.length + right.length ≤ writer.cap := by
    rw [List.length_append] at fits
    omega
  have middle := one writer working backed (by omega)
  have last := two (writer.append left) working
    (by unfold Writer.Backed at *; simpa using backed) (by simpa using total)
  rw [Put.andThen, middle]
  simp only
  rw [last, Writer.append_append writer left right backed fits]

theorem writerHead_appends (major : UInt8) (value : Nat) :
    Appends (writerHead major value) (headBytes major value) := writerAdd_appends _

theorem putMap_appends (pairs : Nat) (bound : pairs ≤ maxContainerItems) :
    Appends (putMap pairs) (headBytes 5 pairs) := by
  rw [putMap, putContainer, if_neg (by omega)]
  exact writerHead_appends 5 pairs

theorem putUint_appends (value : Nat) : Appends (putUint value) (headBytes 0 value) :=
  writerHead_appends 0 value

theorem putData_appends (major : UInt8) (data : List UInt8) (bound : data.length ≤ maxBytes) :
    Appends (putData major data) (headBytes major data.length ++ data) := by
  rw [putData, if_neg (by omega)]
  exact (writerHead_appends major data.length).andThen (writerAdd_appends data)

end P4Key.Cbor
