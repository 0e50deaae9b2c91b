import P4Key.Library.Memory

/-! The framing of ctaphid_mvp_probe.py.

The integers of the script have no bound, so a number that its field cannot hold
is an error of the language. Each call of `_read_report` meets an outcome that
is an argument here: the deadline has passed, or `handle.read` has returned some
bytes. -/

namespace P4Key.Host

open Memory

abbrev reportBytes : Nat := 64
abbrev initDataBytes : Nat := 57
abbrev contDataBytes : Nat := 59
abbrev maxPayload : Nat := 2048

inductive ProbeError where
  /-- `MvpProbeError`. -/
  | mvp (message : String)
  /-- `int.to_bytes` of a number that is too large. -/
  | overflow
  /-- The assignment of a number above 255 to an element of a `bytearray`. -/
  | byteRange
  deriving DecidableEq, Repr

/-- `value.to_bytes(width, "big")`. -/
def toBytes (width value : Nat) : Except ProbeError (List UInt8) :=
  if value < 256 ^ width then .ok (storeBE width value) else .error .overflow

/-- `target[start:stop] = value`, where the lengths may differ. -/
def assignSlice (target : List UInt8) (start stop : Nat) (value : List UInt8) : List UInt8 :=
  target.take start ++ (value ++ target.drop stop)

/-- `target[index] = value`, for an index inside. -/
def assignItem (target : List UInt8) (index value : Nat) : Except ProbeError (List UInt8) :=
  if value < 256 then .ok (target.set index (UInt8.ofNat value)) else .error .byteRange

def encodeInitial (cid command : Nat) (payload : List UInt8) : Except ProbeError (List UInt8) := do
  let initial := assignSlice (zeros reportBytes) 0 4 (← toBytes 4 cid)
  let initial ← assignItem initial 4 command
  let initial := assignSlice initial 5 7 (← toBytes 2 payload.length)
  return assignSlice initial 7 (7 + min payload.length initDataBytes) (payload.take initDataBytes)

def encodeContinuation (cid sequence : Nat) (chunk : List UInt8) :
    Except ProbeError (List UInt8) := do
  let report := assignSlice (zeros reportBytes) 0 4 (← toBytes 4 cid)
  let report ← assignItem report 4 sequence
  return assignSlice report 5 (5 + chunk.length) chunk

def encodeRest (cid : Nat) (payload : List UInt8) (offset sequence : Nat) :
    Except ProbeError (List (List UInt8)) :=
  if more : offset < payload.length then do
    let chunk := slice payload offset contDataBytes
    let report ← encodeContinuation cid sequence chunk
    let rest ← encodeRest cid payload (offset + chunk.length) (sequence + 1)
    return report :: rest
  else return []
termination_by payload.length - offset
decreasing_by
  simp only [slice, List.length_take, List.length_drop, contDataBytes]
  omega

def encodeReports (cid command : Nat) (data : List UInt8) :
    Except ProbeError (List (List UInt8)) := do
  if cid = 0 ∨ command &&& 0x80 = 0 ∨ data.length > maxPayload then
    throw (.mvp "invalid outbound CTAPHID message")
  let initial ← encodeInitial cid command data
  let rest ← encodeRest cid data initDataBytes 0
  return initial :: rest

def noReport : ProbeError := .mvp "CTAPHID response timed out or was not 64 bytes"

/-- What one call of `_read_report` meets. -/
inductive Read where
  | late
  | bytes (report : List UInt8)
  deriving DecidableEq, Repr

/-- The reads to come. Behind them the device is silent, and a read returns nothing. -/
abbrev Handle : Type := List Read

def readReport : Read → Except ProbeError (Bytes reportBytes)
  | .late => throw (.mvp "CTAPHID response timed out")
  | .bytes report =>
    if whole : report.length = reportBytes then .ok ⟨report, whole⟩ else throw noReport

/-- `report[index]`, for an index inside. -/
def item (report : Bytes reportBytes) (index : Nat) : Nat := (report.toList.getD index 0).toNat

def readRest (expectedCid declaredLen : Nat) (handle : Handle) (payload : List UInt8)
    (sequence : Nat) : Except ProbeError (List UInt8 × Handle) :=
  if payload.length < declaredLen then
    match handle with
    | [] => throw noReport
    | read :: handle => do
      let report ← readReport read
      if loadBE (slice report.toList 0 4) ≠ expectedCid then
        throw (.mvp "CTAPHID continuation used another channel")
      if item report 4 ≠ sequence then
        throw (.mvp "CTAPHID continuation sequence is wrong")
      let take := min contDataBytes (declaredLen - payload.length)
      readRest expectedCid declaredLen handle (payload ++ slice report.toList 5 take) (sequence + 1)
  else return (payload, handle)

/-- `read_message`, with the reads that it leaves. -/
def readMessage (expectedCid : Nat) (handle : Handle) :
    Except ProbeError ((Nat × List UInt8) × Handle) := do
  let report ← readReport (handle.headD (.bytes []))
  let cid := loadBE (slice report.toList 0 4)
  let command := item report 4
  let declaredLen := loadBE (slice report.toList 5 2)
  if cid ≠ expectedCid ∨ command &&& 0x80 = 0 then
    throw (.mvp "unexpected CTAPHID initial response")
  if declaredLen > maxPayload then
    throw (.mvp "CTAPHID response exceeds the transport maximum")
  let payload := slice report.toList 7 (min declaredLen initDataBytes)
  let (payload, handle) ← readRest expectedCid declaredLen handle.tail payload 0
  return ((command, payload), handle)

end P4Key.Host
