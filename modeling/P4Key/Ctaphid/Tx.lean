import P4Key.Ctaphid.Wire

/-! p4_ctaphid_tx.c, and the reports that a message is cut into. -/

namespace P4Key.Ctaphid

open Memory

inductive TxResult where
  | ok
  | arg
  | send
  deriving DecidableEq, Repr

def initialReport (cid : UInt32) (command : UInt8) (data : List UInt8) : Report :=
  load reportBytes (storeU32 cid ++ command :: (storeBE 2 data.length ++ data.take initDataBytes)) 0

def continuationReport (cid : UInt32) (sequence : UInt8) (data : List UInt8) : Report :=
  load reportBytes (storeU32 cid ++ sequence :: data.take contDataBytes) 0

/-- Whether the emitter accepts a report, for each of its calls. -/
abbrev Emits : Type := Nat → Bool

/-- The loop of `p4_ctaphid_tx_send`: `data` is what lies behind the offset, and `sent`
counts the calls of the emitter. The list is that of the reports it accepted. -/
def txContinue (cid : UInt32) (emits : Emits) (data : List UInt8) (sequence : UInt8) (sent : Nat) :
    TxResult × List Report :=
  if data = [] then (.ok, [])
  else
    let report := continuationReport cid sequence data
    if emits sent then
      let rest := txContinue cid emits (data.drop contDataBytes) (sequence + 1) (sent + 1)
      (rest.1, report :: rest.2)
    else (.send, [])
termination_by data.length
decreasing_by
  rename_i more _
  have positive := List.length_pos_of_ne_nil more
  rw [List.length_drop]
  simp only [contDataBytes]
  omega

/-- `p4_ctaphid_tx_send`, with the reports that the emitter accepted. -/
def txSend (cid : UInt32) (command : UInt8) (data : List UInt8) (emits : Emits) :
    TxResult × List Report :=
  if cid = 0 ∨ command &&& 0x80 = 0 ∨ data.length > maxPayload then (.arg, [])
  else
    let first := initialReport cid command data
    if emits 0 then
      let rest := txContinue cid emits (data.drop initDataBytes) 0 1
      (rest.1, first :: rest.2)
    else (.send, [])

def frames (cid : UInt32) (command : UInt8) (data : List UInt8) : List Report :=
  (txSend cid command data fun _ => true).2

/-! A failure cuts the reports short. -/

theorem txContinue_prefix (cid : UInt32) (emits : Emits) (data : List UInt8) (sequence : UInt8)
    (sent : Nat) :
    (txContinue cid emits data sequence sent).2 <+:
      (txContinue cid (fun _ => true) data sequence sent).2 := by
  fun_induction txContinue cid emits data sequence sent with
  | case1 sequence sent => exact List.nil_prefix
  | case2 data sequence sent more report accepted rest ih =>
      rw [txContinue, if_neg more, if_pos rfl]
      exact List.cons_prefix_cons.mpr ⟨rfl, ih⟩
  | case3 data sequence sent more refused => exact List.nil_prefix

theorem txSend_prefix (cid : UInt32) (command : UInt8) (data : List UInt8) (emits : Emits) :
    (txSend cid command data emits).2 <+: frames cid command data := by
  rw [frames, txSend, txSend]
  split
  · exact List.nil_prefix
  · simp only [if_pos]
    split
    · exact List.cons_prefix_cons.mpr ⟨rfl, txContinue_prefix cid emits _ 0 1⟩
    · exact List.nil_prefix

/-! Without a failure all reports are there. -/

theorem txContinue_whole (cid : UInt32) (emits : Emits) (data : List UInt8) (sequence : UInt8)
    (sent : Nat) (ok : (txContinue cid emits data sequence sent).1 = .ok) :
    (txContinue cid emits data sequence sent).2 =
      (txContinue cid (fun _ => true) data sequence sent).2 := by
  fun_induction txContinue cid emits data sequence sent with
  | case1 sequence sent => rw [txContinue, if_pos rfl]
  | case2 data sequence sent more report accepted rest ih =>
      rw [txContinue, if_neg more, if_pos rfl]
      exact congrArg (report :: ·) (ih ok)
  | case3 data sequence sent more refused => cases ok

theorem txSend_whole (cid : UInt32) (command : UInt8) (data : List UInt8) (emits : Emits)
    (ok : (txSend cid command data emits).1 = .ok) :
    (txSend cid command data emits).2 = frames cid command data := by
  rw [txSend] at ok
  rw [frames, txSend, txSend]
  by_cases invalid : cid = 0 ∨ command &&& 0x80 = 0 ∨ data.length > maxPayload
  · rw [if_pos invalid] at ok
    cases ok
  rw [if_neg invalid] at ok
  rw [if_neg invalid, if_neg invalid]
  cases accepted : emits 0 with
  | false =>
      rw [accepted] at ok
      cases ok
  | true =>
      rw [accepted] at ok
      simp only [if_pos]
      exact congrArg (initialReport cid command data :: ·) (txContinue_whole cid emits _ 0 1 ok)

theorem txContinue_get (cid : UInt32) (data : List UInt8) (sequence : UInt8) (sent k : Nat) :
    (txContinue cid (fun _ => true) data sequence sent).2[k]? =
      if contDataBytes * k < data.length then
        some (continuationReport cid (sequence + UInt8.ofNat k) (data.drop (contDataBytes * k)))
      else none := by
  induction k generalizing data sequence sent with
  | zero =>
      rw [txContinue]
      by_cases empty : data = []
      · rw [if_pos empty, empty]
        simp
      · rw [if_neg empty]
        simp [List.length_pos_of_ne_nil empty]
  | succ k ih =>
      rw [txContinue]
      by_cases empty : data = []
      · rw [if_pos empty, empty]
        simp
      · rw [if_neg empty]
        simp only [if_pos, List.getElem?_cons_succ]
        rw [ih, List.drop_drop, List.length_drop]
        have place : contDataBytes + contDataBytes * k = contDataBytes * (k + 1) := by
          rw [Nat.mul_succ, Nat.add_comm]
        have number : sequence + 1 + UInt8.ofNat k = sequence + UInt8.ofNat (k + 1) := by
          rw [UInt8.ofNat_add]
          grind
        rw [place, number]
        by_cases more : contDataBytes * (k + 1) < data.length
        · rw [if_pos more, if_pos (by omega)]
        · rw [if_neg more, if_neg (by omega)]

def room (k : Nat) : Nat := initDataBytes + contDataBytes * k

theorem frames_zero {cid : UInt32} {command : UInt8} {data : List UInt8} (proper : cid ≠ 0)
    (initial : command &&& 0x80 ≠ 0) (bounded : data.length ≤ maxPayload) :
    (frames cid command data)[0]? = some (initialReport cid command data) := by
  rw [frames, txSend, if_neg (by simp only [not_or]; exact ⟨proper, initial, by omega⟩), if_pos rfl]
  rfl

theorem frames_succ {cid : UInt32} {command : UInt8} {data : List UInt8} (proper : cid ≠ 0)
    (initial : command &&& 0x80 ≠ 0) (bounded : data.length ≤ maxPayload) (k : Nat) :
    (frames cid command data)[k + 1]? =
      if room k < data.length then
        some (continuationReport cid (UInt8.ofNat k) (data.drop (room k)))
      else none := by
  rw [frames, txSend, if_neg (by simp only [not_or]; exact ⟨proper, initial, by omega⟩), if_pos rfl,
    List.getElem?_cons_succ, txContinue_get, List.drop_drop, List.length_drop, UInt8.zero_add]
  rw [room]
  by_cases more : initDataBytes + contDataBytes * k < data.length
  · rw [if_pos more, if_pos (by omega)]
  · rw [if_neg more, if_neg (by omega)]

/-! Reading a report back. -/

theorem Report.cid_of (report : Report) (cid : UInt32) (tail : List UInt8)
    (bytes : report.toList = storeU32 cid ++ tail) : report.cid = cid := by
  have field : slice report.toList 0 4 = storeU32 cid := by
    rw [bytes]
    have found := slice_append [] (storeU32 cid) tail 0 4 rfl (by simp [storeU32])
    exact found
  rw [Report.cid, field, loadU32_storeU32]

theorem Report.command_of (report : Report) (cid : UInt32) (command : UInt8) (tail : List UInt8)
    (bytes : report.toList = storeU32 cid ++ command :: tail) : report.command = command := by
  have size : (storeU32 cid).length = 4 := by simp [storeU32]
  have field : report.toList[4]? = some command := by
    rw [bytes, List.getElem?_append_right (by omega), size]
    rfl
  rw [Report.command, List.Vector.get_eq_get_toList]
  rw [List.getElem?_eq_some_iff] at field
  rcases field with ⟨inside, same⟩
  exact same

theorem Report.contData_of (report : Report) (cid : UInt32) (command : UInt8) (tail : List UInt8)
    (bytes : report.toList = storeU32 cid ++ command :: tail) : report.contData = tail := by
  rw [Report.contData, bytes]
  have size : (storeU32 cid).length = 4 := by simp [storeU32]
  rw [List.drop_append, size]
  simp [List.drop_of_length_le, size]

theorem Report.initial_of (report : Report) (cid : UInt32) (command : UInt8) (length : Nat)
    (tail : List UInt8) (small : length < 65536)
    (bytes : report.toList = storeU32 cid ++ command :: (storeBE 2 length ++ tail)) :
    report.declaredLen = length ∧ report.initData = tail := by
  have size : (storeU32 cid ++ [command]).length = 5 := by simp [storeU32]
  have layout : report.toList = (storeU32 cid ++ [command]) ++ (storeBE 2 length ++ tail) := by
    rw [bytes]
    simp
  constructor
  · have field : slice report.toList 5 2 = storeBE 2 length := by
      rw [layout]
      exact slice_append _ _ tail 5 2 size.symm (by simp)
    rw [Report.declaredLen, field, loadBE_storeBE 2 length small]
  · rw [Report.initData, layout, ← List.append_assoc]
    apply List.drop_left'
    rw [List.length_append, size, length_storeBE]

end P4Key.Ctaphid
