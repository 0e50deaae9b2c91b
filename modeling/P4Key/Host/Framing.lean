import P4Key.Ctaphid.Replies
import P4Key.Host.Probe

/-! The two ends of the wire cut messages in the same way.

The host counts its offset from 57 even where the payload is shorter, and the
device from the bytes it has taken. What is left to send is the same at both
ends, so the reports agree one by one, and the reader of the host puts them
together again. -/

namespace P4Key.Host

open Memory
open Ctaphid (frames txSend txContinue initialReport continuationReport storeU32)

/-! One report is a header and data on a field of zeros. -/

theorem toBytes_fits (width value : Nat) (fits : value < 256 ^ width) :
    toBytes width value = .ok (storeBE width value) := if_pos fits

theorem assignSlice_zeros (done value : List UInt8) (start stop space : Nat)
    (here : start = done.length) (size : stop = start + value.length) :
    assignSlice (done ++ zeros space) start stop value =
      (done ++ value) ++ zeros (space - value.length) := by
  have tail : (done ++ zeros space).drop (done.length + value.length) =
      zeros (space - value.length) := by
    rw [List.drop_length_add_append]
    simp [zeros]
  rw [assignSlice, size, here, List.take_left, tail, List.append_assoc]

theorem assignItem_zeros (done : List UInt8) (byte : UInt8) (index space : Nat)
    (here : index = done.length) :
    assignItem (done ++ zeros (space + 1)) index byte.toNat =
      .ok ((done ++ [byte]) ++ zeros space) := by
  rw [assignItem, if_pos byte.toNat_lt, here, UInt8.ofNat_toNat]
  simp [zeros, List.replicate_succ]

theorem header_bytes (cid : UInt32) (byte : UInt8) :
    toBytes 4 cid.toNat = .ok (storeU32 cid) ∧
      assignItem (assignSlice (zeros reportBytes) 0 4 (storeU32 cid)) 4 byte.toNat =
        .ok ((storeU32 cid ++ [byte]) ++ zeros 59) := by
  have size : (storeU32 cid).length = 4 := length_storeBE 4 _
  have start := assignSlice_zeros [] (storeU32 cid) 0 4 reportBytes rfl (by rw [size])
  rw [List.nil_append, List.nil_append, size] at start
  refine ⟨toBytes_fits 4 _ cid.toNat_lt, ?_⟩
  rw [start]
  exact assignItem_zeros (storeU32 cid) byte 4 59 size.symm

theorem initialReport_bytes (cid : UInt32) (command : UInt8) (payload : List UInt8) :
    (initialReport cid command payload).toList =
      storeU32 cid ++ command :: (storeBE 2 payload.length ++ (payload.take initDataBytes ++
        zeros (57 - (payload.take initDataBytes).length))) := by
  have size : (storeU32 cid ++ command ::
      (storeBE 2 payload.length ++ payload.take Ctaphid.initDataBytes)).length =
      7 + (payload.take initDataBytes).length := by
    simp only [storeU32, List.length_append, List.length_cons, length_storeBE]
    change 4 + (2 + (payload.take initDataBytes).length + 1) = _
    omega
  have taken : (payload.take initDataBytes).length ≤ 57 := List.length_take_le _ _
  have short := load_short Ctaphid.reportBytes _ (by rw [size]; change _ ≤ 64; omega)
  calc (initialReport cid command payload).toList
    _ = _ := short
    _ = _ := by
      rw [size, Nat.sub_add_eq]
      simp only [List.append_assoc, List.cons_append]
      rfl

theorem continuationReport_bytes (cid : UInt32) (sequence : UInt8) (data : List UInt8) :
    (continuationReport cid sequence data).toList =
      storeU32 cid ++ sequence :: (data.take contDataBytes ++
        zeros (59 - (data.take contDataBytes).length)) := by
  have size : (storeU32 cid ++ sequence :: data.take Ctaphid.contDataBytes).length =
      5 + (data.take contDataBytes).length := by
    simp only [storeU32, List.length_append, List.length_cons, length_storeBE]
    change 4 + ((data.take contDataBytes).length + 1) = _
    omega
  have taken : (data.take contDataBytes).length ≤ 59 := List.length_take_le _ _
  have short := load_short Ctaphid.reportBytes _ (by rw [size]; change _ ≤ 64; omega)
  calc (continuationReport cid sequence data).toList
    _ = _ := short
    _ = _ := by
      rw [size, Nat.sub_add_eq]
      simp only [List.append_assoc, List.cons_append]
      rfl

theorem encodeInitial_report (cid : UInt32) (command : UInt8) (payload : List UInt8)
    (bound : payload.length ≤ maxPayload) :
    encodeInitial cid.toNat command.toNat payload =
      .ok (initialReport cid command payload).toList := by
  have small : payload.length < 256 ^ 2 := Nat.lt_of_le_of_lt bound (by decide)
  have header := header_bytes cid command
  have length := assignSlice_zeros (storeU32 cid ++ [command]) (storeBE 2 payload.length) 5 7 59
    (by simp [storeU32]) (by simp)
  have data := assignSlice_zeros ((storeU32 cid ++ [command]) ++ storeBE 2 payload.length)
    (payload.take initDataBytes) 7 (7 + min payload.length initDataBytes) 57
    (by simp [storeU32]) (by rw [List.length_take, Nat.min_comm])
  rw [length_storeBE] at length
  simp only [encodeInitial, header.1, header.2, toBytes_fits 2 _ small, bind, Except.bind, length,
    data, initialReport_bytes, pure, Except.pure]
  simp only [List.append_assoc, List.cons_append, List.nil_append]

theorem encodeContinuation_report (cid : UInt32) (sequence : UInt8) (data : List UInt8) :
    encodeContinuation cid.toNat sequence.toNat (data.take contDataBytes) =
      .ok (continuationReport cid sequence data).toList := by
  have header := header_bytes cid sequence
  have chunk := assignSlice_zeros (storeU32 cid ++ [sequence]) (data.take contDataBytes) 5
    (5 + (data.take contDataBytes).length) 59 (by simp [storeU32]) rfl
  simp only [encodeContinuation, header.1, header.2, bind, Except.bind, chunk,
    continuationReport_bytes, pure, Except.pure]
  simp only [List.append_assoc, List.cons_append, List.nil_append]

/-! The loops. -/

theorem drop_chunk (payload : List UInt8) (offset : Nat) :
    payload.drop (offset + (slice payload offset contDataBytes).length) =
      (payload.drop offset).drop contDataBytes := by
  rw [slice, List.drop_drop, List.length_take, List.length_drop]
  by_cases whole : contDataBytes ≤ payload.length - offset
  · rw [Nat.min_eq_left whole]
  · rw [List.drop_eq_nil_of_le (by omega), List.drop_eq_nil_of_le (by omega)]

/-- The sequence number stays a byte while the rest of the payload needs no more reports. -/
theorem encodeRest_frames (cid : UInt32) (payload : List UInt8) (offset sequence sent : Nat)
    (bound : payload.length ≤ offset + 59 * (256 - sequence)) :
    encodeRest cid.toNat payload offset sequence =
      .ok ((txContinue cid (fun _ => true) (payload.drop offset) (UInt8.ofNat sequence) sent).2.map
        (·.toList)) := by
  fun_induction encodeRest cid.toNat payload offset sequence generalizing sent with
  | case1 offset sequence more chunk ih =>
      have small : sequence < 256 := by omega
      have some' : payload.drop offset ≠ [] := by
        rw [ne_eq, List.drop_eq_nil_iff]
        omega
      have taken : chunk = (payload.drop offset).take contDataBytes := rfl
      have number : (UInt8.ofNat sequence).toNat = sequence := UInt8.toNat_ofNat_of_lt' small
      have report := encodeContinuation_report cid (UInt8.ofNat sequence) (payload.drop offset)
      rw [number, ← taken] at report
      have later : payload.length ≤ offset + chunk.length + 59 * (256 - (sequence + 1)) := by
        rw [taken, List.length_take, List.length_drop, contDataBytes]
        omega
      have rest := ih (sent + 1) later
      have next : UInt8.ofNat (sequence + 1) = UInt8.ofNat sequence + 1 := UInt8.ofNat_add _ _
      have behind : payload.drop (offset + chunk.length) = (payload.drop offset).drop contDataBytes :=
        drop_chunk payload offset
      rw [behind, next] at rest
      rw [txContinue, if_neg some', if_pos rfl, report]
      simp only [bind, Except.bind, rest, pure, Except.pure, List.map_cons]
      rfl
  | case2 offset sequence done =>
      rw [List.drop_eq_nil_of_le (by omega), txContinue, if_pos rfl]
      rfl

def Sendable (cid : UInt32) (command : UInt8) (data : List UInt8) : Prop :=
  cid ≠ 0 ∧ command &&& 0x80 ≠ 0 ∧ data.length ≤ maxPayload

theorem invalid_iff (cid : UInt32) (command : UInt8) (data : List UInt8) :
    (cid.toNat = 0 ∨ command.toNat &&& 0x80 = 0 ∨ data.length > maxPayload) ↔
      ¬ Sendable cid command data := by
  have zero : cid.toNat = 0 ↔ cid = 0 := by
    rw [← UInt32.toNat_inj]
    rfl
  have clear : command.toNat &&& 0x80 = 0 ↔ command &&& 0x80 = 0 := by
    rw [← UInt8.toNat_inj, UInt8.toNat_and]
    rfl
  rw [Sendable, zero, clear]
  simp only [not_and_or, not_not, not_le, gt_iff_lt]

theorem refused_iff (cid : UInt32) (command : UInt8) (data : List UInt8) :
    (cid = 0 ∨ command &&& 0x80 = 0 ∨ data.length > Ctaphid.maxPayload) ↔
      ¬ Sendable cid command data := by
  rw [Sendable]
  simp only [not_and_or, not_not, not_le, gt_iff_lt]

theorem frames_cons {cid : UInt32} {command : UInt8} {data : List UInt8}
    (sendable : Sendable cid command data) :
    frames cid command data = initialReport cid command data ::
      (txContinue cid (fun _ => true) (data.drop initDataBytes) 0 1).2 := by
  have taken := not_iff_not.mpr (refused_iff cid command data)
  rw [frames, txSend, if_neg (taken.mpr (not_not.mpr sendable)), if_pos rfl]
  rfl

theorem encodeReports_frames {cid : UInt32} {command : UInt8} {data : List UInt8}
    (sendable : Sendable cid command data) :
    encodeReports cid.toNat command.toNat data =
      .ok ((frames cid command data).map (·.toList)) := by
  have taken := not_iff_not.mpr (invalid_iff cid command data)
  have bound := sendable.2.2
  have initial := encodeInitial_report cid command data bound
  have rest := encodeRest_frames cid data initDataBytes 0 1
    (bound.trans (by decide))
  rw [encodeReports, if_neg (taken.mpr (not_not.mpr sendable)), frames_cons sendable]
  simp only [bind, Except.bind, initial, rest, pure, Except.pure, List.map_cons]
  rfl

theorem encodeReports_invalid {cid : UInt32} {command : UInt8} {data : List UInt8}
    (invalid : ¬ Sendable cid command data) :
    encodeReports cid.toNat command.toNat data =
      .error (.mvp "invalid outbound CTAPHID message") := by
  rw [encodeReports, if_pos ((invalid_iff cid command data).mpr invalid)]
  rfl

/-! The reader. -/

theorem readReport_whole (report : Ctaphid.Report) :
    readReport (.bytes report.toList) = .ok report := by
  rw [readReport, dif_pos report.toList_length]
  rfl

theorem cid_field (report : Ctaphid.Report) (cid : UInt32) (tail : List UInt8)
    (bytes : report.toList = storeU32 cid ++ tail) :
    loadBE (slice report.toList 0 4) = cid.toNat := by
  have field : slice report.toList 0 4 = storeU32 cid := by
    rw [bytes]
    exact slice_append [] (storeU32 cid) tail 0 4 rfl (length_storeBE 4 _).symm
  rw [field, storeU32, loadBE_storeBE 4 _ cid.toNat_lt]

theorem item_field (report : Ctaphid.Report) (cid : UInt32) (byte : UInt8) (tail : List UInt8)
    (bytes : report.toList = storeU32 cid ++ byte :: tail) : item report 4 = byte.toNat := by
  have width : (storeU32 cid).length = 4 := length_storeBE 4 _
  rw [item, bytes, List.getD_eq_getElem?_getD, List.getElem?_append_right (Nat.le_of_eq width), width]
  rfl

theorem take_padded (data padding : List UInt8) (space take : Nat) (within : take ≤ space)
    (inside : take ≤ data.length) : (data.take space ++ padding).take take = data.take take := by
  rw [List.take_append_of_le_length (by rw [List.length_take]; omega), List.take_take,
    Nat.min_eq_left within]

theorem continuation_fields (cid : UInt32) (sequence : UInt8) (data : List UInt8) :
    loadBE (slice (continuationReport cid sequence data).toList 0 4) = cid.toNat ∧
      item (continuationReport cid sequence data) 4 = sequence.toNat ∧
      slice (continuationReport cid sequence data).toList 5 (min contDataBytes data.length) =
        data.take contDataBytes := by
  have bytes := continuationReport_bytes cid sequence data
  refine ⟨cid_field _ cid _ bytes, item_field _ cid sequence _ bytes, ?_⟩
  have behind := Ctaphid.Report.contData_of _ cid sequence _ bytes
  rw [Ctaphid.Report.contData] at behind
  rw [slice, behind, take_padded _ _ _ _ (Nat.min_le_left _ _) (Nat.min_le_right _ _),
    ← List.take_eq_take_min]

theorem readRest_frames (cid : UInt32) (later : Handle) (data got : List UInt8)
    (sequence sent : Nat) (bound : data.length ≤ 59 * (256 - sequence)) :
    readRest cid.toNat (got.length + data.length)
      ((txContinue cid (fun _ => true) data (UInt8.ofNat sequence) sent).2.map
        (fun report => .bytes report.toList) ++ later) got sequence = .ok (got ++ data, later) := by
  induction size : data.length using Nat.strong_induction_on generalizing data got sequence sent with
  | _ length ih =>
      subst size
      by_cases empty : data = []
      · rw [empty, List.length_nil, Nat.add_zero, txContinue, if_pos rfl, readRest.eq_def,
          if_neg (Nat.lt_irrefl got.length), List.append_nil]
        rfl
      · have positive := List.length_pos_of_ne_nil empty
        have small : sequence < 256 := by omega
        have left : got.length + data.length - got.length = data.length := by omega
        have split : data.take contDataBytes ++ data.drop contDataBytes = data :=
          List.take_append_drop _ _
        have behind : (data.drop contDataBytes).length = data.length - contDataBytes :=
          List.length_drop
        have total : (got ++ data.take contDataBytes).length + (data.drop contDataBytes).length =
            got.length + data.length := by
          rw [List.length_append, Nat.add_assoc, ← List.length_append, split]
        obtain ⟨channel, number, chunk⟩ := continuation_fields cid (UInt8.ofNat sequence) data
        have next : UInt8.ofNat (sequence + 1) = UInt8.ofNat sequence + 1 := UInt8.ofNat_add _ _
        have rest := ih (data.drop contDataBytes).length (by rw [behind, contDataBytes]; omega)
          (data.drop contDataBytes) (got ++ data.take contDataBytes) (sequence + 1) (sent + 1)
          (by rw [behind, contDataBytes]; omega) rfl
        rw [total, next, List.append_assoc, split] at rest
        rw [txContinue, if_neg empty, if_pos rfl]
        simp only [List.map_cons, List.cons_append]
        rw [readRest, if_pos (by omega), left]
        simp only [readReport_whole, bind, Except.bind, channel, number, chunk,
          UInt8.toNat_ofNat_of_lt' small, ne_eq, not_true_eq_false, if_false]
        exact rest

/-- The reader gives back what was cut into reports, and leaves what comes later. -/
theorem readMessage_frames {cid : UInt32} {command : UInt8} {data : List UInt8}
    (sendable : Sendable cid command data) (later : Handle) :
    readMessage cid.toNat ((frames cid command data).map (fun report => .bytes report.toList) ++
      later) = .ok ((command.toNat, data), later) := by
  obtain ⟨proper, high, bound⟩ := sendable
  have bytes := initialReport_bytes cid command data
  have small : data.length < 65536 := Nat.lt_of_le_of_lt bound (by decide)
  have channel := cid_field _ cid _ bytes
  have kind := item_field _ cid command _ bytes
  obtain ⟨declared, behind⟩ := Ctaphid.Report.initial_of _ cid command data.length _ small bytes
  have length : loadBE (slice (initialReport cid command data).toList 5 2) = data.length := declared
  have first : slice (initialReport cid command data).toList 7 (min data.length initDataBytes) =
      data.take initDataBytes := by
    rw [Ctaphid.Report.initData] at behind
    rw [slice, behind, take_padded _ _ _ _ (Nat.min_le_right _ _) (Nat.min_le_left _ _), Nat.min_comm,
      ← List.take_eq_take_min]
  have flag : command.toNat &&& 0x80 ≠ 0 := by
    intro clear
    exact (invalid_iff cid command data).mp (Or.inr (Or.inl clear)) ⟨proper, high, bound⟩
  have rest := readRest_frames cid later (data.drop initDataBytes) (data.take initDataBytes) 0 1
    (by rw [List.length_drop]; exact (Nat.sub_le _ _).trans (bound.trans (by decide)))
  have split : data.take initDataBytes ++ data.drop initDataBytes = data :=
    List.take_append_drop _ _
  have start : UInt8.ofNat 0 = 0 := rfl
  rw [← List.length_append, split, start] at rest
  rw [frames_cons ⟨proper, high, bound⟩, readMessage]
  simp only [List.map_cons, List.cons_append, List.headD_cons, List.tail_cons, readReport_whole, bind,
    Except.bind, channel, kind, length, first, ne_eq, not_true_eq_false, false_or, flag, if_false,
    if_neg (Nat.not_lt.mpr bound)]
  rw [rest]
  rfl

/-! The emitter. -/

/-- A failure of the emitter at its call `sent + k` leaves the first `k` reports. -/
theorem txContinue_fails (cid : UInt32) (emits : Ctaphid.Emits) (data : List UInt8)
    (sequence : UInt8) (sent k : Nat)
    (inside : k < (txContinue cid (fun _ => true) data sequence sent).2.length)
    (working : ∀ j < k, emits (sent + j) = true) (broken : emits (sent + k) = false) :
    txContinue cid emits data sequence sent =
      (.send, (txContinue cid (fun _ => true) data sequence sent).2.take k) := by
  induction k generalizing data sequence sent with
  | zero =>
      rw [txContinue] at inside
      rw [txContinue]
      by_cases empty : data = []
      · rw [if_pos empty] at inside
        exact absurd inside (Nat.not_lt_zero 0)
      · rw [if_neg empty, if_neg (by rw [← Nat.add_zero sent, broken]; decide), List.take_zero]
  | succ k ih =>
      rw [txContinue] at inside
      by_cases empty : data = []
      · rw [if_pos empty] at inside
        exact absurd inside (Nat.not_lt_zero _)
      · rw [if_neg empty, if_pos rfl] at inside
        have accepted : emits sent = true := working 0 (Nat.succ_pos k)
        have rest := ih (data.drop Ctaphid.contDataBytes) (sequence + 1) (sent + 1)
          (by simpa using inside)
          (fun j before => by
            rw [Nat.add_assoc, Nat.add_comm 1 j]
            exact working (j + 1) (Nat.succ_lt_succ before))
          (by rw [Nat.add_assoc, Nat.add_comm 1 k]; exact broken)
        rw [txContinue, if_neg empty, if_pos accepted, rest]
        rw [txContinue.eq_def cid (fun _ => true) data, if_neg empty, if_pos rfl]
        rfl

theorem txSend_fails {cid : UInt32} {command : UInt8} {data : List UInt8}
    (sendable : Sendable cid command data) (emits : Ctaphid.Emits) (k : Nat)
    (inside : k < (frames cid command data).length) (working : ∀ j < k, emits j = true)
    (broken : emits k = false) :
    txSend cid command data emits = (.send, (frames cid command data).take k) := by
  have taken := not_iff_not.mpr (refused_iff cid command data)
  rw [frames_cons sendable] at inside ⊢
  rw [txSend, if_neg (taken.mpr (not_not.mpr sendable))]
  cases k with
  | zero =>
      rw [if_neg (by rw [broken]; decide)]
      rfl
  | succ k =>
      have rest := txContinue_fails cid emits (data.drop Ctaphid.initDataBytes) 0 1 k
        (Nat.lt_of_succ_lt_succ inside)
        (fun j before => by
          rw [Nat.add_comm 1 j]
          exact working (j + 1) (Nat.succ_lt_succ before))
        (by rw [Nat.add_comm 1 k]; exact broken)
      rw [if_pos (working 0 (Nat.succ_pos k)), rest]
      rfl

theorem low_bits : ∀ k < 128, UInt8.ofNat k &&& 0x80 = 0 := by decide

theorem frames_continuation {cid : UInt32} {command : UInt8} {data : List UInt8}
    (sendable : Sendable cid command data) (k : Nat) (report : Ctaphid.Report)
    (here : (frames cid command data)[k + 1]? = some report) : report.command &&& 0x80 = 0 := by
  obtain ⟨proper, high, bound⟩ := sendable
  rw [Ctaphid.frames_succ proper high bound] at here
  by_cases more : Ctaphid.room k < data.length
  · rw [if_pos more] at here
    cases here
    have number : k < 128 := by
      change 57 + 59 * k < data.length at more
      change data.length ≤ 2048 at bound
      omega
    rw [Ctaphid.Report.command_of _ cid (UInt8.ofNat k) _ (continuationReport_bytes _ _ _)]
    exact low_bits k number
  · rw [if_neg more] at here
    cases here

theorem txSend_not_arg {cid : UInt32} {command : UInt8} {data : List UInt8}
    (sendable : Sendable cid command data) (emits : Ctaphid.Emits) :
    (txSend cid command data emits).1 ≠ .arg := by
  have taken := not_iff_not.mpr (refused_iff cid command data)
  rw [txSend, if_neg (taken.mpr (not_not.mpr sendable))]
  simp only
  split
  · exact Ctaphid.txContinue_not_arg cid emits _ 0 1
  · decide

theorem txSend_works {cid : UInt32} {command : UInt8} {data : List UInt8}
    (sendable : Sendable cid command data) :
    txSend cid command data (fun _ => true) = (.ok, frames cid command data) := by
  have taken := not_iff_not.mpr (refused_iff cid command data)
  have ok := Ctaphid.txContinue_ok cid (data.drop Ctaphid.initDataBytes) 0 1
  rw [frames, txSend, if_neg (taken.mpr (not_not.mpr sendable)), if_pos rfl]
  exact Prod.ext ok rfl

/-- Both ends cut a message into the same reports and refuse the same messages; the host
reads what the device sends; and an emitter that breaks has accepted the reports before. -/
theorem framing_agrees (cid : UInt32) (command : UInt8) (data : List UInt8) :
    (∀ emits, (txSend cid command data emits).1 = .arg ↔
      ∃ error, encodeReports cid.toNat command.toNat data = .error error) ∧
    (Sendable cid command data →
      (∃ reports, txSend cid command data (fun _ => true) = (.ok, reports) ∧
        encodeReports cid.toNat command.toNat data = .ok (reports.map (·.toList)) ∧
        (∀ k report, reports[k + 1]? = some report → report.command &&& 0x80 = 0) ∧
        ∀ later, readMessage cid.toNat
          (reports.map (fun report => .bytes report.toList) ++ later) =
            .ok ((command.toNat, data), later)) ∧
      ∀ reports, encodeReports cid.toNat command.toNat data = .ok reports →
        ∀ emits k, k < reports.length → (∀ j < k, emits j = true) → emits k = false →
          ∃ sent, txSend cid command data emits = (.send, sent) ∧
            sent.map (·.toList) = reports.take k) := by
  constructor
  · intro emits
    by_cases sendable : Sendable cid command data
    · apply iff_of_false (txSend_not_arg sendable emits)
      intro ⟨error, refused⟩
      rw [encodeReports_frames sendable] at refused
      cases refused
    · apply iff_of_true _ ⟨_, encodeReports_invalid sendable⟩
      rw [txSend, if_pos ((refused_iff cid command data).mpr sendable)]
  · intro sendable
    have encoded := encodeReports_frames sendable
    constructor
    · exact ⟨_, txSend_works sendable, encoded, frames_continuation sendable,
        readMessage_frames sendable⟩
    · intro reports same emits k inside working broken
      rw [encoded] at same
      cases same
      rw [List.length_map] at inside
      exact ⟨_, txSend_fails sendable emits k inside working broken, List.map_take⟩

/-- A PING of four reports, for an emitter that fails at the third. -/
def longPing : List UInt8 := List.replicate 200 7

theorem length_longPing : longPing.length = 200 := List.length_replicate

theorem longPing_sendable : Sendable 1 0x81 longPing :=
  ⟨by decide, by decide, by rw [length_longPing]; decide⟩

theorem longPing_reports : 2 < (frames 1 0x81 longPing).length := by
  have third := @Ctaphid.frames_succ 1 0x81 longPing (by decide) (by decide)
    (by rw [length_longPing]; decide) 1
  rw [length_longPing, if_pos (by decide)] at third
  exact (List.getElem?_eq_some_iff.mp third).1

theorem framing_agrees_ping :
    ∃ reports sent, encodeReports 1 0x81 longPing = .ok (reports.map (·.toList)) ∧
      txSend 1 0x81 longPing (fun _ => true) = (.ok, reports) ∧
      readMessage 1 (reports.map fun report => .bytes report.toList) = .ok ((0x81, longPing), []) ∧
      txSend 1 0x81 longPing (fun k => k != 2) = (.send, sent) ∧ sent = reports.take 2 := by
  obtain ⟨-, agree⟩ := framing_agrees 1 0x81 longPing
  obtain ⟨⟨reports, whole, encoded, -, read⟩, broken⟩ := agree longPing_sendable
  have inside : 2 < (reports.map (·.toList)).length := by
    have same : frames 1 0x81 longPing = reports := congrArg Prod.snd whole
    rw [List.length_map, ← same]
    exact longPing_reports
  obtain ⟨sent, failed, agrees⟩ := broken _ encoded (fun k => k != 2) 2 inside
    (fun j below => by simp; omega) (by decide)
  have back := read []
  rw [List.append_nil] at back
  rw [← List.map_take] at agrees
  exact ⟨reports, sent, encoded, whole, back, failed,
    List.map_injective_iff.mpr List.Vector.toList_injective agrees⟩

end P4Key.Host
