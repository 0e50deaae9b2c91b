import P4Key.Usb.Port

/-! What the sections of p4_usb.c do to the queue, and what holds between them. -/

namespace P4Key.Usb

open Memory

section Sections

variable {port : Port}

theorem takeStart_port (remember : Bool) : (takeStart port remember).1.bus = port.bus ∧
    (takeStart port remember).1.rxQueue = port.rxQueue := by
  cases remember <;> exact ⟨rfl, rfl⟩

theorem takeCheck_port (item : Item) (remember : Bool) :
    (takeCheck port item remember).1.bus = port.bus ∧
      (takeCheck port item remember).1.rxQueue = port.rxQueue := by
  rw [takeCheck]
  split
  · exact ⟨rfl, rfl⟩
  · cases remember <;> exact ⟨rfl, rfl⟩

theorem takeCheck_ok {item : Item} {remember : Bool} :
    (takeCheck port item remember).2 = true ↔
      port.bus.ready = true ∧ usbUnmountGeneration port.bus = UInt32.ofNat item.generation := by
  rw [takeCheck]
  split
  · rename_i stale
    simp only [Bool.false_eq_true, false_iff, not_and]
    intro ready same
    rcases stale with unready | moved
    · rw [ready] at unready
      cases unready
    · exact moved same
  · rename_i current
    simpa using current

theorem takePop_bus : (takePop port).1.bus = port.bus := by
  rw [takePop]
  split <;> rfl

theorem takePop_held {item : Item} (popped : (takePop port).2 = .held item) :
    port.rxQueue.toList = item :: (takePop port).1.rxQueue.toList := by
  rw [takePop] at popped ⊢
  split at popped
  · rename_i front rest found
    simp only at popped ⊢
    split at popped
    · cases popped
    · cases popped
      exact queuePop_some found
  · simp only at popped
    split at popped <;> cases popped

theorem takePop_other (ready : port.rxQueue.toList ≠ [] → port.bus.ready = true)
    (current : ∀ item ∈ port.rxQueue.toList, item.generation = port.bus.generation)
    (popped : ∀ item, (takePop port).2 ≠ .held item) :
    port.rxQueue.toList = [] ∧ (takePop port).1.rxQueue = port.rxQueue := by
  rw [takePop] at popped ⊢
  split
  · rename_i front rest found
    have whole := queuePop_some found
    have on : port.bus.ready = true := ready (by rw [whole]; exact List.cons_ne_nil _ _)
    have same : front.generation = port.bus.generation :=
      current front (by rw [whole]; exact List.mem_cons_self)
    simp only [found] at popped
    have none := popped front
    rw [if_neg (by simp [on, same, usbUnmountGeneration])] at none
    exact absurd rfl none
  · rename_i rest found
    exact queuePop_none found

theorem tudHidSetReportCb_bus (call : SetReport) : (tudHidSetReportCb port call).1.bus = port.bus := by
  rw [tudHidSetReportCb]
  split
  · rfl
  · split <;> rfl

theorem tudHidSetReportCb_take (call : SetReport) :
    (tudHidSetReportCb port call).1.haveTakeGeneration = port.haveTakeGeneration ∧
      (tudHidSetReportCb port call).1.takeGeneration = port.takeGeneration := by
  rw [tudHidSetReportCb]
  split
  · exact ⟨rfl, rfl⟩
  · split <;> exact ⟨rfl, rfl⟩

theorem SetReport.report_bytes {call : SetReport} {report : Bytes reportBytes}
    (carried : call.report = some report) : call.buffer = some report.toList := by
  rw [SetReport.report] at carried
  split at carried
  · cases carried
  split at carried
  · cases carried
  split at carried
  · cases carried
  · rename_i bytes here
    split at carried
    · cases carried
    · rename_i size
      rw [ne_eq, not_not] at size
      cases carried
      rw [here, load_toList _ _ _ (by omega), slice, List.drop_zero,
        List.take_of_length_le (Nat.le_of_eq size)]

theorem tudHidSetReportCb_some {call : SetReport} {item : Item}
    (queued : (tudHidSetReportCb port call).2 = some item) :
    call.report = some item.report ∧ item.generation = port.bus.generation ∧
      port.bus.ready = true ∧
      (tudHidSetReportCb port call).1.rxQueue.toList = port.rxQueue.toList ++ [item] := by
  rw [tudHidSetReportCb] at queued ⊢
  cases carried : call.report with
  | none =>
      simp only [carried] at queued
      cases queued
  | some report =>
      simp only [carried] at queued ⊢
      cases ready : port.bus.ready with
      | false =>
          simp only [ready] at queued
          cases queued
      | true =>
          simp only [ready, if_true] at queued ⊢
          by_cases room : port.rxQueue.count < rxQueueDepth
          · rw [queuePush_room _ _ room] at queued ⊢
            cases queued
            exact ⟨rfl, rfl, trivial, port.rxQueue.toList_push _ room⟩
          · rw [queuePush_full _ _ room] at queued
            cases queued

theorem tudHidSetReportCb_none (call : SetReport) :
    ((tudHidSetReportCb port call).2 = none ↔
      call.report = none ∨ port.bus.ready = false ∨ port.rxQueue.toList.length = rxQueueDepth) ∧
    ((tudHidSetReportCb port call).2 = none → (tudHidSetReportCb port call).1 = port) := by
  have bound := port.rxQueue.count_le
  rw [tudHidSetReportCb, RingBuffer.length_toList]
  cases carried : call.report with
  | none => simp
  | some report =>
      cases ready : port.bus.ready with
      | false => simp
      | true =>
          simp only [if_true, reduceCtorEq, Bool.true_eq_false, false_or]
          by_cases room : port.rxQueue.count < rxQueueDepth
          · rw [queuePush_room _ _ room]
            simp only [if_true, reduceCtorEq, false_iff, false_imp_iff, and_true]
            omega
          · rw [queuePush_full _ _ room]
            simp only [Bool.false_eq_true, if_false, true_iff, true_imp_iff, and_true]
            omega

end Sections

/-! Between the sections. -/

/-- Everything in the port belongs to the connection that is there. -/
structure Port.Valid (port : Port) : Prop where
  queued : ∀ item ∈ port.rxQueue.toList, item.generation = port.bus.generation
  ready : port.rxQueue.toList ≠ [] → port.bus.ready = true
  taken : port.haveTakeGeneration = true →
    UInt32.ofNat port.takeGeneration = usbUnmountGeneration port.bus ∧
      port.takeGeneration ≤ port.bus.generation

theorem Port.Valid.of_empty {port : Port} (empty : port.rxQueue.toList = [])
    (forgot : port.haveTakeGeneration = false) : port.Valid := by
  refine ⟨?_, fun full => absurd empty full, ?_⟩
  · intro item member
    rw [empty] at member
    cases member
  · intro impossible
    rw [forgot] at impossible
    cases impossible

theorem Port.Valid.event {port : Port} (valid : port.Valid) (event : BusEvent) :
    (port.event event).Valid := by
  cases event with
  | attached => exact .of_empty rfl rfl
  | detached => exact .of_empty rfl rfl
  | suspended => exact .of_empty rfl rfl
  | resumed =>
      refine ⟨valid.queued, ?_, valid.taken⟩
      intro full
      exact port.bus.mounted_of_ready (valid.ready full)

theorem Port.Valid.drop (port : Port) : (usbDropPending port).Valid := .of_empty rfl rfl

theorem Port.Valid.report {port : Port} (valid : port.Valid) (call : SetReport) :
    (tudHidSetReportCb port call).1.Valid := by
  have bus : (tudHidSetReportCb port call).1.bus = port.bus := tudHidSetReportCb_bus call
  have take : (tudHidSetReportCb port call).1.haveTakeGeneration = port.haveTakeGeneration ∧
    (tudHidSetReportCb port call).1.takeGeneration = port.takeGeneration := tudHidSetReportCb_take call
  cases queued : (tudHidSetReportCb port call).2 with
  | none =>
      rw [(tudHidSetReportCb_none call).2 queued]
      exact valid
  | some item =>
      rcases tudHidSetReportCb_some queued with ⟨-, current, ready, whole⟩
      refine ⟨?_, fun _ => by rw [bus]; exact ready, ?_⟩
      · intro other member
        rw [whole] at member
        rw [bus]
        rcases List.mem_append.mp member with earlier | last
        · exact valid.queued other earlier
        · rw [List.mem_singleton.mp last]
          exact current
      · rw [bus, take.1, take.2]
        exact valid.taken

theorem Port.Valid.shrink {port after : Port} (valid : port.Valid) (bus : after.bus = port.bus)
    (fewer : ∀ item ∈ after.rxQueue.toList, item ∈ port.rxQueue.toList)
    (taken : after.haveTakeGeneration = true →
      UInt32.ofNat after.takeGeneration = usbUnmountGeneration port.bus ∧
        after.takeGeneration ≤ port.bus.generation) : after.Valid := by
  refine ⟨?_, ?_, by rw [bus]; exact taken⟩
  · intro item member
    rw [bus]
    exact valid.queued item (fewer item member)
  · intro full
    rw [bus]
    obtain ⟨item, member⟩ := List.exists_mem_of_ne_nil _ full
    exact valid.ready (List.ne_nil_of_mem (fewer item member))

theorem takePop_take (port : Port) :
    (takePop port).1.haveTakeGeneration = port.haveTakeGeneration ∧
      (takePop port).1.takeGeneration = port.takeGeneration := by
  rw [takePop]
  split <;> exact ⟨rfl, rfl⟩

theorem Port.Valid.start {port : Port} (valid : port.Valid) (remember : Bool) :
    (takeStart port remember).1.Valid := by
  cases remember with
  | false => exact valid
  | true =>
      refine valid.shrink rfl (fun item member => member) ?_
      intro impossible
      cases impossible

theorem Port.Valid.held {port : Port} (valid : port.Valid) {item : Item}
    (popped : (takePop port).2 = .held item) :
    item.generation = port.bus.generation ∧ port.bus.ready = true := by
  have whole := takePop_held popped
  refine ⟨valid.queued item ?_, valid.ready ?_⟩
  · rw [whole]
    exact List.mem_cons_self
  · rw [whole]
    exact List.cons_ne_nil _ _

theorem Port.Valid.popped {port : Port} (valid : port.Valid) {item : Item}
    (found : item ∈ (takePop port).1.rxQueue.toList ∨ (takePop port).2 = .held item) :
    item ∈ port.rxQueue.toList := by
  by_cases held : ∃ front, (takePop port).2 = .held front
  · rcases held with ⟨front, popped⟩
    rw [takePop_held popped]
    rcases found with left | same
    · exact List.mem_cons_of_mem _ left
    · rw [popped] at same
      cases same
      exact List.mem_cons_self
  · rcases found with left | same
    · rw [(takePop_other valid.ready valid.queued fun front popped => held ⟨front, popped⟩).2] at left
      exact left
    · exact absurd ⟨item, same⟩ held

theorem Port.Valid.pop {port : Port} (valid : port.Valid) : (takePop port).1.Valid := by
  have take := takePop_take port
  exact valid.shrink takePop_bus (fun item member => valid.popped (Or.inl member))
    (by rw [take.1, take.2]; exact valid.taken)

theorem Port.Valid.check {port : Port} (valid : port.Valid) {item : Item} (remember : Bool)
    (past : item.generation ≤ port.bus.generation) : (takeCheck port item remember).1.Valid := by
  rw [takeCheck]
  split
  · exact valid
  · rename_i current
    simp only [not_or, ne_eq, not_not] at current
    cases remember with
    | false => exact valid
    | true => exact valid.shrink rfl (fun other member => member) (fun _ => ⟨current.2.symm, past⟩)

end P4Key.Usb
