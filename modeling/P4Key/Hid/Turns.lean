import P4Key.Hid.Connections

/-! One turn of the transport task: from its look at the generation to the feed. -/

namespace P4Key.Hid.Intake

open Memory P4Key.Ctaphid P4Key.Usb
open P4Key.Usb.Receive (generation_inj)

/-! Where the reports come from. -/

/-- The item came in with this call, on the connection that was there then. -/
def Received (past : List Event) (item : Item) : Prop :=
  ∃ front call back, past = front ++ .arrived call (some item) :: back ∧
    call.buffer = some item.report.toList ∧ item.generation = front.countP Event.renews

theorem Received.snoc {past : List Event} {item : Item} (received : Received past item)
    (event : Event) : Received (past ++ [event]) item := by
  rcases received with ⟨front, call, back, split, bytes, generation⟩
  exact ⟨front, call, back ++ [event], by simp [split], bytes, generation⟩

/-- The item is in the queue, in the hands of the transport task, or was fed. -/
def Inside (items : List Item) (state : State) (item : Item) : Prop :=
  item ∈ state.port.rxQueue.toList ∨ state.place.item = some item ∨ item ∈ items

theorem Inside.back {items : List Item} {state next : State} {event : Event} {item : Item}
    (inside : Inside (feeding items event) next item)
    (queue : ∀ item ∈ next.port.rxQueue.toList, item ∈ state.port.rxQueue.toList)
    (held : ∀ item, next.place.item = some item → Inside items state item)
    (fed : ∀ item ∈ event.fed, state.place.item = some item) : Inside items state item := by
  rcases inside with queued | holds | before
  · exact Or.inl (queue item queued)
  · exact held item holds
  · rw [feeding] at before
    rcases List.mem_append.mp before with earlier | now
    · split at earlier
      · cases earlier
      · exact Or.inr (Or.inr earlier)
    · exact Or.inr (Or.inl (fed item now))

theorem Step.sources {state next : State} {event : Event} {items : List Item}
    (step : Step state event next) (current : Current items state) {item : Item}
    (inside : Inside (feeding items event) next item) :
    Inside items state item ∨ ∃ call, event = .arrived call (some item) := by
  have port := current.port
  have unfed : ∀ item : Item, item ∈ ([] : List Item) → state.place.item = some item :=
    fun _ impossible => by cases impossible
  have gone : ∀ item : Item, none = some item → Inside items state item :=
    fun _ impossible => by cases impossible
  have stays : ∀ item, state.place.item = some item → Inside items state item :=
    fun _ held => Or.inr (Or.inl held)
  cases step with
  | bus event =>
      refine Or.inl (inside.back ?_ stays unfed)
      cases event with
      | resumed => exact fun _ queued => queued
      | attached => exact fun _ impossible => by cases impossible
      | detached => exact fun _ impossible => by cases impossible
      | suspended => exact fun _ impossible => by cases impossible
  | arrived call =>
      rw [feeding_quiet items rfl rfl] at inside
      rcases inside with queued | rest
      · cases accepted : (tudHidSetReportCb state.port call).2 with
        | none =>
            simp only [(tudHidSetReportCb_none call).2 accepted] at queued
            exact Or.inl (Or.inl queued)
        | some newest =>
            simp only [(tudHidSetReportCb_some accepted).2.2.2] at queued
            rcases List.mem_append.mp queued with earlier | last
            · exact Or.inl (Or.inl earlier)
            · rw [List.mem_singleton.mp last]
              exact Or.inr ⟨call, rfl⟩
      · exact Or.inl (Or.inr rest)
  | request started => exact Or.inl (inside.back (fun _ queued => queued) stays unfed)
  | resetAll started =>
      exact Or.inl (inside.back (fun _ impossible => by cases impossible) stays unfed)
  | processed here flag =>
      exact Or.inl (inside.back (fun _ impossible => by cases impossible) gone unfed)
  | began epoch here started =>
      exact Or.inl (inside.back (fun _ queued => queued) gone unfed)
  | stopped epoch here stopped =>
      exact Or.inl (inside.back (fun _ queued => queued) gone unfed)
  | popped epoch here front found =>
      refine Or.inl (inside.back (fun _ queued => port.popped (Or.inl queued)) ?_ unfed)
      intro item same
      cases same
      exact Or.inl (port.popped (Or.inr found))
  | popFailed epoch here result failed =>
      exact Or.inl (inside.back (fun _ queued => port.popped (Or.inl queued)) gone unfed)
  | empty epoch here nothing =>
      exact Or.inl (inside.back (fun _ queued => port.popped (Or.inl queued)) gone unfed)
  | checked epoch front here good =>
      refine Or.inl (inside.back ?_ ?_ unfed)
      · simp only [(takeCheck_port front false).2]
        exact fun _ queued => queued
      · intro item same
        exact stays item (by rw [here]; exact same)
  | stale epoch front here bad =>
      refine Or.inl (inside.back ?_ gone unfed)
      simp only [(takeCheck_port front false).2]
      exact fun _ queued => queued
  | reported epoch front here nowMs draws send =>
      refine Or.inl (inside.back ?_ gone ?_)
      · simp only
        split
        · exact fun _ impossible => by cases impossible
        · exact fun _ queued => queued
      · intro item fed
        cases outcome : (state.transported epoch front (state.feedReads nowMs draws send)).2.2 with
        | discarded =>
            rw [outcome] at fed
            cases fed
        | fed action sent =>
            rw [outcome] at fed
            rw [List.mem_singleton.mp fed, here]
            rfl
  | took started task cap => exact Or.inl (inside.back (fun _ queued => queued) stays unfed)
  | _ => exact Or.inl (inside.back (fun _ queued => queued) gone unfed)

theorem History.received {past : List Event} {state : State} (run : History past state) {item : Item}
    (inside : Inside (fedSince past) state item) : Received past item := by
  refine Runs.Run.history run (fun past state => ∀ item, Inside (fedSince past) state item →
    Received past item) ?_ ?_ item inside
  · intro item inside
    rcases inside with impossible | impossible | impossible
    · cases impossible
    · cases impossible
    · cases impossible
  · intro past state event next before received step item inside
    rw [fedSince_snoc] at inside
    rcases step.sources (History.current before) inside with earlier | ⟨call, same⟩
    · exact (received item earlier).snoc event
    · subst same
      generalize whole : Event.arrived call (some item) = event at step
      cases step with
      | arrived call' =>
          injection whole with sameCall queued
          subst sameCall
          rcases tudHidSetReportCb_some queued.symm with ⟨carried, generation, -, -⟩
          have counted := generation_run before
          refine ⟨past, call, [], by rw [← queued], SetReport.report_bytes carried, ?_⟩
          rw [generation, counted]
          exact Nat.zero_add _
      | _ => cases whole

/-! The turn. -/

def Event.syncs : Event → Bool
  | .synced _ => true
  | _ => false

theorem observeUsb_epoch (service : Service) (generation : UInt32) :
    (observeUsb service generation false).1.resetEpoch =
      service.resetEpoch + UInt32.ofNat (observeUsb service generation false).2.toNat := by
  rcases observeUsb_cases service generation false with ⟨same, -⟩ | ⟨impossible, -⟩ | ⟨-, reset⟩
  · rw [same]
    exact (UInt32.add_zero _).symm
  · cases impossible
  · rw [reset]
    rfl

theorem Step.epoch {state next : State} {event : Event} (step : Step state event next)
    (valid : Valid state.service.core) :
    next.service.resetEpoch = state.service.resetEpoch + UInt32.ofNat event.resets.toNat := by
  have still : state.service.resetEpoch = state.service.resetEpoch + UInt32.ofNat false.toNat :=
    (UInt32.add_zero _).symm
  cases step with
  | resetAll started => rfl
  | processed here flag => rfl
  | synced generation here => exact observeUsb_epoch state.service generation
  | reported epoch item here nowMs draws send =>
      have ends := transportReport_ends state.service epoch item.report
        (UInt32.ofNat item.generation) (state.feedReads nowMs draws send)
      have admitted := admitReport_admitted state.service epoch (UInt32.ofNat item.generation)
        (state.feedReads nowMs draws send)
      rcases ends with ⟨-, turn, reset, -⟩
      rw [Event.resets, State.transported, turn, reset]
      cases flag : (admitReport state.service epoch (UInt32.ofNat item.generation)
        (state.feedReads nowMs draws send)).2.2 with
      | true => exact (admitted.reset flag).2
      | false =>
          rcases admitted.calm flag with same | ⟨-, -, same⟩
          · rw [same]
            exact still
          · rw [same]
            exact still
  | took started task cap =>
      rcases hidTakeMsg_cases state.service task cap state.takeReads valid with
        ⟨result, same⟩ | ⟨-, reset⟩ | ⟨-, -, -, -, -, -, taken⟩
      · rw [same]
        exact still
      · rw [reset]
        rfl
      · rw [taken]
        exact still
  | _ => exact still

theorem Step.same_turn {state next : State} {event : Event} (step : Step state event next)
    (same : event.syncs = false) {epoch : UInt32} (now : next.place.epoch = some epoch) :
    state.place.epoch = some epoch := by
  cases step with
  | synced generation here => cases same
  | bus event => exact now
  | arrived call => exact now
  | request started => exact now
  | resetAll started => exact now
  | took started task cap => exact now
  | began turn here started => rw [here]; exact now
  | popped turn here item found => rw [here]; exact now
  | empty turn here nothing => rw [here]; exact now
  | woke turn here => rw [here]; exact now
  | checked turn item here good => rw [here]; exact now
  | _ => cases now

theorem Step.same_item {state next : State} {event : Event} (step : Step state event next)
    {item : Item} (now : next.place.item = some item) :
    state.place.item = some item ∨
      event = .popped item ∧ next.port.bus = state.port.bus ∧ (takePop state.port).2 = .held item := by
  cases step with
  | bus event => exact Or.inl now
  | arrived call => exact Or.inl now
  | request started => exact Or.inl now
  | resetAll started => exact Or.inl now
  | took started task cap => exact Or.inl now
  | popped turn here front found =>
      cases now
      exact Or.inr ⟨rfl, takePop_bus, found⟩
  | checked turn front here good =>
      rw [here]
      exact Or.inl now
  | _ => cases now

structure Turn (past : List Event) (state : State) (epoch : UInt32) (before : List Event)
    (swept : Bool) (during : List Event) : Prop where
  split : past = before ++ .synced swept :: during
  same : ∀ event ∈ during, event.syncs = false
  resets : state.service.resetEpoch = epoch + UInt32.ofNat (during.countP Event.resets)
  item : ∀ item, state.place.item = some item → ∃ front between,
    during = front ++ .popped item :: between ∧
      state.port.bus.generation = item.generation + between.countP Event.renews

theorem Turn.snoc {past before during : List Event} {state next : State} {event : Event}
    {epoch : UInt32} {swept : Bool} (turn : Turn past state epoch before swept during)
    (step : Step state event next) (valid : Valid state.service.core) (port : state.port.Valid)
    (same : event.syncs = false) :
    Turn (past ++ [event]) next epoch before swept (during ++ [event]) := by
  refine ⟨by simp [turn.split], ?_, ?_, ?_⟩
  · exact List.forall_mem_append.mpr ⟨turn.same, List.forall_mem_singleton.mpr same⟩
  · rw [step.epoch valid, turn.resets, List.countP_append, List.countP_singleton, UInt32.ofNat_add,
      UInt32.add_assoc]
    cases event.resets <;> rfl
  · intro item now
    rcases step.same_item now with held | ⟨popped, bus, found⟩
    · rcases turn.item item held with ⟨front, between, parts, generation⟩
      refine ⟨front, between ++ [event], by simp [parts], ?_⟩
      rw [step.generation, generation, List.countP_append, List.countP_singleton]
      cases event.renews <;> simp [Nat.add_assoc]
    · refine ⟨during, [], by rw [popped], ?_⟩
      rw [bus, (port.held found).1]
      rfl

theorem History.turn {past : List Event} {state : State} (run : History past state) {epoch : UInt32}
    (now : state.place.epoch = some epoch) :
    ∃ before swept during, Turn past state epoch before swept during := by
  refine Runs.Run.history run (fun past state => ∀ epoch, state.place.epoch = some epoch →
    ∃ before swept during, Turn past state epoch before swept during) ?_ ?_ epoch now
  · intro epoch impossible
    cases impossible
  · intro past state event next before turns step epoch now
    by_cases syncs : event.syncs = true
    · cases step with
      | synced generation here =>
          cases now
          refine ⟨past, _, [], rfl, by simp, ?_, ?_⟩
          · exact (UInt32.add_zero _).symm
          · intro item impossible
            cases impossible
      | _ => cases syncs
    · rw [Bool.not_eq_true] at syncs
      rcases turns epoch (step.same_turn syncs now) with ⟨front, swept, during, turn⟩
      exact ⟨front, swept, during ++ [event],
        turn.snoc step (History.linked before).valid (History.current before).port syncs⟩

theorem none_of_count {events : List Event} {p : Event → Bool} (zero : events.countP p = 0) :
    ∀ event ∈ events, p event = false := by
  intro event member
  rw [List.countP_eq_zero] at zero
  exact Bool.eq_false_iff.mpr (zero event member)

theorem History.fed_turn {front : List Event} {state next : State} {item : Item} {reset : Bool}
    {nowMs : UInt32} {action : Action} {sent : List Report} (run : History front state)
    (step : Step state (.reported item reset nowMs (.fed action sent)) next)
    (bound : state.port.bus.generation < 2 ^ 32) :
    ∃ before swept during between,
      front = before ++ .synced swept :: (during ++ .popped item :: between) ∧
      (∀ event ∈ during ++ between, event.syncs = false) ∧
      (∀ event ∈ between, event.renews = false) ∧
      ((during ++ between).countP Event.resets < 2 ^ 32 →
        ∀ event ∈ during ++ between, event.resets = false) := by
  rcases step.feeds with ⟨epoch, here, current, generation, -⟩
  rcases run.turn (show state.place.epoch = some epoch by rw [here]; rfl) with
    ⟨before, swept, whole, turn⟩
  rcases turn.item item (by rw [here]; rfl) with ⟨during, between, parts, counted⟩
  refine ⟨before, swept, during, between, by rw [turn.split, parts], ?_, ?_, ?_⟩
  · intro event member
    apply turn.same
    rw [parts]
    rcases List.mem_append.mp member with first | second
    · exact List.mem_append_left _ first
    · exact List.mem_append_right _ (List.mem_cons_of_mem _ second)
  · have past : item.generation ≤ state.port.bus.generation := by omega
    have same := generation_inj past bound generation
    exact none_of_count (by omega)
  · intro few
    have same : whole.countP Event.resets = (during ++ between).countP Event.resets := by
      rw [parts, List.countP_append, List.countP_cons_of_neg (by simp [Event.resets]),
        ← List.countP_append]
    have round := turn.resets
    rw [current, same, UInt32.left_eq_add] at round
    have values := congrArg UInt32.toNat round
    rw [UInt32.toNat_ofNat', Nat.mod_eq_of_lt few] at values
    exact none_of_count values

/-- Messages never mix USB connections. A report is fed only on the connection that it came in
on, with everything else that the core has been fed since its reset; so a message is put together
from reports of one connection. No connection ends and, within 2^32 resets, no other task resets
the core between the moment a report is dequeued and the moment it is fed. -/
theorem messages_stay_in_one_connection {past : List Event} {state : State} (run : History past state)
    (fewer : past.countP Event.onBus < 2 ^ 32) :
    (∀ item reset nowMs action sent next,
      Step state (.reported item reset nowMs (.fed action sent)) next →
      UInt32.ofNat item.generation = next.service.seenUsbGeneration ∧
      UInt32.ofNat item.generation = usbUnmountGeneration state.port.bus ∧
      ∀ other ∈ fedSince (past ++ [.reported item reset nowMs (.fed action sent)]),
        other.generation = item.generation) ∧
    (∀ task cap message next, Step state (.took task cap (.taken message)) next →
      Assembled (fedSince past) message ∧
      ∃ generation, ∀ item ∈ fedSince past, item.generation = generation ∧ Received past item) ∧
    (∀ front item reset nowMs action sent after,
      past = front ++ .reported item reset nowMs (.fed action sent) :: after →
      ∃ before swept during between,
        front = before ++ .synced swept :: (during ++ .popped item :: between) ∧
        (∀ event ∈ during ++ between, event.syncs = false) ∧
        (∀ event ∈ between, event.renews = false) ∧
        ((during ++ between).countP Event.resets < 2 ^ 32 →
          ∀ event ∈ during ++ between, event.resets = false)) := by
  refine ⟨?_, ?_, ?_⟩
  · intro item reset nowMs action sent next step
    rcases step.feeds with ⟨epoch, -, -, current, seen⟩
    refine ⟨seen, current, ?_⟩
    have after := History.current (Runs.Run.snoc run step)
    have bound : next.port.bus.generation < 2 ^ 32 := by
      rw [step.generation]
      exact run.bound fewer
    have fed : item ∈ fedSince (past ++ [.reported item reset nowMs (.fed action sent)]) := by
      rw [fedSince_snoc]
      exact List.mem_append_right _ (List.mem_singleton.mpr rfl)
    exact fun other member => after.one_connection bound member fed
  · intro task cap message next step
    refine ⟨step.takes run, ?_⟩
    have current := run.current
    cases items : fedSince past with
    | nil => exact ⟨0, fun _ impossible => by cases impossible⟩
    | cons first rest =>
        refine ⟨first.generation, ?_⟩
        intro item member
        rw [← items] at member
        refine ⟨current.one_connection (run.bound fewer) member
          (by rw [items]; exact List.mem_cons_self), ?_⟩
        exact run.received (Or.inr (Or.inr member))
  · intro front item reset nowMs action sent after split
    subst split
    rcases run.at_event with ⟨before, next, first, step, -⟩
    refine History.fed_turn first step (History.bound first ?_)
    rw [List.countP_append] at fewer
    omega

/-! Two ways to be dequeued before a reset and fed after it. -/

theorem observeUsb_resets (service : Service) (generation : UInt32) :
    (observeUsb service generation false).2 = decide (generation ≠ service.seenUsbGeneration) := by
  rw [observeUsb]
  split
  · rename_i changed
    exact (decide_eq_true changed).symm
  · rename_i same
    exact (decide_eq_false same).symm

/-- A report of the connection that is there is fed, unless a reset was noticed. -/
theorem transported_accepts (state : State) (epoch : UInt32) (item : Item)
    (turn : state.service.resetEpoch = epoch) (calm : state.resetRequested = false)
    (same : UInt32.ofNat item.generation = usbUnmountGeneration state.port.bus) (nowMs : UInt32)
    (draws : Draws) (send : SendReads) :
    ∃ action sent, (state.transported epoch item (state.feedReads nowMs draws send)).2 =
      (decide (UInt32.ofNat item.generation ≠ state.service.seenUsbGeneration), .fed action sent) := by
  have admitted : (admitReport state.service epoch (UInt32.ofNat item.generation)
      (state.feedReads nowMs draws send)).2 =
      (true, decide (UInt32.ofNat item.generation ≠ state.service.seenUsbGeneration)) := by
    rw [admitReport]
    simp only [State.feedReads, calm, turn, same, ne_eq, not_true_eq_false, decide_false,
      Bool.or_false, Bool.false_eq_true, if_false, Bool.not_false, Bool.false_or]
    rw [observeUsb_resets]
  rw [State.transported, transportReport_eq]
  simp only [admitted, if_true]
  exact ⟨_, _, rfl⟩

theorem feeds_run {past : List Event} {state : State} {epoch : UInt32} {item : Item}
    (run : History past state) (here : state.place = .feed epoch item)
    (turn : state.service.resetEpoch = epoch) (calm : state.resetRequested = false)
    (same : UInt32.ofNat item.generation = usbUnmountGeneration state.port.bus) :
    ∃ nowMs action sent last, History (past ++ [.reported item
      (decide (UInt32.ofNat item.generation ≠ state.service.seenUsbGeneration)) nowMs
      (.fed action sent)]) last := by
  rcases transported_accepts state epoch item turn calm same 0 drawOne liveSend with
    ⟨action, sent, result⟩
  have step := Step.reported state epoch item here 0 drawOne liveSend
  rw [result] at step
  exact ⟨0, action, sent, _, run.snoc step⟩

theorem resets_run (state : State) (open_ : state.place ≠ .starting) (n : Nat) :
    ∃ last, Runs.Run Step state (List.replicate n (.swept true)) last ∧ last.place = state.place ∧
      last.port.bus = state.port.bus ∧
      last.service.seenUsbGeneration = state.service.seenUsbGeneration ∧
      last.service.resetEpoch = state.service.resetEpoch + UInt32.ofNat n ∧
      (state.resetRequested = false → last.resetRequested = false) := by
  induction n with
  | zero => exact ⟨state, .nil, rfl, rfl, rfl, (UInt32.add_zero _).symm, id⟩
  | succ n ih =>
      rcases ih with ⟨last, run, place, bus, seen, epoch, -⟩
      refine ⟨last.swept, ?_, place, bus, seen, ?_, fun _ => rfl⟩
      · rw [List.replicate_succ']
        exact run.snoc (.resetAll last (by rw [place]; exact open_))
      · rw [UInt32.ofNat_add, ← UInt32.add_assoc, ← epoch]
        rfl

def firstItem : Item := ⟨load 64 (zeros 64) 0, 1⟩

def unseenFront : List Event :=
  [.quiet, .quiet, .quiet, .synced false, .bus .attached,
    .arrived Receive.pingCall (some firstItem), .quiet]

/-- The first report of a connection that the transport task has not seen yet. -/
theorem unseen_connection_run :
    ∃ state, History (unseenFront ++ .popped firstItem :: [.quiet]) state ∧
      state.place = .feed 0 firstItem ∧
      state.service.resetEpoch = 0 ∧ state.resetRequested = false ∧
      state.port.bus.generation = 1 ∧ state.service.seenUsbGeneration = 0 := by
  have opened := Runs.Run.nil.snoc (Step.opened started rfl)
  have looked := opened.snoc (Step.notRequested _ rfl rfl)
  have observed := looked.snoc (Step.observed _ rfl)
  have synced := observed.snoc (Step.synced _ 0 rfl)
  have attached := synced.snoc (Step.bus _ .attached)
  have arrived := attached.snoc (Step.arrived _ Receive.pingCall)
  have began := arrived.snoc (Step.began _ 0 rfl rfl)
  have popped := began.snoc (Step.popped _ 0 rfl firstItem rfl)
  have checked := popped.snoc (Step.checked _ 0 firstItem rfl rfl)
  exact ⟨_, checked, rfl, rfl, rfl, rfl, rfl⟩

def seenFront : List Event :=
  [.bus .attached, .quiet, .quiet, .quiet, .synced false,
    .arrived Receive.pingCall (some firstItem), .quiet]

/-- The first report of a connection that the transport task has seen. -/
theorem seen_connection_run :
    ∃ state, History (seenFront ++ .popped firstItem :: [.quiet]) state ∧
      state.place = .feed 0 firstItem ∧
      state.service.resetEpoch = 0 ∧ state.resetRequested = false ∧
      state.port.bus.generation = 1 ∧ state.service.seenUsbGeneration = 1 := by
  have attached := Runs.Run.nil.snoc (Step.bus started .attached)
  have opened := attached.snoc (Step.opened _ rfl)
  have looked := opened.snoc (Step.notRequested _ rfl rfl)
  have observed := looked.snoc (Step.observed _ rfl)
  have synced := observed.snoc (Step.synced _ 1 rfl)
  have arrived := synced.snoc (Step.arrived _ Receive.pingCall)
  have began := arrived.snoc (Step.began _ 0 rfl rfl)
  have popped := began.snoc (Step.popped _ 0 rfl firstItem rfl)
  have checked := popped.snoc (Step.checked _ 0 firstItem rfl rfl)
  exact ⟨_, checked, rfl, rfl, rfl, rfl, rfl⟩

theorem unnoticed_resets_run (n : Nat) (round : UInt32.ofNat n = 0) :
    ∃ nowMs action sent last, History (seenFront ++ .popped firstItem ::
      (.quiet :: List.replicate n (.swept true) ++ [.reported firstItem false nowMs (.fed action sent)]))
      last := by
  rcases seen_connection_run with ⟨state, run, here, epoch, calm, generation, seen⟩
  rcases resets_run state (by simp [here]) n with
    ⟨middle, resets, place, bus, kept, counted, still⟩
  have turn : middle.service.resetEpoch = 0 := by
    rw [counted, epoch, round]
    rfl
  have same : UInt32.ofNat firstItem.generation = usbUnmountGeneration middle.port.bus := by
    rw [bus, usbUnmountGeneration, generation]
    rfl
  rcases feeds_run (run.append resets) (place.trans here) turn (still calm) same with
    ⟨nowMs, action, sent, last, fed⟩
  have current : decide (UInt32.ofNat firstItem.generation ≠ middle.service.seenUsbGeneration) =
      false := by
    rw [kept, seen]
    rfl
  rw [current] at fed
  refine ⟨nowMs, action, sent, last, ?_⟩
  simpa only [List.append_assoc, List.cons_append, List.nil_append] using fed

theorem seen_bus_events (n : Nat) (event : Event) (quiet : event.onBus = false) :
    List.countP Event.onBus (seenFront ++ .popped firstItem ::
      (.quiet :: List.replicate n (.swept true) ++ [event])) = 1 := by
  have swept : List.countP Event.onBus (List.replicate n (.swept true)) = 0 := by
    rw [List.countP_replicate]
    rfl
  rw [List.countP_append, List.countP_cons, List.countP_append, List.countP_cons, swept,
    List.countP_singleton, quiet]
  rfl

theorem late_after_resets (n : Nat) (round : UInt32.ofNat n = 0) (some_ : n ≠ 0) :
    ∃ front between nowMs action sent last,
      History (front ++ .popped firstItem ::
        (between ++ [.reported firstItem false nowMs (.fed action sent)])) last ∧
      (front ++ .popped firstItem ::
        (between ++ [.reported firstItem false nowMs (.fed action sent)])).countP Event.onBus = 1 ∧
      ∃ event ∈ between, event.resets = true := by
  rcases unnoticed_resets_run n round with ⟨nowMs, action, sent, last, fed⟩
  refine ⟨seenFront, .quiet :: List.replicate n (.swept true), nowMs, action, sent, last, fed,
    seen_bus_events n _ rfl, .swept true, ?_, rfl⟩
  exact List.mem_cons_of_mem _ (List.mem_replicate.mpr ⟨some_, rfl⟩)

/-- A report can be dequeued before a reset and be fed into the core that follows it: when its own
region resets the core, because it is the first of a new connection, and when 2^32 other resets
have come in between. -/
theorem late_reports_are_fed :
    (∃ front between nowMs action sent last,
      History (front ++ .popped firstItem ::
        (between ++ [.reported firstItem true nowMs (.fed action sent)])) last ∧
      (front ++ .popped firstItem ::
        (between ++ [.reported firstItem true nowMs (.fed action sent)])).countP Event.onBus = 1) ∧
    (∃ front between nowMs action sent last,
      History (front ++ .popped firstItem ::
        (between ++ [.reported firstItem false nowMs (.fed action sent)])) last ∧
      (front ++ .popped firstItem ::
        (between ++ [.reported firstItem false nowMs (.fed action sent)])).countP Event.onBus = 1 ∧
      ∃ event ∈ between, event.resets = true) := by
  refine ⟨?_, late_after_resets (2 ^ 32) (by decide) (by decide)⟩
  rcases unseen_connection_run with ⟨state, run, here, epoch, calm, generation, seen⟩
  have same : UInt32.ofNat firstItem.generation = usbUnmountGeneration state.port.bus := by
    rw [usbUnmountGeneration, generation]
    rfl
  rcases feeds_run run here epoch calm same with ⟨nowMs, action, sent, last, fed⟩
  rw [seen] at fed
  refine ⟨unseenFront, [.quiet], nowMs, action, sent, last, ?_, rfl⟩
  rw [List.append_assoc] at fed
  exact fed

/-- The first report of a connection is fed on that connection. -/
theorem first_report_is_current :
    ∃ past state nowMs action sent next, History past state ∧ past.countP Event.onBus = 1 ∧
      Step state (.reported firstItem false nowMs (.fed action sent)) next ∧
      UInt32.ofNat firstItem.generation = next.service.seenUsbGeneration ∧
      UInt32.ofNat firstItem.generation = usbUnmountGeneration state.port.bus ∧
      ∀ other ∈ fedSince (past ++ [.reported firstItem false nowMs (.fed action sent)]),
        other.generation = firstItem.generation := by
  rcases seen_connection_run with ⟨state, run, here, epoch, calm, generation, seen⟩
  have same : UInt32.ofNat firstItem.generation = usbUnmountGeneration state.port.bus := by
    rw [usbUnmountGeneration, generation]
    rfl
  have current : decide (UInt32.ofNat firstItem.generation ≠ state.service.seenUsbGeneration) =
      false := by
    rw [seen]
    rfl
  rcases transported_accepts state 0 firstItem epoch calm same 0 drawOne liveSend with
    ⟨action, sent, result⟩
  rw [current] at result
  have step := Step.reported state 0 firstItem here 0 drawOne liveSend
  rw [result] at step
  exact ⟨_, state, 0, action, sent, _, run, rfl, step,
    (messages_stay_in_one_connection run (by decide)).1 firstItem false 0 action sent _ step⟩

end P4Key.Hid.Intake
