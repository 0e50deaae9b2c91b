import P4Key.Hid.Intake
import P4Key.Hid.Upkeep

/-! What the core is fed, and on which connection.

A report that the transport task feeds belongs to the connection that the bus has at that moment,
and so does everything that the core has been fed since its last reset. -/

namespace P4Key.Hid.Intake

open Memory P4Key.Ctaphid P4Key.Usb

structure Admitted (service : Service) (epoch generation : UInt32) (reads : FeedReads)
    (result : Service × Bool × Bool) : Prop where
  accepted : result.2.1 = true → service.resetEpoch = epoch ∧ reads.resetRequested = false ∧
    reads.currentUsbGeneration = generation ∧ result.1.seenUsbGeneration = generation
  calm : result.2.2 = false → result.1 = service ∨
    service.resetEpoch ≠ epoch ∧ result.2.1 = false ∧
      result.1 = { service with seenUsbGeneration := reads.currentUsbGeneration }
  reset : result.2.2 = true → result.1.core = coreInit ∧
    result.1.resetEpoch = service.resetEpoch + 1

theorem admitReport_admitted (service : Service) (epoch generation : UInt32) (reads : FeedReads) :
    Admitted service epoch generation reads (admitReport service epoch generation reads) := by
  rcases admitReport_observes service epoch generation reads with ⟨accepted, result, admits⟩
  rw [result]
  refine ⟨?_, ?_, ?_⟩
  · intro admitted
    rcases admits admitted with ⟨current, epoch, requested⟩
    exact ⟨epoch, requested, current, by rw [observeUsb_seen]; exact current⟩
  · intro calm
    simp only [Bool.or_eq_false_iff] at calm
    simp only [calm.1, Bool.or_false, Bool.false_eq_true, if_false] at calm ⊢
    rcases observeUsb_cases service reads.currentUsbGeneration (decide (service.resetEpoch ≠ epoch))
      with ⟨same, -⟩ | ⟨raced, moved⟩ | ⟨-, reset⟩
    · rw [same]
      exact Or.inl rfl
    · rw [moved]
      refine Or.inr ⟨of_decide_eq_true raced, ?_, rfl⟩
      rw [Bool.eq_false_iff]
      intro admitted
      exact of_decide_eq_true raced (admits admitted).2.1
    · rw [reset] at calm
      cases calm.2
  · intro reset
    cases requested : reads.resetRequested with
    | true =>
        simp only [Bool.or_true, if_true]
        rcases observeUsb_cases (resetCore service) reads.currentUsbGeneration true with
          ⟨same, -⟩ | ⟨-, moved⟩ | ⟨impossible, -⟩
        · rw [same]
          exact ⟨rfl, rfl⟩
        · rw [moved]
          exact ⟨rfl, rfl⟩
        · cases impossible
    | false =>
        simp only [requested, Bool.or_false, Bool.false_or, Bool.false_eq_true, if_false] at reset ⊢
        rcases observeUsb_cases service reads.currentUsbGeneration
          (decide (service.resetEpoch ≠ epoch)) with ⟨same, -⟩ | ⟨-, moved⟩ | ⟨-, fresh⟩
        · rw [same] at reset
          cases reset
        · rw [moved] at reset
          cases reset
        · rw [fresh]
          exact ⟨rfl, rfl⟩

theorem handleReport_epoch (service : Service) (report : Report) (usbGeneration : UInt32)
    (reads : FeedReads) :
    (handleReport service report usbGeneration reads).1.resetEpoch = service.resetEpoch := by
  have stale := clearStaleClaim_cases
    { service with core := (coreFeed service.core report reads.nowMs reads.draws).1 } reads.claim
  rw [handleReport]
  simp only
  split
  · split
    · exact stale.2.2.2.1
    · exact stale.2.2.2.1
  · split
    · exact stale.2.2.2.1
    · exact stale.2.2.2.1

/-! The reports since the last reset. -/

def Event.resets : Event → Bool
  | .swept reset => reset
  | .synced reset => reset
  | .reported _ reset _ _ => reset
  | .took _ _ .reset => true
  | _ => false

def Event.fed : Event → List Item
  | .reported item _ _ (.fed _ _) => [item]
  | _ => []

def feeding (items : List Item) (event : Event) : List Item :=
  (if event.resets then [] else items) ++ event.fed

def fedSince (past : List Event) : List Item := past.foldl feeding []

theorem fedSince_snoc (past : List Event) (event : Event) :
    fedSince (past ++ [event]) = feeding (fedSince past) event := by
  simp [fedSince]

theorem feeding_quiet (items : List Item) {event : Event} (kept : event.resets = false)
    (nothing : event.fed = []) : feeding items event = items := by
  rw [feeding, kept, nothing]
  exact List.append_nil _

def Place.epoch : Place → Option UInt32
  | .receive epoch => some epoch
  | .polling epoch => some epoch
  | .holding epoch _ => some epoch
  | .waiting epoch => some epoch
  | .feed epoch _ => some epoch
  | _ => none

def Place.item : Place → Option Item
  | .holding _ item => some item
  | .feed _ item => some item
  | _ => none

structure Current (items : List Item) (state : State) : Prop where
  port : state.port.Valid
  held : ∀ item, state.place.item = some item → item.generation ≤ state.port.bus.generation
  fed : ∀ item ∈ items, UInt32.ofNat item.generation = state.service.seenUsbGeneration ∧
    item.generation ≤ state.port.bus.generation
  /-- A reset of this turn that the transport task has not noticed left nothing behind. -/
  raced : ∀ epoch, state.place.epoch = some epoch → state.service.resetEpoch ≠ epoch → items = []
  starting : state.place = .starting → items = []

theorem transportReport_ends (service : Service) (epoch : UInt32) (report : Report)
    (generation : UInt32) (reads : FeedReads) :
    let admitted := admitReport service epoch generation reads
    let result := transportReport service epoch report generation reads
    result.1.seenUsbGeneration = admitted.1.seenUsbGeneration ∧
      result.1.resetEpoch = admitted.1.resetEpoch ∧ result.2.1 = admitted.2.2 ∧
      (admitted.2.1 = true ∧ (∃ action sent, result.2.2 = .fed action sent) ∨
        admitted.2.1 = false ∧ result.2.2 = .discarded) := by
  intro admitted result
  have whole : result = if admitted.2.1 then
      ((handleReport admitted.1 report generation reads).1, admitted.2.2,
        .fed (handleReport admitted.1 report generation reads).2.1
          (handleReport admitted.1 report generation reads).2.2)
    else (admitted.1, admitted.2.2, .discarded) := transportReport_eq _ _ _ _ _
  rw [whole]
  cases accepted : admitted.2.1 with
  | true =>
      exact ⟨(handleReport_stamps report generation reads).1, handleReport_epoch _ _ _ _, rfl,
        Or.inl ⟨rfl, _, _, rfl⟩⟩
  | false => exact ⟨rfl, rfl, rfl, Or.inr ⟨rfl, rfl⟩⟩

section Steps

variable {items : List Item} {state : State}

theorem Current.port_bus (current : Current items state) {port : Port} (valid : port.Valid)
    (later : state.port.bus.generation ≤ port.bus.generation) :
    Current items { state with port := port } := by
  refine ⟨valid, ?_, ?_, current.raced, current.starting⟩
  · intro item held
    exact Nat.le_trans (current.held item held) later
  · intro item member
    exact ⟨(current.fed item member).1, Nat.le_trans (current.fed item member).2 later⟩

theorem Current.move (current : Current items state) {place : Place} {port : Port}
    (valid : port.Valid) (bus : port.bus = state.port.bus)
    (held : ∀ item, place.item = some item → item.generation ≤ state.port.bus.generation)
    (epoch : ∀ epoch, place.epoch = some epoch → state.place.epoch = some epoch)
    (started : place ≠ .starting) :
    Current items { state with port := port, place := place } := by
  refine ⟨valid, ?_, ?_, ?_, fun impossible => absurd impossible started⟩
  · intro item now
    simp only [bus]
    exact held item now
  · simp only [bus]
    exact current.fed
  · intro turn now other
    exact current.raced turn (epoch turn now) other

theorem Current.fresh {next : State} (valid : next.port.Valid)
    (held : ∀ item, next.place.item = some item → item.generation ≤ next.port.bus.generation) :
    Current [] next := by
  refine ⟨valid, held, ?_, fun _ _ _ => rfl, fun _ => rfl⟩
  intro item impossible
  cases impossible

theorem Current.synced (current : Current items state) (generation : UInt32) :
    Current (feeding items (.synced (syncUsbBeforeTake state.service generation).2))
      { state with
        service := (syncUsbBeforeTake state.service generation).1
        place := .receive (syncUsbBeforeTake state.service generation).1.resetEpoch } := by
  rw [syncUsbBeforeTake]
  rcases observeUsb_cases state.service generation false with
    ⟨same, -⟩ | ⟨impossible, -⟩ | ⟨-, reset⟩
  · rw [same, feeding_quiet items rfl rfl]
    refine ⟨current.port, ?_, current.fed, ?_, fun impossible => by cases impossible⟩
    · intro item impossible
      cases impossible
    · intro epoch now other
      cases now
      exact absurd rfl other
  · cases impossible
  · rw [reset]
    refine .fresh current.port ?_
    intro item impossible
    cases impossible

theorem Current.reported (current : Current items state) (epoch : UInt32) (item : Item)
    (here : state.place = .feed epoch item) (nowMs : UInt32) (draws : Draws) (send : SendReads) :
    Current
      (feeding items (.reported item
        (state.transported epoch item (state.feedReads nowMs draws send)).2.1 nowMs
        (state.transported epoch item (state.feedReads nowMs draws send)).2.2))
      { service := (state.transported epoch item (state.feedReads nowMs draws send)).1
        port := if state.resetRequested then usbDropPending state.port else state.port
        resetRequested := false
        place := .top } := by
  have ends := transportReport_ends state.service epoch item.report (UInt32.ofNat item.generation)
    (state.feedReads nowMs draws send)
  have admitted := admitReport_admitted state.service epoch (UInt32.ofNat item.generation)
    (state.feedReads nowMs draws send)
  rw [State.transported]
  generalize transportReport state.service epoch item.report (UInt32.ofNat item.generation)
    (state.feedReads nowMs draws send) = result at ends ⊢
  generalize admitReport state.service epoch (UInt32.ofNat item.generation)
    (state.feedReads nowMs draws send) = decided at ends admitted
  rcases ends with ⟨seen, -, reset, outcome⟩
  have port : (if state.resetRequested then usbDropPending state.port else state.port).Valid ∧
      (if state.resetRequested then usbDropPending state.port else state.port).bus = state.port.bus := by
    split
    · exact ⟨.drop _, rfl⟩
    · exact ⟨current.port, rfl⟩
  have past : item.generation ≤ state.port.bus.generation := current.held item (by rw [here]; rfl)
  refine ⟨port.1, fun _ impossible => (by cases impossible), ?_,
    fun _ impossible => (by cases impossible), fun impossible => by cases impossible⟩
  intro other member
  simp only [port.2, seen]
  rcases List.mem_append.mp member with earlier | now
  · -- the core was not reset here
    cases kept : decided.2.2 with
    | true =>
        rw [Event.resets, reset, kept] at earlier
        cases earlier
    | false =>
        rw [Event.resets, reset, kept] at earlier
        rcases admitted.calm kept with same | ⟨raced, -, -⟩
        · rw [same]
          exact current.fed other earlier
        · rw [current.raced epoch (by rw [here]; rfl) raced] at earlier
          cases earlier
  · rcases outcome with ⟨accepted, action, sent, fed⟩ | ⟨-, discarded⟩
    · rw [fed] at now
      rw [List.mem_singleton.mp now]
      exact ⟨(admitted.accepted accepted).2.2.2.symm, past⟩
    · rw [discarded] at now
      cases now

theorem Current.took (current : Current items state) (task : Task) (cap : Nat)
    (valid : Valid state.service.core) :
    Current (feeding items (.took task cap (hidTakeMsg state.service task cap state.takeReads).2))
      { state with service := (hidTakeMsg state.service task cap state.takeReads).1 } := by
  rcases hidTakeMsg_cases state.service task cap state.takeReads valid with
    ⟨result, same⟩ | ⟨-, reset⟩ | ⟨-, -, -, -, -, -, taken⟩
  · rw [same, feeding_quiet items rfl rfl]
    exact current
  · rw [reset]
    exact .fresh current.port current.held
  · rw [taken, feeding_quiet items rfl rfl]
    exact ⟨current.port, current.held, current.fed, current.raced, current.starting⟩

end Steps

/-- Nothing is claimed before `hid_start` has ended. -/
theorem Step.linked {state next : State} {event : Event} (step : Step state event next)
    (linked : Linked state.service) : Linked next.service := by
  by_cases open_ : state.place = .starting
  · cases step with
    | bus event => exact linked
    | arrived call => exact linked
    | opened here => exact ⟨linked.valid, linked.claim⟩
    | request started => exact linked
    | resetAll started => exact resetCore_linked _
    | took started task cap => exact absurd open_ started
    | gaveUp here =>
        rw [open_] at here
        cases here
    | _ => simp_all
  · exact (step.view open_).linked linked

theorem Step.current {state next : State} {event : Event} {items : List Item}
    (step : Step state event next) (linked : Linked state.service) (current : Current items state) :
    Current (feeding items event) next := by
  have port := current.port
  have nothing : ∀ item : Item, none = some item → item.generation ≤ state.port.bus.generation :=
    fun _ impossible => by cases impossible
  cases step with
  | bus event =>
      rw [feeding_quiet items rfl rfl]
      refine current.port_bus (port.event event) ?_
      rw [Port.event_bus]
      exact usbEvent_generation _ event
  | arrived call =>
      rw [feeding_quiet items rfl rfl]
      refine current.port_bus (port.report call) ?_
      rw [tudHidSetReportCb_bus]
  | opened here =>
      rw [feeding_quiet items rfl rfl, current.starting here]
      exact .fresh port nothing
  | request started =>
      rw [feeding_quiet items rfl rfl]
      exact ⟨port, current.held, current.fed, current.raced, current.starting⟩
  | resetAll started => exact .fresh (.drop _) current.held
  | notRequested here flag =>
      rw [feeding_quiet items rfl rfl]
      exact current.move port rfl nothing (fun _ impossible => by cases impossible) (by simp)
  | isRequested here flag =>
      rw [feeding_quiet items rfl rfl]
      exact current.move port rfl nothing (fun _ impossible => by cases impossible) (by simp)
  | processed here flag => exact .fresh (.drop _) nothing
  | overtaken here flag =>
      rw [feeding_quiet items rfl rfl]
      exact current.move port rfl nothing (fun _ impossible => by cases impossible) (by simp)
  | observed here =>
      rw [feeding_quiet items rfl rfl]
      exact current.move port rfl nothing (fun _ impossible => by cases impossible) (by simp)
  | synced generation here => exact current.synced generation
  | began epoch here started =>
      rw [feeding_quiet items rfl rfl]
      exact current.move (port.start false) (takeStart_port false).1 nothing
        (fun _ same => by rw [here]; exact same) (by simp)
  | stopped epoch here stopped =>
      rw [feeding_quiet items rfl rfl]
      exact current.move (port.start false) (takeStart_port false).1 nothing
        (fun _ impossible => by cases impossible) (by simp)
  | popped epoch here item found =>
      rw [feeding_quiet items rfl rfl]
      refine current.move port.pop takePop_bus ?_ (fun _ same => by rw [here]; exact same) (by simp)
      intro other same
      cases same
      exact Nat.le_of_eq (port.held found).1
  | popFailed epoch here result failed =>
      rw [feeding_quiet items rfl rfl]
      exact current.move port.pop takePop_bus nothing (fun _ impossible => by cases impossible) (by simp)
  | empty epoch here found =>
      rw [feeding_quiet items rfl rfl]
      exact current.move port.pop takePop_bus nothing (fun _ same => by rw [here]; exact same) (by simp)
  | woke epoch here =>
      rw [feeding_quiet items rfl rfl]
      exact current.move port rfl nothing (fun _ same => by rw [here]; exact same) (by simp)
  | timedOut epoch here =>
      rw [feeding_quiet items rfl rfl]
      exact current.move port rfl nothing (fun _ impossible => by cases impossible) (by simp)
  | checked epoch item here good =>
      have past := current.held item (by rw [here]; rfl)
      rw [feeding_quiet items rfl rfl]
      refine current.move (port.check false past) (takeCheck_port item false).1 ?_
        (fun _ same => by rw [here]; exact same) (by simp)
      intro other same
      cases same
      exact past
  | stale epoch item here bad =>
      have past := current.held item (by rw [here]; rfl)
      rw [feeding_quiet items rfl rfl]
      exact current.move (port.check false past) (takeCheck_port item false).1 nothing
        (fun _ impossible => by cases impossible) (by simp)
  | cleaned here nowMs =>
      rw [feeding_quiet items rfl rfl]
      exact ⟨port, nothing, current.fed, fun _ impossible => (by cases impossible),
        fun impossible => by cases impossible⟩
  | reported epoch item here nowMs draws send => exact current.reported epoch item here nowMs draws send
  | gaveUp here =>
      rw [feeding_quiet items rfl rfl]
      exact current.move port rfl nothing (fun _ impossible => by cases impossible) (by simp)
  | took started task cap => exact current.took task cap linked.valid

end P4Key.Hid.Intake
