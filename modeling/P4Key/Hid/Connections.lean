import P4Key.Hid.Admission
import P4Key.Usb.Receive

/-! Messages never mix USB connections. -/

namespace P4Key.Hid.Intake

open Memory P4Key.Ctaphid P4Key.Usb
open P4Key.Usb.Receive (generation_inj)

theorem History.linked {past : List Event} {state : State} (run : History past state) :
    Linked state.service := by
  refine Runs.Run.invariant run (fun state => Linked state.service) ?_
    fun _ _ _ linked step => step.linked linked
  exact ⟨coreInit_valid, fun _ impossible => by cases impossible⟩

theorem History.current {past : List Event} {state : State} (run : History past state) :
    Current (fedSince past) state := by
  refine Runs.Run.history run (fun past state => Current (fedSince past) state) ?_ ?_
  · exact .fresh (.of_empty rfl rfl) (fun _ impossible => by cases impossible)
  · intro past state event next before current step
    rw [fedSince_snoc]
    exact step.current (History.linked before) current

/-! The generations of the bus. -/

def Event.onBus : Event → Bool
  | .bus _ => true
  | _ => false

def Event.renews : Event → Bool
  | .bus event => event.renews
  | _ => false

theorem Step.generation {state next : State} {event : Event} (step : Step state event next) :
    next.port.bus.generation = state.port.bus.generation + event.renews.toNat := by
  cases step with
  | bus event =>
      simp only [Port.event_bus]
      exact usbEvent_renews _ event
  | arrived call => simp only [tudHidSetReportCb_bus]; rfl
  | began epoch here started => simp only [(takeStart_port false).1]; rfl
  | stopped epoch here stopped => simp only [(takeStart_port false).1]; rfl
  | popped epoch here item found => simp only [takePop_bus]; rfl
  | popFailed epoch here result failed => simp only [takePop_bus]; rfl
  | empty epoch here nothing => simp only [takePop_bus]; rfl
  | checked epoch item here good => simp only [(takeCheck_port item false).1]; rfl
  | stale epoch item here bad => simp only [(takeCheck_port item false).1]; rfl
  | reported epoch item here nowMs draws send =>
      simp only
      split <;> rfl
  | _ => rfl

theorem generation_run {start state : State} {past : List Event}
    (run : Runs.Run Step start past state) :
    state.port.bus.generation = start.port.bus.generation + past.countP Event.renews :=
  run.counted (fun state => state.port.bus.generation) _ fun _ _ _ step => step.generation

theorem Event.renews_onBus (event : Event) (renews : event.renews = true) : event.onBus = true := by
  cases event <;> first | rfl | cases renews

theorem History.bound {past : List Event} {state : State} (run : History past state)
    (fewer : past.countP Event.onBus < 2 ^ 32) : state.port.bus.generation < 2 ^ 32 :=
  run.counted_lt (fun state => state.port.bus.generation) _ (fun _ _ _ step => step.generation) rfl
    Event.renews_onBus fewer

/-- What the core has been fed since it was reset came in on one connection. -/
theorem Current.one_connection {items : List Item} {state : State} (current : Current items state)
    (bound : state.port.bus.generation < 2 ^ 32) {first second : Item} (one : first ∈ items)
    (other : second ∈ items) : first.generation = second.generation := by
  rcases current.fed first one with ⟨same, past⟩
  rcases current.fed second other with ⟨same', past'⟩
  have both := same.trans same'.symm
  rcases Nat.le_total first.generation second.generation with less | more
  · exact generation_inj less (Nat.lt_of_le_of_lt past' bound) both
  · exact (generation_inj more (Nat.lt_of_le_of_lt past bound) both.symm).symm

theorem Step.feeds {state next : State} {item : Item} {reset : Bool} {nowMs : UInt32}
    {action : Action} {sent : List Report}
    (step : Step state (.reported item reset nowMs (.fed action sent)) next) :
    ∃ epoch, state.place = .feed epoch item ∧ state.service.resetEpoch = epoch ∧
      UInt32.ofNat item.generation = usbUnmountGeneration state.port.bus ∧
      UInt32.ofNat item.generation = next.service.seenUsbGeneration := by
  generalize whole : Event.reported item reset nowMs (.fed action sent) = event at step
  cases step with
  | reported epoch item' here nowMs' draws send =>
      injection whole with same _ _ outcome
      subst same
      have ends := transportReport_ends state.service epoch item.report
        (UInt32.ofNat item.generation) (state.feedReads nowMs' draws send)
      have admitted := admitReport_admitted state.service epoch (UInt32.ofNat item.generation)
        (state.feedReads nowMs' draws send)
      rcases ends with ⟨seen, -, -, ⟨accepted, -⟩ | ⟨-, discarded⟩⟩
      · rcases admitted.accepted accepted with ⟨turn, -, current, stamp⟩
        exact ⟨epoch, here, turn, current.symm, (seen.trans stamp).symm⟩
      · rw [State.transported, discarded] at outcome
        cases outcome
  | _ => cases whole

/-! The calls of the core. -/

def Event.calls : Event → List Ctaphid.Event
  | .cleaned nowMs => [.cleaned nowMs]
  | .reported item _ nowMs (.fed action _) =>
    .fed item.report nowMs action ::
      if action.kind = .send ∧ action.data.length ≤ maxPayload ∧ action.generation ≠ 0 then
        [.finished action.cid action.generation]
      else []
  | .took _ cap (.taken message) => [.took cap (.ok message)]
  | _ => []

def Event.core (event : Event) : List Ctaphid.Event :=
  (if event.resets then [.reset] else []) ++ event.calls

theorem core_reset {event : Event} (reset : event.resets = true) (nothing : event.calls = [])
    (core : Core) : Runs.Run CoreStep core event.core coreInit := by
  rw [Event.core, reset, nothing]
  exact Runs.Run.nil.snoc (CoreStep.reset core)

theorem handleReport_run (service : Service) (item : Item) (generation : UInt32) (reads : FeedReads)
    (reset : Bool) (sent : List Report) :
    Runs.Run CoreStep service.core
      (Event.reported item reset reads.nowMs
        (.fed (handleReport service item.report generation reads).2.1 sent)).calls
      (handleReport service item.report generation reads).1.core := by
  have action := handleReport_action service item.report generation reads
  rw [handleReport_core service item.report generation reads _ action]
  have fed := Runs.Run.nil.snoc (CoreStep.feed service.core item.report reads.nowMs reads.draws)
  rw [← action] at fed
  simp only [Event.calls]
  split
  · exact fed.snoc (.finish _ _ _)
  · exact fed

theorem hidTakeMsg_taken {service : Service} {task : Task} {cap : Nat} {reads : TakeReads}
    {message : Message} (took : (hidTakeMsg service task cap reads).2 = .taken message) :
    coreTakeMessage service.core cap = (.ok message, (hidTakeMsg service task cap reads).1.core) := by
  rw [hidTakeMsg] at took ⊢
  split at took
  · cases took
  rename_i calm
  rw [if_neg calm]
  split at took
  · cases took
  rename_i free
  rw [if_neg free]
  split at took
  · cases took
  rename_i here
  rw [if_neg here]
  split at took
  · cases took
  rename_i fresh
  rw [if_neg fresh]
  split at took
  · rename_i message' core found
    cases took
    exact found
  · cases took
  · cases took

theorem Step.core {state next : State} {event : Event} (step : Step state event next)
    (linked : Linked state.service) :
    Runs.Run CoreStep state.service.core event.core next.service.core := by
  cases step with
  | resetAll started => exact core_reset rfl rfl _
  | processed here flag => exact core_reset rfl rfl _
  | synced generation here =>
      rw [syncUsbBeforeTake]
      rcases observeUsb_cases state.service generation false with
        ⟨same, -⟩ | ⟨impossible, -⟩ | ⟨-, reset⟩
      · rw [same]
        exact .nil
      · cases impossible
      · rw [reset]
        exact core_reset rfl rfl _
  | cleaned here nowMs => exact Runs.Run.nil.snoc (CoreStep.cleanup _ nowMs)
  | reported epoch item here nowMs draws send =>
      have admitted := admitReport_admitted state.service epoch (UInt32.ofNat item.generation)
        (state.feedReads nowMs draws send)
      rw [State.transported, transportReport_eq]
      simp only
      generalize admitReport state.service epoch (UInt32.ofNat item.generation)
        (state.feedReads nowMs draws send) = decided at admitted
      have first : Runs.Run CoreStep state.service.core (if decided.2.2 then [.reset] else [])
          decided.1.core := by
        cases reset : decided.2.2 with
        | true =>
            rw [(admitted.reset reset).1]
            exact Runs.Run.nil.snoc (CoreStep.reset _)
        | false =>
            rcases admitted.calm reset with same | ⟨-, -, same⟩
            · rw [same]
              exact .nil
            · rw [same]
              exact .nil
      cases decided.2.1 with
      | true =>
          simp only [if_true]
          exact first.append (handleReport_run decided.1 item _ (state.feedReads nowMs draws send) _ _)
      | false =>
          simp only [Bool.false_eq_true, if_false]
          rw [Event.core]
          exact first.append .nil
  | took started task cap =>
      rcases hidTakeMsg_cases state.service task cap state.takeReads linked.valid with
        ⟨result, same⟩ | ⟨-, reset⟩ | ⟨-, -, -, -, -, -, taken⟩
      · rw [same]
        exact .nil
      · rw [reset]
        exact core_reset rfl rfl _
      · have out : (hidTakeMsg state.service task cap state.takeReads).2 =
            .taken (handOffMessage state.service.core) := by rw [taken]
        have fromCore := hidTakeMsg_taken out
        have one := Runs.Run.nil.snoc (CoreStep.take state.service.core cap)
        rw [fromCore] at one
        rw [out]
        exact one
  | _ => exact .nil

theorem History.core {past : List Event} {state : State} (run : History past state) :
    CoreRun (past.flatMap Event.core) state.service.core := by
  refine Runs.Run.history run
    (fun past state => CoreRun (past.flatMap Event.core) state.service.core) .nil ?_
  intro past state event next before core step
  rw [List.flatMap_append, List.flatMap_singleton]
  exact Runs.Run.append core (step.core (History.linked before))

/-! The reports that a message is made of. -/

def keeping (reports : List Report) : Ctaphid.Event → List Report
  | .fed report _ _ => reports ++ [report]
  | .reset => []
  | _ => reports

/-- The reports that the core was fed since its last reset, as its calls tell it. -/
def sinceReset (calls : List Ctaphid.Event) : List Report := calls.foldl keeping []

theorem sinceReset_snoc (calls : List Ctaphid.Event) (call : Ctaphid.Event) :
    sinceReset (calls ++ [call]) = keeping (sinceReset calls) call := by
  simp [sinceReset]

theorem sinceReset_kept (calls later : List Ctaphid.Event) (kept : ∀ call ∈ later, call ≠ .reset)
    {report : Report} (member : report ∈ sinceReset calls) : report ∈ sinceReset (calls ++ later) := by
  induction later using List.reverseRecOn with
  | nil =>
      rw [List.append_nil]
      exact member
  | append_singleton later call ih =>
      have before := ih fun other inside => kept other (List.mem_append_left _ inside)
      have last := kept call (List.mem_append_right _ (List.mem_singleton.mpr rfl))
      rw [← List.append_assoc, sinceReset_snoc]
      cases call with
      | fed report' nowMs action => exact List.mem_append_left _ before
      | reset => exact absurd rfl last
      | cleaned nowMs => exact before
      | took cap result => exact before
      | finished cid generation => exact before
      | uncancelled cid generation => exact before

theorem addressed_sinceReset (cid : UInt32) (calls : List Ctaphid.Event) :
    ∀ part ∈ addressed cid calls, part.1.cid = cid ∧ part.1 ∈ sinceReset calls := by
  induction calls using List.reverseRecOn with
  | nil =>
      intro part impossible
      cases impossible
  | append_singleton calls call ih =>
      intro part member
      rw [addressed_snoc] at member
      rw [sinceReset_snoc]
      cases call with
      | fed report nowMs action =>
          rw [record] at member
          split at member
          · rename_i sender
            rcases List.mem_append.mp member with earlier | last
            · exact ⟨(ih part earlier).1, List.mem_append_left _ (ih part earlier).2⟩
            · rw [List.mem_singleton.mp last]
              exact ⟨sender, List.mem_append_right _ (List.mem_singleton.mpr rfl)⟩
          · exact ⟨(ih part member).1, List.mem_append_left _ (ih part member).2⟩
      | reset => cases member
      | cleaned nowMs => exact ih part member
      | took cap result => exact ih part member
      | finished cid generation => exact ih part member
      | uncancelled cid generation => exact ih part member

theorem keeping_event (items : List Item) (event : Event) :
    event.core.foldl keeping (items.map Item.report) = (feeding items event).map Item.report := by
  have calls : ∀ reports : List Report,
      event.calls.foldl keeping reports = reports ++ event.fed.map Item.report := by
    intro reports
    cases event with
    | reported item reset nowMs outcome =>
        cases outcome with
        | discarded => simp [Event.calls, Event.fed]
        | fed action sent =>
            simp only [Event.calls, Event.fed]
            split <;> rfl
    | took task cap outcome => cases outcome <;> simp [Event.calls, Event.fed, keeping]
    | _ => simp [Event.calls, Event.fed, keeping]
  rw [Event.core, feeding, List.foldl_append, calls, List.map_append]
  cases event.resets <;> rfl

theorem sinceReset_core (past : List Event) :
    sinceReset (past.flatMap Event.core) = (fedSince past).map Item.report := by
  induction past using List.reverseRecOn with
  | nil => rfl
  | append_singleton past event ih =>
      rw [List.flatMap_append, List.flatMap_singleton, sinceReset, List.foldl_append, ← sinceReset, ih,
        keeping_event, fedSince_snoc]

/-- The message was put together from some of these reports, which its channel has sent. -/
def Assembled (items : List Item) (message : Message) : Prop :=
  ∃ sent count data lastMs,
    Fragments message.command message.data.length sent count data lastMs ∧
    message.data = data.take message.data.length ∧
    ∀ part ∈ sent, part.1.cid = message.cid ∧ ∃ item ∈ items, item.report = part.1

theorem Step.takes {state next : State} {task : Task} {cap : Nat} {message : Message}
    {past : List Event} (run : History past state)
    (step : Step state (.took task cap (.taken message)) next) : Assembled (fedSince past) message := by
  have whole := run.core.append (step.core run.linked)
  have took : (Event.took task cap (.taken message)).core = [.took cap (.ok message)] := rfl
  rw [took] at whole
  rcases CoreRun.taken whole with ⟨earlier, call, between, split, put, kept⟩
  have delivered := run.core
  rw [split] at delivered
  rcases delivered.at_event with ⟨before, after, first, fed, -⟩
  cases fed with
  | feed report nowMs draws =>
      rw [messageOf] at put
      split at put
      · rename_i kind
        cases put
        rcases CoreRun.delivery first report nowMs draws (Or.inl kind) with
          ⟨sender, -, front, sent, count, data, addressed', fragments, whole⟩
        refine ⟨sent, count, data, nowMs, fragments, whole, ?_⟩
        intro part member
        have mine : part ∈ addressed (coreFeed before report nowMs draws).2.cid
            (earlier ++ [.fed report nowMs (coreFeed before report nowMs draws).2]) := by
          rw [addressed_fed _ _ _ _ _ sender, addressed']
          exact List.mem_append_right _ member
        rcases addressed_sinceReset _ _ part mine with ⟨cid, since⟩
        refine ⟨cid, ?_⟩
        have later := sinceReset_kept _ between (by
          intro call inside same
          have stays := kept call inside
          rw [same] at stays
          cases stays) since
        rw [List.append_assoc, List.singleton_append, ← split, sinceReset_core] at later
        rcases List.mem_map.mp later with ⟨item, inside, same⟩
        exact ⟨item, inside, same⟩
      · cases put
  | _ => cases put

end P4Key.Hid.Intake
