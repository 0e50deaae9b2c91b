import P4Key.Ctaphid.Cancel
import P4Key.Hid.Pairing

/-! A CANCEL stops the request that is being processed, and nothing else. -/

namespace P4Key.Hid

open Memory P4Key.Ctaphid P4Key.Usb

def completion : Event → Option UInt32
  | .reported _ _ (.fed action _) => if action.kind = .message then some action.cid else none
  | _ => none

def cancels (cid : UInt32) : Event → Bool
  | .reported report _ (.fed _ _) => report.cancels cid
  | _ => false

/-- `hid_clear_cancel` of a caller that has the request. -/
def uncancels (cid : UInt32) : Event → Bool
  | .uncancelled _ other cleared => cleared && other == cid
  | _ => false

abbrev flagStep (cid : UInt32) : Bool → Event → Bool := Runs.latchStep (cancels cid) (uncancels cid)

abbrev flag (cid : UInt32) : List Event → Bool := Runs.latch (cancels cid) (uncancels cid)

/-! One step, seen from a CBOR request that is processed after it. -/

structure Begins (event : Event) (next : Service) : Prop where
  completion : completion event = some next.core.activeCid
  uncancelled : ∀ i, (next.core.channels i).cancel = false
  claim : next.claim = none

structure Pursues (service : Service) (event : Event) (next : Service) : Prop where
  phase : service.core.phase = .processing
  activeCommand : service.core.activeCommand = cmdCbor
  activeCid : next.core.activeCid = service.core.activeCid
  completion : completion event = none
  cancel : ∀ i, Owns service.core i service.core.activeCid →
    Owns next.core i service.core.activeCid ∧
      (next.core.channels i).cancel =
        flagStep service.core.activeCid (service.core.channels i).cancel event

theorem Pursues.of_core {service next : Service} {event : Event}
    (same : next.core = service.core) (phase : next.core.phase = .processing)
    (cbor : next.core.activeCommand = cmdCbor)
    (completion : P4Key.Hid.completion event = none)
    (cancel : cancels service.core.activeCid event = false)
    (uncancel : uncancels service.core.activeCid event = false) : Pursues service event next := by
  rw [same] at phase cbor
  refine ⟨phase, cbor, by rw [same], completion, ?_⟩
  intro i owns
  rw [same, flagStep, Runs.latchStep, cancel, uncancel]
  exact ⟨owns, by simp⟩

theorem coreInit_not_processing {core : Core} (fresh : core = coreInit)
    (phase : core.phase = .processing) : False := by
  rw [fresh] at phase
  cases phase

theorem Observed.core_of_processing {service : Service} {result : Service × Bool}
    (observed : Observed service result) (phase : result.1.core.phase = .processing) :
    result.2 = false ∧ result.1.core = service.core := by
  cases flag : result.2 with
  | true => exact (coreInit_not_processing (observed.reset flag).1 phase).elim
  | false => exact ⟨rfl, (observed.kept flag).1⟩

theorem coreFinishResponse_of_processing {core : Core} {cid generation : UInt32}
    (valid : Valid core) (phase : (coreFinishResponse core cid generation).phase = .processing) :
    coreFinishResponse core cid generation = core := by
  rcases coreFinishResponse_cases core cid generation with same | ⟨i, -, -, -, -, ended⟩
  · exact same
  · rw [ended] at phase
    exact absurd (valid.clearActive_idle.phase.symm.trans phase) (by decide)

theorem handled_pursues {service : Service} (linked : Linked service) (report : Report)
    (usbGeneration : UInt32) (reads : FeedReads) (reset : Bool)
    (phase : (handleReport service report usbGeneration reads).1.core.phase = .processing)
    (cbor : (handleReport service report usbGeneration reads).1.core.activeCommand = cmdCbor) :
    let event := Event.reported report reset
      (.fed (handleReport service report usbGeneration reads).2.1
        (handleReport service report usbGeneration reads).2.2)
    Begins event (handleReport service report usbGeneration reads).1 ∨
      Pursues service event (handleReport service report usbGeneration reads).1 := by
  intro event
  have handled := handleReport_handled service report usbGeneration reads linked
  have valid := linked.valid
  have fed : (handleReport service report usbGeneration reads).1.core =
      (coreFeed service.core report reads.nowMs reads.draws).1 := by
    have core := handleReport_core service report usbGeneration reads _ rfl
    split at core
    · rw [core] at phase ⊢
      exact coreFinishResponse_of_processing (coreFeed_valid _ report _ _ valid) phase
    · exact core
  have action := handled.action
  rw [fed] at phase cbor
  by_cases before : service.core.phase = .processing
  · have continues := valid.feed_continues before report reads.nowMs reads.draws phase
    have command : service.core.activeCommand = cmdCbor := by
      rw [← continues.activeCommand]
      exact cbor
    have quiet : completion event = none := by
      simp only [event, completion, action]
      exact if_neg continues.kind
    refine Or.inr ⟨before, command, by rw [fed]; exact continues.activeCid, quiet, ?_⟩
    intro i owns
    rw [fed]
    have effect := valid.feed_cancel before command report reads.nowMs reads.draws phase owns
    refine ⟨effect.1, ?_⟩
    rw [effect.2.2, flagStep, Runs.latchStep]
    simp [event, cancels, uncancels]
  · have delivered := valid.feed_delivered report reads.nowMs reads.draws before phase cbor
    refine Or.inl ⟨?_, by rw [fed]; exact delivered.uncancelled, ?_⟩
    · simp only [event, completion, action]
      rw [if_pos delivered.kind, fed, delivered.cid]
    · cases current : (handleReport service report usbGeneration reads).1.claim with
      | none => rfl
      | some claim =>
          have earlier := (handled.claim claim current).1
          exact absurd (linked.claim claim earlier).phase before

theorem reported_pursues {service : Service} (linked : Linked service) (epoch : UInt32)
    (report : Report) (usbGeneration : UInt32) (reads : FeedReads)
    (phase : (transportReport service epoch report usbGeneration reads).1.core.phase = .processing)
    (cbor : (transportReport service epoch report usbGeneration reads).1.core.activeCommand =
      cmdCbor) :
    let event := Event.reported report (transportReport service epoch report usbGeneration reads).2.1
      (transportReport service epoch report usbGeneration reads).2.2
    Begins event (transportReport service epoch report usbGeneration reads).1 ∨
      Pursues service event (transportReport service epoch report usbGeneration reads).1 := by
  have observed := admitReport_observed service epoch usbGeneration reads
  have admitted := observed.linked linked
  rw [transportReport_eq] at phase cbor ⊢
  by_cases accepted : (admitReport service epoch usbGeneration reads).2.1 = true
  · simp only [if_pos accepted] at phase cbor ⊢
    rcases handled_pursues admitted report usbGeneration reads
        (admitReport service epoch usbGeneration reads).2.2 phase cbor with begins | pursues
    · exact Or.inl begins
    · have same : (admitReport service epoch usbGeneration reads).1.core = service.core :=
        (observed.core_of_processing pursues.phase).2
      rcases pursues with ⟨before, command, activeCid, quiet, cancel⟩
      simp only [same] at before command activeCid cancel
      exact Or.inr ⟨before, command, activeCid, quiet, cancel⟩
  · simp only [if_neg accepted] at phase cbor ⊢
    have same := (observed.core_of_processing phase).2
    exact Or.inr (.of_core same phase cbor rfl rfl rfl)

theorem keepalive_pursues {service : Service} (task : Task) (cid : UInt32) (status : UInt8)
    (reads : ClaimReads) (currentMs sentMs : UInt32) (send : SendReads)
    (phase : (hidKeepalive service task cid status reads currentMs sentMs send).1.core.phase =
      .processing)
    (cbor : (hidKeepalive service task cid status reads currentMs sentMs send).1.core.activeCommand =
      cmdCbor) :
    Pursues service
      (.keptAlive task cid status (hidKeepalive service task cid status reads currentMs sentMs send).2.1
        (hidKeepalive service task cid status reads currentMs sentMs send).2.2)
      (hidKeepalive service task cid status reads currentMs sentMs send).1 := by
  rcases (hidKeepalive_cases service task cid status reads currentMs sentMs send).1 with
    same | ⟨i, channel, -, agrees, cancel, remembered⟩
  · have kept := congrArg Service.core same
    exact .of_core kept phase cbor rfl rfl rfl
  · have core := congrArg Service.core remembered
    simp only at core
    rw [core] at phase cbor
    refine ⟨phase, cbor, by rw [core]; rfl, rfl, ?_⟩
    intro j owns
    rw [core, Owns]
    by_cases here : j = i
    · rw [here] at owns ⊢
      rw [setChannel_same, agrees.allocated, agrees.cid, cancel]
      exact ⟨owns, by simp [Runs.latchStep, cancels, uncancels]⟩
    · rw [setChannel_other _ i j channel here]
      exact ⟨owns, by simp [Runs.latchStep, cancels, uncancels]⟩

theorem clearCancel_pursues {service : Service} (linked : Linked service) (task : Task)
    (cid : UInt32) (reads : ClaimReads)
    (phase : (hidClearCancel service task cid reads).1.core.phase = .processing)
    (cbor : (hidClearCancel service task cid reads).1.core.activeCommand = cmdCbor) :
    Pursues service (.uncancelled task cid (hidClearCancel service task cid reads).2)
      (hidClearCancel service task cid reads).1 := by
  rcases hidClearCancel_cases service task cid reads with refused | ⟨claim, matched, cleared⟩
  · have kept := congrArg (fun result => result.1.core) refused
    have unseen := congrArg Prod.snd refused
    simp only at kept unseen
    rw [unseen]
    exact .of_core kept phase cbor rfl rfl rfl
  · rcases matched.generation with ⟨i, found, generation⟩
    have result : coreClearCancel service.core cid claim.operationGeneration =
        service.core.setChannel i { service.core.channels i with cancel := false } := by
      rw [coreClearCancel, if_neg (by simp [matched.phase, matched.activeCid]), found]
      exact if_pos generation
    have core := (congrArg (fun result => result.1.core) cleared).trans result
    have seen := congrArg Prod.snd cleared
    simp only at core seen
    rw [core] at phase cbor
    rw [seen]
    refine ⟨phase, cbor, by rw [core]; rfl, rfl, ?_⟩
    intro j owns
    have owner := chanFind_some found
    rw [← matched.activeCid] at owner
    have here := owns.unique owner linked.valid.registered
    rw [here] at owns ⊢
    rw [core, Owns, setChannel_same]
    exact ⟨owns, by simp [Runs.latchStep, cancels, uncancels, matched.activeCid]⟩

/-- A CBOR request that is processed after a step has just become complete, or was processed
before it, and then its flag follows the CANCELs and `hid_clear_cancel`. -/
theorem Step.pursues {state next : State} {event : Event} (step : Step state event next)
    (linked : Linked state.service) (phase : next.service.core.phase = .processing)
    (cbor : next.service.core.activeCommand = cmdCbor) :
    Begins event next.service ∨ Pursues state.service event next.service := by
  cases step with
  | bus event => exact Or.inr (.of_core rfl phase cbor rfl rfl rfl)
  | request => exact Or.inr (.of_core rfl phase cbor rfl rfl rfl)
  | resetAll middle last before after => cases phase
  | notRequested here flag => exact Or.inr (.of_core rfl phase cbor rfl rfl rfl)
  | isRequested here flag => exact Or.inr (.of_core rfl phase cbor rfl rfl rfl)
  | processed here middle last before flag after => cases phase
  | overtaken here last before flag => exact Or.inr (.of_core rfl phase cbor rfl rfl rfl)
  | observed here => exact Or.inr (.of_core rfl phase cbor rfl rfl rfl)
  | synced generation here =>
      have observed := observeUsb_observed state.service generation false
      have same := (observed.core_of_processing phase).2
      exact Or.inr (.of_core same phase cbor rfl rfl rfl)
  | received epoch here report ready => exact Or.inr (.of_core rfl phase cbor rfl rfl rfl)
  | receivedNothing epoch here => exact Or.inr (.of_core rfl phase cbor rfl rfl rfl)
  | cleaned here nowMs =>
      have before := linked.valid.cleanup_running nowMs phase
      have same := coreCleanup_of_processing before nowMs
      exact Or.inr (.of_core same phase cbor rfl rfl rfl)
  | reported epoch report usbGeneration here reads last along =>
      exact reported_pursues linked epoch report usbGeneration reads phase cbor
  | gaveUp here => exact Or.inr (.of_core rfl phase cbor rfl rfl rfl)
  | took task cap reads last along =>
      rcases hidTakeMsg_cases state.service task cap reads linked.valid with
        ⟨result, same⟩ | ⟨-, reset⟩ | ⟨-, -, -, -, -, -, taken⟩
      · have kept := congrArg (fun result => result.1.core) same
        exact Or.inr (.of_core kept phase cbor rfl rfl rfl)
      · rw [reset] at phase
        cases phase
      · rw [taken] at phase cbor ⊢
        -- a take scrubs the record and no more
        refine Or.inr ⟨phase, cbor, rfl, rfl, ?_⟩
        intro i owns
        exact ⟨owns, by simp [Runs.latchStep, cancels, uncancels, releaseComplete, Core.wipe,
          Core.setBuffer]⟩
  | sent task cid command data arguments reads send last along =>
      rcases hidSendMsg_cases state.service task cid command data reads send with
        refused | ⟨claim, matched, -, answered⟩
      · have kept := congrArg (fun result => result.1.core) refused
        exact Or.inr (.of_core kept phase cbor rfl rfl rfl)
      · have core := congrArg (fun result => result.1.core) answered
        have ended := core.trans matched.finishes
        have idle := linked.valid.clearActive_idle.phase
        rw [← ended] at idle
        exact absurd (idle.symm.trans phase) (by decide)
  | sendTimedOut task cid command => exact Or.inr (.of_core rfl phase cbor rfl rfl rfl)
  | keptAlive task cid status reads currentMs sentMs send last along =>
      exact Or.inr (keepalive_pursues task cid status reads currentMs sentMs send phase cbor)
  | asked task cid reads last along => exact Or.inr (.of_core rfl phase cbor rfl rfl rfl)
  | uncancelled task cid reads last along =>
      exact Or.inr (clearCancel_pursues linked task cid reads phase cbor)
  | refused => exact Or.inr (.of_core rfl phase cbor rfl rfl rfl)

/-! The whole run. -/

/-- What has happened since the request that is processed was complete. -/
structure Watched (past : List Event) (service : Service) (between : List Event) : Prop where
  start : ∃ earlier event, past = earlier ++ event :: between ∧
    completion event = some service.core.activeCid
  quiet : ∀ later ∈ between, completion later = none
  cancel : ∃ i, Owns service.core i service.core.activeCid ∧
    (service.core.channels i).cancel = flag service.core.activeCid between
  taken : ∀ claim, service.claim = some claim → ∃ taken ∈ between, ∃ message,
    requestTaken taken = some (claim.owner, message) ∧ message.cid = claim.cid ∧
      message.command = claim.command

theorem Begins.watched {past : List Event} {event : Event} {next : Service}
    (begins : Begins event next) (valid : Valid next.core) (phase : next.core.phase = .processing) :
    Watched (past ++ [event]) next [] := by
  rcases valid.running_of_phase phase with ⟨i, running⟩
  refine ⟨⟨past, event, rfl, begins.completion⟩, by simp, ⟨i, running.owner, ?_⟩, ?_⟩
  · exact begins.uncancelled i
  · intro claim current
    rw [begins.claim] at current
    cases current

theorem Watched.snoc {past between : List Event} {state next : State} {event : Event}
    (watched : Watched past state.service between) (linked : Linked state.service)
    (step : Step state event next) (pursues : Pursues state.service event next.service) :
    Watched (past ++ [event]) next.service (between ++ [event]) := by
  rcases watched.start with ⟨earlier, first, split, complete⟩
  rcases watched.cancel with ⟨i, owns, cancel⟩
  have effect := pursues.cancel i owns
  refine ⟨⟨earlier, first, by simp [split], ?_⟩, ?_, ⟨i, ?_, ?_⟩, ?_⟩
  · rw [pursues.activeCid]
    exact complete
  · exact List.forall_mem_append.mpr
      ⟨watched.quiet, List.forall_mem_singleton.mpr pursues.completion⟩
  · rw [pursues.activeCid]
    exact effect.1
  · rw [pursues.activeCid, flag, Runs.latch_snoc, ← flag, ← cancel]
    exact effect.2
  · intro claim current
    rcases step.claimed linked current with ⟨message, put, same⟩ | ⟨before, -, -⟩
    · exact ⟨event, by simp, message, put, same⟩
    · rcases watched.taken claim before with ⟨taken, member, message, put, same⟩
      exact ⟨taken, List.mem_append_left _ member, message, put, same⟩

theorem SystemRun.watched {bus : Bus} {past : List Event} {state : State}
    (run : SystemRun bus past state) :
    state.service.core.phase = .processing → state.service.core.activeCommand = cmdCbor →
      ∃ between, Watched past state.service between := by
  apply run.history fun past state => state.service.core.phase = .processing →
    state.service.core.activeCommand = cmdCbor → ∃ between, Watched past state.service between
  · intro impossible
    cases impossible
  · intro past state event next before ih step phase cbor
    have linked := SystemRun.linked before
    rcases step.pursues linked phase cbor with begins | pursues
    · exact ⟨[], begins.watched (step.linked linked).valid phase⟩
    · rcases ih pursues.phase pursues.activeCommand with ⟨between, watched⟩
      exact ⟨between ++ [event], watched.snoc linked step pursues⟩

/-- The request that `task` has taken has become complete, and `between` is what followed. -/
structure Since (past : List Event) (task : Task) (cid : UInt32) (between : List Event) : Prop where
  start : ∃ earlier event, past = earlier ++ event :: between ∧ completion event = some cid
  quiet : ∀ later ∈ between, completion later = none
  taken : ∃ taken ∈ between, ∃ message, requestTaken taken = some (task, message) ∧
    message.cid = cid ∧ message.command = cmdCbor

/-- A CANCEL after which nobody has cleared the flag. -/
def StandsCancelled (cid : UInt32) (between : List Event) : Prop :=
  ∃ front event back, between = front ++ event :: back ∧ cancels cid event = true ∧
    ∀ later ∈ back, uncancels cid later = false

theorem StandsCancelled.flag {cid : UInt32} {between : List Event}
    (cancelled : StandsCancelled cid between) : flag cid between = true := by
  rcases cancelled with ⟨front, event, back, split, set, kept⟩
  rw [split]
  exact Runs.latch_set _ _ front back event set kept

theorem Matched.cancelled {bus : Bus} {past : List Event} {state : State}
    (run : SystemRun bus past state) {task : Task} {cid : UInt32} {reads : ClaimReads}
    {claim : Claim} (matched : Matched state.service cid (some task) reads claim) :
    claim.command = cmdCbor ∧ ∃ between, Since past task cid between ∧
      coreCancelled state.service.core cid claim.operationGeneration = flag cid between := by
  have linked := SystemRun.linked run
  have holds := linked.claim claim matched.current
  have cbor := holds.activeCommand.trans holds.cbor
  rcases SystemRun.watched run holds.phase cbor with ⟨between, watched⟩
  rcases watched.start with ⟨earlier, first, split, complete⟩
  rcases watched.cancel with ⟨i, owns, cancel⟩
  rcases watched.taken claim matched.current with ⟨taken, member, message, put, cid', command⟩
  rcases matched.generation with ⟨j, found, generation⟩
  rw [matched.activeCid] at complete cancel owns
  rw [matched.owner task rfl] at put
  have here := (chanFind_some found).unique owns linked.valid.registered
  refine ⟨holds.cbor, between, ⟨⟨earlier, first, split, complete⟩, watched.quiet, taken, member,
    message, put, cid'.trans matched.claimCid, command.trans holds.cbor⟩, ?_⟩
  rw [coreCancelled, if_neg (by simp [matched.phase, matched.activeCid]), found]
  simp only
  rw [generation, here, cancel]
  simp

theorem sendLocked_part (cid : UInt32) (command : UInt8) (data : List UInt8) (reads : SendReads) :
    (sendLocked cid command data reads).2 <+: frames cid command data := by
  rw [sendLocked_reports]
  split
  · exact txSend_prefix cid command data _
  · exact List.nil_prefix

theorem sendLocked_whole (cid : UInt32) (command : UInt8) (data : List UInt8) (reads : SendReads)
    (ok : (sendLocked cid command data reads).1 = .ok) :
    (sendLocked cid command data reads).2 = frames cid command data := by
  rw [sendLocked] at ok ⊢
  cases locked : reads.locked with
  | false =>
      rw [locked] at ok
      cases ok
  | true =>
      rw [locked] at ok
      simp only [Bool.not_true, Bool.false_eq_true, if_false] at ok ⊢
      cases sent : (txSend cid command data fun k => reads.usb k == .ok).1 with
      | arg =>
          rw [sent] at ok
          cases ok
      | send =>
          rw [sent] at ok
          simp only at ok
          cases failure : reads.usb (txSend cid command data fun k => reads.usb k == .ok).2.length <;>
            (rw [failure] at ok; cases ok)
      | ok => exact txSend_whole cid command data _ sent

def cancelReport : Report := load reportBytes [0, 0, 0, 1, 0x91, 0, 0] 0

def stoppedService : Service := (liveReport takenService cancelReport).1

def stopped : Service × HidResult × List Report :=
  hidSendMsg stoppedService 7 1 cmdCbor [9] liveClaimReads liveSend

end P4Key.Hid
