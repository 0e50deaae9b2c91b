import P4Key.Hid.Claim

/-! A response goes out only as the answer to the request that its sender has taken. -/

namespace P4Key.Hid

open Memory P4Key.Ctaphid P4Key.Usb

theorem transportReport_eq (service : Service) (epoch : UInt32) (report : Report)
    (usbGeneration : UInt32) (reads : FeedReads) :
    transportReport service epoch report usbGeneration reads =
      let admitted := admitReport service epoch usbGeneration reads
      if admitted.2.1 then
        ((handleReport admitted.1 report usbGeneration reads).1, admitted.2.2,
          .fed (handleReport admitted.1 report usbGeneration reads).2.1
            (handleReport admitted.1 report usbGeneration reads).2.2)
      else (admitted.1, admitted.2.2, .discarded) := rfl

theorem transportReport_linked {service : Service} (linked : Linked service) (epoch : UInt32)
    (report : Report) (usbGeneration : UInt32) (reads : FeedReads) :
    Linked (transportReport service epoch report usbGeneration reads).1 := by
  have admitted := (admitReport_observed service epoch usbGeneration reads).linked linked
  rw [transportReport_eq]
  by_cases accepted : (admitReport service epoch usbGeneration reads).2.1 = true
  · simp only [if_pos accepted]
    exact (handleReport_handled _ report usbGeneration reads admitted).linked
  · simp only [if_neg accepted]
    exact admitted

theorem Step.linked {state next : State} {event : Event} (step : Step state event next)
    (linked : Linked state.service) : Linked next.service := by
  cases step with
  | bus event => exact linked
  | request => exact linked
  | resetAll middle last before after => exact resetCore_linked _
  | notRequested here flag => exact linked
  | isRequested here flag => exact linked
  | processed here middle last before flag after => exact resetCore_linked _
  | overtaken here last before flag => exact linked
  | observed here => exact linked
  | synced generation here =>
      exact (observeUsb_observed state.service generation false).linked linked
  | received epoch here report ready => exact linked
  | receivedNothing epoch here => exact linked
  | cleaned here nowMs =>
      refine ⟨coreCleanup_valid _ nowMs linked.valid, ?_⟩
      intro claim current
      have holds := linked.claim claim current
      simp only [coreCleanup_of_processing holds.phase nowMs]
      exact holds
  | reported epoch report usbGeneration here reads last along =>
      exact transportReport_linked linked epoch report usbGeneration reads
  | gaveUp here => exact linked
  | took task cap reads last along => exact hidTakeMsg_linked linked task cap reads
  | sent task cid command data arguments reads send last along =>
      exact hidSendMsg_linked linked task cid command data reads send
  | sendTimedOut task cid command => exact linked
  | keptAlive task cid status reads currentMs sentMs send last along =>
      exact hidKeepalive_linked linked task cid status reads currentMs sentMs send
  | asked task cid reads last along => exact linked
  | uncancelled task cid reads last along => exact hidClearCancel_linked linked task cid reads
  | refused => exact linked

theorem started_linked (bus : Bus) : Linked (started bus).service :=
  ⟨coreInit_valid, fun _ impossible => by cases impossible⟩

theorem SystemRun.linked {bus : Bus} {past : List Event} {state : State}
    (run : SystemRun bus past state) : Linked state.service :=
  run.invariant (fun state => Linked state.service) (started_linked bus)
    fun _ _ _ linked step => step.linked linked

/-! The request of a claim, as the events tell it. -/

def requestTaken : Event → Option (Task × Message)
  | .took task _ (.taken message) => some (task, message)
  | _ => none

def acceptedInit (cid : UInt32) (report : Report) (action : Action) : Bool :=
  report.cid == cid && report.command == cmdInit && action.command == cmdInit

def makesReset : Event → Bool
  | .swept reset => reset
  | .reported _ reset _ => reset
  | .took _ _ .reset => true
  | _ => false

/-- A final response of which anything was sent. -/
def isResponse : Event → Bool
  | .sent _ _ _ _ _ reports => !reports.isEmpty
  | _ => false

/-- The events after which the request must not be answered any more. -/
def ends (request : Task × Message) : Event → Bool
  | .reported report reset (.fed action _) => reset || acceptedInit request.2.cid report action
  | event => makesReset event || isResponse event

/-- Who sends reports, on which channel, and for a request of which command. -/
def emission : Event → Option (Task × UInt32 × UInt8)
  | .sent task cid command _ _ reports => if reports = [] then none else some (task, cid, command)
  | .keptAlive task cid _ _ reports => if reports = [] then none else some (task, cid, cmdCbor)
  | _ => none

def Keeps (state : State) (event : Event) (claim : Claim) : Prop :=
  state.service.claim = some claim ∧ requestTaken event = none ∧
    ∀ request : Task × Message, request.2.cid = claim.cid → ends request event = false

theorem Observed.not_reset {service : Service} {result : Service × Bool}
    (observed : Observed service result) {claim : Claim} (current : result.1.claim = some claim) :
    result.2 = false := by
  by_contra reset
  rw [(observed.reset (by simpa using reset)).2] at current
  cases current

theorem reported_keeps {state : State} (linked : Linked state.service) (epoch : UInt32)
    (report : Report) (usbGeneration : UInt32) (reads : FeedReads) {claim : Claim}
    (current : (transportReport state.service epoch report usbGeneration reads).1.claim =
      some claim) :
    Keeps state (.reported report
      (transportReport state.service epoch report usbGeneration reads).2.1
      (transportReport state.service epoch report usbGeneration reads).2.2) claim := by
  have observed := admitReport_observed state.service epoch usbGeneration reads
  have admitted := observed.linked linked
  rw [transportReport_eq] at current ⊢
  by_cases accepted : (admitReport state.service epoch usbGeneration reads).2.1 = true
  · simp only [if_pos accepted] at current ⊢
    have handled := handleReport_handled _ report usbGeneration reads admitted
    rcases handled.claim claim current with ⟨before, -, holds, continues⟩
    have calm := observed.not_reset before
    have kept := (observed.kept calm).2.1
    simp only at calm kept
    refine ⟨kept.symm.trans before, rfl, ?_⟩
    intro request cid
    have active := (admitted.claim claim before).activeCid
    simp only [ends, calm, Bool.false_or, handled.action, acceptedInit]
    by_cases own : report.cid = claim.cid
    · have other := continues.resync (own.trans active.symm)
      simp [other]
    · have foreign : report.cid ≠ request.2.cid := by
        rw [cid]
        exact own
      simp [foreign]
  · simp only [if_neg accepted] at current ⊢
    have calm := observed.not_reset current
    have kept := (observed.kept calm).2.1
    simp only at calm kept
    refine ⟨kept.symm.trans current, rfl, ?_⟩
    intro request cid
    simp [ends, makesReset, isResponse, calm]

theorem Step.claimed {state next : State} {event : Event} (step : Step state event next)
    (linked : Linked state.service) {claim : Claim} (current : next.service.claim = some claim) :
    (∃ message, requestTaken event = some (claim.owner, message) ∧ message.cid = claim.cid ∧
      message.command = claim.command) ∨ Keeps state event claim := by
  cases step with
  | bus event => exact Or.inr ⟨current, rfl, fun _ _ => rfl⟩
  | request => exact Or.inr ⟨current, rfl, fun _ _ => rfl⟩
  | resetAll middle last before after => cases current
  | notRequested here flag => exact Or.inr ⟨current, rfl, fun _ _ => rfl⟩
  | isRequested here flag => exact Or.inr ⟨current, rfl, fun _ _ => rfl⟩
  | processed here middle last before flag after => cases current
  | overtaken here last before flag => exact Or.inr ⟨current, rfl, fun _ _ => rfl⟩
  | observed here => exact Or.inr ⟨current, rfl, fun _ _ => rfl⟩
  | synced generation here =>
      have observed := observeUsb_observed state.service generation false
      have calm : (syncUsbBeforeTake state.service generation).2 = false := observed.not_reset current
      refine Or.inr ⟨(observed.kept calm).2.1.symm.trans current, rfl, ?_⟩
      intro request cid
      simp [ends, makesReset, isResponse, calm]
  | received epoch here report ready => exact Or.inr ⟨current, rfl, fun _ _ => rfl⟩
  | receivedNothing epoch here => exact Or.inr ⟨current, rfl, fun _ _ => rfl⟩
  | cleaned here nowMs => exact Or.inr ⟨current, rfl, fun _ _ => rfl⟩
  | reported epoch report usbGeneration here reads last along =>
      exact Or.inr (reported_keeps linked epoch report usbGeneration reads current)
  | gaveUp here => exact Or.inr ⟨current, rfl, fun _ _ => rfl⟩
  | took task cap reads last along =>
      rcases hidTakeMsg_cases state.service task cap reads linked.valid with
        ⟨result, same⟩ | ⟨-, reset⟩ | ⟨-, -, -, -, ready, -, taken⟩
      · rw [same] at current ⊢
        exact Or.inr ⟨current, rfl, fun _ _ => rfl⟩
      · rw [reset] at current
        cases current
      · rw [taken] at current ⊢
        cases current
        exact Or.inl ⟨_, rfl, rfl, rfl⟩
  | sent task cid command data arguments reads send last along =>
      rcases hidSendMsg_cases state.service task cid command data reads send with
        refused | ⟨other, -, -, answered⟩
      · rw [refused] at current ⊢
        exact Or.inr ⟨current, rfl, fun _ _ => rfl⟩
      · rw [answered] at current
        cases current
  | sendTimedOut task cid command => exact Or.inr ⟨current, rfl, fun _ _ => rfl⟩
  | keptAlive task cid status reads currentMs sentMs send last along =>
      refine Or.inr ⟨?_, rfl, fun _ _ => rfl⟩
      rcases (hidKeepalive_cases state.service task cid status reads currentMs sentMs send).1 with
        same | ⟨i, channel, -, -, -, remembered⟩
      · rw [same] at current
        exact current
      · rw [remembered] at current
        exact current
  | asked task cid reads last along => exact Or.inr ⟨current, rfl, fun _ _ => rfl⟩
  | uncancelled task cid reads last along =>
      refine Or.inr ⟨?_, rfl, fun _ _ => rfl⟩
      rcases hidClearCancel_cases state.service task cid reads with same | ⟨other, -, cleared⟩
      · rw [same] at current
        exact current
      · rw [cleared] at current
        exact current
  | refused => exact Or.inr ⟨current, rfl, fun _ _ => rfl⟩

def openRequest (past : List Event) : Option (Task × Message) :=
  Runs.slot requestTaken ends past

def Named (past : List Event) (service : Service) : Prop :=
  ∀ claim, service.claim = some claim → ∃ message,
    openRequest past = some (claim.owner, message) ∧ message.cid = claim.cid ∧
      message.command = claim.command

theorem SystemRun.named {bus : Bus} {past : List Event} {state : State}
    (run : SystemRun bus past state) : Named past state.service := by
  apply run.history fun past state => Named past state.service
  · intro claim impossible
    cases impossible
  · intro past state event next before named step claim current
    rcases step.claimed (SystemRun.linked before) current with
      ⟨message, taken, cid, command⟩ | ⟨earlier, quiet, kept⟩
    · refine ⟨message, ?_, cid, command⟩
      rw [openRequest, Runs.slot_snoc, Runs.slotStep, taken]
    · rcases named claim earlier with ⟨message, request, cid, command⟩
      refine ⟨message, ?_, cid, command⟩
      rw [openRequest, Runs.slot_snoc, ← openRequest, request]
      exact Runs.slotStep_kept _ _ _ event quiet (kept _ cid)

/-- Whoever sends reports has the claim. -/
theorem Step.emission_claim {state next : State} {event : Event} (step : Step state event next)
    {task : Task} {cid : UInt32} {command : UInt8}
    (emits : emission event = some (task, cid, command)) :
    ∃ claim, state.service.claim = some claim ∧ claim.owner = task ∧ claim.cid = cid ∧
      claim.command = command := by
  cases step with
  | sent task' cid' command' data arguments reads send last along =>
      rcases hidSendMsg_cases state.service task' cid' command' data reads send with
        refused | ⟨claim, matched, same, -⟩
      · rw [refused] at emits
        simp [emission] at emits
      · simp only [emission] at emits
        split at emits
        · cases emits
        · cases emits
          exact ⟨claim, matched.current, matched.owner _ rfl, matched.claimCid, same⟩
  | keptAlive task' cid' status reads currentMs sentMs send last along =>
      simp only [emission] at emits
      split at emits
      · cases emits
      · rename_i some'
        cases emits
        rcases (hidKeepalive_cases state.service _ _ status reads currentMs sentMs send).2 with
          nothing | ⟨claim, matched, same, -⟩
        · exact absurd nothing some'
        · exact ⟨claim, matched.current, matched.owner _ rfl, matched.claimCid, same⟩
  | _ => simp [emission] at emits

theorem isResponse_emission {event : Event} (response : isResponse event = true) :
    ∃ task cid command, emission event = some (task, cid, command) := by
  cases event with
  | sent task cid command data result reports =>
      have some' : reports ≠ [] := by
        intro nothing
        rw [nothing] at response
        cases response
      exact ⟨task, cid, command, by rw [emission, if_neg some']⟩
  | _ => cases response

theorem openRequest_response (past : List Event) {event : Event} (response : isResponse event = true) :
    openRequest (past ++ [event]) = none := by
  rw [openRequest, Runs.slot_snoc]
  cases event with
  | sent task cid command data result reports =>
      cases Runs.slot requestTaken ends past with
      | none => rfl
      | some request =>
          apply Runs.slotStep_emptied
          · rfl
          · rw [ends]
            · rw [response, Bool.or_true]
            · intro report reset action sent impossible
              cases impossible
  | _ => cases response

/-- Responses are paired with the requests they answer. Whoever sends has taken the open
request of that channel, and between two final responses another request is taken. -/
theorem responses_answer_taken_requests {bus : Bus} {past : List Event} {state : State}
    (run : SystemRun bus past state) :
    (∀ before event after task cid command, past = before ++ event :: after →
      emission event = some (task, cid, command) →
      ∃ earlier cap message between,
        before = earlier ++ .took task cap (.taken message) :: between ∧
        message.cid = cid ∧ message.command = command ∧
        ∀ later ∈ between, requestTaken later = none ∧ ends (task, message) later = false) ∧
    (∀ before first between second after,
      past = before ++ first :: (between ++ second :: after) →
      isResponse first = true → isResponse second = true →
      ∃ taken ∈ between, requestTaken taken ≠ none) := by
  constructor
  · intro before event after task cid command split emits
    rw [split] at run
    rcases run.at_event with ⟨middle, next, first, step, -⟩
    rcases step.emission_claim emits with ⟨claim, current, owner, claimCid, claimCommand⟩
    rcases SystemRun.named first claim current with ⟨message, request, cid', command'⟩
    rcases Runs.slot_some _ _ before _ request with ⟨earlier, taken, between, parts, put, kept⟩
    rw [owner] at put kept
    cases taken with
    | took task' cap outcome =>
        cases outcome with
        | taken message' =>
            cases put
            exact ⟨earlier, cap, message, between, parts, cid'.trans claimCid,
              command'.trans claimCommand, kept⟩
        | refused result => cases put
        | reset => cases put
    | _ => cases put
  · intro before first between second after split firstResponse secondResponse
    by_contra none'
    have quiet : ∀ event ∈ between, requestTaken event = none := by
      intro event member
      by_contra taken
      exact none' ⟨event, member, taken⟩
    rw [split, List.append_cons, ← List.append_assoc] at run
    rcases run.at_event with ⟨middle, next, past', step, -⟩
    rcases isResponse_emission secondResponse with ⟨task, cid, command, emits⟩
    rcases step.emission_claim emits with ⟨claim, current, -⟩
    rcases SystemRun.named past' claim current with ⟨message, request, -⟩
    have closed := Runs.slot_none_append requestTaken ends (before ++ [first]) between
      (openRequest_response before firstResponse) quiet
    rw [openRequest, closed] at request
    cases request

/-! One report on a connection that stays, from the top of the transport task to the top. -/

def liveFlags : Flags := { bus := ⟨true, true, 1, fun _ => rfl⟩, resetRequested := false }

def liveClaimReads : ClaimReads := ⟨false, 1, true⟩

def liveSend : SendReads := ⟨true, fun _ => .ok⟩

def liveFeedReads : FeedReads :=
  { currentUsbGeneration := 1, resetRequested := false, nowMs := 5, draws := drawOne
    claim := liveClaimReads, send := liveSend }

def liveTakeReads : TakeReads := ⟨false, true, 1, 1⟩

theorem liveClaimReads_along : liveClaimReads.Along liveFlags liveFlags :=
  ⟨liveFlags, liveFlags, liveFlags, .refl, rfl, .refl, rfl, .refl, rfl, .refl⟩

def live (service : Service) : State := { service := service, flags := liveFlags, transport := .top }

def liveReport (service : Service) (report : Report) : Service × Bool × Outcome :=
  transportReport service service.resetEpoch report 1 liveFeedReads

def liveEvents (service : Service) (report : Report) : List Event :=
  [.quiet, .quiet, .swept false, .quiet,
    .reported report (liveReport service report).2.1 (liveReport service report).2.2]

/-- The bus stays, so this is also a run of every relation that has these steps. -/
theorem live_report_run (Related : State → Event → State → Prop) (service : Service)
    (seen : service.seenUsbGeneration = 1) (report : Report)
    (related : ∀ state event next, Step state event next → state.flags = liveFlags →
      next.flags = liveFlags → event ∈ liveEvents service report → Related state event next) :
    Runs.Run Related (live service) (liveEvents service report)
      (live (liveReport service report).1) := by
  have same : syncUsbBeforeTake service 1 = (service, false) := by
    rw [syncUsbBeforeTake, observeUsb, if_neg (not_not.mpr seen.symm)]
  have synced := Step.synced { live service with transport := .sync 1 } 1 rfl
  rw [show ({ live service with transport := .sync 1 } : State).service = service from rfl,
    same] at synced
  have first := related _ _ _ (Step.notRequested (live service) rfl rfl) rfl rfl
    (by simp [liveEvents])
  have second := related _ _ _ (Step.observed { live service with transport := .observe } rfl) rfl
    rfl (by simp [liveEvents])
  have third := related _ _ _ synced rfl rfl (by simp [liveEvents])
  have fourth := related _ _ _ (Step.received { live service with
    transport := .receive service.resetEpoch } service.resetEpoch rfl report rfl) rfl rfl
    (by simp [liveEvents])
  have fifth := related _ _ _ (Step.reported { live service with
    transport := .feed service.resetEpoch report 1 } service.resetEpoch report 1 rfl liveFeedReads
    liveFlags ⟨liveFlags, liveFlags, .refl, rfl, .refl, rfl, liveClaimReads_along⟩) rfl rfl
    (by simp [liveEvents, liveReport, live])
  exact ((((Runs.Run.nil.snoc first).snoc second).snoc third).snoc fourth).snoc fifth

def openedService : Service := (liveReport (started liveFlags.bus).service openingReport).1

def deliveredService : Service := (liveReport openedService smallReport).1

def takenService : Service := (hidTakeMsg deliveredService 7 2048 liveTakeReads).1

def takenEvents : List Event :=
  liveEvents (started liveFlags.bus).service openingReport ++
    liveEvents openedService smallReport ++ [.took 7 2048 (.taken ⟨1, cmdCbor, [4], 1⟩)]

theorem taken_step :
    Step (live deliveredService) (.took 7 2048 (.taken ⟨1, cmdCbor, [4], 1⟩)) (live takenService) := by
  have outcome : (hidTakeMsg deliveredService 7 2048 liveTakeReads).2 =
      .taken ⟨1, cmdCbor, [4], 1⟩ := by decide +kernel
  have taken := Step.took (live deliveredService) 7 2048 liveTakeReads liveFlags
    ⟨liveFlags, liveFlags, liveFlags, liveFlags, .refl, rfl, .refl, rfl, .refl, rfl, .refl, rfl, .refl⟩
  rw [show (live deliveredService).service = deliveredService from rfl, outcome] at taken
  exact taken

theorem taken_run : SystemRun liveFlags.bus takenEvents (live takenService) := by
  have opened := live_report_run Step (started liveFlags.bus).service rfl openingReport
    fun _ _ _ step _ _ _ => step
  have delivered := live_report_run Step openedService rfl smallReport fun _ _ _ step _ _ _ => step
  exact (opened.append delivered).snoc taken_step

def answer : Service × HidResult × List Report :=
  hidSendMsg takenService 7 1 cmdCbor [9] liveClaimReads liveSend

theorem answer_sends : answer.2.2 ≠ [] := by
  have sent : answer.2 = sendLocked 1 cmdCbor [9] liveSend := rfl
  rw [sent, sendLocked_reports, if_pos (show liveSend.locked = true from rfl), txSend,
    if_neg (by decide), if_pos (by decide)]
  exact List.cons_ne_nil _ _

theorem answer_is_for_taken_request :
    ∃ earlier cap message between,
      takenEvents = earlier ++ .took 7 cap (.taken message) :: between ∧
      message.cid = 1 ∧ message.command = cmdCbor ∧
      ∀ later ∈ between, requestTaken later = none ∧ ends (7, message) later = false :=
  (responses_answer_taken_requests
    (taken_run.snoc (Step.sent _ 7 1 cmdCbor [9] (by decide) liveClaimReads liveSend liveFlags
      liveClaimReads_along))).1 takenEvents _ [] 7 1 cmdCbor rfl
    (by rw [emission]; exact if_neg answer_sends)

end P4Key.Hid
