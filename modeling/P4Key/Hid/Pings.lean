import P4Key.Ctaphid.Echo
import P4Key.Ctaphid.Reassembly
import P4Key.Hid.Upkeep

/-! How the transport task ends a PING.

It finishes the transaction of an echo by its number, and takes 0 for no number. A PING whose
channel has just wrapped is therefore never finished. -/

namespace P4Key.Hid

open Memory P4Key.Ctaphid P4Key.Usb

structure Released (core : Core) : Prop where
  phase : core.phase = .idle
  first : core.buffers 0 = blank
  second : core.buffers 1 = blank

theorem unnumbered_ping_stays {service : Service} (valid : Valid service.core) {report : Report}
    {reads : FeedReads} (echo : Echo (coreFeed service.core report reads.nowMs reads.draws).2)
    (unnumbered : Unnumbered service.core report) (usbGeneration : UInt32) :
    (handleReport service report usbGeneration reads).1.core.phase = .processing := by
  have core := handleReport_core service report usbGeneration reads _ rfl
  rcases coreFeed_echoed valid echo with ⟨middle, i, echoed⟩
  rcases unnumbered with ⟨j, owner, last⟩
  have here := owner.unique echoed.owner valid.registered
  rw [here] at last
  have generation : (coreFeed service.core report reads.nowMs reads.draws).2.generation = 0 := by
    rw [echoed.result, echoed.assembling.completeMessage_eq, if_pos echoed.ping]
    exact echoed.number.trans (requestNumber_zero.mpr last)
  rw [if_neg (fun all => all.2.2 generation), echoed.result] at core
  rw [core]
  exact echoed.assembling.completeMessage_phase

theorem numbered_ping_released {service : Service} (valid : Valid service.core)
    (scrubbed : Scrubbed service.core) {report : Report} {reads : FeedReads}
    (echo : Echo (coreFeed service.core report reads.nowMs reads.draws).2)
    (numbered : ¬ Unnumbered service.core report) (usbGeneration : UInt32) :
    Released (handleReport service report usbGeneration reads).1.core := by
  have step := CoreStep.feed service.core report reads.nowMs reads.draws
  have fedValid := step.valid valid
  have fedScrubbed := step.scrubbed valid scrubbed
  have core := handleReport_core service report usbGeneration reads _ rfl
  have finished := coreFeed_finished valid echo numbered
  rw [if_pos ⟨finished.1, finished.2.1, finished.2.2.1⟩, finished.2.2.2] at core
  rw [core]
  exact ⟨fedValid.clearActive_idle.phase, fedValid.clearActive_clean fedScrubbed 0,
    fedValid.clearActive_clean fedScrubbed 1⟩

/-! The buffers of the running service, which also writes down when a keepalive was sent. -/

theorem Observed.scrubbed {service : Service} {result : Service × Bool}
    (observed : Observed service result) (scrubbed : Scrubbed service.core) :
    Scrubbed result.1.core := by
  cases flag : result.2 with
  | true =>
      rw [(observed.reset flag).1]
      exact Scrubbed.of_clean fun _ => rfl
  | false =>
      rw [(observed.kept flag).1]
      exact scrubbed

theorem handleReport_scrubbed {service : Service} (valid : Valid service.core)
    (scrubbed : Scrubbed service.core) (report : Report) (usbGeneration : UInt32)
    (reads : FeedReads) :
    Scrubbed (handleReport service report usbGeneration reads).1.core := by
  have step := CoreStep.feed service.core report reads.nowMs reads.draws
  have fed := step.scrubbed valid scrubbed
  rw [handleReport_core service report usbGeneration reads _ rfl]
  split
  · exact (CoreStep.finish _ _ _).scrubbed (step.valid valid) fed
  · exact fed

theorem Step.scrubbed {state next : State} {event : Event} (step : Step state event next)
    (linked : Linked state.service) (scrubbed : Scrubbed state.service.core) :
    Scrubbed next.service.core := by
  have valid := linked.valid
  cases step with
  | resetAll middle last before after => exact (CoreStep.reset _).scrubbed valid scrubbed
  | processed here middle last before flag after => exact (CoreStep.reset _).scrubbed valid scrubbed
  | synced generation here => exact (observeUsb_observed state.service generation false).scrubbed scrubbed
  | cleaned here nowMs => exact (CoreStep.cleanup _ nowMs).scrubbed valid scrubbed
  | reported epoch report usbGeneration here reads last along =>
      have observed := admitReport_observed state.service epoch usbGeneration reads
      have admitted := observed.scrubbed scrubbed
      simp only [transportReport_core]
      split
      · exact handleReport_scrubbed (observed.linked linked).valid admitted report usbGeneration reads
      · exact admitted
  | took task cap reads last along =>
      rcases hidTakeMsg_cases state.service task cap reads valid with
        ⟨result, same⟩ | ⟨-, reset⟩ | ⟨-, -, -, -, ready, -, taken⟩
      · rw [same]
        exact scrubbed
      · rw [reset]
        exact (CoreStep.reset _).scrubbed valid scrubbed
      · rw [taken]
        exact Scrubbed.of_clean (releaseComplete_clean valid scrubbed ready)
  | sent task cid command data arguments reads send last along =>
      rcases hidSendMsg_cases state.service task cid command data reads send with
        refused | ⟨claim, -, -, answered⟩
      · rw [refused]
        exact scrubbed
      · rw [answered]
        exact (CoreStep.finish _ cid claim.operationGeneration).scrubbed valid scrubbed
  | keptAlive task cid status reads currentMs sentMs send last along =>
      rcases (hidKeepalive_cases state.service task cid status reads currentMs sentMs send).1 with
        same | ⟨i, channel, -, agrees, -, remembered⟩
      · rw [same]
        exact scrubbed
      · rw [remembered]
        exact scrubbed.setChannel i channel agrees.cid agrees.allocated agrees.received
          agrees.declaredLen
  | uncancelled task cid reads last along =>
      rcases hidClearCancel_cases state.service task cid reads with same | ⟨claim, -, cleared⟩
      · rw [same]
        exact scrubbed
      · rw [cleared]
        exact (CoreStep.clearCancel _ cid claim.operationGeneration).scrubbed valid scrubbed
  | _ => exact scrubbed

theorem SystemRun.scrubbed {bus : Bus} {past : List Event} {state : State}
    (run : SystemRun bus past state) : Scrubbed state.service.core := by
  have both := Runs.Run.invariant run
    (fun state => Linked state.service ∧ Scrubbed state.service.core)
    ⟨SystemRun.linked .nil, Scrubbed.of_clean fun _ => rfl⟩
    fun _ _ _ earlier step => ⟨step.linked earlier.1, step.scrubbed earlier.1 earlier.2⟩
  exact both.2

/-- The cores that calls of the core reach, and those of the running service. -/
inductive Reached (core : Core) : Prop where
  | calls {events : List Ctaphid.Event} (run : CoreRun events core)
  | service {bus : Bus} {past : List Event} {state : State} (run : SystemRun bus past state)
      (same : state.service.core = core)

theorem Reached.invariant {core : Core} (reached : Reached core) : Valid core ∧ Scrubbed core := by
  cases reached with
  | calls run => exact ⟨run.valid, run.scrubbed⟩
  | service run same =>
      rw [← same]
      exact ⟨(SystemRun.linked run).valid, SystemRun.scrubbed run⟩

/-- The transport is released from a PING exactly when its number is not 0, sent or not. -/
theorem ping_released_iff {service : Service} (reached : Reached service.core) (report : Report)
    (usbGeneration : UInt32) (reads : FeedReads)
    (echo : Echo (coreFeed service.core report reads.nowMs reads.draws).2) :
    Released (handleReport service report usbGeneration reads).1.core ↔
      ¬ Unnumbered service.core report := by
  rcases reached.invariant with ⟨valid, scrubbed⟩
  constructor
  · intro released unnumbered
    have stays := unnumbered_ping_stays valid echo unnumbered usbGeneration
    rw [released.phase] at stays
    cases stays
  · intro numbered
    exact numbered_ping_released valid scrubbed echo numbered usbGeneration

def pingReport : Report := load reportBytes [0, 0, 0, 1, 0x81, 0, 0] 0

theorem pingReport_echo {core : Core} (valid : Valid core) (owner : Owns core 0 1)
    (phase : core.phase = .idle) (nowMs : UInt32) (draws : Draws) :
    Echo (coreFeed core pingReport nowMs draws).2 := by
  have cid : pingReport.cid = 1 := by decide
  have ping : pingReport.command = cmdPing := by decide
  have empty : pingReport.declaredLen = 0 := by decide
  have idle := valid.idle_of_phase phase
  have quiet : coreCleanup core nowMs = core := by
    rw [coreCleanup, if_pos (by rw [phase]; decide)]
  have bounded : pingReport.declaredLen ≤ maxPayload := by decide
  rw [← cid] at owner
  have stored := idle.storeFirst pingReport.initData nowMs valid.registered owner (Or.inl ping) bounded
  have active : (storeFirst core 0 pingReport.command pingReport.declaredLen pingReport.initData
      nowMs).activeCommand = cmdPing := ping
  have whole : ((storeFirst core 0 pingReport.command pingReport.declaredLen pingReport.initData
      nowMs).channels 0).received = pingReport.declaredLen := by
    rw [storeFirst_owner, empty]
    rfl
  have started := feedPacket_first idle valid.registered owner (Or.inl ping) bounded
    (by rw [ping]; intro cbor; cases cbor) nowMs draws
  rw [coreFeed, quiet, started, startMessage, if_pos whole, stored.2.completeMessage_eq,
    if_pos active]
  exact ⟨rfl, rfl⟩

def blockedReads : FeedReads :=
  { currentUsbGeneration := 0, resetRequested := false, nowMs := 0, draws := drawOne
    claim := ⟨false, 0, true⟩, send := ⟨false, fun _ => .ok⟩ }

def resting (core : Core) : Service := { core := core, seenUsbGeneration := 0 }

/-- The first PING of a channel is released, although it is not sent. -/
theorem first_ping_is_released :
    Released (handleReport (resting openedCore) pingReport 0 blockedReads).1.core := by
  rcases openedCore_run with ⟨events, run⟩
  have owner : Owns openedCore 0 1 := by decide
  have echo := pingReport_echo run.valid owner (by decide) 0 drawOne
  refine (@ping_released_iff (resting openedCore) (.calls run) pingReport 0 blockedReads echo).mpr ?_
  rintro ⟨i, other, last⟩
  have here : i = 0 := @Owns.unique openedCore 1 i 0 other owner run.valid.registered
  rw [here] at last
  exact absurd last (by decide)

/-- After 2^32 - 1 INIT packets on a channel its next PING holds the transport. -/
theorem wrapped_ping_stays :
    ¬ ∀ service : Service, Reached service.core → ∀ report usbGeneration reads,
      Echo (coreFeed service.core report reads.nowMs reads.draws).2 →
        Released (handleReport service report usbGeneration reads).1.core := by
  intro always
  rcases generation_reached 0xffffffff with ⟨events, core, run, owner, phase, generation⟩
  have echo := pingReport_echo run.valid owner phase 0 drawOne
  have released := always (resting core) (.calls run) pingReport 0 blockedReads echo
  have unnumbered : Unnumbered core pingReport := ⟨0, owner, generation⟩
  have stays := @unnumbered_ping_stays (resting core) run.valid pingReport blockedReads echo
    unnumbered 0
  rw [released.phase] at stays
  cases stays

end P4Key.Hid
