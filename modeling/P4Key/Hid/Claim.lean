import P4Key.Hid.System

/-! The claim names the request that the core is processing. -/

namespace P4Key.Hid

open Memory P4Key.Ctaphid P4Key.Usb

/-- The core is processing the request of the claim, which has been taken. -/
structure Holds (core : Core) (claim : Claim) : Prop where
  phase : core.phase = .processing
  activeCid : core.activeCid = claim.cid
  activeCommand : core.activeCommand = claim.command
  cbor : claim.command = cmdCbor
  messageReady : core.messageReady = false
  generation : ∃ i, Owns core i claim.cid ∧
    (core.channels i).generation = claim.operationGeneration

structure Linked (service : Service) : Prop where
  valid : Valid service.core
  claim : ∀ claim, service.claim = some claim → Holds service.core claim

structure Matched (service : Service) (cid : UInt32) (caller : Option Task) (reads : ClaimReads)
    (claim : Claim) : Prop where
  current : service.claim = some claim
  claimCid : claim.cid = cid
  phase : service.core.phase = .processing
  activeCid : service.core.activeCid = cid
  generation : ∃ i, chanFind service.core cid = some i ∧
    (service.core.channels i).generation = claim.operationGeneration
  owner : ∀ task, caller = some task → claim.owner = task

theorem claimMatches_true {service : Service} {cid : UInt32} {caller : Option Task}
    {reads : ClaimReads} (matched : claimMatches service cid caller reads = true) :
    ∃ claim, Matched service cid caller reads claim := by
  rw [claimMatches] at matched
  cases current : service.claim with
  | none =>
      rw [current] at matched
      cases matched
  | some claim =>
      rw [current] at matched
      simp only at matched
      split at matched
      · cases matched
      rename_i open'
      simp only [not_or, ne_eq, not_not, Bool.not_eq_true, Bool.not_eq_false'] at open'
      rcases open' with ⟨-, cid', phase, active, -, -, -⟩
      cases found : chanFind service.core cid with
      | none =>
          rw [found] at matched
          cases matched
      | some i =>
          rw [found] at matched
          simp only at matched
          split at matched
          · cases matched
          rename_i current'
          refine ⟨claim, current, cid', phase, active, ⟨i, found, not_not.mp current'⟩, ?_⟩
          intro task given
          rw [given] at matched
          simpa using matched

/-- The channel of a successful check is the one that the core is processing. -/
theorem Matched.finishes {service : Service} {cid : UInt32} {caller : Option Task}
    {reads : ClaimReads} {claim : Claim} (matched : Matched service cid caller reads claim) :
    coreFinishResponse service.core cid claim.operationGeneration =
      clearActive service.core true := by
  rcases matched.generation with ⟨i, found, generation⟩
  rw [coreFinishResponse, if_neg (by simp [matched.phase, matched.activeCid]), found]
  simp only
  rw [if_neg (not_not.mpr generation)]

/-- The check on the claim that the core goes with: the reads decide. -/
theorem Holds.claimMatches {service : Service} {claim : Claim} (holds : Holds service.core claim)
    (valid : Valid service.core) (current : service.claim = some claim) {caller : Option Task}
    (owner : ∀ task, caller = some task → claim.owner = task) (reads : ClaimReads)
    (refused : P4Key.Hid.claimMatches service claim.cid caller reads = false) :
    reads.resetPending = true ∨ service.seenUsbGeneration ≠ claim.usbGeneration ∨
      reads.usbGeneration ≠ claim.usbGeneration ∨ reads.busReady = false := by
  by_contra fine
  simp only [not_or, ne_eq, not_not, Bool.not_eq_true, Bool.not_eq_false] at fine
  rcases fine with ⟨pending, seen, generation, ready⟩
  rcases holds.generation with ⟨i, owns, same⟩
  rw [P4Key.Hid.claimMatches, current] at refused
  simp only at refused
  rw [if_neg (by simp [pending, holds.phase, holds.activeCid, seen, generation, ready]),
    owns.chanFind valid.registered] at refused
  simp only at refused
  rw [if_neg (not_not.mpr same)] at refused
  cases caller with
  | none => cases refused
  | some task => simp [owner task rfl] at refused

theorem clearStaleClaim_cases (service : Service) (reads : ClaimReads) :
    (clearStaleClaim service reads).core = service.core ∧
    (clearStaleClaim service reads).seenUsbGeneration = service.seenUsbGeneration ∧
    (clearStaleClaim service reads).messageUsbGeneration = service.messageUsbGeneration ∧
    (clearStaleClaim service reads).resetEpoch = service.resetEpoch ∧
    ((clearStaleClaim service reads).claim = none ∨
      ∃ claim, (clearStaleClaim service reads).claim = some claim ∧
        Matched service claim.cid none reads claim) := by
  rw [clearStaleClaim]
  cases current : service.claim with
  | none => exact ⟨rfl, rfl, rfl, rfl, Or.inl current⟩
  | some claim =>
      simp only
      by_cases matched : claimMatches service claim.cid none reads = true
      · rw [if_pos matched]
        rcases claimMatches_true matched with ⟨same, facts⟩
        have equal : same = claim := Option.some.inj (facts.current.symm.trans current)
        rw [equal] at facts
        exact ⟨rfl, rfl, rfl, rfl, Or.inr ⟨claim, current, facts⟩⟩
      · rw [if_neg matched]
        exact ⟨rfl, rfl, rfl, rfl, Or.inl rfl⟩

theorem sendLocked_reports (cid : UInt32) (command : UInt8) (data : List UInt8)
    (reads : SendReads) :
    (sendLocked cid command data reads).2 =
      if reads.locked then (txSend cid command data fun k => reads.usb k == .ok).2 else [] := by
  rw [sendLocked]
  cases reads.locked with
  | false => rfl
  | true =>
      simp only [Bool.not_true, if_pos]
      rw [if_neg (by decide)]
      split <;> rfl

/-! What each region leaves. -/

theorem resetCore_linked (service : Service) : Linked (resetCore service) :=
  ⟨coreInit_valid, fun _ impossible => by cases impossible⟩

/-- A region that resets the core, or leaves core and claim as they were. -/
structure Observed (service : Service) (result : Service × Bool) : Prop where
  reset : result.2 = true → result.1.core = coreInit ∧ result.1.claim = none
  kept : result.2 = false → result.1.core = service.core ∧ result.1.claim = service.claim ∧
    result.1.messageUsbGeneration = service.messageUsbGeneration

theorem observeUsb_cases (service : Service) (generation : UInt32) (raced : Bool) :
    observeUsb service generation raced = (service, false) ∧ generation = service.seenUsbGeneration ∨
    raced = true ∧
      observeUsb service generation raced = ({ service with seenUsbGeneration := generation }, false) ∨
    raced = false ∧ observeUsb service generation raced =
      (resetCore { service with seenUsbGeneration := generation }, true) := by
  rw [observeUsb]
  split
  · cases raced with
    | true => exact Or.inr (Or.inl ⟨rfl, rfl⟩)
    | false => exact Or.inr (Or.inr ⟨rfl, rfl⟩)
  · rename_i same
    exact Or.inl ⟨rfl, not_not.mp same⟩

theorem observeUsb_observed (service : Service) (generation : UInt32) (raced : Bool) :
    Observed service (observeUsb service generation raced) := by
  rcases observeUsb_cases service generation raced with ⟨same, -⟩ | ⟨-, moved⟩ | ⟨-, reset⟩
  · rw [same]
    exact ⟨fun impossible => (by cases impossible), fun _ => ⟨rfl, rfl, rfl⟩⟩
  · rw [moved]
    exact ⟨fun impossible => (by cases impossible), fun _ => ⟨rfl, rfl, rfl⟩⟩
  · rw [reset]
    exact ⟨fun _ => ⟨rfl, rfl⟩, fun impossible => by cases impossible⟩

theorem Observed.linked {service : Service} {result : Service × Bool}
    (observed : Observed service result) (linked : Linked service) : Linked result.1 := by
  cases flag : result.2 with
  | true =>
      rcases observed.reset flag with ⟨core, claim⟩
      refine ⟨by rw [core]; exact coreInit_valid, ?_⟩
      intro other current
      rw [claim] at current
      cases current
  | false =>
      rcases observed.kept flag with ⟨core, claim, -⟩
      refine ⟨by rw [core]; exact linked.valid, ?_⟩
      intro other current
      rw [claim] at current
      rw [core]
      exact linked.claim other current

theorem admitReport_observes (service : Service) (epoch generation : UInt32) (reads : FeedReads) :
    ∃ accepted, admitReport service epoch generation reads =
      ((observeUsb (if reads.resetRequested then resetCore service else service)
          reads.currentUsbGeneration (decide (service.resetEpoch ≠ epoch) || reads.resetRequested)).1,
        accepted,
        reads.resetRequested ||
          (observeUsb (if reads.resetRequested then resetCore service else service)
            reads.currentUsbGeneration
            (decide (service.resetEpoch ≠ epoch) || reads.resetRequested)).2) ∧
      (accepted = true → reads.currentUsbGeneration = generation ∧ service.resetEpoch = epoch ∧
        reads.resetRequested = false) := by
  rw [admitReport]
  by_cases stale : reads.currentUsbGeneration ≠ generation
  · simp only [if_pos stale]
    exact ⟨_, rfl, fun impossible => by cases impossible⟩
  · simp only [if_neg stale]
    rw [not_not.mp stale]
    exact ⟨_, rfl, fun accepted => ⟨rfl, by simpa using accepted⟩⟩

theorem admitReport_observed (service : Service) (epoch usbGeneration : UInt32)
    (reads : FeedReads) :
    Observed service ((admitReport service epoch usbGeneration reads).1,
      (admitReport service epoch usbGeneration reads).2.2) := by
  rcases admitReport_observes service epoch usbGeneration reads with ⟨accepted, result, -⟩
  rw [result]
  cases requested : reads.resetRequested with
  | false =>
      simp only [Bool.false_or]
      exact observeUsb_observed service reads.currentUsbGeneration _
  | true =>
      have observed := observeUsb_observed (resetCore service) reads.currentUsbGeneration
        (decide (service.resetEpoch ≠ epoch) || true)
      rw [Bool.or_true] at observed
      refine ⟨fun _ => ?_, fun impossible => by simp at impossible⟩
      simp only [if_pos, Bool.or_true]
      cases flag : (observeUsb (resetCore service) reads.currentUsbGeneration true).2 with
      | true => exact observed.reset flag
      | false =>
          rcases observed.kept flag with ⟨core, claim, -⟩
          exact ⟨core, claim⟩

/-- What answering a report leaves of the claim: nothing, or all of it. -/
structure Handled (service : Service) (report : Report) (usbGeneration : UInt32)
    (reads : FeedReads) : Prop where
  valid : Valid (handleReport service report usbGeneration reads).1.core
  action : (handleReport service report usbGeneration reads).2.1 =
    (coreFeed service.core report reads.nowMs reads.draws).2
  claim : ∀ claim, (handleReport service report usbGeneration reads).1.claim = some claim →
    service.claim = some claim ∧
    (handleReport service report usbGeneration reads).1.core =
      (coreFeed service.core report reads.nowMs reads.draws).1 ∧
    Holds (coreFeed service.core report reads.nowMs reads.draws).1 claim ∧
    Continues service.core report (coreFeed service.core report reads.nowMs reads.draws)

theorem handleReport_core (service : Service) (report : Report) (usbGeneration : UInt32)
    (reads : FeedReads) (action : Action)
    (fed : action = (coreFeed service.core report reads.nowMs reads.draws).2) :
    (handleReport service report usbGeneration reads).1.core =
      if action.kind = .send ∧ action.data.length ≤ maxPayload ∧ action.generation ≠ 0 then
        coreFinishResponse (coreFeed service.core report reads.nowMs reads.draws).1 action.cid
          action.generation
      else (coreFeed service.core report reads.nowMs reads.draws).1 := by
  have same := (clearStaleClaim_cases
    { service with core := (coreFeed service.core report reads.nowMs reads.draws).1 }
    reads.claim).1
  rw [handleReport, ← fed]
  simp only
  by_cases send : action.kind = .send ∧ action.data.length ≤ maxPayload
  · rw [if_pos send]
    by_cases owned : action.generation ≠ 0
    · rw [if_pos owned, if_pos ⟨send.1, send.2, owned⟩]
      simp only [same]
    · rw [if_neg owned, if_neg (fun all => owned all.2.2)]
      exact same
  · have unsent : ¬ (action.kind = .send ∧ action.data.length ≤ maxPayload ∧
        action.generation ≠ 0) := fun all => send ⟨all.1, all.2.1⟩
    rw [if_neg send, if_neg unsent]
    split <;> exact same

theorem handleReport_claim (service : Service) (report : Report) (usbGeneration : UInt32)
    (reads : FeedReads) :
    (handleReport service report usbGeneration reads).1.claim =
      (clearStaleClaim { service with
        core := (coreFeed service.core report reads.nowMs reads.draws).1 } reads.claim).claim := by
  rw [handleReport]
  simp only
  split
  · split <;> rfl
  · split <;> rfl

theorem handleReport_action (service : Service) (report : Report) (usbGeneration : UInt32)
    (reads : FeedReads) :
    (handleReport service report usbGeneration reads).2.1 =
      (coreFeed service.core report reads.nowMs reads.draws).2 := by
  rw [handleReport]
  simp only
  split
  · rfl
  · split <;> rfl

theorem handleReport_handled (service : Service) (report : Report) (usbGeneration : UInt32)
    (reads : FeedReads) (linked : Linked service) :
    Handled service report usbGeneration reads := by
  have core := handleReport_core service report usbGeneration reads _ rfl
  have fedValid := coreFeed_valid service.core report reads.nowMs reads.draws linked.valid
  refine ⟨?_, handleReport_action service report usbGeneration reads, ?_⟩
  · rw [core]
    split
    · exact coreFinishResponse_valid _ _ _ fedValid
    · exact fedValid
  · intro claim current
    rw [handleReport_claim] at current
    rcases (clearStaleClaim_cases { service with
        core := (coreFeed service.core report reads.nowMs reads.draws).1 } reads.claim).2.2.2.2 with
      cleared | ⟨other, kept, matched⟩
    · rw [cleared] at current
      cases current
    · rw [kept] at current
      cases current
      have before : service.claim = some claim := matched.current
      have holds := linked.claim claim before
      have continues := linked.valid.feed_continues holds.phase report reads.nowMs reads.draws
        matched.phase
      have passive : ¬ ((coreFeed service.core report reads.nowMs reads.draws).2.kind = .send ∧
          (coreFeed service.core report reads.nowMs reads.draws).2.data.length ≤ maxPayload ∧
          (coreFeed service.core report reads.nowMs reads.draws).2.generation ≠ 0) :=
        fun all => all.2.2 (continues.generation all.1)
      rw [if_neg passive] at core
      rcases matched.generation with ⟨i, found, generation⟩
      exact ⟨before, core, ⟨matched.phase, matched.activeCid,
        continues.activeCommand.trans holds.activeCommand, holds.cbor,
        continues.messageReady.trans holds.messageReady, i, chanFind_some found, generation⟩,
        continues⟩

theorem Handled.linked {service : Service} {report : Report} {usbGeneration : UInt32}
    {reads : FeedReads} (handled : Handled service report usbGeneration reads) :
    Linked (handleReport service report usbGeneration reads).1 := by
  refine ⟨handled.valid, ?_⟩
  intro claim current
  rcases handled.claim claim current with ⟨-, core, holds, -⟩
  rw [core]
  exact holds

theorem hidTakeMsg_cases (service : Service) (task : Task) (cap : Nat) (reads : TakeReads)
    (valid : Valid service.core) :
    (∃ result, hidTakeMsg service task cap reads = (service, .refused result)) ∨
    (service.claim = none ∧ hidTakeMsg service task cap reads = (resetCore service, .reset)) ∨
    (reads.resetPending = false ∧ service.claim = none ∧ reads.busReady = true ∧
      reads.usbGeneration = service.seenUsbGeneration ∧ service.core.messageReady = true ∧
      reads.messageGeneration = service.messageUsbGeneration ∧
      hidTakeMsg service task cap reads =
        ({ service with
            core := releaseComplete service.core
            claim := some
              { cid := service.core.completeCid
                operationGeneration := service.core.completeGeneration
                usbGeneration := service.messageUsbGeneration
                command := service.core.completeCommand
                owner := task }
            messageUsbGeneration := 0 },
          .taken (handOffMessage service.core))) := by
  rw [hidTakeMsg]
  by_cases pending : reads.resetPending = true
  · rw [if_pos pending]
    exact Or.inl ⟨_, rfl⟩
  rw [if_neg pending]
  by_cases claimed : service.claim.isSome = true
  · rw [if_pos claimed]
    exact Or.inl ⟨_, rfl⟩
  rw [if_neg claimed]
  have free : service.claim = none := by simpa using claimed
  by_cases away : (!reads.busReady) = true ∨ reads.usbGeneration ≠ service.seenUsbGeneration
  · rw [if_pos away]
    exact Or.inl ⟨_, rfl⟩
  rw [if_neg away]
  by_cases stale : service.core.messageReady = true ∧
      reads.messageGeneration ≠ service.messageUsbGeneration
  · rw [if_pos stale]
    exact Or.inr (Or.inl ⟨free, rfl⟩)
  rw [if_neg stale]
  simp only [not_or, Bool.not_eq_true, Bool.not_eq_false', ne_eq, not_not] at away
  rcases coreTakeMessage_cases valid cap with ⟨error, same⟩ | ⟨ready, taken⟩
  · rw [same]
    cases error with
    | small => exact Or.inl ⟨_, rfl⟩
    | empty => exact Or.inl ⟨_, rfl⟩
  · rw [taken]
    have fresh : reads.messageGeneration = service.messageUsbGeneration :=
      by_contra fun other => stale ⟨ready, other⟩
    exact Or.inr (Or.inr ⟨by simpa using pending, free, away.1, away.2, ready, fresh, rfl⟩)

theorem taken_holds {core : Core} (valid : Valid core) (ready : core.messageReady = true)
    (usbGeneration : UInt32) (task : Task) :
    Holds (releaseComplete core)
      { cid := core.completeCid
        operationGeneration := core.completeGeneration
        usbGeneration := usbGeneration
        command := core.completeCommand
        owner := task } := by
  rcases valid.messageReady_iff.mp ready with ⟨i, running, record⟩
  have owner := running.owner
  rw [← record.completeCid] at owner
  exact ⟨running.phase, record.completeCid.symm, record.completeCommand.symm,
    record.completeCommand.trans record.activeCommand, rfl, i, owner,
    record.completeGeneration.symm⟩

theorem hidTakeMsg_linked {service : Service} (linked : Linked service) (task : Task) (cap : Nat)
    (reads : TakeReads) : Linked (hidTakeMsg service task cap reads).1 := by
  rcases hidTakeMsg_cases service task cap reads linked.valid with
    ⟨result, same⟩ | ⟨-, reset⟩ | ⟨-, -, -, -, ready, -, taken⟩
  · rw [same]
    exact linked
  · rw [reset]
    exact resetCore_linked service
  · rw [taken]
    refine ⟨releaseComplete_valid linked.valid ready, ?_⟩
    intro claim current
    cases current
    exact taken_holds linked.valid ready _ task

/-- What `hid_send_msg` leaves: it is refused, or it answers the claim and gives it up. -/
theorem hidSendMsg_cases (service : Service) (task : Task) (cid : UInt32) (command : UInt8)
    (data : List UInt8) (reads : ClaimReads) (send : SendReads) :
    hidSendMsg service task cid command data reads send = (service, .state, []) ∨
    ∃ claim, Matched service cid (some task) reads claim ∧ claim.command = command ∧
      hidSendMsg service task cid command data reads send =
        (clearClaim { service with
            core := coreFinishResponse service.core cid claim.operationGeneration },
          sendLocked cid command (responseData service claim cid command data) send) := by
  rw [hidSendMsg]
  cases current : service.claim with
  | none => exact Or.inl rfl
  | some claim =>
      simp only
      by_cases refused : (!claimMatches service cid (some task) reads) = true ∨
          claim.command ≠ command
      · rw [if_pos refused]
        exact Or.inl rfl
      · rw [if_neg refused]
        simp only [not_or, Bool.not_eq_true, Bool.not_eq_false', ne_eq, not_not] at refused
        rcases claimMatches_true refused.1 with ⟨other, matched⟩
        have equal : other = claim := Option.some.inj (matched.current.symm.trans current)
        rw [equal] at matched
        exact Or.inr ⟨claim, matched, refused.2, rfl⟩

theorem hidSendMsg_linked {service : Service} (linked : Linked service) (task : Task)
    (cid : UInt32) (command : UInt8) (data : List UInt8) (reads : ClaimReads) (send : SendReads) :
    Linked (hidSendMsg service task cid command data reads send).1 := by
  rcases hidSendMsg_cases service task cid command data reads send with
    refused | ⟨claim, -, -, answered⟩
  · rw [refused]
    exact linked
  · rw [answered]
    refine ⟨coreFinishResponse_valid _ _ _ linked.valid, ?_⟩
    intro other impossible
    cases impossible

theorem keepalive_agrees (channel : Channel) (ms : UInt32) (status : UInt8) :
    Channel.Agrees { channel with
      keepaliveSent := true, lastKeepaliveMs := ms, lastKeepaliveStatus := status } channel :=
  ⟨rfl, rfl, rfl, id, rfl, rfl, rfl, rfl, rfl, id⟩

theorem Holds.setChannel {core : Core} {claim : Claim} (holds : Holds core claim)
    (i : Fin channelCount) (channel : Channel) (agrees : channel.Agrees (core.channels i)) :
    Holds (core.setChannel i channel) claim := by
  rcases holds.generation with ⟨j, owns, generation⟩
  have same := setChannel_relates (R := Channel.Agrees) j .refl agrees
  exact ⟨holds.phase, holds.activeCid, holds.activeCommand, holds.cbor, holds.messageReady, j,
    ⟨same.allocated.trans owns.1, same.cid.trans owns.2⟩, same.generation.trans generation⟩

theorem hidKeepalive_cases (service : Service) (task : Task) (cid : UInt32) (status : UInt8)
    (reads : ClaimReads) (currentMs sentMs : UInt32) (send : SendReads) :
    ((hidKeepalive service task cid status reads currentMs sentMs send).1 = service ∨
      ∃ i channel, service.core.phase = .processing ∧ channel.Agrees (service.core.channels i) ∧
        channel.cancel = (service.core.channels i).cancel ∧
        (hidKeepalive service task cid status reads currentMs sentMs send).1 =
          { service with core := service.core.setChannel i channel }) ∧
    ((hidKeepalive service task cid status reads currentMs sentMs send).2.2 = [] ∨
      ∃ claim, Matched service cid (some task) reads claim ∧ claim.command = cmdCbor ∧
        coreCancelled service.core cid claim.operationGeneration = false) := by
  rw [hidKeepalive]
  by_cases unknown : status ≠ keepaliveProcessing ∧ status ≠ keepaliveUpNeeded
  · rw [if_pos unknown]
    exact ⟨Or.inl rfl, Or.inl rfl⟩
  rw [if_neg unknown]
  cases current : service.claim with
  | none => exact ⟨Or.inl rfl, Or.inl rfl⟩
  | some claim =>
      simp only
      by_cases refused : (!claimMatches service cid (some task) reads) = true ∨
          claim.command ≠ cmdCbor ∨ coreCancelled service.core cid claim.operationGeneration = true
      · rw [if_pos refused]
        exact ⟨Or.inl rfl, Or.inl rfl⟩
      · rw [if_neg refused]
        simp only [not_or, Bool.not_eq_true, Bool.not_eq_false', ne_eq, not_not] at refused
        rcases claimMatches_true refused.1 with ⟨other, matched⟩
        have equal : other = claim := Option.some.inj (matched.current.symm.trans current)
        rw [equal] at matched
        cases found : chanFind service.core cid with
        | none => exact ⟨Or.inl rfl, Or.inl rfl⟩
        | some i =>
            simp only
            split
            · exact ⟨Or.inl rfl, Or.inl rfl⟩
            · refine ⟨?_, Or.inr ⟨claim, matched, refused.2.1, refused.2.2⟩⟩
              split
              · exact Or.inr ⟨i, _, matched.phase, keepalive_agrees _ sentMs status, rfl, rfl⟩
              · exact Or.inl rfl

theorem hidKeepalive_linked {service : Service} (linked : Linked service) (task : Task)
    (cid : UInt32) (status : UInt8) (reads : ClaimReads) (currentMs sentMs : UInt32)
    (send : SendReads) :
    Linked (hidKeepalive service task cid status reads currentMs sentMs send).1 := by
  rcases (hidKeepalive_cases service task cid status reads currentMs sentMs send).1 with
    same | ⟨i, channel, -, agrees, -, remembered⟩
  · rw [same]
    exact linked
  · rw [remembered]
    refine ⟨linked.valid.setChannel i channel agrees, ?_⟩
    intro claim current
    exact (linked.claim claim current).setChannel i channel agrees

theorem hidClearCancel_cases (service : Service) (task : Task) (cid : UInt32) (reads : ClaimReads) :
    hidClearCancel service task cid reads = (service, false) ∨
    ∃ claim, Matched service cid (some task) reads claim ∧
      hidClearCancel service task cid reads =
        ({ service with core := coreClearCancel service.core cid claim.operationGeneration }, true) := by
  rw [hidClearCancel]
  cases current : service.claim with
  | none => exact Or.inl rfl
  | some claim =>
      simp only
      by_cases matched : claimMatches service cid (some task) reads = true
      · rw [if_pos matched]
        rcases claimMatches_true matched with ⟨other, facts⟩
        have equal : other = claim := Option.some.inj (facts.current.symm.trans current)
        rw [equal] at facts
        exact Or.inr ⟨claim, facts, rfl⟩
      · rw [if_neg matched]
        exact Or.inl rfl

theorem hidClearCancel_linked {service : Service} (linked : Linked service) (task : Task)
    (cid : UInt32) (reads : ClaimReads) :
    Linked (hidClearCancel service task cid reads).1 := by
  rcases hidClearCancel_cases service task cid reads with same | ⟨claim, -, cleared⟩
  · rw [same]
    exact linked
  · rw [cleared]
    refine ⟨coreClearCancel_valid _ _ _ linked.valid, ?_⟩
    intro other current
    rcases coreClearCancel_cases service.core cid claim.operationGeneration with
      unchanged | ⟨i, -, -, -, -, result⟩
    · simp only [unchanged]
      exact linked.claim other current
    · simp only [result]
      exact (linked.claim other current).setChannel i _ (Channel.Agrees.uncancel _)

end P4Key.Hid
