import P4Key.Ctaphid.Cancel
import P4Key.Ctaphid.Echo
import P4Key.Hid.Pairing

/-! Why a request that nobody answers does not stay.

Either the worker that has taken it is still at work, or the transport task will find
out: a reset is requested, or the connection is another one. -/

namespace P4Key.Hid

open Memory P4Key.Ctaphid P4Key.Usb

/-- Where the loop of the worker is: about to call `hid_take_msg`, or between a message and its
answer. -/
inductive Place where
  | top
  | dispatching (cid : UInt32) (command : UInt8)
  deriving DecidableEq, Repr

def TakeOutcome.place : TakeOutcome → Place
  | .taken message => .dispatching message.cid message.command
  | _ => .top

/-- The transport task has yet to reset the core. -/
def Stale (service : Service) (flags : Flags) : Prop :=
  flags.resetRequested = true ∨ usbUnmountGeneration flags.bus ≠ service.seenUsbGeneration

theorem Stale.drift {service : Service} {flags last : Flags} (stale : Stale service flags)
    (drift : Drifts flags last) (avoids : Avoids service.seenUsbGeneration flags last) :
    Stale service last := by
  rcases stale with requested | moved
  · exact Or.inl (drift.requested requested)
  · refine Or.inr fun current => moved ?_
    rw [usbUnmountGeneration, ← drift.stays avoids current]
    exact current

theorem ClaimReads.Along.drifts {reads : ClaimReads} {start last : Flags}
    (along : reads.Along start last) : Drifts start last := by
  rcases along with ⟨first, second, third, d₁, -, d₂, -, d₃, -, d₄⟩
  exact ((d₁.trans d₂).trans d₃).trans d₄

theorem TakeReads.Along.drifts {reads : TakeReads} {start last : Flags}
    (along : reads.Along start last) : Drifts start last := by
  rcases along with ⟨first, second, third, fourth, d₁, -, d₂, -, d₃, -, d₄, -, d₅⟩
  exact (((d₁.trans d₂).trans d₃).trans d₄).trans d₅

structure Sound (worker : Task) (service : Service) (flags : Flags) (place : Place) : Prop where
  linked : Linked service
  request : ∀ cid command, place = .dispatching cid command → cid ≠ 0 ∧ command = cmdCbor
  message : service.core.messageReady = true →
    service.messageUsbGeneration = service.seenUsbGeneration
  connected : ∀ claim, service.claim = some claim →
    claim.usbGeneration = service.seenUsbGeneration ∧
      (usbUnmountGeneration flags.bus = service.seenUsbGeneration → flags.bus.ready = true)
  held : ∀ claim, service.claim = some claim →
    (place = .dispatching claim.cid claim.command ∧ claim.owner = worker) ∨ Stale service flags
  waiting : service.core.phase = .processing → service.core.messageReady = false →
    service.claim = none → Stale service flags

theorem Linked.no_claim {service : Service} (linked : Linked service)
    (phase : service.core.phase ≠ .processing) : service.claim = none := by
  cases current : service.claim with
  | none => rfl
  | some claim => exact absurd (linked.claim claim current).phase phase

theorem Sound.of_quiet {worker : Task} {service : Service} {flags : Flags} {place : Place}
    (linked : Linked service)
    (request : ∀ cid command, place = .dispatching cid command → cid ≠ 0 ∧ command = cmdCbor)
    (phase : service.core.phase ≠ .processing) : Sound worker service flags place := by
  have free := linked.no_claim phase
  refine ⟨linked, request, ?_, ?_, ?_, fun running => absurd running phase⟩
  · intro ready
    rw [linked.valid.not_ready phase] at ready
    cases ready
  · intro claim current
    rw [free] at current
    cases current
  · intro claim current
    rw [free] at current
    cases current

theorem Sound.of_fresh {worker : Task} {service : Service} {flags : Flags} {place : Place}
    (fresh : service.core = coreInit ∧ service.claim = none)
    (request : ∀ cid command, place = .dispatching cid command → cid ≠ 0 ∧ command = cmdCbor) :
    Sound worker service flags place := by
  have phase : service.core.phase = .idle := by rw [fresh.1]; rfl
  apply Sound.of_quiet
  · refine ⟨by rw [fresh.1]; exact coreInit_valid, ?_⟩
    intro claim current
    rw [fresh.2] at current
    cases current
  · exact request
  · rw [phase]
    decide

section Steps

variable {worker : Task} {service : Service} {flags last : Flags} {place : Place}

theorem Sound.drift (sound : Sound worker service flags place) (drift : Drifts flags last)
    (avoids : service.core.phase = .processing →
      Avoids service.seenUsbGeneration flags last) : Sound worker service last place := by
  refine ⟨sound.linked, sound.request, sound.message, ?_, ?_, ?_⟩
  · intro claim current
    have away := avoids (sound.linked.claim claim current).phase
    refine ⟨(sound.connected claim current).1, ?_⟩
    intro here
    have same := drift.stays away here
    apply drift.ready _ same
    apply (sound.connected claim current).2
    rw [usbUnmountGeneration, ← same]
    exact here
  · intro claim current
    rcases sound.held claim current with working | stale
    · exact Or.inl working
    · exact Or.inr (stale.drift drift (avoids (sound.linked.claim claim current).phase))
  · intro phase ready free
    exact (sound.waiting phase ready free).drift drift (avoids phase)

/-- A check that fails although the core goes with the claim has seen why. -/
theorem Sound.refused (sound : Sound worker service flags place) {claim : Claim}
    (current : service.claim = some claim) {core : Core} (holds : Holds core claim)
    (valid : Valid core) {caller : Option Task}
    (owner : ∀ task, caller = some task → claim.owner = task) {reads : ClaimReads}
    (along : reads.Along flags last) (avoids : Avoids service.seenUsbGeneration flags last)
    (refused : claimMatches { service with core := core } claim.cid caller reads = false) :
    Stale service last := by
  have connected := sound.connected claim current
  rcases along with ⟨first, second, third, d₁, pending, d₂, generation, d₃, ready, d₄⟩
  by_contra fine
  simp only [Stale, not_or, ne_eq, not_not] at fine
  have rest := d₃.trans d₄
  have reached : usbUnmountGeneration second.bus = service.seenUsbGeneration := by
    have still := rest.stays (avoids.part (d₁.trans d₂) .refl) fine.2
    rw [usbUnmountGeneration, ← still]
    exact fine.2
  rcases @Holds.claimMatches { service with core := core } claim holds valid current caller owner reads
      refused with reset | unseen | moved | away
  · rw [pending] at reset
    exact fine.1 (((d₂.trans d₃).trans d₄).requested reset)
  · exact unseen connected.1.symm
  · rw [generation, connected.1] at moved
    exact moved reached
  · have whole := (d₁.trans d₂).trans d₃
    have still := (whole.trans d₄).stays avoids fine.2
    have before : usbUnmountGeneration flags.bus = service.seenUsbGeneration := by
      rw [usbUnmountGeneration, ← still]
      exact fine.2
    have same : third.bus.generation = flags.bus.generation :=
      Nat.le_antisymm (still ▸ d₄.generation) whole.generation
    rw [ready, usbReady, whole.ready (connected.2 before) same] at away
    cases away

theorem Sound.touched (sound : Sound worker service flags place) {core : Core}
    (linked : Linked { service with core := core }) (phase : core.phase = service.core.phase)
    (ready : core.messageReady = service.core.messageReady) :
    Sound worker { service with core := core } flags place := by
  refine ⟨linked, sound.request, ?_, sound.connected, sound.held, ?_⟩
  · simp only [ready]
    exact sound.message
  · simp only [ready, phase]
    exact sound.waiting

theorem Sound.keptAlive (sound : Sound worker service flags place) (task : Task) (cid : UInt32)
    (status : UInt8) (reads : ClaimReads) (currentMs sentMs : UInt32) (send : SendReads) :
    Sound worker (hidKeepalive service task cid status reads currentMs sentMs send).1 flags
      place := by
  rcases (hidKeepalive_cases service task cid status reads currentMs sentMs send).1 with
    same | ⟨i, channel, -, -, -, remembered⟩
  · rw [same]
    exact sound
  · have linked := hidKeepalive_linked sound.linked task cid status reads currentMs sentMs send
    rw [remembered] at linked ⊢
    exact sound.touched linked rfl rfl

theorem Sound.uncancelled (sound : Sound worker service flags place) (task : Task) (cid : UInt32)
    (reads : ClaimReads) : Sound worker (hidClearCancel service task cid reads).1 flags place := by
  have linked := hidClearCancel_linked sound.linked task cid reads
  rcases hidClearCancel_cases service task cid reads with same | ⟨claim, -, cleared⟩
  · rw [same]
    exact sound
  · rw [cleared] at linked ⊢
    rcases coreClearCancel_cases service.core cid claim.operationGeneration with
      unchanged | ⟨i, -, -, -, -, result⟩
    · simp only [unchanged]
      exact sound
    · simp only [result] at linked ⊢
      exact sound.touched linked rfl rfl

theorem Sound.cleaned (sound : Sound worker service flags place) (nowMs : UInt32)
    (linked : Linked { service with core := coreCleanup service.core nowMs }) :
    Sound worker { service with core := coreCleanup service.core nowMs } flags place := by
  by_cases running : (coreCleanup service.core nowMs).phase = .processing
  · have before := sound.linked.valid.cleanup_running nowMs running
    simp only [coreCleanup_of_processing before nowMs]
    exact sound
  · exact .of_quiet linked sound.request running

theorem Sound.synced (sound : Sound worker service flags place) (generation : UInt32) :
    Sound worker (syncUsbBeforeTake service generation).1 flags place := by
  rw [syncUsbBeforeTake, observeUsb]
  by_cases changed : generation ≠ service.seenUsbGeneration
  · rw [if_pos changed]
    exact .of_fresh ⟨rfl, rfl⟩ sound.request
  · rw [if_neg changed]
    exact sound

/-! The calls of the worker. -/

theorem Sound.took (sound : Sound worker service flags .top) (cap : Nat) (reads : TakeReads)
    (along : reads.Along flags last)
    (avoids : service.core.phase = .processing →
      Avoids service.seenUsbGeneration flags last) :
    Sound worker (hidTakeMsg service worker cap reads).1 last
      (hidTakeMsg service worker cap reads).2.place := by
  have linked := hidTakeMsg_linked sound.linked worker cap reads
  have top : ∀ cid command, Place.top = .dispatching cid command → cid ≠ 0 ∧ command = cmdCbor :=
    fun _ _ impossible => by cases impossible
  rcases hidTakeMsg_cases service worker cap reads sound.linked.valid with
    ⟨result, same⟩ | ⟨-, reset⟩ | ⟨pending, free, ready, current, full, fresh, taken⟩
  · rw [same]
    exact sound.drift along.drifts avoids
  · rw [reset]
    exact .of_fresh ⟨rfl, rfl⟩ top
  · rw [taken] at linked ⊢
    have holds := linked.claim _ rfl
    have phase : service.core.phase = .processing := holds.phase
    have away := avoids phase
    have stamp := sound.message full
    refine ⟨linked, ?_, ?_, ?_, ?_, ?_⟩
    · intro cid command here
      cases here
      rcases holds.generation with ⟨i, owns, -⟩
      have proper := linked.valid.registered.assigned i owns.1
      rw [owns.2] at proper
      exact ⟨proper.1, holds.cbor⟩
    · intro impossible
      cases impossible
    · intro claim held
      cases held
      refine ⟨stamp, ?_⟩
      intro here
      rcases along with ⟨first, second, third, fourth, d₁, -, d₂, busReady, d₃, generation, d₄, -, d₅⟩
      have rest := d₄.trans d₅
      have reached : usbUnmountGeneration third.bus = service.seenUsbGeneration :=
        generation.symm.trans current
      have before := d₃.stays (away.part (d₁.trans d₂) rest) reached
      have after := rest.stays (away.part ((d₁.trans d₂).trans d₃) .refl) here
      rw [ready] at busReady
      exact (d₃.trans rest).ready busReady.symm (after.trans before)
    · intro claim held
      cases held
      exact Or.inl ⟨rfl, rfl⟩
    · intro _ _ impossible
      cases impossible

theorem hidSendMsg_kept (task : Task) (cid : UInt32) (command : UInt8) (data : List UInt8)
    (reads : ClaimReads) (send : SendReads) {claim : Claim}
    (kept : (hidSendMsg service task cid command data reads send).1.claim = some claim) :
    service.claim = some claim ∧
      (claimMatches service cid (some task) reads = false ∨ claim.command ≠ command) := by
  rw [hidSendMsg] at kept
  cases current : service.claim with
  | none =>
      rw [current] at kept
      exact absurd (current.symm.trans kept) (by simp)
  | some other =>
      rw [current] at kept
      simp only at kept
      by_cases refused : (!claimMatches service cid (some task) reads) = true ∨
          other.command ≠ command
      · rw [if_pos refused] at kept
        have same := Option.some.inj (current.symm.trans kept)
        rw [same] at refused ⊢
        rcases refused with unmatched | different
        · exact ⟨rfl, Or.inl (by simpa using unmatched)⟩
        · exact ⟨rfl, Or.inr different⟩
      · rw [if_neg refused] at kept
        cases kept

theorem Sound.answered {cid : UInt32} {command : UInt8}
    (sound : Sound worker service flags (.dispatching cid command)) (data : List UInt8)
    (reads : ClaimReads) (send : SendReads) (along : reads.Along flags last)
    (avoids : service.core.phase = .processing →
      Avoids service.seenUsbGeneration flags last) :
    Sound worker (hidSendMsg service worker cid command data reads send).1 last .top := by
  have linked := hidSendMsg_linked sound.linked worker cid command data reads send
  have top : ∀ cid command, Place.top = .dispatching cid command → cid ≠ 0 ∧ command = cmdCbor :=
    fun _ _ impossible => by cases impossible
  have drifted := sound.drift along.drifts avoids
  have kept := @hidSendMsg_kept service worker cid command data reads send
  rcases hidSendMsg_cases service worker cid command data reads send with
    refused | ⟨claim, matched, -, answered⟩
  · rw [refused] at kept ⊢
    refine ⟨sound.linked, top, sound.message, drifted.connected, ?_, drifted.waiting⟩
    intro claim current
    have holds := sound.linked.claim claim current
    have away := avoids holds.phase
    rcases sound.held claim current with ⟨working, owner⟩ | stale
    · cases working
      rcases (kept current).2 with unmatched | different
      · apply Or.inr
        exact sound.refused current holds sound.linked.valid
          (fun task same => owner.trans (Option.some.inj same)) along away unmatched
      · exact absurd rfl different
    · exact Or.inr (stale.drift along.drifts away)
  · rw [answered] at linked ⊢
    have ended : coreFinishResponse service.core cid claim.operationGeneration =
        clearActive service.core true := matched.finishes
    have idle := sound.linked.valid.clearActive_idle.phase
    rw [← ended] at idle
    apply Sound.of_quiet linked top
    simp only [clearClaim, idle]
    decide

/-! The report of the transport task. -/

theorem handleReport_stamps (report : Report) (usbGeneration : UInt32) (reads : FeedReads) :
    (handleReport service report usbGeneration reads).1.seenUsbGeneration =
        service.seenUsbGeneration ∧
      (handleReport service report usbGeneration reads).1.messageUsbGeneration =
        if (coreFeed service.core report reads.nowMs reads.draws).2.kind = .message then usbGeneration
        else service.messageUsbGeneration := by
  have stale := clearStaleClaim_cases
    { service with core := (coreFeed service.core report reads.nowMs reads.draws).1 } reads.claim
  rw [handleReport]
  simp only
  by_cases send : (coreFeed service.core report reads.nowMs reads.draws).2.kind = .send ∧
      (coreFeed service.core report reads.nowMs reads.draws).2.data.length ≤ maxPayload
  · have other : (coreFeed service.core report reads.nowMs reads.draws).2.kind ≠ .message := by
      rw [send.1]
      decide
    rw [if_pos send, if_neg other]
    split
    · exact ⟨stale.2.1, stale.2.2.1⟩
    · exact ⟨stale.2.1, stale.2.2.1⟩
  · rw [if_neg send]
    split
    · exact ⟨stale.2.1, rfl⟩
    · exact ⟨stale.2.1, stale.2.2.1⟩

theorem clearStaleClaim_gone {reads : ClaimReads} {claim : Claim}
    (current : service.claim = some claim)
    (gone : (clearStaleClaim service reads).claim = none) :
    claimMatches service claim.cid none reads = false := by
  rw [Bool.eq_false_iff]
  intro matched
  rw [clearStaleClaim, current] at gone
  simp only at gone
  rw [if_pos matched, current] at gone
  cases gone

theorem Sound.handled_continued (sound : Sound worker service flags place) (report : Report)
    (reads : FeedReads) (along : reads.claim.Along flags last)
    (before : service.core.phase = .processing)
    (after : (coreFeed service.core report reads.nowMs reads.draws).1.phase = .processing)
    (avoids : Avoids service.seenUsbGeneration flags last) :
    Sound worker (handleReport service report service.seenUsbGeneration reads).1 last place := by
  have valid := sound.linked.valid
  have handled := handleReport_handled service report service.seenUsbGeneration reads sound.linked
  have core := handleReport_core service report service.seenUsbGeneration reads _ rfl
  have stamps := @handleReport_stamps service report service.seenUsbGeneration reads
  have claimed := handleReport_claim service report service.seenUsbGeneration reads
  have fedValid := coreFeed_valid service.core report reads.nowMs reads.draws valid
  have linked := handled.linked
  have kept := fun claim current => (handled.claim claim current).1
  generalize (handleReport service report service.seenUsbGeneration reads).1 = next at *
  have continues := valid.feed_continues before report reads.nowMs reads.draws after
  rw [if_neg (fun all => all.2.2 (continues.generation all.1))] at core
  rw [if_neg continues.kind] at stamps
  have drifted := sound.drift along.drifts (fun _ => avoids)
  refine ⟨linked, sound.request, ?_, ?_, ?_, ?_⟩
  · rw [core, continues.messageReady, stamps.1, stamps.2]
    exact sound.message
  · intro claim current
    rw [stamps.1]
    exact drifted.connected claim (kept claim current)
  · intro claim current
    rw [Stale, stamps.1]
    exact drifted.held claim (kept claim current)
  · intro _ ready free
    rw [core, continues.messageReady] at ready
    rw [Stale, stamps.1]
    cases current : service.claim with
    | none => exact drifted.waiting before ready current
    | some claim =>
        have holds := sound.linked.claim claim current
        rcases holds.generation with ⟨i, owns, generation⟩
        rw [← holds.activeCid] at owns
        have effect := valid.feed_cancel before (holds.activeCommand.trans holds.cbor) report
          reads.nowMs reads.draws after owns
        rw [holds.activeCid] at effect
        have still : Holds (coreFeed service.core report reads.nowMs reads.draws).1 claim :=
          ⟨after, continues.activeCid.trans holds.activeCid,
            continues.activeCommand.trans holds.activeCommand, holds.cbor,
            continues.messageReady.trans holds.messageReady, i, effect.1,
            effect.2.1.trans generation⟩
        rw [claimed] at free
        exact sound.refused current still fedValid (fun _ impossible => by cases impossible) along
          avoids (clearStaleClaim_gone current free)

theorem Sound.handled_completed (sound : Sound worker service flags place) (report : Report)
    (reads : FeedReads)
    (counted : Echo (coreFeed service.core report reads.nowMs reads.draws).2 →
      ¬ Unnumbered service.core report)
    (before : service.core.phase ≠ .processing)
    (after : (coreFeed service.core report reads.nowMs reads.draws).1.phase = .processing) :
    Sound worker (handleReport service report service.seenUsbGeneration reads).1 last place := by
  have valid := sound.linked.valid
  have handled := handleReport_handled service report service.seenUsbGeneration reads sound.linked
  have core := handleReport_core service report service.seenUsbGeneration reads _ rfl
  have stamps := @handleReport_stamps service report service.seenUsbGeneration reads
  have fedValid := coreFeed_valid service.core report reads.nowMs reads.draws valid
  have linked := handled.linked
  have kept := fun claim current => (handled.claim claim current).1
  generalize (handleReport service report service.seenUsbGeneration reads).1 = next at *
  rcases valid.feed_completes report reads.nowMs reads.draws before after with
    ⟨middle, i, assembling, result⟩
  by_cases ping : middle.activeCommand = cmdPing
  · have echo : Echo (coreFeed service.core report reads.nowMs reads.draws).2 := by
      rw [result, assembling.completeMessage_eq, if_pos ping]
      exact ⟨rfl, rfl⟩
    have finished := coreFeed_finished valid echo (counted echo)
    rw [if_pos ⟨finished.1, finished.2.1, finished.2.2.1⟩, finished.2.2.2] at core
    have idle : next.core.phase = .idle := by
      rw [core]
      exact fedValid.clearActive_idle.phase
    exact .of_quiet linked sound.request (by rw [idle]; decide)
  · rw [assembling.completeMessage_eq, if_neg ping] at result
    rw [result] at core stamps after
    have whole : next.core = handedOff middle i := core
    have stamped : next.messageUsbGeneration = service.seenUsbGeneration := stamps.2
    have free := sound.linked.no_claim before
    have unclaimed : next.claim = none := by
      cases current : next.claim with
      | none => rfl
      | some claim =>
          have earlier := kept claim current
          rw [free] at earlier
          cases earlier
    refine ⟨linked, sound.request, ?_, ?_, ?_, ?_⟩
    · intro _
      rw [stamped, stamps.1]
    · intro claim current
      rw [unclaimed] at current
      cases current
    · intro claim current
      rw [unclaimed] at current
      cases current
    · intro _ unready
      rw [whole] at unready
      cases unready

theorem Sound.handled (sound : Sound worker service flags place) (report : Report)
    (reads : FeedReads)
    (counted : Echo (coreFeed service.core report reads.nowMs reads.draws).2 →
      ¬ Unnumbered service.core report)
    (along : reads.claim.Along flags last)
    (avoids : service.core.phase = .processing →
      Avoids service.seenUsbGeneration flags last) :
    Sound worker (handleReport service report service.seenUsbGeneration reads).1 last place := by
  by_cases after : (coreFeed service.core report reads.nowMs reads.draws).1.phase = .processing
  · by_cases before : service.core.phase = .processing
    · exact sound.handled_continued report reads along before after (avoids before)
    · exact sound.handled_completed report reads counted before after
  · have linked :=
      (handleReport_handled service report service.seenUsbGeneration reads sound.linked).linked
    have quiet : (handleReport service report service.seenUsbGeneration reads).1.core =
        (coreFeed service.core report reads.nowMs reads.draws).1 := by
      rw [handleReport_core service report service.seenUsbGeneration reads _ rfl]
      split
      · rcases coreFinishResponse_cases (coreFeed service.core report reads.nowMs reads.draws).1 _ _
          with same | ⟨i, running, -⟩
        · exact same
        · exact absurd running after
      · rfl
    apply Sound.of_quiet linked sound.request
    rw [quiet]
    exact after

theorem observeUsb_seen (service : Service) (generation : UInt32) (raced : Bool) :
    (observeUsb service generation raced).1.seenUsbGeneration = generation := by
  rcases observeUsb_cases service generation raced with ⟨same, seen⟩ | ⟨-, moved⟩ | ⟨-, reset⟩
  · rw [same]
    exact seen.symm
  · rw [moved]
  · rw [reset]
    rfl

theorem admitReport_cases (service : Service) (epoch usbGeneration : UInt32) (reads : FeedReads) :
    ((admitReport service epoch usbGeneration reads).2.1 = true →
      (admitReport service epoch usbGeneration reads).1.seenUsbGeneration = usbGeneration) ∧
    (((admitReport service epoch usbGeneration reads).1.core = coreInit ∧
        (admitReport service epoch usbGeneration reads).1.claim = none) ∨
      (reads.resetRequested = false ∧
        (admitReport service epoch usbGeneration reads).1 = service) ∨
      (service.resetEpoch ≠ epoch ∧ (admitReport service epoch usbGeneration reads).2.1 = false ∧
        (admitReport service epoch usbGeneration reads).1.core = service.core ∧
        (admitReport service epoch usbGeneration reads).1.claim = service.claim)) := by
  rcases admitReport_observes service epoch usbGeneration reads with ⟨accepted, result, admits⟩
  rw [result]
  constructor
  · intro feeds
    rw [observeUsb_seen]
    exact (admits feeds).1
  cases requested : reads.resetRequested with
  | true =>
      have observed := observeUsb_observed (resetCore service) reads.currentUsbGeneration
        (decide (service.resetEpoch ≠ epoch) || true)
      simp only [if_pos]
      refine Or.inl ?_
      cases flag : (observeUsb (resetCore service) reads.currentUsbGeneration
          (decide (service.resetEpoch ≠ epoch) || true)).2 with
      | true => exact observed.reset flag
      | false => exact ⟨(observed.kept flag).1, (observed.kept flag).2.1⟩
  | false =>
      simp only [Bool.or_false, Bool.false_eq_true, if_false]
      rcases observeUsb_cases service reads.currentUsbGeneration
        (decide (service.resetEpoch ≠ epoch)) with ⟨same, -⟩ | ⟨raced, moved⟩ | ⟨-, reset⟩
      · rw [same]
        exact Or.inr (Or.inl ⟨trivial, rfl⟩)
      · have overtaken := of_decide_eq_true raced
        have rejected : accepted = false := by
          rw [Bool.eq_false_iff]
          intro feeds
          exact overtaken (admits feeds).2.1
        rw [moved]
        exact Or.inr (Or.inr ⟨overtaken, rejected, rfl, rfl⟩)
      · rw [reset]
        exact Or.inl ⟨rfl, rfl⟩

theorem transportReport_core (service : Service) (epoch : UInt32) (report : Report)
    (usbGeneration : UInt32) (reads : FeedReads) :
    (transportReport service epoch report usbGeneration reads).1 =
      if (admitReport service epoch usbGeneration reads).2.1 = true then
        (handleReport (admitReport service epoch usbGeneration reads).1 report usbGeneration reads).1
      else (admitReport service epoch usbGeneration reads).1 := by
  rw [transportReport_eq]
  simp only
  split <;> rfl

theorem Sound.reported (sound : Sound worker service flags place) (epoch : UInt32)
    (overtaken : service.resetEpoch ≠ epoch → service.core.phase ≠ .processing) (report : Report)
    (usbGeneration : UInt32) (reads : FeedReads)
    (counted : ∀ action sent,
      (transportReport service epoch report usbGeneration reads).2.2 = .fed action sent →
        Echo action → ¬ Unnumbered service.core report)
    (along : reads.Along flags last)
    (avoids : service.core.phase = .processing →
      Avoids service.seenUsbGeneration flags last) :
    Sound worker (transportReport service epoch report usbGeneration reads).1 last place := by
  rcases along with ⟨first, second, d₁, -, d₂, flag, along⟩
  have cases' := admitReport_cases service epoch usbGeneration reads
  have fed : (admitReport service epoch usbGeneration reads).2.1 = true →
      Echo (coreFeed (admitReport service epoch usbGeneration reads).1.core report reads.nowMs
        reads.draws).2 → ¬ Unnumbered service.core report := by
    intro accepted echo
    have outcome := congrArg (fun result => result.2.2)
      (transportReport_eq service epoch report usbGeneration reads)
    simp only [if_pos accepted] at outcome
    apply counted _ _ outcome
    rw [handleReport_action]
    exact echo
  rw [transportReport_core]
  generalize admitReport service epoch usbGeneration reads = admitted at cases' fed ⊢
  rcases cases' with ⟨stamp, fresh | ⟨calm, same⟩ | ⟨raced, rejected, core, claim⟩⟩
  · have reset : Sound worker admitted.1 second.taken place := .of_fresh fresh sound.request
    have idle : admitted.1.core.phase = .idle := by rw [fresh.1]; rfl
    split
    · rename_i accepted
      rw [← stamp accepted]
      apply reset.handled report reads _ along
      · intro running
        rw [idle] at running
        cases running
      · -- a core that was just reset has no channels
        rintro - ⟨i, owns, -⟩
        rw [fresh.1] at owns
        cases owns.1
    · exact .of_fresh fresh sound.request
  · have here : second.taken = second := by
      rw [Flags.taken, ← calm, flag]
    rw [here] at along
    rw [same] at stamp fed ⊢
    have away := fun running => (avoids running).part .refl along.drifts
    have moved := sound.drift (d₁.trans d₂) away
    have rest := fun running => (avoids running).part (d₁.trans d₂) .refl
    split
    · rename_i accepted
      rw [← stamp accepted]
      exact moved.handled report reads (fed accepted) along rest
    · exact moved.drift along.drifts rest
  · rw [if_neg (by rw [rejected]; decide)]
    have phase := overtaken raced
    apply Sound.of_quiet
    · refine ⟨by rw [core]; exact sound.linked.valid, ?_⟩
      intro other current
      rw [claim, sound.linked.no_claim phase] at current
      cases current
    · exact sound.request
    · rw [core]
      exact phase

end Steps

end P4Key.Hid
