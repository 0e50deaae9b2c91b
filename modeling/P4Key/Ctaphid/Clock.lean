import P4Key.Ctaphid.Completion
import P4Key.Ctaphid.Tombstones

/-! Calls on a clock that is a `uint32_t`, and what each of them does to a request. -/

namespace P4Key.Ctaphid

open Memory

def Event.nowMs : Event → Option UInt32
  | .fed _ nowMs _ => some nowMs
  | .cleaned nowMs => some nowMs
  | _ => none

/-- A call, the core that it found and the real time in milliseconds. -/
structure Call where
  core : Core
  time : Nat
  event : Event

structure Clocked where
  core : Core
  time : Nat

/-- The clock goes on between two feeds or cleanups, by less than 2^32 - 500 ms. -/
inductive ClockStep : Clocked → Call → Clocked → Prop where
  | timed (state : Clocked) (event : Event) (next : Core) (step : CoreStep state.core event next)
      (time : Nat) (reads : event.nowMs = some (UInt32.ofNat time)) (order : state.time ≤ time)
      (near : time < state.time + (2 ^ 32 - 500)) :
      ClockStep state ⟨state.core, time, event⟩ ⟨next, time⟩
  | untimed (state : Clocked) (event : Event) (next : Core) (step : CoreStep state.core event next)
      (reads : event.nowMs = none) :
      ClockStep state ⟨state.core, state.time, event⟩ ⟨next, state.time⟩

abbrev ClockRun (start : Nat) : List Call → Clocked → Prop := Runs.Run ClockStep ⟨coreInit, start⟩

/-- A packet that is accepted into a request of the channel. The core is that behind the cleanup. -/
def stores (core : Core) (cid : UInt32) (report : Report) (action : Action) : Bool :=
  report.cid == cid && action.command != cmdError &&
    (report.requests ||
      !report.isInitial && decide (core.phase = .rx) && core.activeCid == cid)

def Call.accepts (call : Call) (cid : UInt32) : Bool :=
  match call.event with
  | .fed report nowMs action => stores (coreCleanup call.core nowMs) cid report action
  | _ => false

def Call.drops (call : Call) (cid : UInt32) : Bool :=
  match call.event.nowMs with
  | some nowMs =>
      decide (call.core.phase = .rx) && call.core.activeCid == cid &&
        decide ((coreCleanup call.core nowMs).phase = .idle)
  | none => false

def lastAccepted (past : List Call) (cid : UInt32) : Option Nat :=
  (past.filter fun call => call.accepts cid).getLast?.map Call.time

theorem lastAccepted_snoc (past : List Call) (call : Call) (cid : UInt32) :
    lastAccepted (past ++ [call]) cid =
      if call.accepts cid = true then some call.time else lastAccepted past cid := by
  rw [lastAccepted, List.filter_append]
  by_cases accepted : call.accepts cid = true
  · simp [accepted]
  · simp [accepted, lastAccepted]

/-- A request of the channel was dropped, and the channel is not told yet. -/
def owed (past : List Call) (cid : UInt32) : Bool :=
  Runs.latch (fun call => call.drops cid && !settles cid call.event)
    (fun call => settles cid call.event) past

theorem owed_snoc (past : List Call) (call : Call) (cid : UInt32) :
    owed (past ++ [call]) cid = ((call.drops cid || owed past cid) && !settles cid call.event) := by
  rw [owed, Runs.latch_snoc, Runs.latchStep, ← owed, ← Bool.and_or_distrib_right]

/-! The clock. -/

theorem timeExpired_ofNat {time last : Nat} (order : last ≤ time) (near : time < last + 2 ^ 32) :
    timeExpired (UInt32.ofNat time) (UInt32.ofNat last) messageTimeoutMs =
      decide (last + 500 ≤ time) := by
  have distance : UInt32.ofNat time - UInt32.ofNat last = UInt32.ofNat (time - last) := by
    have sum : time = last + (time - last) := by omega
    conv_lhs => rw [sum, UInt32.ofNat_add]
    grind
  have small : (UInt32.ofNat (time - last)).toNat = time - last := by
    rw [UInt32.toNat_ofNat', Nat.mod_eq_of_lt (by omega)]
  rw [timeExpired, distance]
  apply decide_eq_decide.mpr
  rw [ge_iff_le, UInt32.le_iff_toNat_le, small]
  have limit : messageTimeoutMs.toNat = 500 := rfl
  rw [limit]
  omega

/-! What a packet does to the request in reception. -/

theorem stores_other {core : Core} {cid : UInt32} {report : Report} {action : Action}
    (other : report.cid ≠ cid) : stores core cid report action = false := by
  simp [stores, other]

theorem stores_control {core : Core} {cid : UInt32} {report : Report} {action : Action}
    (control : report.command = cmdCancel ∨ report.command = cmdInit) :
    stores core cid report action = false := by
  rcases control with cancel | init
  · simp [stores, requests_cancel cancel, isInitial_of_cancel report cancel]
  · simp [stores, requests_init init, isInitial_of_init report init]

theorem Assembling.unique {core after : Core} {i j : Fin channelCount}
    (assembling : Assembling core j) (other : Assembling after i)
    (same : (after.channels i).partialActive = (core.channels i).partialActive) : i = j :=
  (assembling.partialActive i).mp (same.symm.trans ((other.partialActive i).mpr rfl))

inductive Received (core : Core) (report : Report) (nowMs : UInt32) (result : Core × Action)
    (i : Fin channelCount) : Prop where
  | waits (assembling : Assembling core i) (active : result.1.activeCid = core.activeCid)
      (last : (result.1.channels i).lastPacketMs = (core.channels i).lastPacketMs)
      (passed : stores core result.1.activeCid report result.2 = false)
  | grows (last : (result.1.channels i).lastPacketMs = nowMs)
      (stored : stores core result.1.activeCid report result.2 = true)

theorem Packet.received {core : Core} {report : Report} {nowMs : UInt32} {result : Core × Action}
    (packet : Packet core report nowMs result) (valid : Valid core) {i : Fin channelCount}
    (after : Assembling result.1 i) : Received core report nowMs result i := by
  cases packet with
  | ignored control count action answer harmless =>
      rcases valid.assembling_of_phase after.phase with ⟨j, assembling, -⟩
      have here := assembling.unique after rfl
      subst here
      refine .waits assembling rfl rfl ?_
      by_cases own : report.cid = core.activeCid
      · apply stores_control
        rcases harmless assembling.phase own.symm with cancel | init
        · exact Or.inl cancel
        · exact Or.inr init.1
      · exact stores_other own
  | settled j owner control count action answer elsewhere =>
      rcases valid.assembling_of_phase after.phase with ⟨k, assembling, -⟩
      have other : report.cid ≠ core.activeCid := fun own => elsewhere ⟨assembling.phase, own.symm⟩
      have kept : ∀ k, ((core.setChannel j (core.channels j).settle).channels k).partialActive =
          (core.channels k).partialActive ∧
          ((core.setChannel j (core.channels j).settle).channels k).lastPacketMs =
          (core.channels k).lastPacketMs :=
        fun k => setChannel_relates (R := fun new old =>
          new.partialActive = old.partialActive ∧ new.lastPacketMs = old.lastPacketMs) k
          (fun _ => ⟨rfl, rfl⟩) ⟨rfl, rfl⟩
      have here := assembling.unique after (kept i).1
      subst here
      exact .waits assembling rfl (kept i).2 (stores_other other)
  | allocated j new control data broadcast free proper fresh =>
      rcases valid.assembling_of_phase after.phase with ⟨k, assembling, -⟩
      have other : report.cid ≠ core.activeCid := by
        rw [broadcast]
        exact valid.active_ne_broadcast.symm
      have apart : i ≠ j := by
        intro here
        have receiving := (after.partialActive i).mpr rfl
        simp only [Core.note, here, setChannel_same] at receiving
        cases receiving
      have same := setChannel_other core j i { cid := new, allocated := true } apart
      have here := assembling.unique after (congrArg Channel.partialActive same)
      subst here
      exact .waits assembling rfl (congrArg Channel.lastPacketMs same) (stores_other other)
  | cancelled j running active cbor command empty =>
      exact absurd (after.phase.symm.trans running.phase) (by decide)
  | resynced j owner control data free command eight middle ended =>
      have idle := resynced_idle valid free ended
      exact absurd (after.phase.symm.trans idle) (by decide)
  | aborted j assembling active control error cancel init =>
      exact absurd (after.phase.symm.trans valid.clearActive_idle.phase) (by decide)
  | started j idle owner known bounded nonempty =>
      have stored := idle.storeFirst report.initData nowMs valid.registered owner known bounded
      have first : (storeFirst core j report.command report.declaredLen report.initData
          nowMs).activeCid = report.cid := owner.2
      rw [startMessage] at after ⊢
      by_cases whole : ((storeFirst core j report.command report.declaredLen report.initData
          nowMs).channels j).received = report.declaredLen
      · rw [if_pos whole] at after
        exact absurd (after.phase.symm.trans stored.2.completeMessage_phase) (by decide)
      · rw [if_neg whole] at after ⊢
        have here := stored.2.unique after rfl
        subst here
        refine .grows ?_ ?_
        · rw [storeFirst_owner]
        · simp [stores, first, requests_known known, (by decide : noAction.command ≠ cmdError)]
  | appended j assembling progress active continuation due inTime =>
      have stored := assembling.storeNext report.contData nowMs valid.registered
      rw [appendPacket] at after ⊢
      by_cases whole : ((storeNext core j report.contData nowMs).channels j).received =
          ((storeNext core j report.contData nowMs).channels j).declaredLen
      · rw [if_pos whole] at after
        exact absurd (after.phase.symm.trans stored.2.completeMessage_phase) (by decide)
      · rw [if_neg whole] at after ⊢
        have here := stored.2.unique after rfl
        subst here
        have same : (storeNext core i report.contData nowMs).activeCid = core.activeCid := rfl
        refine .grows ?_ ?_
        · rw [storeNext_owner]
        · simp [stores, same, active, continuation, assembling.phase,
            (by decide : noAction.command ≠ cmdError)]

/-! What a call does to the channels that are to be told. -/

def Waiting (core : Core) (cid : UInt32) : Prop := ∃ i, Owns core i cid ∧ core.pending i = true

/-- The channels are where they were, but for one that is new. -/
def SamePlaces (core next : Core) : Prop :=
  ∀ j, ((next.channels j).allocated = (core.channels j).allocated ∧
      (next.channels j).cid = (core.channels j).cid) ∨
    (core.channels j).allocated = false ∧ next.pending j = false

theorem SamePlaces.of_lasts {core next : Core}
    (lasts : ∀ j, (next.channels j).Lasts (core.channels j)) : SamePlaces core next :=
  fun j => Or.inl ⟨(lasts j).allocated, (lasts j).cid⟩

theorem Packet.samePlaces {core : Core} {report : Report} {nowMs : UInt32} {result : Core × Action}
    (packet : Packet core report nowMs result) (valid : Valid core) : SamePlaces core result.1 := by
  cases packet with
  | ignored control count action answer harmless => exact .of_lasts fun j => .refl _
  | settled i owner control count action answer elsewhere =>
      exact .of_lasts (setChannel_lasts (core.channels i).settle ⟨rfl, rfl, rfl⟩)
  | allocated i new control data broadcast free proper fresh =>
      intro j
      by_cases here : j = i
      · right
        subst here
        refine ⟨free, ?_⟩
        rw [Core.pending]
        simp only [Core.note, setChannel_same]
      · left
        simp only [Core.note, setChannel_other core i j _ here]
        exact ⟨trivial, trivial⟩
  | cancelled i running active cbor command empty =>
      exact .of_lasts (setChannel_lasts { core.channels i with cancel := true }
        ⟨rfl, rfl, rfl⟩)
  | resynced i owner control data free command eight middle ended =>
      intro j
      left
      have before : (middle.channels j).Lasts (core.channels j) := by
        rw [ended]
        split
        · exact clearActive_lasts core true j
        · exact .refl _
      rw [← before.allocated, ← before.cid]
      by_cases here : j = i
      · subst here
        simp only [Core.note, setChannel_same]
        exact ⟨rfl, rfl⟩
      · simp only [Core.note, setChannel_other middle i j _ here]
        exact ⟨trivial, trivial⟩
  | aborted i assembling active control error cancel init =>
      exact .of_lasts (clearActive_lasts core true)
  | started i idle owner known bounded nonempty =>
      intro j
      left
      have last := startMessage_channels idle valid.registered owner known bounded report.initData
        nowMs j
      rw [last.allocated, last.cid]
      by_cases here : j = i
      · rw [here, storeFirst_owner]
        exact ⟨rfl, rfl⟩
      · rw [storeFirst_other core i _ _ _ _ j here]
        exact ⟨rfl, rfl⟩
  | appended i assembling progress active continuation due inTime =>
      exact .of_lasts (appendPacket_channels assembling valid.registered _ nowMs)

theorem coreCleanup_waiting {core : Core} (valid : Valid core) (nowMs : UInt32) (cid : UInt32) :
    Waiting (coreCleanup core nowMs) cid ↔
      Waiting core cid ∨ core.phase = .rx ∧ core.activeCid = cid ∧
        (coreCleanup core nowMs).phase = .idle := by
  rcases coreCleanup_cases core nowMs valid with ⟨same, -⟩ | ⟨i, assembling, -, result⟩
  · rw [same]
    constructor
    · exact Or.inl
    · rintro (before | ⟨receiving, -, idle⟩)
      · exact before
      · exact absurd (receiving.symm.trans idle) (by decide)
  · have pending : ∀ j, (expired core i).pending j = if j = i then true else core.pending j :=
      pending_setChannel core i _
    have lasts : ∀ j, ((expired core i).channels j).Lasts (core.channels j) :=
      setChannel_lasts (clearChannelRx { core.channels i with timeoutPending := true })
        ⟨rfl, rfl, rfl⟩
    rw [result]
    constructor
    · rintro ⟨j, owner, waiting⟩
      have before : Owns core j cid :=
        ⟨(lasts j).allocated.symm.trans owner.1, (lasts j).cid.symm.trans owner.2⟩
      rw [pending] at waiting
      by_cases here : j = i
      · subst here
        exact Or.inr ⟨assembling.phase, assembling.owner.2.symm.trans before.2, rfl⟩
      · rw [if_neg here] at waiting
        exact Or.inl ⟨j, before, waiting⟩
    · rintro (⟨j, owner, waiting⟩ | ⟨-, active, -⟩)
      · refine ⟨j, owner.lasts (lasts j), ?_⟩
        rw [pending]
        split
        · rfl
        · exact waiting
      · refine ⟨i, (active ▸ assembling.owner).lasts (lasts i), ?_⟩
        rw [pending, if_pos rfl]

theorem feedPacket_waiting {core : Core} (valid : Valid core) {report : Report} {nowMs : UInt32}
    {draws : Draws} (inTime : ∀ i, Assembling core i →
      timeExpired nowMs (core.channels i).lastPacketMs messageTimeoutMs = false) (cid : UInt32) :
    Waiting (feedPacket core report nowMs draws).1 cid ↔
      Waiting core cid ∧
        settles cid (.fed report nowMs (feedPacket core report nowMs draws).2) = false := by
  have packet := feedPacket_cases core report nowMs draws valid inTime
  have pending := fun {k} (owns : Owns core k cid) =>
    pending_feedPacket valid.registered owns report nowMs draws
  constructor
  · rintro ⟨j, owner, waiting⟩
    rcases packet.samePlaces valid j with place | new
    · have before : Owns core j cid := ⟨place.1.symm.trans owner.1, place.2.symm.trans owner.2⟩
      rw [pending before, Bool.and_eq_true, Bool.not_eq_true'] at waiting
      exact ⟨⟨j, before, waiting.1⟩, waiting.2⟩
    · rw [new.2] at waiting
      cases waiting
  · rintro ⟨⟨j, owner, waiting⟩, kept⟩
    refine ⟨j, ?_, ?_⟩
    · rcases packet.samePlaces valid j with place | new
      · exact ⟨place.1.trans owner.1, place.2.trans owner.2⟩
      · rw [owner.1] at new
        cases new.1
    · rw [pending owner, waiting, kept]
      rfl

/-! The calls that are not given the clock. -/

theorem CoreStep.untimed_rx {core next : Core} {event : Event} (step : CoreStep core event next)
    (valid : Valid core) (reads : event.nowMs = none) (phase : next.phase = .rx) : next = core := by
  cases step with
  | feed report nowMs draws => cases reads
  | cleanup nowMs => cases reads
  | take cap =>
      rcases coreTakeMessage_cases valid cap with ⟨error, same⟩ | ⟨ready, taken⟩
      · rw [same]
      · rw [taken] at phase
        rcases valid.messageReady_iff.mp ready with ⟨i, running, -⟩
        exact absurd (phase.symm.trans running.phase) (by decide)
  | finish cid generation =>
      rcases coreFinishResponse_cases core cid generation with same | ⟨i, -, -, -, -, ended⟩
      · exact same
      · rw [ended] at phase
        exact absurd (phase.symm.trans valid.clearActive_idle.phase) (by decide)
  | clearCancel cid generation =>
      rcases coreClearCancel_cases core cid generation with same | ⟨i, running, -, -, -, cleared⟩
      · exact same
      · rw [cleared] at phase
        exact absurd (phase.symm.trans running) (by decide)
  | reset => cases phase

theorem waiting_congr {core next : Core}
    (lasts : ∀ j, (next.channels j).Lasts (core.channels j))
    (pending : ∀ j, next.pending j = core.pending j) (cid : UInt32) :
    Waiting next cid ↔ Waiting core cid := by
  constructor
  · rintro ⟨j, owner, waiting⟩
    exact ⟨j, ⟨(lasts j).allocated.symm.trans owner.1, (lasts j).cid.symm.trans owner.2⟩,
      (pending j).symm.trans waiting⟩
  · rintro ⟨j, owner, waiting⟩
    exact ⟨j, owner.lasts (lasts j), (pending j).trans waiting⟩

theorem CoreStep.untimed_waiting {core next : Core} {event : Event}
    (step : CoreStep core event next) (reads : event.nowMs = none) (cid : UInt32) :
    Waiting next cid ↔ Waiting core cid ∧ settles cid event = false := by
  cases step with
  | feed report nowMs draws => cases reads
  | cleanup nowMs => cases reads
  | take cap =>
      simp only [settles, and_true]
      rw [coreTakeMessage]
      split_ifs
      · rfl
      · rfl
      · exact waiting_congr (fun j => .refl _) (fun j => rfl) cid
  | finish cid' generation =>
      simp only [settles, and_true]
      rcases coreFinishResponse_cases core cid' generation with same | ⟨i, -, -, -, -, ended⟩
      · rw [same]
      · rw [ended]
        exact waiting_congr (clearActive_lasts core true) (pending_clearActive core true) cid
  | clearCancel cid' generation =>
      simp only [settles, and_true]
      rcases coreClearCancel_cases core cid' generation with same | ⟨i, -, -, -, -, cleared⟩
      · rw [same]
      · rw [cleared]
        exact waiting_congr
          (setChannel_lasts { core.channels i with cancel := false } ⟨rfl, rfl, rfl⟩)
          (pending_replaced { core.channels i with cancel := false } rfl) cid
  | reset =>
      refine iff_of_false ?_ (by simp [settles])
      rintro ⟨j, owner, -⟩
      cases owner.1

end P4Key.Ctaphid
