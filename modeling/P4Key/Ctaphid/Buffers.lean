import P4Key.Ctaphid.Isolation

/-! What the payload buffers hold.

In every phase a buffer is zero behind what the request takes up of it. -/

namespace P4Key.Ctaphid

open Memory

def extent (core : Core) (i : Fin channelCount) (index : UInt8) : Nat :=
  match core.phase with
  | .idle => 0
  | .rx => if index = core.rxBuffer then (core.channels i).received else 0
  | .processing =>
    if core.messageReady then
      if index = core.completeBuffer then (core.channels i).declaredLen else 0
    else if core.activeCommand = cmdPing ∧ index = core.rxBuffer then (core.channels i).declaredLen
    else 0

def Serves (core : Core) (i : Fin channelCount) : Prop :=
  core.phase = .idle ∨ Owns core i core.activeCid

def Scrubbed (core : Core) : Prop :=
  ∀ i, Serves core i → ∀ index, ZeroFrom (core.buffers index).toList (extent core i index)

theorem extent_idle {core : Core} (phase : core.phase = .idle) (i : Fin channelCount)
    (index : UInt8) : extent core i index = 0 := by
  rw [extent, phase]

theorem extent_elsewhere {core : Core} {index : UInt8} (rx : index ≠ core.rxBuffer)
    (complete : core.messageReady = true → index ≠ core.completeBuffer) (i : Fin channelCount) :
    extent core i index = 0 := by
  rw [extent]
  cases core.phase with
  | idle => rfl
  | rx => exact if_neg rx
  | processing =>
      by_cases ready : core.messageReady = true
      · simp only [if_pos ready, if_neg (complete ready)]
      · simp only [if_neg ready, if_neg (fun both : _ ∧ index = core.rxBuffer => rx both.2)]

theorem Valid.serves {core : Core} (valid : Valid core) : ∃ i, Serves core i := by
  cases valid with
  | idle registered state => exact ⟨0, Or.inl state.phase⟩
  | rx registered i state progress => exact ⟨i, Or.inr state.owner⟩
  | processing registered i state => exact ⟨i, Or.inr state.owner⟩

theorem Scrubbed.clean {core : Core} (scrubbed : Scrubbed core) (phase : core.phase = .idle)
    (index : UInt8) : core.buffers index = blank := by
  have zero := scrubbed 0 (Or.inl phase) index
  rw [extent_idle phase] at zero
  exact zeroFrom_zero zero

theorem Scrubbed.of_clean {core : Core} (clean : ∀ index, core.buffers index = blank) :
    Scrubbed core := by
  intro i _ index
  rw [clean index]
  exact zeroFrom_replicate maxPayload _

theorem Scrubbed.keep {core after : Core} (scrubbed : Scrubbed core)
    (phase : after.phase = core.phase) (activeCommand : after.activeCommand = core.activeCommand)
    (rxBuffer : after.rxBuffer = core.rxBuffer) (buffers : after.buffers = core.buffers)
    (messageReady : after.messageReady = core.messageReady)
    (completeBuffer : after.completeBuffer = core.completeBuffer)
    (channel : core.phase ≠ .idle → ∀ i, Owns after i after.activeCid →
      Owns core i core.activeCid ∧ (after.channels i).received = (core.channels i).received ∧
      (after.channels i).declaredLen = (core.channels i).declaredLen) : Scrubbed after := by
  by_cases idle : core.phase = .idle
  · apply Scrubbed.of_clean
    intro index
    rw [buffers]
    exact scrubbed.clean idle index
  · intro i serves index
    have owner := serves.resolve_left (by rw [phase]; exact idle)
    rcases channel idle i owner with ⟨before, received, declared⟩
    have same : extent after i index = extent core i index := by
      rw [extent, extent, phase, activeCommand, rxBuffer, messageReady, completeBuffer, received,
        declared]
    rw [same, buffers]
    exact scrubbed i (Or.inr before) index

theorem Scrubbed.setChannel {core : Core} (scrubbed : Scrubbed core) (j : Fin channelCount)
    (channel : Channel) (cid : channel.cid = (core.channels j).cid)
    (allocated : channel.allocated = (core.channels j).allocated)
    (received : channel.received = (core.channels j).received)
    (declared : channel.declaredLen = (core.channels j).declaredLen) :
    Scrubbed (core.setChannel j channel) := by
  refine scrubbed.keep rfl rfl rfl rfl rfl rfl ?_
  intro _ i owner
  have same := setChannel_relates (R := fun new old => new.allocated = old.allocated ∧
    new.cid = old.cid ∧ new.received = old.received ∧ new.declaredLen = old.declaredLen) i
    (fun _ => ⟨rfl, rfl, rfl, rfl⟩) ⟨allocated, cid, received, declared⟩
  exact ⟨⟨same.1.symm.trans owner.1, same.2.1.symm.trans owner.2⟩, same.2.2⟩

/-! The ends of a transaction. -/

theorem clearActive_buffers (core : Core) (index : UInt8) :
    (clearActive core true).buffers index =
      if index = core.rxBuffer ∨ core.messageReady = true ∧ core.completeBuffer < bufferCount ∧
          index = core.completeBuffer then blank
      else core.buffers index := by
  have wiped : ∀ middle : Core, middle.rxBuffer = core.rxBuffer → middle.buffers = core.buffers →
      middle.messageReady = core.messageReady → middle.completeBuffer = core.completeBuffer →
      (if true = true ∧ (middle.wipe middle.rxBuffer).messageReady = true ∧
          (middle.wipe middle.rxBuffer).completeBuffer < bufferCount then
        releaseComplete (middle.wipe middle.rxBuffer)
      else middle.wipe middle.rxBuffer).buffers index =
      if index = core.rxBuffer ∨ core.messageReady = true ∧ core.completeBuffer < bufferCount ∧
          index = core.completeBuffer then blank
      else core.buffers index := by
    intro middle rxBuffer buffers messageReady completeBuffer
    have ready : (middle.wipe middle.rxBuffer).messageReady = core.messageReady := messageReady
    have complete : (middle.wipe middle.rxBuffer).completeBuffer = core.completeBuffer := completeBuffer
    rw [ready, complete]
    by_cases held : core.messageReady = true ∧ core.completeBuffer < bufferCount
    · rw [if_pos ⟨rfl, held⟩]
      simp only [releaseComplete, Core.wipe, Core.setBuffer, Function.update_apply, rxBuffer, buffers,
        completeBuffer, held.1, held.2, true_and]
      by_cases first : index = core.completeBuffer
      · rw [if_pos first, if_pos (Or.inr first)]
      · simp only [first, if_false, or_false]
    · rw [if_neg fun all => held all.2]
      have apart : ¬(core.messageReady = true ∧ core.completeBuffer < bufferCount ∧
          index = core.completeBuffer) := fun all => held ⟨all.1, all.2.1⟩
      simp only [Core.wipe, Core.setBuffer, Function.update_apply, rxBuffer, buffers, apart, or_false]
  rw [clearActive]
  cases chanFind core core.activeCid with
  | none => exact wiped core rfl rfl rfl rfl
  | some i => exact wiped (core.setChannel i _) rfl rfl rfl rfl

theorem Valid.clearActive_clean {core : Core} (valid : Valid core) (scrubbed : Scrubbed core)
    (index : UInt8) : (P4Key.Ctaphid.clearActive core true).buffers index = blank := by
  rw [clearActive_buffers]
  by_cases wiped : index = core.rxBuffer ∨ core.messageReady = true ∧
      core.completeBuffer < bufferCount ∧ index = core.completeBuffer
  · rw [if_pos wiped]
  · rw [if_neg wiped]
    simp only [not_or] at wiped
    rcases valid.serves with ⟨i, serves⟩
    have zero := scrubbed i serves index
    rw [extent_elsewhere wiped.1] at zero
    · exact zeroFrom_zero zero
    · intro ready here
      rcases valid.handOff with nothing | held
      · rw [nothing.1] at ready
        cases ready
      · exact wiped.2 ⟨ready, held.2, here⟩

theorem Assembling.expired_clean {core : Core} {i : Fin channelCount}
    (assembling : Assembling core i) (scrubbed : Scrubbed core) (index : UInt8) :
    (expired core i).buffers index = blank := by
  have buffers : (expired core i).buffers = Function.update core.buffers core.rxBuffer blank := rfl
  rw [buffers, Function.update_apply]
  by_cases here : index = core.rxBuffer
  · rw [if_pos here]
  · rw [if_neg here]
    have zero := scrubbed i (Or.inr assembling.owner) index
    rw [extent_elsewhere here (by simp [assembling.messageReady])] at zero
    exact zeroFrom_zero zero

theorem releaseComplete_clean {core : Core} (valid : Valid core) (scrubbed : Scrubbed core)
    (ready : core.messageReady = true) (index : UInt8) :
    (releaseComplete core).buffers index = blank := by
  have buffers : (releaseComplete core).buffers =
      Function.update core.buffers core.completeBuffer blank := rfl
  rw [buffers, Function.update_apply]
  by_cases here : index = core.completeBuffer
  · rw [if_pos here]
  · rw [if_neg here]
    rcases valid.messageReady_iff.mp ready with ⟨i, running, held⟩
    have zero := scrubbed i (Or.inr running.owner) index
    rw [extent, running.phase] at zero
    simp only [ready, if_true, here, if_false] at zero
    exact zeroFrom_zero zero

/-! The start, the growth and the completion. -/

theorem Scrubbed.of_owner {core : Core} {i : Fin channelCount} (registered : Registered core)
    (busy : core.phase ≠ .idle) (owner : Owns core i core.activeCid)
    (zero : ∀ index, ZeroFrom (core.buffers index).toList (extent core i index)) :
    Scrubbed core := by
  intro j serves
  have here := (serves.resolve_left busy).unique owner registered
  rw [here]
  exact zero

theorem storeFirst_scrubbed {core : Core} (idle : Idle core) (registered : Registered core)
    (scrubbed : Scrubbed core) {i : Fin channelCount} {cid : UInt32} (owns : Owns core i cid)
    {command : UInt8} (known : command = cmdPing ∨ command = cmdCbor) {declaredLen : Nat}
    (bounded : declaredLen ≤ maxPayload) (data : List UInt8) (nowMs : UInt32) :
    Scrubbed (storeFirst core i command declaredLen data nowMs) := by
  have stored := idle.storeFirst data nowMs registered owns known bounded
  apply Scrubbed.of_owner stored.1 (by rw [stored.2.phase]; decide) stored.2.owner
  intro index
  have rxBuffer : (storeFirst core i command declaredLen data nowMs).rxBuffer = core.rxBuffer := rfl
  rw [extent, stored.2.phase, rxBuffer, storeFirst_owner]
  by_cases here : index = core.rxBuffer
  · simp only [if_pos here]
    rw [here, storeFirst_buffer, storeInto_toList]
    apply ((zeroFrom_replicate maxPayload 0).store _).later
    rw [List.length_take, Nat.zero_add]
    exact Nat.min_le_left _ _
  · simp only [if_neg here]
    have kept : (storeFirst core i command declaredLen data nowMs).buffers index =
        core.buffers index := by
      simp [storeFirst, beginMessage, Core.setChannel, Core.setBuffer, Core.wipe, here]
    rw [kept, scrubbed.clean idle.phase index]
    exact zeroFrom_replicate maxPayload 0

theorem storeNext_scrubbed {core : Core} {i : Fin channelCount} (assembling : Assembling core i)
    (registered : Registered core) (scrubbed : Scrubbed core) (data : List UInt8) (nowMs : UInt32) :
    Scrubbed (storeNext core i data nowMs) := by
  have stored := assembling.storeNext data nowMs registered
  apply Scrubbed.of_owner stored.1 (by rw [stored.2.phase]; decide) stored.2.owner
  intro index
  have zero := scrubbed i (Or.inr assembling.owner) index
  have rxBuffer : (storeNext core i data nowMs).rxBuffer = core.rxBuffer := rfl
  rw [extent, assembling.phase] at zero
  rw [extent, stored.2.phase, rxBuffer, storeNext_owner]
  by_cases here : index = core.rxBuffer
  · simp only [if_pos here] at zero ⊢
    rw [here] at zero ⊢
    rw [storeNext_buffer, storeInto_toList]
    apply (zero.store _).later
    rw [List.length_take]
    exact Nat.add_le_add_left (Nat.min_le_left _ _) _
  · simp only [if_neg here] at zero ⊢
    have kept : (storeNext core i data nowMs).buffers index = core.buffers index := by
      simp [storeNext, Core.setChannel, Core.setBuffer, here]
    rw [kept]
    exact zero

theorem completeMessage_scrubbed {core : Core} {i : Fin channelCount}
    (assembling : Assembling core i) (registered : Registered core) (scrubbed : Scrubbed core)
    (whole : (core.channels i).received = (core.channels i).declaredLen) :
    Scrubbed (completeMessage core i).1 := by
  have zero : ∀ index, ZeroFrom (core.buffers index).toList
      (if index = core.rxBuffer then (core.channels i).declaredLen else 0) := by
    intro index
    have before := scrubbed i (Or.inr assembling.owner) index
    rw [extent, assembling.phase, whole] at before
    exact before
  rw [assembling.completeMessage_eq]
  by_cases ping : core.activeCommand = cmdPing
  · rw [if_pos ping]
    have running := assembling.echoed registered
    apply Scrubbed.of_owner running.1 (by rw [running.2.phase]; decide) running.2.owner
    intro index
    have declared : ((echoed core i).channels i).declaredLen = (core.channels i).declaredLen := by
      rw [echoed, setChannel_same]
    have ready : (echoed core i).messageReady = false := assembling.messageReady
    have command : (echoed core i).activeCommand = cmdPing := ping
    rw [extent, running.2.phase]
    simp only [ready, command, declared, true_and, Bool.false_eq_true, if_false]
    exact zero index
  · rw [if_neg ping]
    have running := assembling.handedOff registered (assembling.known.resolve_left ping)
    apply Scrubbed.of_owner running.1 (by rw [running.2.phase]; decide) running.2.owner
    intro index
    have declared : ((handedOff core i).channels i).declaredLen = (core.channels i).declaredLen := by
      rw [handedOff, echoed, setChannel_same]
    rw [extent, running.2.phase]
    simp only [declared]
    exact zero index

/-! Every step keeps the buffers scrubbed. -/

theorem Packet.scrubbed {core : Core} {report : Report} {nowMs : UInt32} {result : Core × Action}
    (packet : Packet core report nowMs result) (valid : Valid core) (scrubbed : Scrubbed core) :
    Scrubbed result.1 := by
  cases packet with
  | ignored control count action answer harmless => exact scrubbed
  | settled i owns control count action answer elsewhere =>
      exact scrubbed.setChannel i _ rfl rfl rfl rfl
  | allocated i cid control data broadcast free proper fresh =>
      refine scrubbed.keep rfl rfl rfl rfl rfl rfl ?_
      intro busy j owner
      have apart : j ≠ i := by
        intro here
        subst here
        rcases valid.serves with ⟨k, serves⟩
        have given := owner.2
        simp only [Core.note, setChannel_same] at given
        apply fresh k
        rw [given]
        exact serves.resolve_left busy
      have same := setChannel_other core i j { cid := cid, allocated := true } apart
      simp only [Owns, Core.note, same] at owner ⊢
      exact ⟨owner, trivial, trivial⟩
  | cancelled i running active cbor command empty => exact scrubbed.setChannel i _ rfl rfl rfl rfl
  | resynced i owns control data free command eight middle ended =>
      apply Scrubbed.of_clean
      intro index
      have buffers : middle.buffers index = blank := by
        by_cases active : core.activeCid = report.cid
        · rw [ended, if_pos active]
          exact valid.clearActive_clean scrubbed index
        · rw [ended, if_neg active]
          exact scrubbed.clean (free.resolve_right active) index
      exact buffers
  | aborted i assembling active control error cancel init =>
      exact Scrubbed.of_clean (valid.clearActive_clean scrubbed)
  | started i idle owns known bounded nonempty =>
      have stored := idle.storeFirst report.initData nowMs valid.registered owns known bounded
      have kept := storeFirst_scrubbed idle valid.registered scrubbed owns known bounded
        report.initData nowMs
      rw [startMessage]
      by_cases whole : ((storeFirst core i report.command report.declaredLen report.initData
          nowMs).channels i).received = report.declaredLen
      · rw [if_pos whole]
        refine completeMessage_scrubbed stored.2 stored.1 kept (whole.trans ?_)
        rw [storeFirst_owner]
      · rw [if_neg whole]
        exact kept
  | appended i assembling progress active continuation due inTime =>
      have stored := assembling.storeNext report.contData nowMs valid.registered
      have kept := storeNext_scrubbed assembling valid.registered scrubbed report.contData nowMs
      rw [appendPacket]
      by_cases whole : ((storeNext core i report.contData nowMs).channels i).received =
          ((storeNext core i report.contData nowMs).channels i).declaredLen
      · rw [if_pos whole]
        exact completeMessage_scrubbed stored.2 stored.1 kept whole
      · rw [if_neg whole]
        exact kept

theorem coreCleanup_scrubbed {core : Core} (valid : Valid core) (scrubbed : Scrubbed core)
    (nowMs : UInt32) : Scrubbed (coreCleanup core nowMs) := by
  rcases coreCleanup_cases core nowMs valid with ⟨same, -⟩ | ⟨i, assembling, -, result⟩
  · rw [same]
    exact scrubbed
  · rw [result]
    exact Scrubbed.of_clean (assembling.expired_clean scrubbed)

theorem CoreStep.scrubbed {core next : Core} {event : Event} (step : CoreStep core event next)
    (valid : Valid core) (scrubbed : Scrubbed core) : Scrubbed next := by
  cases step with
  | feed report nowMs draws =>
      exact (coreFeed_cases core report nowMs draws valid).scrubbed
        (coreCleanup_valid core nowMs valid) (coreCleanup_scrubbed valid scrubbed nowMs)
  | cleanup nowMs => exact coreCleanup_scrubbed valid scrubbed nowMs
  | take cap =>
      rcases coreTakeMessage_cases valid cap with ⟨error, same⟩ | ⟨ready, taken⟩
      · rw [same]
        exact scrubbed
      · rw [taken]
        exact Scrubbed.of_clean (releaseComplete_clean valid scrubbed ready)
  | finish cid generation =>
      rcases coreFinishResponse_cases core cid generation with same | ⟨i, -, -, -, -, ended⟩
      · rw [same]
        exact scrubbed
      · rw [ended]
        exact Scrubbed.of_clean (valid.clearActive_clean scrubbed)
  | clearCancel cid generation =>
      rcases coreClearCancel_cases core cid generation with same | ⟨i, -, -, -, -, cleared⟩
      · rw [same]
        exact scrubbed
      · rw [cleared]
        exact scrubbed.setChannel i _ rfl rfl rfl rfl
  | reset => exact Scrubbed.of_clean fun _ => rfl

theorem CoreRun.scrubbed {events : List Event} {core : Core} (run : CoreRun events core) :
    Scrubbed core :=
  run.history (fun _ core => Scrubbed core) (Scrubbed.of_clean fun _ => rfl)
    fun _ _ _ _ before scrubbed step => step.scrubbed (CoreRun.valid before) scrubbed

/-- All buffers but one are blank, and that one is zero behind its first `len` bytes. -/
def OnlyIn (core : Core) (live : UInt8) (len : Nat) : Prop :=
  ZeroFrom (core.buffers live).toList len ∧ ∀ index, index ≠ live → core.buffers index = blank

theorem onlyIn_of_extent {core : Core} {live : UInt8} {len : Nat}
    (zero : ∀ index, ZeroFrom (core.buffers index).toList (if index = live then len else 0)) :
    OnlyIn core live len := by
  constructor
  · have own := zero live
    rw [if_pos rfl] at own
    exact own
  · intro index other
    have rest := zero index
    rw [if_neg other] at rest
    exact zeroFrom_zero rest

theorem Running.onlyIn {core : Core} {i : Fin channelCount} (running : Running core i)
    (scrubbed : Scrubbed core) :
    core.activeCommand = cmdPing ∧ OnlyIn core core.rxBuffer (core.channels i).declaredLen ∨
    core.activeCommand = cmdCbor ∧ core.messageReady = true ∧
      OnlyIn core core.completeBuffer (core.channels i).declaredLen ∨
    core.activeCommand = cmdCbor ∧ core.messageReady = false ∧
      ∀ index, core.buffers index = blank := by
  have zero := scrubbed i (Or.inr running.owner)
  simp only [extent, running.phase] at zero
  rcases running.handOff with nothing | held
  · simp only [nothing.1, Bool.false_eq_true, if_false] at zero
    rcases running.known with ping | cbor
    · simp only [ping, true_and] at zero
      exact Or.inl ⟨ping, onlyIn_of_extent zero⟩
    · have other : core.activeCommand ≠ cmdPing := by
        rw [cbor]
        decide
      simp only [other, false_and, if_false] at zero
      exact Or.inr (Or.inr ⟨cbor, nothing.1, fun index => zeroFrom_zero (zero index)⟩)
  · simp only [held.messageReady, if_true] at zero
    exact Or.inr (Or.inl ⟨held.activeCommand, held.messageReady, onlyIn_of_extent zero⟩)

/-- In any reachable core the buffers hold no bytes but those of the running request, and none
at all once its message was taken. -/
theorem no_request_bytes_are_left {events : List Event} {core : Core} (run : CoreRun events core) :
    (core.phase = .idle → ∀ index, core.buffers index = blank) ∧
    (core.phase = .rx → ∃ i, Owns core i core.activeCid ∧
      OnlyIn core core.rxBuffer (core.channels i).received) ∧
    (core.phase = .processing → ∃ i, Owns core i core.activeCid ∧
      (core.activeCommand = cmdPing ∧ OnlyIn core core.rxBuffer (core.channels i).declaredLen ∨
      core.activeCommand = cmdCbor ∧ core.messageReady = true ∧
        OnlyIn core core.completeBuffer (core.channels i).declaredLen ∨
      core.activeCommand = cmdCbor ∧ core.messageReady = false ∧
        ∀ index, core.buffers index = blank)) ∧
    ∀ cap message next, CoreStep core (.took cap (.ok message)) next →
      ∀ index, next.buffers index = blank := by
  have valid := run.valid
  have scrubbed := run.scrubbed
  refine ⟨fun phase => scrubbed.clean phase, ?_, ?_, ?_⟩
  · intro phase
    rcases valid.assembling_of_phase phase with ⟨i, assembling, -⟩
    have zero := scrubbed i (Or.inr assembling.owner)
    simp only [extent, assembling.phase] at zero
    exact ⟨i, assembling.owner, onlyIn_of_extent zero⟩
  · intro phase
    rcases valid.running_of_phase phase with ⟨i, running⟩
    exact ⟨i, running.owner, running.onlyIn scrubbed⟩
  · intro cap message next step index
    rcases step.took_message valid with ⟨ready, -, rest⟩
    rw [rest]
    exact releaseComplete_clean valid scrubbed ready index

theorem busyCore_buffers : ∃ i, Owns busyCore i busyCore.activeCid ∧
    OnlyIn busyCore busyCore.rxBuffer (busyCore.channels i).received :=
  (no_request_bytes_are_left busyCore_run).2.1 (by decide)

end P4Key.Ctaphid
