import P4Key.Ctaphid.Rx

/-! The states of the core.

`Valid` lists what holds in each phase. It says a little more than a caller can
see, because the packets that are rejected must not disturb it either. -/

namespace P4Key.Ctaphid

open Memory

/-! Reading a core after one of its records was replaced. -/

section Updates

variable (core : Core) (i j : Fin channelCount) (channel : Channel)

@[simp] theorem setChannel_same : (core.setChannel i channel).channels i = channel := by
  simp [Core.setChannel]

theorem setChannel_other (other : j ≠ i) :
    (core.setChannel i channel).channels j = core.channels j := by
  simp [Core.setChannel, other]

variable {core i channel} in
theorem setChannel_relates {R : Channel → Channel → Prop} (unchanged : ∀ record, R record record)
    (changed : R channel (core.channels i)) :
    R ((core.setChannel i channel).channels j) (core.channels j) := by
  by_cases here : j = i
  · subst here
    rw [setChannel_same]
    exact changed
  · rw [setChannel_other core i j channel here]
    exact unchanged _

@[simp] theorem setChannel_self : core.setChannel i (core.channels i) = core := by
  simp [Core.setChannel]

variable {core i} in
/-- A flag that no channel has stays so when only channel `i` is touched and does not get it. -/
theorem flag_false {after : Core} (flag : Channel → Bool)
    (others : ∀ j, j ≠ i → after.channels j = core.channels j)
    (own : flag (after.channels i) = false) (before : ∀ j, flag (core.channels j) = false)
    (j : Fin channelCount) : flag (after.channels j) = false := by
  by_cases here : j = i
  · rw [here]
    exact own
  · rw [others j here]
    exact before j

end Updates

/-- The channel records that `p4_ctaphid_chan_find` can return are told apart by their CIDs. -/
structure Registered (core : Core) : Prop where
  rxBuffer : core.rxBuffer = 0 ∨ core.rxBuffer = 1
  assigned : ∀ i, (core.channels i).allocated = true →
    (core.channels i).cid ≠ 0 ∧ (core.channels i).cid ≠ broadcastCid
  distinct : ∀ i j, (core.channels i).allocated = true → (core.channels j).allocated = true →
    (core.channels i).cid = (core.channels j).cid → i = j

def Owns (core : Core) (i : Fin channelCount) (cid : UInt32) : Prop :=
  (core.channels i).allocated = true ∧ (core.channels i).cid = cid

instance (core : Core) (i : Fin channelCount) (cid : UInt32) : Decidable (Owns core i cid) :=
  inferInstanceAs (Decidable (_ ∧ _))

theorem chanFind_some {core : Core} {cid : UInt32} {i : Fin channelCount}
    (found : chanFind core cid = some i) : Owns core i cid := by
  rw [chanFind] at found
  split at found
  · cases found
  · have member := List.find?_some found
    simp only [Bool.and_eq_true, beq_iff_eq] at member
    exact member

theorem chanFind_none {core : Core} {cid : UInt32} (missing : chanFind core cid = none)
    (registered : Registered core) (i : Fin channelCount) : ¬ Owns core i cid := by
  intro owns
  have proper := registered.assigned i owns.1
  rw [owns.2] at proper
  rw [chanFind, if_neg (by simp [proper])] at missing
  have none := List.find?_eq_none.mp missing i (List.mem_finRange i)
  simp [owns.1, owns.2] at none

theorem Owns.chanFind {core : Core} {cid : UInt32} {i : Fin channelCount}
    (owns : Owns core i cid) (registered : Registered core) : chanFind core cid = some i := by
  cases found : P4Key.Ctaphid.chanFind core cid with
  | none => exact absurd owns (chanFind_none found registered i)
  | some j =>
      have other := chanFind_some found
      rw [registered.distinct i j owns.1 other.1 (owns.2.trans other.2.symm)]

/-- No request is held, in no phase but the three that say so. -/
structure Idle (core : Core) : Prop where
  phase : core.phase = .idle
  activeCid : core.activeCid = 0
  partialActive : ∀ j, (core.channels j).partialActive = false
  cancel : ∀ j, (core.channels j).cancel = false
  messageReady : core.messageReady = false
  completeBuffer : core.completeBuffer = noBuffer

structure Assembling (core : Core) (i : Fin channelCount) : Prop where
  phase : core.phase = .rx
  owner : Owns core i core.activeCid
  partialActive : ∀ j, (core.channels j).partialActive = true ↔ j = i
  cancel : ∀ j, (core.channels j).cancel = false
  command : (core.channels i).command = core.activeCommand
  known : core.activeCommand = cmdPing ∨ core.activeCommand = cmdCbor
  declared : (core.channels i).declaredLen ≤ maxPayload
  timeoutPending : (core.channels i).timeoutPending = false
  messageReady : core.messageReady = false
  completeBuffer : core.completeBuffer = noBuffer

/-- Packets `0`, ..., `nextSequence - 1` have arrived after the initial one, and more are due. -/
structure Progress (channel : Channel) : Prop where
  received : channel.received = initDataBytes + contDataBytes * channel.nextSequence.toNat
  more : channel.received < channel.declaredLen

/-- The hand-off record of a request of channel `i` that nobody has taken. -/
structure HandedOff (core : Core) (i : Fin channelCount) : Prop where
  messageReady : core.messageReady = true
  completeBuffer : core.completeBuffer = 1 - core.rxBuffer
  completeCid : core.completeCid = core.activeCid
  completeCommand : core.completeCommand = core.activeCommand
  activeCommand : core.activeCommand = cmdCbor
  completeLen : core.completeLen = (core.channels i).declaredLen
  completeGeneration : core.completeGeneration = (core.channels i).generation

/-- A request of channel `i` is complete and not yet answered. -/
structure Running (core : Core) (i : Fin channelCount) : Prop where
  phase : core.phase = .processing
  owner : Owns core i core.activeCid
  partialActive : ∀ j, (core.channels j).partialActive = false
  cancel : ∀ j, (core.channels j).cancel = true → j = i ∧ core.activeCommand = cmdCbor
  command : (core.channels i).command = core.activeCommand
  known : core.activeCommand = cmdPing ∨ core.activeCommand = cmdCbor
  declared : (core.channels i).declaredLen ≤ maxPayload
  timeoutPending : (core.channels i).timeoutPending = false
  handOff : (core.messageReady = false ∧ core.completeBuffer = noBuffer) ∨ HandedOff core i

inductive Valid (core : Core) : Prop where
  | idle (registered : Registered core) (state : Idle core)
  | rx (registered : Registered core) (i : Fin channelCount) (state : Assembling core i)
      (progress : Progress (core.channels i))
  | processing (registered : Registered core) (i : Fin channelCount) (state : Running core i)

theorem Valid.registered {core : Core} (valid : Valid core) : Registered core := by
  cases valid <;> assumption

theorem Valid.idle_of_phase {core : Core} (valid : Valid core) (phase : core.phase = .idle) :
    Idle core := by
  cases valid with
  | idle registered state => exact state
  | rx registered i state => exact absurd (state.phase.symm.trans phase) (by decide)
  | processing registered i state => exact absurd (state.phase.symm.trans phase) (by decide)

theorem Valid.assembling_of_phase {core : Core} (valid : Valid core) (phase : core.phase = .rx) :
    ∃ i, Assembling core i ∧ Progress (core.channels i) := by
  cases valid with
  | idle registered state => exact absurd (state.phase.symm.trans phase) (by decide)
  | rx registered i state progress => exact ⟨i, state, progress⟩
  | processing registered i state => exact absurd (state.phase.symm.trans phase) (by decide)

theorem Valid.running_of_phase {core : Core} (valid : Valid core)
    (phase : core.phase = .processing) : ∃ i, Running core i := by
  cases valid with
  | idle registered state => exact absurd (state.phase.symm.trans phase) (by decide)
  | rx registered i state => exact absurd (state.phase.symm.trans phase) (by decide)
  | processing registered i state => exact ⟨i, state⟩

theorem coreInit_valid : Valid coreInit := by
  apply Valid.idle
  · exact ⟨Or.inl rfl, by simp [coreInit], by simp [coreInit]⟩
  · exact ⟨rfl, rfl, fun _ => rfl, fun _ => rfl, rfl, rfl⟩

/-! Steps that keep the phase. -/

theorem Registered.transfer {core after : Core} (registered : Registered core)
    (rxBuffer : after.rxBuffer = 0 ∨ after.rxBuffer = 1)
    (same : ∀ j, (after.channels j).allocated = (core.channels j).allocated ∧
      (after.channels j).cid = (core.channels j).cid) : Registered after := by
  refine ⟨rxBuffer, ?_, ?_⟩
  · intro j held
    rw [(same j).1] at held
    rw [(same j).2]
    exact registered.assigned j held
  · intro j k first second equal
    rw [(same j).1] at first
    rw [(same k).1] at second
    rw [(same j).2, (same k).2] at equal
    exact registered.distinct j k first second equal

theorem Registered.update {core after : Core} (registered : Registered core) {i : Fin channelCount}
    (rxBuffer : after.rxBuffer = core.rxBuffer)
    (others : ∀ j, j ≠ i → after.channels j = core.channels j)
    (allocated : (after.channels i).allocated = (core.channels i).allocated)
    (cid : (after.channels i).cid = (core.channels i).cid) : Registered after := by
  apply registered.transfer
  · rw [rxBuffer]
    exact registered.rxBuffer
  · intro j
    by_cases here : j = i
    · rw [here]
      exact ⟨allocated, cid⟩
    · rw [others j here]
      exact ⟨rfl, rfl⟩

theorem Registered.setChannel {core : Core} (registered : Registered core) (i : Fin channelCount)
    (channel : Channel) (allocated : channel.allocated = (core.channels i).allocated)
    (cid : channel.cid = (core.channels i).cid) : Registered (core.setChannel i channel) := by
  refine registered.update rfl (fun j => setChannel_other core i j channel) ?_ ?_
  · rw [setChannel_same]
    exact allocated
  · rw [setChannel_same]
    exact cid

end P4Key.Ctaphid
