import P4Key.Ctaphid.Packets

/-! Every operation of the core keeps it valid. -/

namespace P4Key.Ctaphid

open Memory

theorem Valid.note {core : Core} (valid : Valid core) (control : Bytes 17) (count : UInt32) :
    Valid (core.note control count) := by
  cases valid with
  | idle registered state =>
      exact .idle ⟨registered.rxBuffer, registered.assigned, registered.distinct⟩
        ⟨state.phase, state.activeCid, state.partialActive, state.cancel, state.messageReady,
          state.completeBuffer⟩
  | rx registered i state progress =>
      exact .rx ⟨registered.rxBuffer, registered.assigned, registered.distinct⟩ i
        ⟨state.phase, state.owner, state.partialActive, state.cancel, state.command, state.known,
          state.declared, state.timeoutPending, state.messageReady, state.completeBuffer⟩
        ⟨progress.received, progress.more⟩
  | processing registered i state =>
      refine .processing ⟨registered.rxBuffer, registered.assigned, registered.distinct⟩ i
        ⟨state.phase, state.owner, state.partialActive, state.cancel, state.command, state.known,
          state.declared, state.timeoutPending, ?_⟩
      rcases state.handOff with nothing | held
      · exact Or.inl nothing
      · exact Or.inr ⟨held.messageReady, held.completeBuffer, held.completeCid, held.completeCommand,
          held.activeCommand, held.completeLen, held.completeGeneration⟩

/-- A channel record that differs from another one at most in what no transaction depends on. -/
structure Channel.Agrees (new old : Channel) : Prop where
  cid : new.cid = old.cid
  allocated : new.allocated = old.allocated
  partialActive : new.partialActive = old.partialActive
  cancel : new.cancel = true → old.cancel = true
  command : new.command = old.command
  declaredLen : new.declaredLen = old.declaredLen
  received : new.received = old.received
  nextSequence : new.nextSequence = old.nextSequence
  generation : new.generation = old.generation
  timeoutPending : new.timeoutPending = true → old.timeoutPending = true

theorem Channel.Agrees.refl (channel : Channel) : channel.Agrees channel :=
  ⟨rfl, rfl, rfl, id, rfl, rfl, rfl, rfl, rfl, id⟩

theorem Channel.Agrees.settle (channel : Channel) : channel.settle.Agrees channel :=
  ⟨rfl, rfl, rfl, id, rfl, rfl, rfl, rfl, rfl, by intro pending; cases pending⟩

theorem Channel.Agrees.uncancel (channel : Channel) :
    Channel.Agrees { channel with cancel := false } channel := by
  refine ⟨rfl, rfl, rfl, ?_, rfl, rfl, rfl, rfl, rfl, id⟩
  intro impossible
  cases impossible

theorem Valid.replace {core : Core} (valid : Valid core) (i : Fin channelCount) (channel : Channel)
    (registered : Registered (core.setChannel i channel))
    (partialActive : channel.partialActive = (core.channels i).partialActive)
    (cancel : channel.cancel = true → (core.channels i).cancel = true)
    (agrees : (core.channels i).allocated = true → channel.Agrees (core.channels i)) :
    Valid (core.setChannel i channel) := by
  have every : ∀ j, (core.channels j).allocated = true →
      ((core.setChannel i channel).channels j).Agrees (core.channels j) :=
    fun j => setChannel_relates (R := fun new old => old.allocated = true → new.Agrees old) j
      (fun record _ => .refl record) agrees
  have moving : ∀ j, ((core.setChannel i channel).channels j).partialActive =
      (core.channels j).partialActive :=
    fun j => setChannel_relates (R := fun new old => new.partialActive = old.partialActive) j
      (fun _ => rfl) partialActive
  have cancelled : ∀ j, ((core.setChannel i channel).channels j).cancel = true →
      (core.channels j).cancel = true :=
    fun j => setChannel_relates (R := fun new old => new.cancel = true → old.cancel = true) j
      (fun _ => id) cancel
  have calm : ∀ j, (core.channels j).cancel = false →
      ((core.setChannel i channel).channels j).cancel = false := by
    intro j before
    by_contra after
    rw [cancelled j (by simpa using after)] at before
    cases before
  have settled : ∀ j, (core.channels j).allocated = true →
      (core.channels j).timeoutPending = false →
      ((core.setChannel i channel).channels j).timeoutPending = false := by
    intro j held before
    by_contra after
    rw [(every j held).timeoutPending (by simpa using after)] at before
    cases before
  have owner : ∀ j cid, Owns core j cid → Owns (core.setChannel i channel) j cid := by
    intro j cid owns
    exact ⟨(every j owns.1).allocated.trans owns.1, (every j owns.1).cid.trans owns.2⟩
  cases valid with
  | idle _ state =>
      exact .idle registered ⟨state.phase, state.activeCid,
        fun j => (moving j).trans (state.partialActive j),
        fun j => calm j (state.cancel j), state.messageReady, state.completeBuffer⟩
  | rx _ k state progress =>
      have same := every k state.owner.1
      refine .rx registered k ⟨state.phase, owner k _ state.owner, ?_, fun j => calm j (state.cancel j),
        same.command.trans state.command, state.known, ?_,
        settled k state.owner.1 state.timeoutPending,
        state.messageReady, state.completeBuffer⟩ ⟨?_, ?_⟩
      · intro j
        rw [moving j]
        exact state.partialActive j
      · rw [same.declaredLen]
        exact state.declared
      · rw [same.received, same.nextSequence]
        exact progress.received
      · rw [same.received, same.declaredLen]
        exact progress.more
  | processing _ k state =>
      have same := every k state.owner.1
      refine .processing registered k ⟨state.phase, owner k _ state.owner,
        fun j => (moving j).trans (state.partialActive j),
        fun j after => state.cancel j (cancelled j after),
        same.command.trans state.command, state.known, ?_,
        settled k state.owner.1 state.timeoutPending, ?_⟩
      · rw [same.declaredLen]
        exact state.declared
      · rcases state.handOff with nothing | held
        · exact Or.inl nothing
        · exact Or.inr ⟨held.messageReady, held.completeBuffer, held.completeCid,
            held.completeCommand, held.activeCommand,
            held.completeLen.trans same.declaredLen.symm,
            held.completeGeneration.trans same.generation.symm⟩

theorem Valid.setChannel {core : Core} (valid : Valid core) (i : Fin channelCount)
    (channel : Channel) (agrees : channel.Agrees (core.channels i)) :
    Valid (core.setChannel i channel) :=
  valid.replace i channel (valid.registered.setChannel i channel agrees.allocated agrees.cid)
    agrees.partialActive agrees.cancel (fun _ => agrees)

theorem Valid.free_partialActive {core : Core} (valid : Valid core) {i : Fin channelCount}
    (free : (core.channels i).allocated = false) : (core.channels i).partialActive = false := by
  cases valid with
  | idle _ state => exact state.partialActive i
  | rx _ k state =>
      by_contra receiving
      have here := (state.partialActive i).mp (by simpa using receiving)
      have held := state.owner.1
      rw [← here, free] at held
      cases held
  | processing _ k state => exact state.partialActive i

theorem Registered.assign {core : Core} (registered : Registered core) (i : Fin channelCount)
    (channel : Channel) (proper : channel.cid ≠ 0 ∧ channel.cid ≠ broadcastCid)
    (fresh : ∀ j, ¬ Owns core j channel.cid) : Registered (core.setChannel i channel) := by
  have place : ∀ j, j = i ∨ (core.setChannel i channel).channels j = core.channels j := by
    intro j
    by_cases here : j = i
    · exact Or.inl here
    · exact Or.inr (setChannel_other core i j channel here)
  refine ⟨registered.rxBuffer, ?_, ?_⟩
  · intro j held
    rcases place j with rfl | same
    · rw [setChannel_same]
      exact proper
    · rw [same] at held ⊢
      exact registered.assigned j held
  · intro j k first second equal
    rcases place j with rfl | sameJ
    · rcases place k with rfl | sameK
      · rfl
      · rw [setChannel_same, sameK] at equal
        rw [sameK] at second
        exact absurd ⟨second, equal.symm⟩ (fresh k)
    · rcases place k with rfl | sameK
      · rw [setChannel_same, sameJ] at equal
        rw [sameJ] at first
        exact absurd ⟨first, equal⟩ (fresh j)
      · rw [sameJ] at first equal
        rw [sameK] at second equal
        exact registered.distinct j k first second equal

theorem Valid.allocate {core : Core} (valid : Valid core) (i : Fin channelCount) (cid : UInt32)
    (free : (core.channels i).allocated = false) (proper : cid ≠ 0 ∧ cid ≠ broadcastCid)
    (fresh : ∀ j, ¬ Owns core j cid) :
    Valid (core.setChannel i { cid := cid, allocated := true }) := by
  refine valid.replace i _ (valid.registered.assign i _ proper fresh) ?_ ?_ ?_
  · exact (valid.free_partialActive free).symm
  · intro impossible
    cases impossible
  · intro held
    rw [free] at held
    cases held

end P4Key.Ctaphid
