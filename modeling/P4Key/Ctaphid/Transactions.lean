import P4Key.Ctaphid.Preserve

/-! Where a transaction starts, grows, completes and ends. -/

namespace P4Key.Ctaphid

open Memory

/-! The end. -/

theorem clearActive_channels (core : Core) (dropComplete : Bool) (j : Fin channelCount) :
    (clearActive core dropComplete).channels j =
      if chanFind core core.activeCid = some j then clearTransaction (core.channels j)
      else core.channels j := by
  have release : ∀ middle : Core, ∀ p : Prop, [Decidable p] →
      (if p then releaseComplete middle else middle).channels = middle.channels := by
    intro middle p decision
    split <;> rfl
  rw [clearActive]
  cases found : chanFind core core.activeCid with
  | none =>
      simp only [release]
      rfl
  | some i =>
      simp only [release]
      by_cases here : i = j
      · subst here
        rw [if_pos rfl]
        exact setChannel_same core i _
      · rw [if_neg (by simpa using here)]
        exact setChannel_other core i j _ (Ne.symm here)

theorem clearActive_rxBuffer (core : Core) (dropComplete : Bool) :
    (clearActive core dropComplete).rxBuffer = core.rxBuffer := by
  rw [clearActive]
  cases chanFind core core.activeCid <;> simp only <;> split <;> rfl

/-- Nothing is handed off, or what is handed off can be dropped. -/
theorem Valid.handOff {core : Core} (valid : Valid core) :
    (core.messageReady = false ∧ core.completeBuffer = noBuffer) ∨
      (core.messageReady = true ∧ core.completeBuffer < bufferCount) := by
  cases valid with
  | idle registered state => exact Or.inl ⟨state.messageReady, state.completeBuffer⟩
  | rx registered i state progress => exact Or.inl ⟨state.messageReady, state.completeBuffer⟩
  | processing registered i state =>
      rcases state.handOff with nothing | held
      · exact Or.inl nothing
      · apply Or.inr
        refine ⟨held.messageReady, ?_⟩
        rw [held.completeBuffer]
        rcases registered.rxBuffer with first | second
        · rw [first]
          decide
        · rw [second]
          decide

theorem Valid.clearActive_dropped {core : Core} (valid : Valid core) :
    (clearActive core true).messageReady = false ∧
      (clearActive core true).completeBuffer = noBuffer := by
  have kept : ∀ middle : Core, middle.messageReady = core.messageReady →
      middle.completeBuffer = core.completeBuffer →
      (if true = true ∧ middle.messageReady = true ∧ middle.completeBuffer < bufferCount then
        releaseComplete middle else middle).messageReady = false ∧
      (if true = true ∧ middle.messageReady = true ∧ middle.completeBuffer < bufferCount then
        releaseComplete middle else middle).completeBuffer = noBuffer := by
    intro middle ready buffer
    rcases valid.handOff with nothing | held
    · rw [if_neg (by simp [ready, nothing.1]), ready, buffer]
      exact nothing
    · rw [if_pos ⟨rfl, ready.trans held.1, buffer ▸ held.2⟩]
      exact ⟨rfl, rfl⟩
  rw [clearActive]
  cases chanFind core core.activeCid with
  | none => exact kept _ rfl rfl
  | some i => exact kept _ rfl rfl

theorem Valid.others_clear {core : Core} (valid : Valid core) (j : Fin channelCount)
    (other : chanFind core core.activeCid ≠ some j) :
    (core.channels j).partialActive = false ∧ (core.channels j).cancel = false := by
  cases valid with
  | idle registered state => exact ⟨state.partialActive j, state.cancel j⟩
  | rx registered i state progress =>
      refine ⟨?_, state.cancel j⟩
      by_contra active
      have here := (state.partialActive j).mp (by simpa using active)
      subst here
      exact other (state.owner.chanFind registered)
  | processing registered i state =>
      refine ⟨state.partialActive j, ?_⟩
      by_contra active
      have here := (state.cancel j (by simpa using active)).1
      subst here
      exact other (state.owner.chanFind registered)

theorem Valid.clearActive_idle {core : Core} (valid : Valid core) : Idle (clearActive core true) := by
  have calm : ∀ j, ((clearActive core true).channels j).partialActive = false ∧
      ((clearActive core true).channels j).cancel = false := by
    intro j
    rw [clearActive_channels]
    by_cases owner : chanFind core core.activeCid = some j
    · rw [if_pos owner]
      exact ⟨rfl, rfl⟩
    · rw [if_neg owner]
      exact valid.others_clear j owner
  exact ⟨rfl, rfl, fun j => (calm j).1, fun j => (calm j).2, valid.clearActive_dropped.1,
    valid.clearActive_dropped.2⟩

theorem clearActive_places (core : Core) (dropComplete : Bool) (j : Fin channelCount) :
    ((clearActive core dropComplete).channels j).allocated = (core.channels j).allocated ∧
      ((clearActive core dropComplete).channels j).cid = (core.channels j).cid := by
  rw [clearActive_channels]
  split <;> exact ⟨rfl, rfl⟩

theorem Valid.clearActive {core : Core} (valid : Valid core) : Valid (clearActive core true) := by
  refine .idle (valid.registered.transfer ?_ (clearActive_places core true)) valid.clearActive_idle
  rw [clearActive_rxBuffer]
  exact valid.registered.rxBuffer

theorem Idle.restart {core : Core} (idle : Idle core) (registered : Registered core)
    (i : Fin channelCount) (generation : UInt32) :
    Valid (core.setChannel i { clearChannelRx (core.channels i) with
      cancel := false, timeoutPending := false, generation := generation }) := by
  refine .idle (registered.setChannel i _ rfl rfl) ⟨idle.phase, idle.activeCid, ?_, ?_,
    idle.messageReady, idle.completeBuffer⟩
  · refine flag_false Channel.partialActive (fun j => setChannel_other core i j _) ?_ idle.partialActive
    rw [setChannel_same]
    rfl
  · refine flag_false Channel.cancel (fun j => setChannel_other core i j _) ?_ idle.cancel
    rw [setChannel_same]

/-! The start. -/

section Start

variable (core : Core) (i : Fin channelCount) (command : UInt8) (declaredLen : Nat)
  (data : List UInt8) (nowMs : UInt32)

theorem storeFirst_owner : (storeFirst core i command declaredLen data nowMs).channels i =
    { core.channels i with
      partialActive := true, command := command, declaredLen := declaredLen,
      received := min declaredLen initDataBytes, nextSequence := 0, lastPacketMs := nowMs,
      cancel := false, timeoutPending := false, keepaliveSent := false,
      generation := (core.channels i).generation + 1 } := by
  simp [storeFirst, beginMessage, Core.setChannel, Core.setBuffer, Core.wipe]

theorem storeFirst_other (j : Fin channelCount) (other : j ≠ i) :
    (storeFirst core i command declaredLen data nowMs).channels j = core.channels j := by
  simp [storeFirst, beginMessage, Core.setChannel, Core.setBuffer, Core.wipe, other]

theorem storeFirst_buffer : (storeFirst core i command declaredLen data nowMs).buffers core.rxBuffer =
    storeInto blank 0 (data.take (min declaredLen initDataBytes)) := by
  simp [storeFirst, beginMessage, Core.setChannel, Core.setBuffer, Core.wipe]

theorem Idle.storeFirst {core : Core} (idle : Idle core) (registered : Registered core)
    {i : Fin channelCount} {cid : UInt32} (owns : Owns core i cid) {command : UInt8}
    (known : command = cmdPing ∨ command = cmdCbor) {declaredLen : Nat}
    (bounded : declaredLen ≤ maxPayload) :
    Registered (storeFirst core i command declaredLen data nowMs) ∧
      Assembling (storeFirst core i command declaredLen data nowMs) i := by
  have owner := storeFirst_owner core i command declaredLen data nowMs
  have other := storeFirst_other core i command declaredLen data nowMs
  constructor
  · refine registered.update rfl other ?_ ?_
    · rw [owner]
    · rw [owner]
  · refine ⟨rfl, ⟨?_, ?_⟩, ?_, ?_, ?_, known, ?_, ?_, idle.messageReady, idle.completeBuffer⟩
    · rw [owner]
      exact owns.1
    · rw [owner]
      rfl
    · intro j
      by_cases here : j = i
      · subst here
        simp [owner]
      · rw [other j here, idle.partialActive j]
        simp [here]
    · refine flag_false Channel.cancel other ?_ idle.cancel
      rw [owner]
    · rw [owner]
      rfl
    · rw [owner]
      exact bounded
    · rw [owner]

end Start

/-! The growth. -/

section Growth

variable (core : Core) (i : Fin channelCount) (data : List UInt8) (nowMs : UInt32)

theorem storeNext_owner : (storeNext core i data nowMs).channels i =
    { core.channels i with
      received := (core.channels i).received +
        min ((core.channels i).declaredLen - (core.channels i).received) contDataBytes
      lastPacketMs := nowMs
      nextSequence := (core.channels i).nextSequence + 1 } := by
  simp [storeNext, Core.setChannel]

theorem storeNext_other (j : Fin channelCount) (other : j ≠ i) :
    (storeNext core i data nowMs).channels j = core.channels j := by
  simp [storeNext, Core.setChannel, Core.setBuffer, other]

theorem storeNext_buffer : (storeNext core i data nowMs).buffers core.rxBuffer =
    storeInto (core.buffers core.rxBuffer) (core.channels i).received
      (data.take (min ((core.channels i).declaredLen - (core.channels i).received)
        contDataBytes)) := by
  simp [storeNext, Core.setChannel, Core.setBuffer]

theorem Assembling.storeNext {core : Core} {i : Fin channelCount} (assembling : Assembling core i)
    (registered : Registered core) :
    Registered (storeNext core i data nowMs) ∧ Assembling (storeNext core i data nowMs) i := by
  have owner := storeNext_owner core i data nowMs
  have other := storeNext_other core i data nowMs
  constructor
  · refine registered.update rfl other ?_ ?_
    · rw [owner]
    · rw [owner]
  · refine ⟨assembling.phase, ⟨?_, ?_⟩, ?_, ?_, ?_, assembling.known, ?_, ?_,
      assembling.messageReady, assembling.completeBuffer⟩
    · rw [owner]
      exact assembling.owner.1
    · rw [owner]
      exact assembling.owner.2
    · intro j
      by_cases here : j = i
      · subst here
        rw [owner]
        exact assembling.partialActive j
      · rw [other j here]
        exact assembling.partialActive j
    · refine flag_false Channel.cancel other ?_ assembling.cancel
      rw [owner]
      exact assembling.cancel i
    · rw [owner]
      exact assembling.command
    · rw [owner]
      exact assembling.declared
    · rw [owner]
      exact assembling.timeoutPending

end Growth

theorem toNat_succ_of_small (sequence : UInt8) (small : sequence.toNat < 255) :
    (sequence + 1).toNat = sequence.toNat + 1 := by
  rw [UInt8.toNat_add]
  have one : (1 : UInt8).toNat = 1 := rfl
  rw [one]
  omega

theorem storeFirst_progress (core : Core) (i : Fin channelCount) (command : UInt8)
    (declaredLen : Nat) (data : List UInt8) (nowMs : UInt32)
    (more : ((storeFirst core i command declaredLen data nowMs).channels i).received ≠ declaredLen) :
    Progress ((storeFirst core i command declaredLen data nowMs).channels i) := by
  rw [storeFirst_owner] at more ⊢
  have long : ¬ declaredLen ≤ initDataBytes := by
    intro short
    exact more (Nat.min_eq_left short)
  have cut : min declaredLen initDataBytes = initDataBytes := Nat.min_eq_right (by omega)
  refine ⟨cut, ?_⟩
  simp only [cut]
  omega

theorem storeNext_progress (core : Core) (i : Fin channelCount) (data : List UInt8)
    (nowMs : UInt32) (progress : Progress (core.channels i))
    (declared : (core.channels i).declaredLen ≤ maxPayload)
    (more : ((storeNext core i data nowMs).channels i).received ≠
      ((storeNext core i data nowMs).channels i).declaredLen) :
    Progress ((storeNext core i data nowMs).channels i) := by
  have received := progress.received
  have remains := progress.more
  rw [storeNext_owner] at more ⊢
  simp only [maxPayload, initDataBytes, contDataBytes] at *
  have small := toNat_succ_of_small (core.channels i).nextSequence (by omega)
  refine ⟨?_, ?_⟩
  · simp only [small, initDataBytes, contDataBytes]
    omega
  · simp only
    omega

/-! The completion. -/

def echoed (core : Core) (i : Fin channelCount) : Core :=
  { core.setChannel i { core.channels i with partialActive := false } with phase := .processing }

def handedOff (core : Core) (i : Fin channelCount) : Core :=
  { echoed core i with
    completeBuffer := core.rxBuffer
    completeCid := (core.channels i).cid
    completeCommand := (core.channels i).command
    completeLen := (core.channels i).declaredLen
    completeGeneration := (core.channels i).generation
    rxBuffer := 1 - core.rxBuffer
    messageReady := true }

def echoAction (core : Core) (i : Fin channelCount) : Action :=
  { kind := .send, cid := core.activeCid, command := cmdPing
    generation := (core.channels i).generation
    data := (core.buffers core.rxBuffer).toList.take (core.channels i).declaredLen }

def messageAction (core : Core) (i : Fin channelCount) : Action :=
  { kind := .message, cid := core.activeCid, command := cmdCbor
    generation := (core.channels i).generation
    data := (core.buffers core.rxBuffer).toList.take (core.channels i).declaredLen }

theorem Assembling.completeMessage_eq {core : Core} {i : Fin channelCount}
    (assembling : Assembling core i) :
    completeMessage core i =
      if core.activeCommand = cmdPing then (echoed core i, echoAction core i)
      else (handedOff core i, messageAction core i) := by
  have cid := assembling.owner.2
  rw [completeMessage]
  simp only [setChannel_same]
  by_cases ping : core.activeCommand = cmdPing
  · rw [if_pos (assembling.command.trans ping), if_pos ping]
    rw [echoAction, ← cid]
    rfl
  · have cbor : core.activeCommand = cmdCbor := by
      rcases assembling.known with ping' | cbor
      · contradiction
      · exact cbor
    have other : (core.channels i).command ≠ cmdPing := by
      rw [assembling.command]
      exact ping
    have free : ¬ core.messageReady = true := by
      simp [assembling.messageReady]
    rw [if_neg other, if_neg ping]
    refine (if_neg free).trans ?_
    rw [messageAction, ← cid, ← cbor, ← assembling.command]
    rfl

theorem Assembling.completeMessage_phase {core : Core} {i : Fin channelCount}
    (assembling : Assembling core i) : (completeMessage core i).1.phase = .processing := by
  rw [assembling.completeMessage_eq]
  split <;> rfl

theorem Assembling.completeMessage_activeCid {core : Core} {i : Fin channelCount}
    (assembling : Assembling core i) : (completeMessage core i).1.activeCid = core.activeCid := by
  rw [assembling.completeMessage_eq]
  split <;> rfl

theorem Assembling.completeMessage_channels {core : Core} {i : Fin channelCount}
    (assembling : Assembling core i) :
    (completeMessage core i).1.channels =
      (core.setChannel i { core.channels i with partialActive := false }).channels := by
  rw [assembling.completeMessage_eq]
  split <;> rfl

theorem Assembling.echoed {core : Core} {i : Fin channelCount} (assembling : Assembling core i)
    (registered : Registered core) :
    Registered (echoed core i) ∧ Running (echoed core i) i := by
  have same : (P4Key.Ctaphid.echoed core i).channels i =
      { core.channels i with partialActive := false } :=
    setChannel_same core i _
  have other : ∀ j, j ≠ i → (P4Key.Ctaphid.echoed core i).channels j = core.channels j :=
    fun j => setChannel_other core i j _
  constructor
  · refine registered.update rfl other ?_ ?_
    · rw [same]
    · rw [same]
  · refine ⟨rfl, ⟨?_, ?_⟩, ?_, ?_, ?_, assembling.known, ?_, ?_,
      Or.inl ⟨assembling.messageReady, assembling.completeBuffer⟩⟩
    · rw [same]
      exact assembling.owner.1
    · rw [same]
      exact assembling.owner.2
    · intro j
      by_cases here : j = i
      · subst here
        rw [same]
      · rw [other j here]
        by_contra active
        exact here ((assembling.partialActive j).mp (by simpa using active))
    · intro j cancelled
      have calm : ((P4Key.Ctaphid.echoed core i).channels i).cancel = false := by
        rw [same]
        exact assembling.cancel i
      rw [flag_false Channel.cancel other calm assembling.cancel j] at cancelled
      cases cancelled
    · rw [same]
      exact assembling.command
    · rw [same]
      exact assembling.declared
    · rw [same]
      exact assembling.timeoutPending

theorem flip_flip (index : UInt8) : 1 - (1 - index) = index := by
  grind

theorem Assembling.handedOff {core : Core} {i : Fin channelCount} (assembling : Assembling core i)
    (registered : Registered core) (cbor : core.activeCommand = cmdCbor) :
    Registered (handedOff core i) ∧ Running (handedOff core i) i := by
  rcases assembling.echoed registered with ⟨found, running⟩
  have same : (P4Key.Ctaphid.handedOff core i).channels i =
      { core.channels i with partialActive := false } :=
    setChannel_same core i _
  constructor
  · refine found.transfer ?_ (fun j => ⟨rfl, rfl⟩)
    have flipped : (P4Key.Ctaphid.handedOff core i).rxBuffer = 1 - core.rxBuffer := rfl
    rw [flipped]
    rcases registered.rxBuffer with zero | one
    · rw [zero]
      exact Or.inr rfl
    · rw [one]
      exact Or.inl rfl
  · refine ⟨rfl, running.owner, running.partialActive, running.cancel, running.command,
      running.known, running.declared, running.timeoutPending, Or.inr ?_⟩
    refine ⟨rfl, (flip_flip core.rxBuffer).symm, assembling.owner.2, assembling.command, cbor, ?_, ?_⟩
    · rw [same]
      rfl
    · rw [same]
      rfl

theorem Assembling.completeMessage_valid {core : Core} {i : Fin channelCount}
    (assembling : Assembling core i) (registered : Registered core) :
    Valid (completeMessage core i).1 := by
  rw [assembling.completeMessage_eq]
  by_cases ping : core.activeCommand = cmdPing
  · rw [if_pos ping]
    have result := assembling.echoed registered
    exact .processing result.1 i result.2
  · rw [if_neg ping]
    have result := assembling.handedOff registered (assembling.known.resolve_left ping)
    exact .processing result.1 i result.2

theorem Idle.startMessage_valid {core : Core} (idle : Idle core) (registered : Registered core)
    {i : Fin channelCount} {cid : UInt32} (owns : Owns core i cid) {command : UInt8}
    (known : command = cmdPing ∨ command = cmdCbor) {declaredLen : Nat}
    (bounded : declaredLen ≤ maxPayload) (data : List UInt8) (nowMs : UInt32) :
    Valid (startMessage core i command declaredLen data nowMs).1 := by
  have stored := idle.storeFirst data nowMs registered owns known bounded
  rw [startMessage]
  by_cases whole : ((P4Key.Ctaphid.storeFirst core i command declaredLen data nowMs).channels i).received =
      declaredLen
  · rw [if_pos whole]
    exact stored.2.completeMessage_valid stored.1
  · rw [if_neg whole]
    exact .rx stored.1 i stored.2 (storeFirst_progress core i command declaredLen data nowMs whole)

theorem Assembling.appendPacket_valid {core : Core} {i : Fin channelCount}
    (assembling : Assembling core i) (registered : Registered core)
    (progress : Progress (core.channels i)) (data : List UInt8) (nowMs : UInt32) :
    Valid (appendPacket core i data nowMs).1 := by
  have stored := assembling.storeNext data nowMs registered
  rw [appendPacket]
  by_cases whole : ((P4Key.Ctaphid.storeNext core i data nowMs).channels i).received =
      ((P4Key.Ctaphid.storeNext core i data nowMs).channels i).declaredLen
  · rw [if_pos whole]
    exact stored.2.completeMessage_valid stored.1
  · rw [if_neg whole]
    exact .rx stored.1 i stored.2
      (storeNext_progress core i data nowMs progress assembling.declared whole)

end P4Key.Ctaphid
