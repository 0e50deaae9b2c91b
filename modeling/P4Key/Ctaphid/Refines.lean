import P4Key.Ctaphid.Allocation
import P4Key.Ctaphid.Buffers
import P4Key.Ctaphid.Receiver

/-! The core is a receiver.

A valid core shows the lines of its channels and the transaction of its phase.
Each function of the core does to what is shown what the receiver does. -/

namespace P4Key.Ctaphid

open Memory

/-! What a core shows. -/

def Channel.line (channel : Channel) : Line := ⟨channel.generation, channel.timeoutPending⟩

def Core.transaction (core : Core) : Transaction :=
  match core.phase, chanFind core core.activeCid with
  | .rx, some i =>
    .receiving core.activeCid core.activeCommand (core.channels i).declaredLen
      ((core.buffers core.rxBuffer).toList.take (core.channels i).received)
      (core.channels i).lastPacketMs
  | .processing, some i =>
    .processing core.activeCid core.activeCommand
      (if core.messageReady then
        some ((core.buffers core.completeBuffer).toList.take core.completeLen)
      else none)
      (core.channels i).cancel
  | _, _ => .idle

def Core.receiver (core : Core) : Receiver :=
  { lines := fun cid => (chanFind core cid).map fun i => (core.channels i).line
    transaction := core.transaction }

theorem coreInit_receiver : coreInit.receiver = {} := by
  have nothing : ∀ cid, chanFind coreInit cid = none := by
    intro cid
    cases found : chanFind coreInit cid with
    | none => rfl
    | some i => cases (chanFind_some found).1
  simp only [Core.receiver, nothing, Option.map_none, Receiver.mk.injEq, true_and]
  rfl

section Lines

variable {core after : Core} {i : Fin channelCount} {cid : UInt32}

theorem chanFind_congr (places : ∀ j, (after.channels j).allocated = (core.channels j).allocated ∧
    (after.channels j).cid = (core.channels j).cid) (cid : UInt32) :
    chanFind after cid = chanFind core cid := by
  simp only [chanFind, (places _).1, (places _).2]

theorem setChannel_places (i : Fin channelCount) (channel : Channel)
    (place : channel.allocated = (core.channels i).allocated ∧ channel.cid = (core.channels i).cid)
    (j : Fin channelCount) :
    ((core.setChannel i channel).channels j).allocated = (core.channels j).allocated ∧
      ((core.setChannel i channel).channels j).cid = (core.channels j).cid :=
  setChannel_relates (R := fun new old => new.allocated = old.allocated ∧ new.cid = old.cid) j
    (fun _ => ⟨rfl, rfl⟩) place

theorem Owns.lines (owner : Owns core i cid) (registered : Registered core) :
    core.receiver.lines cid = some (core.channels i).line := by
  simp only [Core.receiver, owner.chanFind registered, Option.map_some]

theorem Owns.generation (owner : Owns core i cid) (registered : Registered core) :
    core.receiver.generation cid = (core.channels i).generation := by
  rw [Receiver.generation, owner.lines registered]
  rfl

theorem lines_update (owner : Owns core i cid) (registered : Registered core)
    (places : ∀ j, (after.channels j).allocated = (core.channels j).allocated ∧
      (after.channels j).cid = (core.channels j).cid)
    (others : ∀ j, j ≠ i → (after.channels j).line = (core.channels j).line) :
    after.receiver.lines =
      Function.update core.receiver.lines cid (some (after.channels i).line) := by
  funext name
  simp only [Core.receiver, chanFind_congr places]
  by_cases here : name = cid
  · rw [here, owner.chanFind registered, Function.update_self]
    rfl
  · rw [Function.update_of_ne here]
    cases found : chanFind core name with
    | none => rfl
    | some j =>
        have apart : j ≠ i := by
          intro same
          have named := (chanFind_some found).2
          rw [same, owner.2] at named
          exact here named.symm
        simp only [Option.map_some, others j apart]

theorem lines_same (places : ∀ j, (after.channels j).allocated = (core.channels j).allocated ∧
      (after.channels j).cid = (core.channels j).cid)
    (same : ∀ j, (after.channels j).line = (core.channels j).line) :
    after.receiver.lines = core.receiver.lines := by
  funext name
  simp only [Core.receiver, chanFind_congr places, same]

theorem Owns.adjust (owner : Owns core i cid) (registered : Registered core)
    (change : Line → Line) : core.receiver.adjust cid change =
      { lines := Function.update core.receiver.lines cid (some (change (core.channels i).line))
        transaction := core.transaction } := by
  rw [Receiver.adjust, owner.lines registered]
  rfl

end Lines

/-! The transaction of each phase. -/

theorem transaction_idle {core : Core} (phase : core.phase = .idle) :
    core.transaction = .idle := by
  rw [Core.transaction, phase]

theorem Assembling.transaction {core : Core} {i : Fin channelCount}
    (assembling : Assembling core i) (registered : Registered core) :
    core.transaction = .receiving core.activeCid core.activeCommand (core.channels i).declaredLen
      ((core.buffers core.rxBuffer).toList.take (core.channels i).received)
      (core.channels i).lastPacketMs := by
  rw [Core.transaction, assembling.phase, assembling.owner.chanFind registered]

theorem Running.transaction {core : Core} {i : Fin channelCount} (running : Running core i)
    (registered : Registered core) :
    core.transaction = .processing core.activeCid core.activeCommand
      (if core.messageReady then
        some ((core.buffers core.completeBuffer).toList.take core.completeLen)
      else none) (core.channels i).cancel := by
  rw [Core.transaction, running.phase, running.owner.chanFind registered]

theorem Valid.transaction_cid {core : Core} (valid : Valid core) :
    core.transaction.cid = if core.phase = .idle then none else some core.activeCid := by
  cases valid with
  | idle registered state =>
      rw [transaction_idle state.phase, if_pos state.phase]
      rfl
  | rx registered i state =>
      rw [state.transaction registered, state.phase]
      rfl
  | processing registered i state =>
      rw [state.transaction registered, state.phase]
      rfl

def Channel.SameRequest (new old : Channel) : Prop :=
  new.declaredLen = old.declaredLen ∧ new.received = old.received ∧
    new.lastPacketMs = old.lastPacketMs ∧ new.cancel = old.cancel

theorem setChannel_transaction (core : Core) (i : Fin channelCount) (channel : Channel)
    (place : channel.allocated = (core.channels i).allocated ∧ channel.cid = (core.channels i).cid)
    (request : channel.SameRequest (core.channels i)) :
    (core.setChannel i channel).transaction = core.transaction := by
  have places := chanFind_congr (setChannel_places i channel place)
  have same := fun j => setChannel_relates (R := Channel.SameRequest) j
    (fun _ => ⟨rfl, rfl, rfl, rfl⟩) request
  have active : (core.setChannel i channel).activeCid = core.activeCid := rfl
  have phase : (core.setChannel i channel).phase = core.phase := rfl
  rw [Core.transaction, Core.transaction, places, active, phase]
  cases core.phase with
  | idle => rfl
  | rx =>
      cases chanFind core core.activeCid with
      | none => rfl
      | some j =>
          simp only [(same j).1, (same j).2.1, (same j).2.2.1]
          rfl
  | processing =>
      cases chanFind core core.activeCid with
      | none => rfl
      | some j =>
          simp only [(same j).2.2.2]
          rfl

theorem setChannel_receiver {core : Core} {i : Fin channelCount} {cid : UInt32}
    (owner : Owns core i cid) (registered : Registered core) (channel : Channel)
    (place : channel.allocated = (core.channels i).allocated ∧ channel.cid = (core.channels i).cid)
    (request : channel.SameRequest (core.channels i)) :
    (core.setChannel i channel).receiver = core.receiver.adjust cid fun _ => channel.line := by
  have lines := lines_update owner registered (setChannel_places i channel place)
    fun j apart => by rw [setChannel_other core i j channel apart]
  rw [setChannel_same] at lines
  rw [owner.adjust registered, ← setChannel_transaction core i channel place request, ← lines]
  rfl

theorem Owns.settle {core : Core} {i : Fin channelCount} {cid : UInt32} (owner : Owns core i cid)
    (registered : Registered core) :
    (core.setChannel i (core.channels i).settle).receiver =
      core.receiver.adjust cid fun line => { line with late := false } := by
  rw [setChannel_receiver owner registered (core.channels i).settle ⟨rfl, rfl⟩
    ⟨rfl, rfl, rfl, rfl⟩, owner.adjust registered, owner.adjust registered]
  rfl

/-! The ends. -/

theorem clearActive_receiver {core : Core} (valid : Valid core) :
    (clearActive core true).receiver = core.receiver.set .idle := by
  have lines : (clearActive core true).receiver.lines = core.receiver.lines := by
    apply lines_same (clearActive_places core true)
    intro j
    rw [clearActive_channels]
    split <;> rfl
  rw [Receiver.set, ← lines, ← transaction_idle valid.clearActive_idle.phase]
  rfl

theorem Assembling.expired_receiver {core : Core} {i : Fin channelCount}
    (assembling : Assembling core i) (registered : Registered core) :
    (expired core i).receiver =
      (core.receiver.set .idle).adjust core.activeCid fun line => { line with late := true } := by
  have places : ∀ j, ((expired core i).channels j).allocated = (core.channels j).allocated ∧
      ((expired core i).channels j).cid = (core.channels j).cid :=
    setChannel_places i (clearChannelRx { core.channels i with timeoutPending := true }) ⟨rfl, rfl⟩
  have own : (expired core i).channels i =
      clearChannelRx { core.channels i with timeoutPending := true } := setChannel_same core i _
  have lines := lines_update assembling.owner registered places
    fun j apart => congrArg Channel.line (setChannel_other core i j _ apart)
  rw [own] at lines
  have idle : (expired core i).transaction = .idle := transaction_idle rfl
  have shown : (core.receiver.set .idle).lines core.activeCid = some (core.channels i).line :=
    assembling.owner.lines registered
  rw [Receiver.adjust, shown, ← idle]
  exact congrArg (fun lines => (⟨lines, (expired core i).transaction⟩ : Receiver)) lines

theorem coreCleanup_receiver {core : Core} (valid : Valid core) (nowMs : UInt32) :
    (coreCleanup core nowMs).receiver = core.receiver.expire nowMs := by
  rcases coreCleanup_cases core nowMs valid with ⟨same, inTime⟩ | ⟨i, assembling, late, result⟩
  · rw [same, Receiver.expire]
    cases valid with
    | idle registered state =>
        have shown : core.receiver.transaction = .idle := transaction_idle state.phase
        rw [shown]
    | rx registered i state progress =>
        have shown : core.receiver.transaction = _ := state.transaction registered
        rw [shown]
        simp only [inTime i state, Bool.false_eq_true, if_false]
    | processing registered i state =>
        have shown : core.receiver.transaction = _ := state.transaction registered
        rw [shown]
  · have shown : core.receiver.transaction = _ := assembling.transaction valid.registered
    rw [result, assembling.expired_receiver valid.registered, Receiver.expire, shown]
    simp only [late, if_true]

/-! The calls of the consumer. -/

theorem Running.runs {core : Core} {i : Fin channelCount} (running : Running core i)
    (registered : Registered core) (cid generation : UInt32) :
    core.receiver.Runs cid generation ↔
      core.activeCid = cid ∧ (core.channels i).generation = generation := by
  have shown : core.receiver.transaction = _ := running.transaction registered
  rw [Receiver.Runs, shown]
  simp only [Transaction.cid, Option.some.injEq]
  constructor
  · rintro ⟨active, same⟩
    rw [← active, running.owner.generation registered] at same
    exact ⟨active, same⟩
  · rintro ⟨active, same⟩
    rw [← active, running.owner.generation registered]
    exact ⟨rfl, same⟩

theorem Running.found {core : Core} {i : Fin channelCount} (running : Running core i)
    (registered : Registered core) (cid : UInt32) :
    (core.phase ≠ .processing ∨ core.activeCid ≠ cid) ∨
      (¬ (core.phase ≠ .processing ∨ core.activeCid ≠ cid) ∧ core.activeCid = cid ∧
        chanFind core cid = some i) := by
  by_cases active : core.activeCid = cid
  · right
    rw [← active]
    exact ⟨by simp [running.phase], rfl, running.owner.chanFind registered⟩
  · exact Or.inl (Or.inr active)

theorem Running.marked {core : Core} {i : Fin channelCount} (running : Running core i)
    (registered : Registered core) (flag : Bool) :
    (core.setChannel i { core.channels i with cancel := flag }).receiver =
      core.receiver.set (.processing core.activeCid core.activeCommand
        (if core.messageReady then
          some ((core.buffers core.completeBuffer).toList.take core.completeLen)
        else none) flag) := by
  have places := setChannel_places i { core.channels i with cancel := flag } ⟨rfl, rfl⟩
  have lines : (core.setChannel i { core.channels i with cancel := flag }).receiver.lines =
      core.receiver.lines := by
    apply lines_same places
    intro j
    exact setChannel_relates (R := fun new old => new.line = old.line) j (fun _ => rfl) rfl
  have found : chanFind (core.setChannel i { core.channels i with cancel := flag }) core.activeCid =
      some i := (chanFind_congr places _).trans (running.owner.chanFind registered)
  have shown : (core.setChannel i { core.channels i with cancel := flag }).transaction =
      .processing core.activeCid core.activeCommand
        (if core.messageReady then
          some ((core.buffers core.completeBuffer).toList.take core.completeLen)
        else none) flag := by
    have phase : (core.setChannel i { core.channels i with cancel := flag }).phase = .processing :=
      running.phase
    have active : (core.setChannel i { core.channels i with cancel := flag }).activeCid =
      core.activeCid := rfl
    rw [Core.transaction, phase, active, found]
    simp only [setChannel_same]
    rfl
  rw [Receiver.set, ← lines, ← shown]
  rfl

theorem coreCancelled_receiver {core : Core} (valid : Valid core) (cid generation : UInt32) :
    coreCancelled core cid generation = core.receiver.cancelled cid generation := by
  rw [coreCancelled]
  cases valid with
  | idle registered state =>
      have shown : core.receiver.transaction = .idle := transaction_idle state.phase
      rw [if_pos (Or.inl (by rw [state.phase]; decide)), Receiver.cancelled, shown]
  | rx registered i state =>
      have shown : core.receiver.transaction = _ := state.transaction registered
      rw [if_pos (Or.inl (by rw [state.phase]; decide)), Receiver.cancelled, shown]
  | processing registered i running =>
      have shown : core.receiver.transaction = _ := running.transaction registered
      rw [Receiver.cancelled, shown]
      simp only [running.runs registered]
      rcases running.found registered cid with other | ⟨own, active, found⟩
      · rw [if_pos other]
        have apart := other.resolve_left (not_not.mpr running.phase)
        simp [apart]
      · rw [if_neg own, found]
        simp only [active, true_and]
        by_cases same : (core.channels i).generation = generation
        · simp [same]
        · simp [same]

theorem coreClearCancel_receiver {core : Core} (valid : Valid core) (cid generation : UInt32) :
    (coreClearCancel core cid generation).receiver = core.receiver.clearCancel cid generation := by
  rw [coreClearCancel]
  cases valid with
  | idle registered state =>
      have shown : core.receiver.transaction = .idle := transaction_idle state.phase
      rw [if_pos (Or.inl (by rw [state.phase]; decide)), Receiver.clearCancel, shown]
  | rx registered i state =>
      have shown : core.receiver.transaction = _ := state.transaction registered
      rw [if_pos (Or.inl (by rw [state.phase]; decide)), Receiver.clearCancel, shown]
  | processing registered i running =>
      have shown : core.receiver.transaction = _ := running.transaction registered
      rw [Receiver.clearCancel, shown]
      simp only [running.runs registered]
      rcases running.found registered cid with other | ⟨own, active, found⟩
      · rw [if_pos other]
        have apart := other.resolve_left (not_not.mpr running.phase)
        rw [if_neg fun both => apart both.1]
      · rw [if_neg own, found]
        simp only [active, true_and]
        by_cases same : (core.channels i).generation = generation
        · rw [if_pos same, if_pos same]
          have marked := running.marked registered false
          rw [active] at marked
          exact marked
        · rw [if_neg same, if_neg same]

theorem coreFinishResponse_receiver {core : Core} (valid : Valid core) (cid generation : UInt32) :
    (coreFinishResponse core cid generation).receiver = core.receiver.finish cid generation := by
  have ended := clearActive_receiver valid
  rw [coreFinishResponse]
  cases valid with
  | idle registered state =>
      have shown : core.receiver.transaction = .idle := transaction_idle state.phase
      rw [if_pos (Or.inl (by rw [state.phase]; decide)), Receiver.finish, shown]
  | rx registered i state =>
      have shown : core.receiver.transaction = _ := state.transaction registered
      rw [if_pos (Or.inl (by rw [state.phase]; decide)), Receiver.finish, shown]
  | processing registered i running =>
      have shown : core.receiver.transaction = _ := running.transaction registered
      rw [Receiver.finish, shown]
      simp only [running.runs registered]
      rcases running.found registered cid with other | ⟨own, active, found⟩
      · rw [if_pos other]
        have apart := other.resolve_left (not_not.mpr running.phase)
        rw [if_neg fun both => apart both.1]
      · rw [if_neg own, found]
        simp only [active, true_and, ne_eq, ite_not]
        by_cases same : (core.channels i).generation = generation
        · rw [if_pos same, if_pos same]
          exact ended
        · rw [if_neg same, if_neg same]

theorem coreTakeMessage_receiver {core : Core} (valid : Valid core) (cap : Nat) :
    (coreTakeMessage core cap).1 = (core.receiver.take cap).1 ∧
      (coreTakeMessage core cap).2.receiver = (core.receiver.take cap).2 := by
  rw [coreTakeMessage_eq valid]
  by_cases ready : core.messageReady = true
  · obtain ⟨i, running, held⟩ := valid.messageReady_iff.mp ready
    have registered := valid.registered
    have shown : core.receiver.transaction = _ := running.transaction registered
    have size : ((core.buffers core.completeBuffer).toList.take core.completeLen).length =
        core.completeLen := by
      rw [List.length_take, List.Vector.toList_length, held.completeLen]
      exact Nat.min_eq_left running.declared
    rw [if_pos ready, Receiver.take, shown, if_pos ready]
    simp only [size]
    by_cases small : core.completeLen > cap
    · rw [if_pos small, if_pos small]
      exact ⟨rfl, rfl⟩
    · rw [if_neg small, if_neg small]
      constructor
      · rw [handOffMessage, running.owner.generation registered, held.completeCid,
          held.completeCommand, held.completeGeneration]
      · have released : (releaseComplete core).transaction =
            .processing core.activeCid core.activeCommand none (core.channels i).cancel := by
          have found : chanFind (releaseComplete core) core.activeCid = some i :=
            running.owner.chanFind registered
          have phase : (releaseComplete core).phase = .processing := running.phase
          have active : (releaseComplete core).activeCid = core.activeCid := rfl
          rw [Core.transaction, phase, active, found]
          rfl
        rw [Receiver.set, ← released]
        rfl
  · have unready : core.messageReady = false := by simpa using ready
    rw [if_neg ready, Receiver.take]
    cases valid with
    | idle registered state =>
        have shown : core.receiver.transaction = .idle := transaction_idle state.phase
        rw [shown]
        exact ⟨rfl, rfl⟩
    | rx registered i state =>
        have shown : core.receiver.transaction = _ := state.transaction registered
        rw [shown]
        exact ⟨rfl, rfl⟩
    | processing registered i running =>
        have shown : core.receiver.transaction = _ := running.transaction registered
        rw [shown, unready]
        exact ⟨rfl, rfl⟩

/-! Requests. -/

def Shows (result : Core × Action) (spec : Receiver × Action) : Prop :=
  result.1.receiver = spec.1 ∧ result.2 = spec.2

theorem errorAction_shows {core : Core} {receiver : Receiver} (shown : core.receiver = receiver)
    (cid : UInt32) (error : UInt8) :
    Shows (errorAction core cid error) (receiver.refuse cid error) := by
  rw [errorAction_eq]
  exact ⟨shown, rfl⟩

theorem counted_shows {core : Core} {receiver : Receiver} (shown : core.receiver = receiver)
    (cid : UInt32) (error : UInt8) :
    Shows (errorAction (if core.messageReady then countQueueFull core else core) cid error)
      (receiver.refuse cid error) := by
  obtain ⟨count, counted⟩ := countIfReady_eq core
  rw [counted]
  exact errorAction_shows shown cid error

theorem completeMessage_shows {core : Core} {i : Fin channelCount} (assembling : Assembling core i)
    (registered : Registered core) :
    Shows (completeMessage core i) (core.receiver.deliver core.activeCid core.activeCommand
      ((core.buffers core.rxBuffer).toList.take (core.channels i).declaredLen)) := by
  have places := setChannel_places i { core.channels i with partialActive := false } ⟨rfl, rfl⟩
  have lines : (echoed core i).receiver.lines = core.receiver.lines := by
    apply lines_same places
    intro j
    exact setChannel_relates (R := fun new old => new.line = old.line) j (fun _ => rfl) rfl
  have found : chanFind (echoed core i) core.activeCid = some i :=
    (chanFind_congr places _).trans (assembling.owner.chanFind registered)
  have calm : ((echoed core i).channels i).cancel = false := by
    rw [echoed, setChannel_same]
    exact assembling.cancel i
  rw [assembling.completeMessage_eq, Receiver.deliver, assembling.owner.generation registered]
  by_cases ping : core.activeCommand = cmdPing
  · have shown : (echoed core i).transaction =
        .processing core.activeCid core.activeCommand none false := by
      have unready : (echoed core i).messageReady = false := assembling.messageReady
      have active : (echoed core i).activeCid = core.activeCid := rfl
      have phase : (echoed core i).phase = .processing := rfl
      rw [Core.transaction, phase, active, found]
      simp only [unready, calm]
      rfl
    rw [if_pos ping, if_pos ping, Receiver.set, ← lines, ← shown]
    refine ⟨rfl, ?_⟩
    rw [echoAction, ping]
  · have cbor := assembling.known.resolve_left ping
    have shown : (handedOff core i).transaction = .processing core.activeCid core.activeCommand
        (some ((core.buffers core.rxBuffer).toList.take (core.channels i).declaredLen)) false := by
      have active : (handedOff core i).activeCid = core.activeCid := rfl
      have phase : (handedOff core i).phase = .processing := rfl
      have again : chanFind (handedOff core i) core.activeCid = some i := found
      have calm' : ((handedOff core i).channels i).cancel = false := calm
      rw [Core.transaction, phase, active, again]
      simp only [calm']
      rfl
    rw [if_neg ping, if_neg ping, Receiver.set, ← lines, ← shown]
    refine ⟨rfl, ?_⟩
    rw [messageAction, cbor]

theorem collect_shows {core : Core} {i : Fin channelCount} (assembling : Assembling core i)
    (registered : Registered core)
    (bounded : (core.channels i).received ≤ (core.channels i).declaredLen) {lines : UInt32 → Option Line}
    (shown : core.receiver.lines = lines) (transaction : Transaction) :
    Shows
      (if (core.channels i).received = (core.channels i).declaredLen then completeMessage core i
        else (core, noAction))
      (Receiver.collect ⟨lines, transaction⟩ core.activeCid core.activeCommand
        (core.channels i).declaredLen
        ((core.buffers core.rxBuffer).toList.take (core.channels i).received)
        (core.channels i).lastPacketMs) := by
  have size : ((core.buffers core.rxBuffer).toList.take (core.channels i).received).length =
      (core.channels i).received := by
    rw [List.length_take, List.Vector.toList_length]
    exact Nat.min_eq_left (bounded.trans assembling.declared)
  rw [Receiver.collect, size]
  by_cases whole : (core.channels i).received = (core.channels i).declaredLen
  · rw [if_pos whole, if_pos whole, whole]
    have delivered := completeMessage_shows assembling registered
    rw [← shown]
    exact delivered
  · rw [if_neg whole, if_neg whole]
    refine ⟨?_, rfl⟩
    rw [Receiver.set, ← shown, ← assembling.transaction registered]
    rfl

theorem startMessage_shows {core : Core} (idle : Idle core) (registered : Registered core)
    {i : Fin channelCount} {cid : UInt32} (owner : Owns core i cid) {command : UInt8}
    (known : command = cmdPing ∨ command = cmdCbor) {declaredLen : Nat}
    (bounded : declaredLen ≤ maxPayload) (data : List UInt8) (full : data.length = initDataBytes)
    (nowMs : UInt32) :
    Shows (startMessage core i command declaredLen data nowMs)
      ((core.receiver.adjust cid fun line => ⟨line.generation + 1, false⟩).collect cid command
        declaredLen (data.take declaredLen) nowMs) := by
  have stored := idle.storeFirst data nowMs registered owner known bounded
  have own := storeFirst_owner core i command declaredLen data nowMs
  have places : ∀ j, ((storeFirst core i command declaredLen data nowMs).channels j).allocated =
      (core.channels j).allocated ∧
      ((storeFirst core i command declaredLen data nowMs).channels j).cid =
      (core.channels j).cid := by
    intro j
    by_cases here : j = i
    · rw [here, own]
      exact ⟨rfl, rfl⟩
    · rw [storeFirst_other core i command declaredLen data nowMs j here]
      exact ⟨rfl, rfl⟩
  have lines := lines_update owner registered places
    fun j apart => by rw [storeFirst_other core i command declaredLen data nowMs j apart]
  have active : (storeFirst core i command declaredLen data nowMs).activeCid = cid := owner.2
  have rxBuffer : (storeFirst core i command declaredLen data nowMs).rxBuffer = core.rxBuffer := rfl
  have cut : data.take (min declaredLen initDataBytes) = data.take declaredLen := by
    rw [← full, ← List.take_eq_take_min]
  have kept : ((storeFirst core i command declaredLen data nowMs).buffers core.rxBuffer).toList.take
      (min declaredLen initDataBytes) = data.take declaredLen := by
    have size : (data.take (min declaredLen initDataBytes)).length = min declaredLen initDataBytes := by
      rw [List.length_take, full]
      omega
    have fits : (data.take (min declaredLen initDataBytes)).length ≤ blank.toList.length := by
      rw [size, List.Vector.toList_length]
      omega
    have taken := take_store blank.toList _ fits
    rw [size] at taken
    rw [storeFirst_buffer, storeInto_toList, taken, cut]
  rw [own] at lines
  have collected := collect_shows stored.2 stored.1 (by rw [own]; exact Nat.min_le_left _ _) lines
    core.transaction
  rw [startMessage, owner.adjust registered]
  rw [active, rxBuffer, own] at collected
  simp only [kept] at collected
  rw [own]
  exact collected

theorem appendPacket_shows {core : Core} {i : Fin channelCount} (assembling : Assembling core i)
    (registered : Registered core) (progress : Progress (core.channels i)) (data : List UInt8)
    (full : data.length = contDataBytes) (nowMs : UInt32) :
    Shows (appendPacket core i data nowMs)
      (core.receiver.collect core.activeCid core.activeCommand (core.channels i).declaredLen
        ((core.buffers core.rxBuffer).toList.take (core.channels i).received ++
          data.take ((core.channels i).declaredLen - (core.channels i).received)) nowMs) := by
  have stored := assembling.storeNext data nowMs registered
  have own := storeNext_owner core i data nowMs
  have places : ∀ j, ((storeNext core i data nowMs).channels j).allocated =
      (core.channels j).allocated ∧
      ((storeNext core i data nowMs).channels j).cid = (core.channels j).cid := by
    intro j
    by_cases here : j = i
    · rw [here, own]
      exact ⟨rfl, rfl⟩
    · rw [storeNext_other core i data nowMs j here]
      exact ⟨rfl, rfl⟩
  have lines : (storeNext core i data nowMs).receiver.lines = core.receiver.lines := by
    apply lines_same places
    intro j
    by_cases here : j = i
    · rw [here, own]
      rfl
    · rw [storeNext_other core i data nowMs j here]
  have rxBuffer : (storeNext core i data nowMs).rxBuffer = core.rxBuffer := rfl
  have size : (data.take (min ((core.channels i).declaredLen - (core.channels i).received)
      contDataBytes)).length =
      min ((core.channels i).declaredLen - (core.channels i).received) contDataBytes := by
    rw [List.length_take, full]
    omega
  have cut : data.take (min ((core.channels i).declaredLen - (core.channels i).received)
      contDataBytes) = data.take ((core.channels i).declaredLen - (core.channels i).received) := by
    rw [← full, ← List.take_eq_take_min]
  have more := progress.more
  have declared := assembling.declared
  have kept : ((storeNext core i data nowMs).buffers core.rxBuffer).toList.take
      ((core.channels i).received +
        min ((core.channels i).declaredLen - (core.channels i).received) contDataBytes) =
      (core.buffers core.rxBuffer).toList.take (core.channels i).received ++
        data.take ((core.channels i).declaredLen - (core.channels i).received) := by
    have taken := take_store_at (core.buffers core.rxBuffer).toList (core.channels i).received
      (data.take (min ((core.channels i).declaredLen - (core.channels i).received) contDataBytes))
      (by rw [size, List.Vector.toList_length]; omega)
    rw [size] at taken
    rw [storeNext_buffer, storeInto_toList, taken, cut]
  have collected := collect_shows stored.2 stored.1 (by rw [own]; simp only; omega) lines
    core.transaction
  rw [rxBuffer, own] at collected
  simp only [kept] at collected
  rw [appendPacket]
  simp only [own]
  exact collected

theorem feedRequest_shows {core : Core} (valid : Valid core) {i : Fin channelCount} {report : Report}
    (owner : Owns core i report.cid) (nowMs : UInt32) :
    Shows (feedRequest core i report nowMs)
      (core.receiver.request report.cid report.command report.declaredLen report.initData nowMs) := by
  have told := owner.settle valid.registered
  have phase : (core.setChannel i (core.channels i).settle).phase = core.phase := rfl
  rw [feedRequest, phase, Receiver.request]
  cases valid with
  | idle registered idle =>
      have shown : core.receiver.transaction = .idle := transaction_idle idle.phase
      rw [shown, if_neg (not_not.mpr idle.phase)]
      by_cases long : report.declaredLen > maxPayload
      · rw [if_pos long, if_pos long]
        exact errorAction_shows told _ _
      rw [if_neg long, if_neg long]
      by_cases unknown : report.command ≠ cmdPing ∧ report.command ≠ cmdCbor
      · rw [if_pos unknown, if_pos unknown]
        exact errorAction_shows told _ _
      rw [if_neg unknown, if_neg unknown]
      by_cases hollow : report.command = cmdCbor ∧ report.declaredLen = 0
      · rw [if_pos hollow, if_pos hollow]
        exact errorAction_shows told _ _
      rw [if_neg hollow, if_neg hollow, startMessage_settle]
      have known : report.command = cmdPing ∨ report.command = cmdCbor := by
        by_contra neither
        exact unknown (not_or.mp neither)
      exact startMessage_shows idle registered owner known (Nat.le_of_not_lt long) report.initData
        report.length_initData nowMs
  | rx registered j assembling progress =>
      have valid : Valid core := .rx registered j assembling progress
      have shown : core.receiver.transaction = _ := assembling.transaction registered
      have busy : core.phase ≠ .idle := by
        rw [assembling.phase]
        decide
      have active : (core.setChannel i (core.channels i).settle).activeCid = core.activeCid := rfl
      have unready : (core.setChannel i (core.channels i).settle).messageReady = false :=
        assembling.messageReady
      rw [shown, if_pos busy]
      simp only [unready, Bool.false_eq_true, if_false, active, phase]
      by_cases own : core.activeCid = report.cid
      · have here : j = i := (own ▸ assembling.owner).unique owner registered
        subst here
        rw [if_neg (not_not.mpr own), if_pos assembling.phase, if_pos own, ← told,
          setChannel_settle assembling.timeoutPending]
        exact errorAction_shows (clearActive_receiver valid) _ _
      · rw [if_pos own, if_neg own]
        exact errorAction_shows told _ _
  | processing registered j running =>
      have shown : core.receiver.transaction = _ := running.transaction registered
      have busy : core.phase ≠ .idle := by
        rw [running.phase]
        decide
      have answer := counted_shows told report.cid errChannelBusy
      obtain ⟨count, counted⟩ := countIfReady_eq (core.setChannel i (core.channels i).settle)
      have active : ((core.setChannel i (core.channels i).settle).note
          (core.setChannel i (core.channels i).settle).control count).activeCid = core.activeCid := rfl
      have running' : ((core.setChannel i (core.channels i).settle).note
          (core.setChannel i (core.channels i).settle).control count).phase = .processing :=
        running.phase
      have settled : ¬ Phase.processing = .rx := by decide
      rw [shown, if_pos busy]
      simp only [counted] at answer ⊢
      rw [active, running', if_neg settled, ite_self]
      exact answer

/-- The sequence counter is what the received bytes say. -/
theorem Progress.due {channel : Channel} (progress : Progress channel) :
    channel.nextSequence = Receiver.due channel.received := by
  have count : (channel.received - initDataBytes) / contDataBytes = channel.nextSequence.toNat := by
    rw [progress.received, Nat.add_sub_cancel_left]
    exact Nat.mul_div_cancel_left _ (by decide)
  rw [Receiver.due, count, UInt8.ofNat_toNat]

theorem feedContinuation_shows {core : Core} (valid : Valid core) {i : Fin channelCount}
    {report : Report} (owner : Owns core i report.cid) {nowMs : UInt32}
    (inTime : ∀ j, Assembling core j →
      timeExpired nowMs (core.channels j).lastPacketMs messageTimeoutMs = false) :
    Shows (feedContinuation core report nowMs)
      (core.receiver.resume report.cid (core.channels i).line report.command report.contData
        nowMs) := by
  have line : (core.channels i).line.late = (core.channels i).timeoutPending := rfl
  rw [feedContinuation, owner.chanFind valid.registered, Receiver.resume, line]
  simp only
  by_cases late : (core.channels i).timeoutPending = true
  · rw [if_pos late, if_pos late]
    exact errorAction_shows (owner.settle valid.registered) _ _
  rw [if_neg late, if_neg late]
  cases valid with
  | idle registered idle =>
      have shown : core.receiver.transaction = .idle := transaction_idle idle.phase
      rw [shown, if_pos (by simp [idle.phase])]
      exact ⟨rfl, rfl⟩
  | processing registered j running =>
      have shown : core.receiver.transaction = _ := running.transaction registered
      rw [shown, if_pos (by simp [running.phase])]
      exact ⟨rfl, rfl⟩
  | rx registered j assembling progress =>
      have valid : Valid core := .rx registered j assembling progress
      have shown : core.receiver.transaction = _ := assembling.transaction registered
      have size : ((core.buffers core.rxBuffer).toList.take (core.channels j).received).length =
          (core.channels j).received := by
        rw [List.length_take, List.Vector.toList_length]
        exact Nat.min_eq_left (progress.more.le.trans assembling.declared)
      rw [shown]
      by_cases own : core.activeCid = report.cid
      · have here : j = i := (own ▸ assembling.owner).unique owner registered
        subst here
        have receiving : (core.channels j).partialActive = true := (assembling.partialActive j).mpr rfl
        rw [if_neg (by simp [receiving, assembling.phase, own]), inTime j assembling,
          if_neg (by decide)]
        simp only [size]
        rw [if_neg (not_not.mpr own), ← progress.due]
        by_cases wrong : report.command ≠ (core.channels j).nextSequence
        · rw [if_pos wrong, if_pos wrong]
          exact errorAction_shows (clearActive_receiver valid) _ _
        · rw [if_neg wrong, if_neg wrong, ← own]
          exact appendPacket_shows assembling registered progress _ report.length_contData nowMs
      · simp only
        rw [if_pos (by simp [own]), if_pos own]
        exact ⟨rfl, rfl⟩

theorem handleCancel_shows {core : Core} (valid : Valid core) (cid : UInt32) (declaredLen : Nat) :
    Shows (handleCancel core cid declaredLen) (core.receiver.interrupt cid declaredLen) := by
  rw [handleCancel, Receiver.interrupt]
  cases valid with
  | idle registered idle =>
      have shown : core.receiver.transaction = .idle := transaction_idle idle.phase
      rw [shown, if_pos (Or.inl (by rw [idle.phase]; decide)), ite_self]
      exact ⟨rfl, rfl⟩
  | rx registered i assembling =>
      have shown : core.receiver.transaction = _ := assembling.transaction registered
      rw [shown, if_pos (Or.inl (by rw [assembling.phase]; decide)), ite_self]
      exact ⟨rfl, rfl⟩
  | processing registered i running =>
      have shown : core.receiver.transaction = _ := running.transaction registered
      rw [shown]
      simp only
      by_cases empty : declaredLen = 0
      · rw [if_neg (not_not.mpr empty)]
        by_cases own : core.activeCid = cid ∧ core.activeCommand = cmdCbor
        · obtain ⟨active, cbor⟩ := own
          have found := running.owner.chanFind registered
          have marked := running.marked registered true
          rw [active] at found marked
          rw [if_neg (by simp [running.phase, active, cbor]), if_pos ⟨empty, active, cbor⟩, found,
            ← active, running.owner.generation registered, active]
          simp only [setChannel_same]
          exact ⟨marked, rfl⟩
        · rw [if_pos, if_neg fun all => own all.2]
          · exact ⟨rfl, rfl⟩
          · by_contra none
            simp only [ne_eq, not_or, not_not] at none
            exact own none.2
      · rw [if_pos empty, if_neg fun all => empty all.1]
        exact ⟨rfl, rfl⟩

/-! New channels. -/

theorem receiver_full {core : Core} (registered : Registered core) :
    core.receiver.Full ↔ ∀ i, (core.channels i).allocated = true := by
  constructor
  · rintro ⟨cids, injective, opened⟩
    have found : ∀ k, ∃ i, Owns core i (cids k) := by
      intro k
      have isOpen := opened k
      simp only [Core.receiver, Option.isSome_map, Option.isSome_iff_exists] at isOpen
      obtain ⟨i, found⟩ := isOpen
      exact ⟨i, chanFind_some found⟩
    choose place owner using found
    have apart : Function.Injective place := by
      intro k l same
      have named := (owner k).2
      rw [same, (owner l).2] at named
      exact injective named.symm
    intro i
    obtain ⟨k, rfl⟩ := (Finite.injective_iff_surjective.mp apart) i
    exact (owner k).1
  · intro taken
    refine ⟨fun i => (core.channels i).cid, ?_, ?_⟩
    · intro i j same
      exact registered.distinct i j (taken i) (taken j) same
    · intro i
      have owner : Owns core i (core.channels i).cid := ⟨taken i, rfl⟩
      rw [owner.lines registered]
      rfl

theorem receiver_usable (core : Core) (cid : UInt32) :
    core.receiver.usable cid = true ↔
      ¬ (cid = 0 ∨ cid = broadcastCid ∨ (chanFind core cid).isSome) := by
  simp only [Receiver.usable, Core.receiver, Option.isNone_map, Bool.and_eq_true, bne_iff_ne, ne_eq,
    not_or, Bool.not_eq_true, Option.isSome_eq_false_iff, and_assoc]

/-- The loop picks what the receiver picks from the draws that are left. -/
theorem allocateLoop_pick (core : Core) (free : Fin channelCount) (draws : Draws)
    (attempts attempt : Nat) :
    match core.receiver.pick draws (List.range' attempt attempts) with
    | none => (∃ error, (allocateLoop core free draws attempts attempt).1 = .error error ∧
        error ≠ .full) ∧ (allocateLoop core free draws attempts attempt).2.1 = core
    | some cid => (allocateLoop core free draws attempts attempt).1 = .ok cid ∧
        (allocateLoop core free draws attempts attempt).2.1 =
          core.setChannel free { cid := cid, allocated := true } ∧
        core.receiver.usable cid = true := by
  induction attempts generalizing attempt with
  | zero => exact ⟨⟨_, rfl, by decide⟩, rfl⟩
  | succ attempts ih =>
      rw [List.range'_succ, Receiver.pick, allocateLoop]
      cases draws attempt with
      | none => exact ⟨⟨_, rfl, by decide⟩, rfl⟩
      | some raw =>
          simp only
          by_cases fresh : core.receiver.usable (loadU32 raw.toList) = true
          · rw [if_pos fresh, if_neg ((receiver_usable core _).mp fresh)]
            exact ⟨rfl, rfl, fresh⟩
          · have taken := fresh
            rw [receiver_usable, not_not] at taken
            rw [if_neg fresh, if_pos taken]
            exact ih (attempt + 1)

theorem enrol_receiver {core : Core} (valid : Valid core) {i : Fin channelCount} {cid : UInt32}
    (free : (core.channels i).allocated = false) (usable : core.receiver.usable cid = true) :
    (core.setChannel i { cid := cid, allocated := true }).receiver = core.receiver.enrol cid := by
  have fresh := (receiver_usable core cid).mp usable
  simp only [not_or, Bool.not_eq_true, Option.isSome_eq_false_iff, Option.isNone_iff_eq_none] at fresh
  have unowned := chanFind_none fresh.2.2 valid.registered
  have registered := (valid.allocate i cid free ⟨fresh.1, fresh.2.1⟩ unowned).registered
  have own : (core.setChannel i { cid := cid, allocated := true }).channels i =
      { cid := cid, allocated := true } := setChannel_same core i _
  -- the slot answered to no name before, and answers to no other name now
  have elsewhere : ∀ name, name ≠ cid →
      chanFind (core.setChannel i { cid := cid, allocated := true }) name = chanFind core name ∧
        chanFind core name ≠ some i := by
    intro name other
    constructor
    · have same : ∀ j, (((core.setChannel i { cid := cid, allocated := true }).channels j).allocated &&
          ((core.setChannel i { cid := cid, allocated := true }).channels j).cid == name) =
          ((core.channels j).allocated && (core.channels j).cid == name) := by
        intro j
        by_cases here : j = i
        · rw [here, own, free]
          simp [other.symm]
        · rw [setChannel_other core i j _ here]
      simp only [chanFind, same]
    · intro found
      rw [(chanFind_some found).1] at free
      cases free
  have lines : (core.setChannel i { cid := cid, allocated := true }).receiver.lines =
      Function.update core.receiver.lines cid (some {}) := by
    funext name
    by_cases here : name = cid
    · have owner : Owns (core.setChannel i { cid := cid, allocated := true }) i cid := by
        rw [Owns, own]
        exact ⟨rfl, rfl⟩
      rw [here, owner.lines registered, own, Function.update_self]
      rfl
    · obtain ⟨same, apart⟩ := elsewhere name here
      rw [Function.update_of_ne here]
      simp only [Core.receiver, same]
      cases found : chanFind core name with
      | none => rfl
      | some j =>
          have other : j ≠ i := by
            rintro rfl
            exact apart found
          rw [Option.map_some, Option.map_some, setChannel_other core i j _ other]
  have transaction : (core.setChannel i { cid := cid, allocated := true }).transaction =
      core.transaction := by
    by_cases idle : core.phase = .idle
    · rw [transaction_idle idle]
      exact transaction_idle idle
    · obtain ⟨j, serves⟩ := valid.serves
      have owner := serves.resolve_left idle
      have other : core.activeCid ≠ cid := by
        rintro rfl
        exact unowned j owner
      obtain ⟨same, -⟩ := elsewhere core.activeCid other
      have apart : j ≠ i := by
        rintro rfl
        rw [owner.1] at free
        cases free
      have active : (core.setChannel i { cid := cid, allocated := true }).activeCid =
        core.activeCid := rfl
      have phase : (core.setChannel i { cid := cid, allocated := true }).phase = core.phase := rfl
      rw [Core.transaction, Core.transaction, active, same, owner.chanFind valid.registered, phase]
      cases core.phase with
      | idle => rfl
      | rx =>
          simp only [setChannel_other core i j _ apart]
          rfl
      | processing =>
          simp only [setChannel_other core i j _ apart]
          rfl
  exact congrArg₂ Receiver.mk lines transaction

theorem initReply_shows {core : Core} {receiver : Receiver} (shown : core.receiver = receiver)
    (asker cid : UInt32) (nonce : List UInt8) :
    Shows (initReply core asker cid nonce) (receiver.greet asker cid nonce) := ⟨shown, rfl⟩

theorem welcome_shows {core : Core} (valid : Valid core) (nonce : List UInt8) (draws : Draws) :
    Shows
      (match chanAllocate core draws with
        | (.error .full, core, _) => errorAction core broadcastCid errChannelBusy
        | (.error _, core, _) => errorAction core broadcastCid errOther
        | (.ok newCid, core, _) => initReply core broadcastCid newCid nonce)
      (core.receiver.welcome nonce draws) := by
  rw [Receiver.welcome, chanAllocate]
  cases slot : freeChannel core with
  | none =>
      rw [if_pos ((receiver_full valid.registered).mpr (freeChannel_none slot))]
      exact errorAction_shows rfl _ _
  | some i =>
      have free := freeChannel_some slot
      have room : ¬ core.receiver.Full := fun full =>
        free_not_full free ((receiver_full valid.registered).mp full)
      have picked := allocateLoop_pick core i draws cidRetries 0
      rw [if_neg room, List.range_eq_range']
      simp only
      rcases outcome : allocateLoop core i draws cidRetries 0 with ⟨status, after, drawn⟩
      rw [outcome] at picked
      cases choice : core.receiver.pick draws (List.range' 0 cidRetries) with
      | none =>
          rw [choice] at picked
          obtain ⟨⟨error, failed, notFull⟩, same⟩ := picked
          simp only at failed same
          subst failed same
          cases error with
          | full => exact absurd rfl notFull
          | random => exact errorAction_shows rfl _ _
          | cid => exact errorAction_shows rfl _ _
      | some cid =>
          rw [choice] at picked
          obtain ⟨ok, result, usable⟩ := picked
          simp only at ok result
          subst ok result
          exact initReply_shows (enrol_receiver valid free usable) _ _ _

theorem restart_shows {core : Core} (valid : Valid core) {i : Fin channelCount} {cid : UInt32}
    (owner : Owns core i cid) (nonce : List UInt8) (draws : Draws) :
    Shows (handleInit core cid 8 nonce draws) (core.receiver.restart cid nonce) := by
  have proper := valid.registered.assigned i owner.1
  rw [owner.2] at proper
  have isOpen : core.receiver.lines cid ≠ none := by
    rw [owner.lines valid.registered]
    exact Option.some_ne_none _
  have own : core.receiver.transaction.cid = _ := valid.transaction_cid
  rw [handleInit, if_neg (by decide), if_neg proper.2, owner.chanFind valid.registered,
    Receiver.restart, if_neg isOpen, own]
  simp only
  by_cases busy : core.phase ≠ .idle ∧ core.activeCid ≠ cid
  · have other : ∃ other, (if core.phase = .idle then none else some core.activeCid) = some other ∧
        other ≠ cid := ⟨core.activeCid, if_neg busy.1, busy.2⟩
    rw [if_pos busy, if_pos other]
    exact counted_shows rfl cid errChannelBusy
  · have free : ¬ ∃ other, (if core.phase = .idle then none else some core.activeCid) = some other ∧
        other ≠ cid := by
      rintro ⟨other, active, apart⟩
      by_cases idle : core.phase = .idle
      · rw [if_pos idle] at active
        cases active
      · rw [if_neg idle, Option.some.injEq] at active
        exact busy ⟨idle, active ▸ apart⟩
    rw [if_neg busy, if_neg free]
    apply initReply_shows
    have ended : ∃ middle, middle = (if core.activeCid = cid then clearActive core true else core) ∧
        Registered middle ∧ Owns middle i cid ∧ middle.phase = .idle ∧
        middle.receiver = core.receiver.set .idle := by
      refine ⟨_, rfl, ?_⟩
      by_cases active : core.activeCid = cid
      · rw [if_pos active]
        have place := clearActive_places core true i
        exact ⟨valid.clearActive.registered, ⟨place.1.trans owner.1, place.2.trans owner.2⟩,
          valid.clearActive_idle.phase, clearActive_receiver valid⟩
      · have idle : core.phase = .idle := by
          by_contra busy'
          exact busy ⟨busy', active⟩
        rw [if_neg active, Receiver.set, ← transaction_idle idle]
        exact ⟨valid.registered, owner, idle, rfl⟩
    obtain ⟨middle, named, registered, owner', idle, shown⟩ := ended
    rw [← named, ← shown, owner'.adjust registered]
    have lines := lines_update owner' registered
      (setChannel_places i { clearChannelRx (middle.channels i) with
        cancel := false
        timeoutPending := false
        generation := (clearChannelRx (middle.channels i)).generation + 1 } ⟨rfl, rfl⟩)
      fun j apart => congrArg Channel.line (setChannel_other middle i j _ apart)
    rw [setChannel_same] at lines
    refine congrArg₂ Receiver.mk lines ?_
    rw [transaction_idle idle]
    exact transaction_idle idle

/-! Reports. -/

theorem feedPacket_shows {core : Core} (valid : Valid core) (report : Report) {nowMs : UInt32}
    (draws : Draws) (inTime : ∀ j, Assembling core j →
      timeExpired nowMs (core.channels j).lastPacketMs messageTimeoutMs = false) :
    Shows (feedPacket core report nowMs draws) (core.receiver.handle report nowMs draws) := by
  rw [feedPacket, Receiver.handle]
  by_cases cancel : report.command = cmdCancel
  · rw [if_pos (isInitial_of_cancel report cancel), feedInitial, if_pos cancel, if_pos cancel]
    exact handleCancel_shows valid report.cid report.declaredLen
  by_cases init : report.command = cmdInit
  · rw [if_pos (isInitial_of_init report init), feedInitial, if_neg cancel, if_neg cancel,
      if_pos init, if_pos init]
    by_cases eight : report.declaredLen ≠ 8
    · rw [handleInit, if_pos eight, if_pos eight]
      exact errorAction_shows rfl _ _
    rw [if_neg eight, not_not.mp eight]
    by_cases broadcast : report.cid = broadcastCid
    · rw [handleInit, if_neg (by decide), if_pos broadcast, if_pos broadcast, broadcast]
      exact welcome_shows valid _ draws
    rw [if_neg broadcast]
    cases found : chanFind core report.cid with
    | some i => exact restart_shows valid (chanFind_some found) _ draws
    | none =>
        have closed : core.receiver.lines report.cid = none := by
          simp only [Core.receiver, found, Option.map_none]
        rw [handleInit, if_neg (by decide), if_neg broadcast, found, Receiver.restart, if_pos closed]
        exact errorAction_shows rfl _ _
  rw [if_neg cancel, if_neg init]
  cases found : chanFind core report.cid with
  | none =>
      have closed : core.receiver.lines report.cid = none := by
        simp only [Core.receiver, found, Option.map_none]
      rw [closed]
      by_cases initial : report.isInitial = true
      · rw [if_pos initial, if_pos initial, feedInitial, if_neg cancel, if_neg init, found, ite_self]
        exact errorAction_shows rfl _ _
      · rw [if_neg initial, if_neg initial, feedContinuation, found]
        exact ⟨rfl, rfl⟩
  | some i =>
      have owner := chanFind_some found
      have proper := valid.registered.assigned i owner.1
      rw [owner.2, ← not_or] at proper
      rw [owner.lines valid.registered]
      simp only
      by_cases initial : report.isInitial = true
      · rw [if_pos initial, if_pos initial, feedInitial, if_neg cancel, if_neg init, if_neg proper,
          found]
        exact feedRequest_shows valid owner nowMs
      · rw [if_neg initial, if_neg initial]
        exact feedContinuation_shows valid owner inTime

theorem coreFeed_shows {core : Core} (valid : Valid core) (report : Report) (nowMs : UInt32)
    (draws : Draws) :
    Shows (coreFeed core report nowMs draws) (core.receiver.feed report nowMs draws) := by
  rw [coreFeed, Receiver.feed, ← coreCleanup_receiver valid nowMs]
  exact feedPacket_shows (coreCleanup_valid core nowMs valid) report draws
    (coreCleanup_inTime core nowMs valid)

/-! Steps and runs. -/

theorem CoreStep.shows {core next : Core} {event : Event} (step : CoreStep core event next)
    (valid : Valid core) : Receiver.Step core.receiver event next.receiver := by
  cases step with
  | feed report nowMs draws =>
      obtain ⟨state, action⟩ := coreFeed_shows valid report nowMs draws
      rw [state, action]
      exact .feed core.receiver report nowMs draws
  | cleanup nowMs =>
      rw [coreCleanup_receiver valid]
      exact .cleanup core.receiver nowMs
  | take cap =>
      obtain ⟨result, state⟩ := coreTakeMessage_receiver valid cap
      rw [state, result]
      exact .take core.receiver cap
  | finish cid generation =>
      rw [coreFinishResponse_receiver valid]
      exact .finish core.receiver cid generation
  | clearCancel cid generation =>
      rw [coreClearCancel_receiver valid]
      exact .clearCancel core.receiver cid generation
  | reset =>
      rw [coreReset, coreInit_receiver]
      exact .reset core.receiver

theorem Receiver.Step.shown {core : Core} {event : Event} {after : Receiver}
    (step : Receiver.Step core.receiver event after) (valid : Valid core) :
    ∃ next, CoreStep core event next ∧ next.receiver = after := by
  generalize same : core.receiver = receiver at step
  cases step with
  | feed report nowMs draws =>
      obtain ⟨state, action⟩ := coreFeed_shows valid report nowMs draws
      rw [← same, ← action]
      exact ⟨_, .feed core report nowMs draws, state⟩
  | cleanup nowMs => exact ⟨_, .cleanup core nowMs, by rw [← same, coreCleanup_receiver valid]⟩
  | take cap =>
      obtain ⟨result, state⟩ := coreTakeMessage_receiver valid cap
      rw [← same, ← result]
      exact ⟨_, .take core cap, state⟩
  | finish cid generation =>
      exact ⟨_, .finish core cid generation, by rw [← same, coreFinishResponse_receiver valid]⟩
  | clearCancel cid generation =>
      exact ⟨_, .clearCancel core cid generation, by rw [← same, coreClearCancel_receiver valid]⟩
  | reset => exact ⟨_, .reset core, by rw [coreReset, coreInit_receiver]⟩

/-- From a valid core on, the core and its receiver have the same runs. -/
theorem Valid.runs {core : Core} (valid : Valid core) (events : List Event) (after : Receiver) :
    Runs.Run Receiver.Step core.receiver events after ↔
      ∃ last, Runs.Run CoreStep core events last ∧ last.receiver = after :=
  Runs.Run.shown_iff Core.receiver Valid valid (fun _ _ _ valid step => step.valid valid)
    (fun _ _ _ valid step => step.shows valid) (fun _ _ _ valid step => step.shown valid) events after

/-- The calls of the core can be answered in just the ways in which a receiver answers them, and
in every reachable core a handle is cancelled when it is for the receiver. -/
theorem core_is_receiver :
    (∀ events receiver, Receiver.Run events receiver ↔
      ∃ core, CoreRun events core ∧ core.receiver = receiver) ∧
    ∀ events core, CoreRun events core → ∀ cid generation,
      coreCancelled core cid generation = core.receiver.cancelled cid generation := by
  constructor
  · intro events receiver
    have runs := coreInit_valid.runs events receiver
    rw [coreInit_receiver] at runs
    exact runs
  · intro events core run cid generation
    exact coreCancelled_receiver run.valid cid generation

/-- Two reachable cores with the same lines and transaction will answer alike from now on,
whatever requests they have had. -/
theorem past_requests_leave_no_trace {past past' : List Event} {core core' : Core}
    (run : CoreRun past core) (run' : CoreRun past' core') (same : core.receiver = core'.receiver)
    (future : List Event) :
    (∃ last, Runs.Run CoreStep core future last) ↔ ∃ last, Runs.Run CoreStep core' future last := by
  have first := run.valid.runs future
  have second := run'.valid.runs future
  rw [same] at first
  constructor
  · rintro ⟨last, rest⟩
    obtain ⟨last', rest', -⟩ := (second last.receiver).mp ((first last.receiver).mpr ⟨last, rest, rfl⟩)
    exact ⟨last', rest'⟩
  · rintro ⟨last, rest⟩
    obtain ⟨last', rest', -⟩ := (first last.receiver).mp ((second last.receiver).mpr ⟨last, rest, rfl⟩)
    exact ⟨last', rest'⟩

def echoReport : Report := load reportBytes [0, 0, 0, 1, 0x81, 0, 3, 7, 8, 9] 0

def echoedCore : Core := coreFinishResponse (coreFeed openedCore echoReport 5 drawOne).1 1 1

def answeredCore : Core := coreFinishResponse (coreFeed openedCore smallReport 9 drawOne).1 1 1

/-- After a PING or after a request that was never taken, a new request gets the same answer. -/
theorem echo_and_request_are_forgotten :
    ∃ last, Runs.Run CoreStep answeredCore
      [.fed smallReport 20 (coreFeed echoedCore smallReport 20 drawOne).2] last :=
  (past_requests_leave_no_trace
    (((Runs.Run.nil.snoc (CoreStep.feed coreInit openingReport 0 drawOne)).snoc
      (CoreStep.feed openedCore echoReport 5 drawOne)).snoc (CoreStep.finish _ 1 1))
    (((Runs.Run.nil.snoc (CoreStep.feed coreInit openingReport 0 drawOne)).snoc
      (CoreStep.feed openedCore smallReport 9 drawOne)).snoc (CoreStep.finish _ 1 1))
    (congrArg₂ Receiver.mk (lines_same (by decide) (by decide)) (by decide)) _).mp
    ⟨_, Runs.Run.nil.snoc (CoreStep.feed echoedCore smallReport 20 drawOne)⟩

end P4Key.Ctaphid
