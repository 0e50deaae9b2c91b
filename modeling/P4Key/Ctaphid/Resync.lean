import P4Key.Ctaphid.Buffers

/-! What an INIT on an open channel leaves, and the handles from before it. -/

namespace P4Key.Ctaphid

open Memory

structure Resynced (core : Core) (i : Fin channelCount) (cid : UInt32) : Prop where
  owner : Owns core i cid
  phase : core.phase = .idle
  messageReady : core.messageReady = false
  buffers : ∀ index, core.buffers index = blank
  partialActive : (core.channels i).partialActive = false
  cancel : (core.channels i).cancel = false
  timeoutPending : (core.channels i).timeoutPending = false

/-- A channel that may use the transport is still there behind the cleanup. -/
theorem cleanup_free {core : Core} (valid : Valid core) {i : Fin channelCount} {cid : UInt32}
    (owner : Owns core i cid) (free : core.phase = .idle ∨ core.activeCid = cid) (nowMs : UInt32) :
    Owns (coreCleanup core nowMs) i cid ∧
      ((coreCleanup core nowMs).phase = .idle ∨ (coreCleanup core nowMs).activeCid = cid) := by
  rcases coreCleanup_cases core nowMs valid with ⟨same, -⟩ | ⟨j, assembling, -, result⟩
  · rw [same]
    exact ⟨owner, free⟩
  · rw [result]
    refine ⟨?_, Or.inl rfl⟩
    have channels : (expired core j).channels =
        (core.setChannel j (clearChannelRx { core.channels j with timeoutPending := true })).channels :=
      rfl
    rw [Owns, channels]
    exact setChannel_relates (R := fun new old => old.allocated = true ∧ old.cid = cid →
      new.allocated = true ∧ new.cid = cid) i (fun _ => id) id owner

theorem length_initReplyBytes (cid : UInt32) (report : Report) :
    (initReplyBytes cid (slice report.toList 7 8)).length = 17 := by
  have nonce := length_slice report.toList 7 8 (by rw [List.Vector.toList_length]; decide)
  simp [initReplyBytes, nonce, storeU32]

theorem initReply_action (core : Core) (cid : UInt32) (report : Report) :
    (initReply core cid cid (slice report.toList 7 8)).2 =
      sendAction cid cmdInit (initReplyBytes cid (slice report.toList 7 8)) := by
  have length := length_initReplyBytes cid report
  have bytes : (load 17 (initReplyBytes cid (slice report.toList 7 8)) 0).toList =
      initReplyBytes cid (slice report.toList 7 8) := by
    rw [load_toList _ _ _ (by rw [length]), slice, List.drop_zero]
    exact List.take_of_length_le (by rw [length])
  rw [initReply]
  simp only [bytes]

def restarted (core : Core) (i : Fin channelCount) : Core :=
  core.setChannel i { clearChannelRx (core.channels i) with
    cancel := false, timeoutPending := false, generation := (core.channels i).generation + 1 }

theorem handleInit_free {core : Core} (registered : Registered core) {i : Fin channelCount}
    {cid : UInt32} (owner : Owns core i cid) (free : core.phase = .idle ∨ core.activeCid = cid)
    (nonce : List UInt8) (draws : Draws) :
    handleInit core cid 8 nonce draws =
      initReply (restarted (if core.activeCid = cid then clearActive core true else core) i)
        cid cid nonce := by
  have proper := registered.assigned i owner.1
  rw [owner.2] at proper
  rw [handleInit, if_neg (by decide), if_neg proper.2, owner.chanFind registered]
  simp only
  rw [if_neg (by rintro ⟨busy, other⟩; exact free.elim busy other)]
  rfl

theorem feed_init {core : Core} (valid : Valid core) {i : Fin channelCount} {report : Report}
    (owner : Owns core i report.cid) (free : core.phase = .idle ∨ core.activeCid = report.cid)
    (command : report.command = cmdInit) (eight : report.declaredLen = 8) (nowMs : UInt32)
    (draws : Draws) : ∃ middle, Owns middle i report.cid ∧ middle.phase = .idle ∧
      coreFeed core report nowMs draws =
        initReply (restarted middle i) report.cid report.cid (slice report.toList 7 8) := by
  have before := coreCleanup_valid core nowMs valid
  rcases cleanup_free valid owner free nowMs with ⟨stays, open'⟩
  have idle := resynced_idle before open' rfl
  refine ⟨_, ?_, idle, ?_⟩
  · split
    · rw [Owns, (clearActive_places _ true i).1, (clearActive_places _ true i).2]
      exact stays
    · exact stays
  · rw [coreFeed, feedPacket, if_pos (isInitial_of_init report command), feedInitial,
      if_neg (by rw [command]; decide), if_pos command, eight]
    exact handleInit_free before.registered stays open' _ draws

theorem feed_init_resynced {core : Core} (valid : Valid core) (scrubbed : Scrubbed core)
    {i : Fin channelCount} {report : Report} (owner : Owns core i report.cid)
    (free : core.phase = .idle ∨ core.activeCid = report.cid) (command : report.command = cmdInit)
    (eight : report.declaredLen = 8) (nowMs : UInt32) (draws : Draws) :
    (coreFeed core report nowMs draws).2 =
        sendAction report.cid cmdInit (initReplyBytes report.cid (slice report.toList 7 8)) ∧
      Resynced (coreFeed core report nowMs draws).1 i report.cid := by
  have after := coreFeed_valid core report nowMs draws valid
  have wiped := (CoreStep.feed core report nowMs draws).scrubbed valid scrubbed
  rcases feed_init valid owner free command eight nowMs draws with ⟨middle, stays, phase, result⟩
  rw [result] at after wiped ⊢
  refine ⟨initReply_action _ report.cid report, ?_⟩
  have own : (initReply (restarted middle i) report.cid report.cid
      (slice report.toList 7 8)).1.channels i = { clearChannelRx (middle.channels i) with
        cancel := false, timeoutPending := false,
        generation := (middle.channels i).generation + 1 } := setChannel_same middle i _
  have idle := after.idle_of_phase phase
  refine ⟨?_, phase, idle.messageReady, wiped.clean phase, idle.partialActive i, idle.cancel i, ?_⟩
  · rw [Owns, own]
    exact stays
  · rw [own]

/-- A resynchronised channel ignores continuations, and so does everything around it. -/
theorem Resynced.ignores {core : Core} {i : Fin channelCount} {cid : UInt32}
    (resynced : Resynced core i cid) (registered : Registered core) {report : Report}
    (own : report.cid = cid) (continuation : report.isInitial = false) (nowMs : UInt32)
    (draws : Draws) : coreFeed core report nowMs draws = (core, noAction) := by
  have quiet : coreCleanup core nowMs = core := by
    rw [coreCleanup, if_pos (by rw [resynced.phase]; decide)]
  rw [coreFeed, quiet, feedPacket, if_neg (by rw [continuation]; decide), feedContinuation, own,
    resynced.owner.chanFind registered]
  simp only
  rw [if_neg (by rw [resynced.timeoutPending]; decide),
    if_pos (Or.inl (by rw [resynced.partialActive]; decide))]

end P4Key.Ctaphid
