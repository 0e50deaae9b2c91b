import P4Key.Ctaphid.Isolation

/-! The packets after which a request is complete. -/

namespace P4Key.Ctaphid

open Memory

theorem Valid.cleanup_running {core : Core} (valid : Valid core) (nowMs : UInt32)
    (phase : (coreCleanup core nowMs).phase = .processing) : core.phase = .processing := by
  rcases coreCleanup_cases core nowMs valid with ⟨same, -⟩ | ⟨i, -, -, result⟩
  · rw [same] at phase
    exact phase
  · rw [result] at phase
    cases phase

theorem Packet.completes {core : Core} {report : Report} {nowMs : UInt32} {result : Core × Action}
    (packet : Packet core report nowMs result) (valid : Valid core)
    (before : core.phase ≠ .processing) (after : result.1.phase = .processing) :
    ∃ middle i, Assembling middle i ∧ result = completeMessage middle i := by
  cases packet with
  | ignored control count action answer harmless => exact absurd after before
  | settled i owns control count action answer elsewhere => exact absurd after before
  | allocated i cid control data broadcast free proper fresh => exact absurd after before
  | cancelled i running active cbor command empty => exact absurd running.phase before
  | resynced i owns control data free command eight middle ended =>
      exact absurd ((resynced_idle valid free ended).symm.trans after) (by decide)
  | aborted i assembling active control error cancel init =>
      exact absurd (valid.clearActive_idle.phase.symm.trans after) (by decide)
  | started i idle owns known bounded nonempty =>
      have stored := idle.storeFirst report.initData nowMs valid.registered owns known bounded
      rw [startMessage] at after ⊢
      by_cases whole : ((storeFirst core i report.command report.declaredLen report.initData
          nowMs).channels i).received = report.declaredLen
      · rw [if_pos whole]
        exact ⟨_, i, stored.2, rfl⟩
      · rw [if_neg whole] at after
        exact absurd (stored.2.phase.symm.trans after) (by decide)
  | appended i assembling progress active continuation due inTime =>
      have stored := assembling.storeNext report.contData nowMs valid.registered
      rw [appendPacket] at after ⊢
      by_cases whole : ((storeNext core i report.contData nowMs).channels i).received =
          ((storeNext core i report.contData nowMs).channels i).declaredLen
      · rw [if_pos whole]
        exact ⟨_, i, stored.2, rfl⟩
      · rw [if_neg whole] at after
        exact absurd (stored.2.phase.symm.trans after) (by decide)

theorem Valid.feed_completes {core : Core} (valid : Valid core) (report : Report)
    (nowMs : UInt32) (draws : Draws) (before : core.phase ≠ .processing)
    (after : (coreFeed core report nowMs draws).1.phase = .processing) :
    ∃ middle i, Assembling middle i ∧ coreFeed core report nowMs draws = completeMessage middle i := by
  have start : (coreCleanup core nowMs).phase ≠ .processing :=
    fun running => before (valid.cleanup_running nowMs running)
  have packet := coreFeed_cases core report nowMs draws valid
  exact packet.completes (coreCleanup_valid core nowMs valid) start after

theorem Assembling.completeMessage_uncancelled {core : Core} {i : Fin channelCount}
    (assembling : Assembling core i) (j : Fin channelCount) :
    ((completeMessage core i).1.channels j).cancel = false := by
  rw [assembling.completeMessage_channels]
  by_cases here : j = i
  · rw [here, setChannel_same]
    exact assembling.cancel i
  · rw [setChannel_other core i j _ here]
    exact assembling.cancel j

/-- What a packet that completes a CBOR request tells its caller. -/
structure Delivered (result : Core × Action) : Prop where
  kind : result.2.kind = .message
  cid : result.2.cid = result.1.activeCid
  messageReady : result.1.messageReady = true
  uncancelled : ∀ i, (result.1.channels i).cancel = false

theorem Valid.feed_delivered {core : Core} (valid : Valid core) (report : Report)
    (nowMs : UInt32) (draws : Draws) (before : core.phase ≠ .processing)
    (after : (coreFeed core report nowMs draws).1.phase = .processing)
    (cbor : (coreFeed core report nowMs draws).1.activeCommand = cmdCbor) :
    Delivered (coreFeed core report nowMs draws) := by
  rcases valid.feed_completes report nowMs draws before after with
    ⟨middle, i, assembling, result⟩
  have uncancelled := assembling.completeMessage_uncancelled
  rw [assembling.completeMessage_eq] at result uncancelled
  by_cases ping : middle.activeCommand = cmdPing
  · rw [if_pos ping] at result
    rw [result] at cbor
    exact absurd (ping.symm.trans cbor) (by decide)
  · rw [if_neg ping] at result uncancelled
    rw [result]
    exact ⟨rfl, rfl, rfl, uncancelled⟩

end P4Key.Ctaphid
