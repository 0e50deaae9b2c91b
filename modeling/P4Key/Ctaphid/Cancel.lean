import P4Key.Ctaphid.Completion

/-! What a CANCEL does to a core. -/

namespace P4Key.Ctaphid

open Memory

/-- A CANCEL that may stop a request of the channel. -/
def Report.cancels (report : Report) (cid : UInt32) : Bool :=
  report.cid == cid && report.command == cmdCancel && report.declaredLen == 0

theorem Report.cancels_iff (report : Report) (cid : UInt32) :
    report.cancels cid = true ↔
      report.cid = cid ∧ report.command = cmdCancel ∧ report.declaredLen = 0 := by
  simp [Report.cancels, and_assoc]

theorem coreFeed_cancel (core : Core) (report : Report) (nowMs : UInt32) (draws : Draws)
    (command : report.command = cmdCancel) :
    coreFeed core report nowMs draws =
      handleCancel (coreCleanup core nowMs) report.cid report.declaredLen := by
  rw [coreFeed, feedPacket, if_pos (isInitial_of_cancel report command), feedInitial,
    if_pos command]

structure Stoppable (core : Core) (report : Report) : Prop where
  phase : core.phase = .processing
  activeCid : core.activeCid = report.cid
  activeCommand : core.activeCommand = cmdCbor
  empty : report.declaredLen = 0

/-- Every other CANCEL is worth no more than a cleanup. -/
theorem Valid.feed_idle_cancel {core : Core} (valid : Valid core) (report : Report)
    (nowMs : UInt32) (draws : Draws) (command : report.command = cmdCancel)
    (idle : ¬ Stoppable core report) :
    coreFeed core report nowMs draws = (coreCleanup core nowMs, noAction) := by
  rw [coreFeed_cancel core report nowMs draws command, handleCancel]
  by_cases empty : report.declaredLen ≠ 0
  · rw [if_pos empty]
  rw [if_neg empty]
  apply if_pos
  by_contra running
  simp only [ne_eq, not_or, not_not] at running
  have phase := valid.cleanup_running nowMs running.1
  have same := coreCleanup_of_processing phase nowMs
  rw [same] at running
  exact idle ⟨phase, running.2.1, running.2.2, not_not.mp empty⟩

/-- While a CBOR request is processed, a packet cancels it or leaves its channel alone. -/
theorem Valid.feed_cancel {core : Core} (valid : Valid core) (phase : core.phase = .processing)
    (cbor : core.activeCommand = cmdCbor) (report : Report) (nowMs : UInt32) (draws : Draws)
    (still : (coreFeed core report nowMs draws).1.phase = .processing) {i : Fin channelCount}
    (owns : Owns core i core.activeCid) :
    Owns (coreFeed core report nowMs draws).1 i core.activeCid ∧
      ((coreFeed core report nowMs draws).1.channels i).generation = (core.channels i).generation ∧
      ((coreFeed core report nowMs draws).1.channels i).cancel =
        (report.cancels core.activeCid || (core.channels i).cancel) := by
  have quiet := coreCleanup_of_processing phase nowMs
  by_cases command : report.command = cmdCancel
  · by_cases stops : Stoppable core report
    · have effect : report.cancels core.activeCid = true :=
        (report.cancels_iff _).mpr ⟨stops.activeCid.symm, command, stops.empty⟩
      have owner := owns
      rw [stops.activeCid] at owner
      have found := owner.chanFind valid.registered
      have result : (coreFeed core report nowMs draws).1 =
          core.setChannel i { core.channels i with cancel := true } := by
        rw [coreFeed_cancel core report nowMs draws command, quiet, handleCancel,
          if_neg (not_not.mpr stops.empty), if_neg (by simp [phase, stops.activeCid, cbor]), found]
      rw [result, effect, Owns, setChannel_same]
      exact ⟨owns, rfl, rfl⟩
    · have effect : report.cancels core.activeCid = false := by
        rw [Bool.eq_false_iff]
        intro cancels
        have parts := (report.cancels_iff _).mp cancels
        exact stops ⟨phase, parts.1.symm, cbor, parts.2.2⟩
      rw [valid.feed_idle_cancel report nowMs draws command stops, quiet, effect]
      exact ⟨owns, rfl, rfl⟩
  · have effect : report.cancels core.activeCid = false := by
      rw [Bool.eq_false_iff]
      exact fun cancels => command ((report.cancels_iff _).mp cancels).2.1
    have packet := coreFeed_cases core report nowMs draws valid
    rw [effect, Bool.false_or]
    rw [quiet] at packet
    generalize coreFeed core report nowMs draws = result at packet still
    cases packet with
    | ignored control count action answer harmless => exact ⟨owns, rfl, rfl⟩
    | settled j settled control count action answer elsewhere =>
        by_cases here : i = j
        · subst here
          rw [Owns]
          simp only [Core.note, setChannel_same]
          exact ⟨owns, rfl, rfl⟩
        · rw [Owns]
          simp only [Core.note, setChannel_other core j i _ here]
          exact ⟨owns, trivial, trivial⟩
    | allocated j cid control data broadcast free proper fresh =>
        have here : i ≠ j := by
          intro same
          rw [← same, owns.1] at free
          cases free
        rw [Owns]
        simp only [Core.note, setChannel_other core j i _ here]
        exact ⟨owns, trivial, trivial⟩
    | cancelled j running active cbor command' empty => exact absurd command' command
    | resynced j owner control data free command' eight middle ended =>
        exact absurd ((resynced_idle valid free ended).symm.trans still) (by decide)
    | aborted j assembling active control error cancel init =>
        exact absurd (assembling.phase.symm.trans phase) (by decide)
    | started j idle owner known bounded nonempty =>
        exact absurd (idle.phase.symm.trans phase) (by decide)
    | appended j assembling progress active continuation due inTime =>
        exact absurd (assembling.phase.symm.trans phase) (by decide)

/-- No channel is cancelled but that of the CBOR request that is processed. -/
theorem Valid.uncancelled {core : Core} (valid : Valid core)
    (other : core.phase ≠ .processing ∨ core.activeCommand ≠ cmdCbor) (i : Fin channelCount) :
    (core.channels i).cancel = false := by
  cases valid with
  | idle registered state => exact state.cancel i
  | rx registered j state progress => exact state.cancel i
  | processing registered j state =>
      rw [Bool.eq_false_iff]
      intro cancelled
      have cbor := (state.cancel i cancelled).2
      rcases other with phase | command
      · exact phase state.phase
      · exact command cbor

end P4Key.Ctaphid
