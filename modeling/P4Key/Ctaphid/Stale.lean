import P4Key.Ctaphid.Completion
import P4Key.Ctaphid.Handles

/-! Handles of transactions that have ended. -/

namespace P4Key.Ctaphid

open Memory

structure Serving (core : Core) (i : Fin channelCount) (cid generation : UInt32) : Prop where
  phase : core.phase = .processing
  activeCid : core.activeCid = cid
  owner : Owns core i cid
  generation : (core.channels i).generation = generation

def returns (cid generation : UInt32) : Event → Bool
  | .fed _ _ action =>
      (action.kind == .message || action.kind == .send && action.command == cmdPing) &&
        action.cid == cid && action.generation == generation
  | .took _ (.ok message) => message.cid == cid && message.generation == generation
  | _ => false

def ends (cid generation : UInt32) : Event → Bool
  | .finished cid' generation' => cid' == cid && generation' == generation
  | event => resyncs cid event

def Action.hands (action : Action) (cid generation : UInt32) : Prop :=
  (action.kind = .message ∨ action.kind = .send ∧ action.command = cmdPing) ∧ action.cid = cid ∧
    action.generation = generation

theorem returns_fed {cid generation : UInt32} {report : Report} {nowMs : UInt32} {action : Action} :
    returns cid generation (.fed report nowMs action) = true ↔ action.hands cid generation := by
  simp [returns, Action.hands, and_assoc]

theorem Answers.hands_nothing {cid : UInt32} {action : Action} (answer : Answers cid action)
    (cid' generation : UInt32) : ¬action.hands cid' generation := by
  rintro ⟨kind, -⟩
  rcases answer with nothing | ⟨error, sent⟩
  · simp [nothing, noAction] at kind
  · simp [sent, sendAction, (by decide : cmdError ≠ cmdPing)] at kind

theorem init_hands_nothing (own cid generation : UInt32) (data : List UInt8) :
    ¬(sendAction own cmdInit data).hands cid generation := by
  rintro ⟨kind, -⟩
  simp [sendAction, (by decide : cmdInit ≠ cmdPing)] at kind

theorem completeMessage_serving {core : Core} {i : Fin channelCount}
    (assembling : Assembling core i) {cid generation : UInt32}
    (handed : (completeMessage core i).2.hands cid generation) :
    Serving (completeMessage core i).1 i cid generation := by
  have lasts : ((completeMessage core i).1.channels i).Lasts (core.channels i) := by
    rw [assembling.completeMessage_channels]
    exact setChannel_lasts { core.channels i with partialActive := false }
      ⟨rfl, rfl, rfl⟩ i
  have handle : core.activeCid = cid ∧ (core.channels i).generation = generation := by
    rw [assembling.completeMessage_eq] at handed
    split at handed
    · exact handed.2
    · exact handed.2
  have owner := assembling.owner
  rw [handle.1] at owner
  exact ⟨assembling.completeMessage_phase, (assembling.completeMessage_activeCid).trans handle.1,
    owner.lasts lasts, lasts.generation.trans handle.2⟩

theorem Packet.serving {core : Core} {report : Report} {nowMs : UInt32} {result : Core × Action}
    (packet : Packet core report nowMs result) (valid : Valid core) {cid generation : UInt32}
    (handed : result.2.hands cid generation) : ∃ i, Serving result.1 i cid generation := by
  cases packet with
  | ignored control count action answer harmless =>
      exact absurd handed (answer.hands_nothing cid generation)
  | settled j owner control count action answer elsewhere =>
      exact absurd handed (answer.hands_nothing cid generation)
  | allocated j new control data broadcast free proper fresh =>
      exact absurd handed (init_hands_nothing _ cid generation data)
  | cancelled j running active cbor command empty =>
      rcases handed.1 with kind | kind
      · cases kind
      · cases kind.1
  | resynced j owner control data free command eight middle ended =>
      exact absurd handed (init_hands_nothing _ cid generation data)
  | aborted j assembling active control error cancel init =>
      exact absurd handed (Answers.hands_nothing (Or.inr ⟨error, rfl⟩) cid generation)
  | started j idle owner known bounded nonempty =>
      have stored := idle.storeFirst report.initData nowMs valid.registered owner known bounded
      rw [startMessage] at handed ⊢
      split at handed
      · rename_i whole
        rw [if_pos whole]
        exact ⟨j, completeMessage_serving stored.2 handed⟩
      · exact absurd handed (@Answers.hands_nothing report.cid _ (Or.inl rfl) cid generation)
  | appended j assembling progress active continuation due inTime =>
      have stored := assembling.storeNext report.contData nowMs valid.registered
      rw [appendPacket] at handed ⊢
      split at handed
      · rename_i whole
        rw [if_pos whole]
        exact ⟨j, completeMessage_serving stored.2 handed⟩
      · exact absurd handed (@Answers.hands_nothing report.cid _ (Or.inl rfl) cid generation)

theorem CoreStep.returned {core next : Core} {event : Event} (step : CoreStep core event next)
    (valid : Valid core) {cid generation : UInt32} (handed : returns cid generation event = true) :
    ∃ i, Serving next i cid generation := by
  cases step with
  | feed report nowMs draws =>
      exact (coreFeed_cases core report nowMs draws valid).serving
        (coreCleanup_valid core nowMs valid) (returns_fed.mp handed)
  | cleanup nowMs => cases handed
  | take cap =>
      rcases coreTakeMessage_cases valid cap with ⟨error, same⟩ | ⟨ready, taken⟩
      · rw [same] at handed
        cases handed
      · rw [taken] at handed ⊢
        rcases valid.messageReady_iff.mp ready with ⟨i, running, held⟩
        simp only [returns, handOffMessage, Bool.and_eq_true, beq_iff_eq] at handed
        have active := held.completeCid.symm.trans handed.1
        exact ⟨i, running.phase, active, active ▸ running.owner,
          held.completeGeneration.symm.trans handed.2⟩
  | finish cid' generation' => cases handed
  | clearCancel cid' generation' => cases handed
  | reset => cases handed

/-! While it runs. -/

theorem Packet.keeps_serving {core : Core} {report : Report} {nowMs : UInt32}
    {result : Core × Action} (packet : Packet core report nowMs result) (valid : Valid core)
    (silent : report.requests = true → result.2 = noAction → result.1.phase ≠ core.phase)
    (phase : core.phase = .processing)
    (still : resyncs core.activeCid (.fed report nowMs result.2) = false) :
    result.1.phase = .processing ∧ result.1.activeCid = core.activeCid ∧
      renews core.activeCid (.fed report nowMs result.2) = false := by
  cases packet with
  | ignored control count action answer harmless =>
      exact ⟨phase, rfl, renews_answer answer fun request nothing => silent request nothing rfl⟩
  | settled j owner control count action answer elsewhere =>
      exact ⟨phase, rfl, renews_answer answer fun request nothing => silent request nothing rfl⟩
  | allocated j new control data broadcast free proper fresh =>
      exact ⟨phase, rfl, renews_other (broadcast ▸ valid.active_ne_broadcast.symm)⟩
  | cancelled j running active cbor command empty =>
      exact ⟨phase, rfl, renews_neither (requests_cancel command) (by decide : cmdCancel ≠ cmdInit)⟩
  | resynced j owner control data free command eight middle ended =>
      have active := free.resolve_left (by rw [phase]; decide)
      simp [resyncs, active, command, sendAction] at still
  | aborted j assembling active control error cancel init =>
      exact absurd (assembling.phase.symm.trans phase) (by decide)
  | started j idle owner known bounded nonempty =>
      exact absurd (idle.phase.symm.trans phase) (by decide)
  | appended j assembling progress active continuation due inTime =>
      exact absurd (assembling.phase.symm.trans phase) (by decide)

theorem CoreStep.keeps_serving {core next : Core} {event : Event} (step : CoreStep core event next)
    (valid : Valid core) (alive : event ≠ .reset) {i : Fin channelCount} {cid generation : UInt32}
    (serving : Serving core i cid generation) (still : ends cid generation event = false) :
    Serving next i cid generation := by
  have renewal := step.renewal valid alive serving.owner
  have kept : ∀ core' : Core, core'.phase = .processing → core'.activeCid = cid →
      renews cid event = false → core' = next → Serving next i cid generation := by
    intro core' phase active old same
    rw [old] at renewal
    rw [same] at phase active
    refine ⟨phase, active, renewal.owner, ?_⟩
    rw [renewal.generation, serving.generation]
    exact UInt32.add_zero _
  have phase := serving.phase
  cases step with
  | feed report nowMs draws =>
      have quiet := coreCleanup_of_processing phase nowMs
      have packet := coreFeed_cases core report nowMs draws valid
      rw [quiet] at packet
      have silent := @coreFeed_silent core report nowMs draws
      rw [quiet] at silent
      have active := serving.activeCid
      subst active
      rcases packet.keeps_serving valid silent phase still with ⟨phase', active, old⟩
      exact kept _ phase' active old rfl
  | cleanup nowMs =>
      have quiet := coreCleanup_of_processing phase nowMs
      exact kept core phase serving.activeCid rfl quiet.symm
  | take cap =>
      refine kept _ ?_ ?_ rfl rfl
      · rw [coreTakeMessage]
        split_ifs <;> exact phase
      · rw [coreTakeMessage]
        split_ifs <;> exact serving.activeCid
  | finish cid' generation' =>
      rcases coreFinishResponse_cases core cid' generation' with same | ⟨j, -, active, found, own, -⟩
      · exact kept core phase serving.activeCid rfl same.symm
      · have here := (chanFind_some found).unique (active ▸ serving.activeCid ▸ serving.owner)
          valid.registered
        rw [here, serving.generation] at own
        have both := active.symm.trans serving.activeCid
        simp [ends, both, own] at still
  | clearCancel cid' generation' =>
      rcases coreClearCancel_cases core cid' generation' with same | ⟨j, -, -, -, -, cleared⟩
      · exact kept core phase serving.activeCid rfl same.symm
      · refine kept _ ?_ ?_ rfl cleared.symm
        · exact phase
        · exact serving.activeCid
  | reset => exact absurd rfl alive

/-! After its end. -/

/-- The channel has had `count` new generations since, and is not active before the first. -/
structure Ended (core : Core) (i : Fin channelCount) (cid generation : UInt32) (count : Nat) :
    Prop where
  owner : Owns core i cid
  generation : (core.channels i).generation = generation + UInt32.ofNat count
  inactive : count = 0 → core.activeCid ≠ cid

theorem Owns.proper {core : Core} {i : Fin channelCount} {cid : UInt32} (owns : Owns core i cid)
    (registered : Registered core) : cid ≠ 0 := by
  have proper := registered.assigned i owns.1
  rw [owns.2] at proper
  exact proper.1

theorem CoreStep.ended {core next : Core} {event : Event} (step : CoreStep core event next)
    (valid : Valid core) (alive : event ≠ .reset) {i : Fin channelCount} {cid generation : UInt32}
    (serving : Serving core i cid generation) (final : ends cid generation event = true) :
    Ended next i cid generation (renews cid event).toNat := by
  have renewal := step.renewal valid alive serving.owner
  refine ⟨renewal.owner, ?_, ?_⟩
  · rw [renewal.generation, serving.generation]
    cases renews cid event <;> rfl
  · intro none
    have old : renews cid event = false := by
      cases renewed : renews cid event with
      | false => rfl
      | true =>
          rw [renewed] at none
          cases none
    have quiet : resyncs cid event = false := by
      rw [renews, Bool.or_eq_false_iff] at old
      exact old.2
    have proper := serving.owner.proper valid.registered
    cases step with
    | finish cid' generation' =>
        simp only [ends, Bool.and_eq_true, beq_iff_eq] at final
        have gone : coreFinishResponse core cid' generation' = clearActive core true := by
          rw [coreFinishResponse, final.1, final.2, if_neg (by simp [serving.phase, serving.activeCid]),
            serving.owner.chanFind valid.registered]
          simp only
          rw [if_neg (by simp [serving.generation])]
        rw [gone]
        exact proper.symm
    | feed report nowMs draws => exact absurd (quiet.symm.trans final) (by decide)
    | cleanup nowMs => cases final
    | take cap => cases final
    | clearCancel cid' generation' => cases final
    | reset => cases final

theorem CoreStep.keeps_ended {core next : Core} {event : Event} (step : CoreStep core event next)
    (valid : Valid core) (alive : event ≠ .reset) {i : Fin channelCount} {cid generation : UInt32}
    {count : Nat} (ended : Ended core i cid generation count) :
    Ended next i cid generation (count + (renews cid event).toNat) := by
  have renewal := step.renewal valid alive ended.owner
  refine ⟨renewal.owner, ?_, ?_⟩
  · rw [renewal.generation, ended.generation, UInt32.ofNat_add, UInt32.add_assoc]
    cases renews cid event <;> rfl
  · intro none active
    rcases step.activates valid (ended.owner.proper valid.registered) active with before | renewed
    · exact ended.inactive (by omega) before
    · rw [renewed] at none
      cases none

/-- The three calls that take a handle find nothing behind it. -/
structure Dead (core : Core) (cid generation : UInt32) : Prop where
  finish : coreFinishResponse core cid generation = core
  clearCancel : coreClearCancel core cid generation = core
  cancelled : coreCancelled core cid generation = true

theorem Ended.dead {core : Core} {i : Fin channelCount} {cid generation : UInt32} {count : Nat}
    (ended : Ended core i cid generation count) (registered : Registered core)
    (few : count < 2 ^ 32) : Dead core cid generation := by
  by_cases away : core.phase ≠ .processing ∨ core.activeCid ≠ cid
  · exact ⟨if_pos away, if_pos away, if_pos away⟩
  · have active : core.activeCid = cid := by
      simp only [ne_eq, not_or, not_not] at away
      exact away.2
    have found := ended.owner.chanFind registered
    have other : (core.channels i).generation ≠ generation := by
      rw [ended.generation]
      intro same
      have zero : UInt32.ofNat count = 0 := by grind
      have none := congrArg UInt32.toNat zero
      rw [UInt32.toNat_ofNat', Nat.mod_eq_of_lt few] at none
      exact ended.inactive none active
    refine ⟨?_, ?_, ?_⟩
    · rw [coreFinishResponse, if_neg away, found]
      exact if_pos other
    · rw [coreClearCancel, if_neg away, found]
      exact if_neg other
    · rw [coreCancelled, if_neg away, found]
      simp [other]

theorem serving_run {start last : Core} {events : List Event} {i : Fin channelCount}
    {cid generation : UInt32} (run : Runs.Run CoreStep start events last) (valid : Valid start)
    (serving : Serving start i cid generation) (alive : ∀ event ∈ events, event ≠ .reset)
    (still : ∀ event ∈ events, ends cid generation event = false) :
    Valid last ∧ Serving last i cid generation := by
  apply run.invariant_along (fun event => event ≠ .reset ∧ ends cid generation event = false)
    (fun core => Valid core ∧ Serving core i cid generation)
  · exact fun event member => ⟨alive event member, still event member⟩
  · exact ⟨valid, serving⟩
  · intro core event next allowed before step
    exact ⟨step.valid before.1, step.keeps_serving before.1 allowed.1 before.2 allowed.2⟩

theorem ended_run {start last : Core} {events : List Event} {i : Fin channelCount}
    {cid generation : UInt32} {count : Nat} (run : Runs.Run CoreStep start events last)
    (valid : Valid start) (ended : Ended start i cid generation count)
    (alive : ∀ event ∈ events, event ≠ .reset) :
    Valid last ∧ Ended last i cid generation (count + events.countP (renews cid)) := by
  revert alive
  refine run.history (fun past core => (∀ event ∈ past, event ≠ .reset) →
    Valid core ∧ Ended core i cid generation (count + past.countP (renews cid))) ?_ ?_
  · exact fun _ => ⟨valid, ended⟩
  · intro past core event next _ ih step alive
    rcases ih fun event member => alive event (List.mem_append_left _ member) with ⟨before, far⟩
    have one := alive event (List.mem_append_right _ (List.mem_singleton.mpr rfl))
    have further := step.keeps_ended before one far
    refine ⟨step.valid before, ?_⟩
    rw [List.countP_append, List.countP_singleton, ← Nat.add_assoc]
    cases renewed : renews cid event with
    | false =>
        rw [renewed] at further
        exact further
    | true =>
        rw [renewed] at further
        exact further

/-- An INIT on a channel that may use the transport makes it blank, and a handle that was given
out is dead from the end of its transaction on, until the counter comes round. -/
theorem init_restarts_and_old_handles_stay_dead :
    (∀ events core, CoreRun events core → ∀ i (report : Report), Owns core i report.cid →
      (core.phase = .idle ∨ core.activeCid = report.cid) → report.command = cmdInit →
      report.declaredLen = 8 → ∀ nowMs draws,
      (coreFeed core report nowMs draws).2 =
        sendAction report.cid cmdInit (initReplyBytes report.cid (slice report.toList 7 8)) ∧
      (initReplyBytes report.cid (slice report.toList 7 8)).length = 17 ∧
      Resynced (coreFeed core report nowMs draws).1 i report.cid ∧
      ∀ next : Report, next.cid = report.cid → next.isInitial = false → ∀ laterMs laterDraws,
        coreFeed (coreFeed core report nowMs draws).1 next laterMs laterDraws =
          ((coreFeed core report nowMs draws).1, noAction)) ∧
    (∀ before given between ending after core cid generation,
      CoreRun (before ++ given :: (between ++ ending :: after)) core →
      (∀ event ∈ given :: (between ++ ending :: after), event ≠ .reset) →
      returns cid generation given = true →
      (∀ event ∈ between, ends cid generation event = false) →
      ends cid generation ending = true → after.countP (renews cid) < 2 ^ 32 - 1 →
      Dead core cid generation) := by
  constructor
  · intro events core run i report owner free command eight nowMs draws
    rcases feed_init_resynced run.valid run.scrubbed owner free command eight nowMs draws with
      ⟨action, resynced⟩
    have registered := (coreFeed_valid core report nowMs draws run.valid).registered
    refine ⟨action, length_initReplyBytes _ _, resynced, ?_⟩
    intro next own continuation laterMs laterDraws
    exact resynced.ignores registered own continuation laterMs laterDraws
  · intro before given between ending after core cid generation run alive handed still final few
    rcases run.at_event with ⟨state, served, past, step, rest⟩
    have valid := CoreRun.valid past
    rcases step.returned valid handed with ⟨i, serving⟩
    rcases rest.at_event with ⟨state', gone, middle, finish, later⟩
    have calm : ∀ event ∈ between ++ ending :: after, event ≠ .reset :=
      fun event member => alive event (List.mem_cons_of_mem _ member)
    rcases serving_run middle (step.valid valid) serving
      (fun event member => calm event (List.mem_append_left _ member)) still with ⟨valid', running⟩
    have one := calm ending (List.mem_append_right _ List.mem_cons_self)
    have ended := finish.ended valid' one running final
    rcases ended_run later (finish.valid valid') ended
      (fun event member => calm event (List.mem_append_right _ (List.mem_cons_of_mem _ member)))
      with ⟨valid'', far⟩
    apply far.dead valid''.registered
    have least : (renews cid ending).toNat ≤ 1 := Bool.toNat_le _
    omega

def restartReport : Report := load reportBytes [0, 0, 0, 1, 0x86, 0, 8, 1, 2, 3, 4, 5, 6, 7, 8] 0

/-- Channel 1 is restarted after it was opened, and a request of it ends with its response. -/
theorem opened_channel_restarts_and_handle_dies :
    Resynced (coreFeed openedCore restartReport 6 drawOne).1 0 1 ∧
    Dead (coreFinishResponse (coreFeed openedCore smallReport 5 drawOne).1 1 1) 1 1 := by
  have opened := Runs.Run.nil.snoc (CoreStep.feed coreInit openingReport 0 drawOne)
  have served := opened.snoc (CoreStep.feed openedCore smallReport 5 drawOne)
  have finished := served.snoc (CoreStep.finish (coreFeed openedCore smallReport 5 drawOne).1 1 1)
  constructor
  · exact (init_restarts_and_old_handles_stay_dead.1 _ openedCore opened 0 restartReport (by decide)
      (by decide) (by decide) (by decide) 6 drawOne).2.2.1
  · apply init_restarts_and_old_handles_stay_dead.2 [_] _ [] (.finished 1 1) [] _ 1 1 finished
    · simp
    · decide +kernel
    · simp
    · rfl
    · decide

end P4Key.Ctaphid
