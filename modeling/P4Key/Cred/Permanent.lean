import P4Key.Cred.Durable

/-! The histories of the wrapping root.

A root that was loaded is stored for good, and a boot that has failed once stays failed. -/

namespace P4Key.Cred.Root

open Memory CallProgram

def Stored (root : Bytes rootLen) (nvs : Nvs) : Prop :=
  nvs.durable = some root.toList ∧ nvs.pending = none

theorem Stored.unique {nvs : Nvs} {one other : Bytes rootLen} (first : Stored one nvs)
    (second : Stored other nvs) : one = other := by
  have same : some one.toList = some other.toList := first.1.symm.trans second.1
  exact List.Vector.toList_injective (Option.some.inj same)

theorem Stored.settled {root : Bytes rootLen} {nvs next : Nvs} (stored : Stored root nvs)
    (settles : Settles nvs next) : Stored root next := by
  rw [settles.same stored.2]
  exact stored

/-- A root that is stored survives every event, and no event tries to replace it. -/
theorem Step.stored {state next : State} {event : Event} {root : Bytes rootLen}
    (step : Step state event next) (safe : Safe state) (stored : Stored root state.nvs) :
    Stored root next.nvs ∧ ∀ call ∈ event.calls, writes call = false := by
  cases step with
  | initialised calls code flags nvs run answered =>
      have cautious := safe.credInit_cut (by rw [List.append_nil]; exact run) answered
      rcases cautious _ stored.1 with ⟨same, quiet⟩
      rw [same]
      exact ⟨stored, quiet⟩
  | loaded out calls result nvs run answered =>
      rcases rootLoad_cut out (by rw [List.append_nil]; exact run) answered with ⟨same, quiet⟩
      rw [same]
      exact ⟨stored, quiet⟩
  | rebooted nvs settles => exact ⟨stored.settled settles, by simp [Event.calls]⟩
  | initialisationCut calls rest result nvs next run answered settles =>
      rcases safe.credInit_cut run answered _ stored.1 with ⟨same, quiet⟩
      rw [same] at settles
      exact ⟨stored.settled settles, quiet⟩
  | loadCut out calls rest result nvs next run answered settles =>
      rcases rootLoad_cut out run answered with ⟨same, quiet⟩
      rw [same] at settles
      exact ⟨stored.settled settles, quiet⟩

theorem Step.loads {state next : State} {out root : Option (Bytes rootLen)}
    {calls : List (CallProgram.Event Reply)} (step : Step state (.loaded out calls credOk root) next)
    (safe : Safe state) : ∃ value, root = some value ∧ Stored value state.nvs := by
  generalize good : credOk = code at step
  cases step with
  | loaded out calls result nvs run answered =>
      cases out with
      | none =>
          rcases (rootLoad_null state.flags).ended run answered with ⟨-, rfl, -⟩
          exact absurd good (by simp [credErrArg, credOk])
      | some out =>
          rcases (safe.rootLoad_ended run answered).1 good.symm with ⟨-, keeps, root, whole, durable⟩
          exact ⟨root, whole, durable, keeps.1⟩

def Loads (past : List Event) (nvs : Nvs) : Prop :=
  ∀ out calls root, Event.loaded out calls credOk root ∈ past → ∃ value, root = some value ∧
    Stored value nvs

theorem History.loads {stored : Option (List UInt8)} {past : List Event} {state : State}
    (run : History stored past state) : Loads past state.nvs := by
  refine Runs.Run.history run (fun past state => Loads past state.nvs) (by simp [Loads]) ?_
  intro past state event next before loads step out calls root member
  have safe : Safe state := History.safe before
  have now : ∃ value, root = some value ∧ Stored value state.nvs := by
    rcases List.mem_append.mp member with earlier | last
    · exact loads out calls root earlier
    · rw [← List.mem_singleton.mp last] at step
      exact step.loads safe
  rcases now with ⟨value, whole, held⟩
  exact ⟨value, whole, (step.stored safe held).1⟩

theorem History.writes_nothing {stored : Option (List UInt8)} {before after : List Event}
    {out root : Option (Bytes rootLen)} {calls : List (CallProgram.Event Reply)} {state : State}
    (run : History stored (before ++ .loaded out calls credOk root :: after) state)
    {later : Event} (member : later ∈ after) : ∀ call ∈ later.calls, writes call = false := by
  rcases List.append_of_mem member with ⟨between, rest, rfl⟩
  rw [← List.cons_append, ← List.append_assoc] at run
  rcases run.at_event with ⟨middle, next, past, step, -⟩
  rcases History.loads past out calls root (by simp) with ⟨value, -, held⟩
  exact (step.stored (History.safe past) held).2

/-! One boot. -/

def Event.reboots : Event → Bool
  | .rebooted _ => true
  | _ => false

/-- `p4_cred_init`, and `p4_root_load` with an output, return `P4_CRED_ERR_ROOT` and do not
touch the storage. -/
def Event.Refused : Event → Prop
  | .initialised calls code => code = credErrRoot ∧ calls = []
  | .loaded (some _) calls code _ => code = credErrRoot ∧ calls = []
  | _ => True

def Tried (flags : Flags) : Prop := flags.ready = true ∨ flags.failed = true

section Boots

variable {state next : State} {event : Event}

theorem Step.refused (step : Step state event next) (safe : Safe state)
    (failed : state.flags.failed = true) : event.Refused := by
  cases step with
  | initialised calls code flags nvs run answered =>
      rcases (safe.credInit_ended run answered).2.2.2.1 failed with ⟨code, none, -⟩
      exact ⟨code, none⟩
  | loaded out calls result nvs run answered =>
      cases out with
      | none => exact trivial
      | some out => exact (safe.rootLoad_ended run answered).2.2 failed
  | rebooted nvs settles => exact trivial
  | initialisationCut calls rest result nvs next run answered settles => exact trivial
  | loadCut out calls rest result nvs next run answered settles => exact trivial

theorem Step.initialises {calls : List (CallProgram.Event Reply)} {code : Int}
    (step : Step state (.initialised calls code) next) (safe : Safe state) :
    (code = credOk → next.flags.ready = true) ∧ (code ≠ credOk → next.flags.failed = true) := by
  cases step with
  | initialised calls code flags nvs run answered =>
      have ends := safe.credInit_ended run answered
      exact ⟨ends.2.1, fun bad => (ends.2.2.1 bad).2⟩

theorem Step.loads_flags {out : Bytes rootLen} {calls : List (CallProgram.Event Reply)} {code : Int}
    {root : Option (Bytes rootLen)} (step : Step state (.loaded (some out) calls code root) next)
    (safe : Safe state) :
    next.flags = state.flags ∧ (code ≠ credOk → root = some blankRoot ∧
      (state.flags.ready = false ∨ state.flags.failed = true)) ∨
    next.flags.failed = true ∧ (code ≠ credOk → root = some blankRoot) := by
  cases step with
  | loaded out calls result nvs run answered =>
      have ends := safe.rootLoad_ended run answered
      by_cases good : result.code = credOk
      · exact Or.inl ⟨(ends.1 good).1, fun bad => absurd good bad⟩
      · rcases ends.2.1 good with ⟨-, blank, ⟨same, refused⟩ | failed⟩
        · exact Or.inl ⟨same, fun _ => ⟨blank, refused⟩⟩
        · refine Or.inr ⟨?_, fun _ => blank⟩
          rw [failed]

theorem Step.remembers (step : Step state event next) (safe : Safe state)
    (same : event.reboots = false) :
    (state.flags.failed = true → next.flags.failed = true) ∧ (Tried state.flags → Tried next.flags) := by
  cases event with
  | initialised calls code =>
      cases step with
      | initialised calls code flags nvs run answered =>
          have ends := safe.credInit_ended run answered
          refine ⟨fun failed => (ends.2.2.2.1 failed).2.2, ?_⟩
          rintro (ready | failed)
          · exact Or.inl (ends.2.2.2.2 ready)
          · exact Or.inr (ends.2.2.2.1 failed).2.2
  | loaded out calls code root =>
      cases out with
      | none =>
          cases step with
          | loaded out calls result nvs run answered =>
              rcases (rootLoad_null state.flags).ended run answered with ⟨-, rfl, -⟩
              exact ⟨id, id⟩
      | some out =>
          rcases step.loads_flags safe with ⟨kept, -⟩ | ⟨failed, -⟩
          · rw [kept]
            exact ⟨id, id⟩
          · exact ⟨fun _ => failed, fun _ => Or.inr failed⟩
  | rebooted calls => cases same

end Boots

section Run

variable {start last : State} {events : List Event}

theorem Safe.run (safe : Safe start) (run : Runs.Run Step start events last) : Safe last :=
  run.invariant Safe safe (fun _ _ _ safe step => step.safe safe)

theorem Safe.boot (safe : Safe start) (run : Runs.Run Step start events last)
    (same : ∀ event ∈ events, event.reboots = false) :
    (start.flags.failed = true → last.flags.failed = true) ∧ (Tried start.flags → Tried last.flags) := by
  have along := run.invariant_along (fun event => event.reboots = false)
    (fun state => Safe state ∧ (start.flags.failed = true → state.flags.failed = true) ∧
      (Tried start.flags → Tried state.flags)) same ⟨safe, id, id⟩ ?_
  · exact along.2
  · rintro state event next quiet ⟨safe, failed, tried⟩ step
    have remembers := step.remembers safe quiet
    exact ⟨step.safe safe, fun was => remembers.1 (failed was), fun was => remembers.2 (tried was)⟩

theorem Safe.refuses {between after : List Event} {later : Event} (safe : Safe start)
    (failed : start.flags.failed = true)
    (run : Runs.Run Step start (between ++ later :: after) last)
    (same : ∀ event ∈ between, event.reboots = false) : later.Refused := by
  rcases run.at_event with ⟨state, next, first, step, -⟩
  exact step.refused (safe.run first) ((safe.boot first same).1 failed)

end Run

theorem History.initialisation_refuses {stored : Option (List UInt8)}
    {before between after : List Event} {later : Event} {calls : List (CallProgram.Event Reply)}
    {code : Int} {state : State}
    (run : History stored (before ++ .initialised calls code :: (between ++ later :: after)) state)
    (bad : code ≠ credOk) (same : ∀ event ∈ between, event.reboots = false) : later.Refused := by
  rcases run.at_event with ⟨first, next, past, step, rest⟩
  have safe : Safe first := History.safe past
  exact (step.safe safe).refuses ((step.initialises safe).2 bad) rest same

theorem History.load_refuses {stored : Option (List UInt8)}
    {before since between after : List Event} {later : Event} {out : Bytes rootLen}
    {root : Option (Bytes rootLen)} {first calls : List (CallProgram.Event Reply)} {code : Int}
    {state : State}
    (run : History stored (before ++ .initialised first credOk :: (since ++
      .loaded (some out) calls code root :: (between ++ later :: after))) state)
    (bad : code ≠ credOk) (booted : ∀ event ∈ since, event.reboots = false)
    (same : ∀ event ∈ between, event.reboots = false) : later.Refused := by
  rcases run.at_event with ⟨before, initialised, past, ready, rest⟩
  have safe : Safe before := History.safe past
  rcases rest.at_event with ⟨middle, next, waited, step, final⟩
  have tried := ((ready.safe safe).boot waited booted).2 (Or.inl ((ready.initialises safe).1 rfl))
  have safe' := (ready.safe safe).run waited
  have failed : next.flags.failed = true := by
    rcases step.loads_flags safe' with ⟨kept, refused⟩ | ⟨failed, -⟩
    · rw [kept]
      rcases tried with ready | failed
      · rcases (refused bad).2 with unready | failed
        · rw [ready] at unready
          cases unready
        · exact failed
      · exact failed
    · exact failed
  exact (step.safe safe').refuses failed final same

theorem History.load_blank {stored : Option (List UInt8)} {before after : List Event}
    {out : Bytes rootLen} {root : Option (Bytes rootLen)} {calls : List (CallProgram.Event Reply)}
    {code : Int} {state : State}
    (run : History stored (before ++ .loaded (some out) calls code root :: after) state)
    (bad : code ≠ credOk) : root = some blankRoot := by
  rcases run.at_event with ⟨state, next, past, step, -⟩
  rcases step.loads_flags (History.safe past) with ⟨-, blank⟩ | ⟨-, blank⟩
  · exact (blank bad).1
  · exact blank bad

/-- The wrapping root never changes once it was used: all loads agree, nothing is written after
the first of them, a boot that has failed stays failed, and a load that fails gives nothing out. -/
theorem root_is_permanent {stored : Option (List UInt8)} {past : List Event} {state : State}
    (run : History stored past state) :
    (∀ out out' calls calls' root root', .loaded out calls credOk root ∈ past →
      .loaded out' calls' credOk root' ∈ past → root = root' ∧ root.isSome) ∧
    (∀ before out calls root after, past = before ++ .loaded out calls credOk root :: after →
      ∀ later ∈ after, ∀ call ∈ later.calls, writes call = false) ∧
    (∀ before calls code between later after,
      past = before ++ .initialised calls code :: (between ++ later :: after) → code ≠ credOk →
      (∀ event ∈ between, event.reboots = false) → later.Refused) ∧
    (∀ before first since out calls code root between later after,
      past = before ++ .initialised first credOk :: (since ++
        .loaded (some out) calls code root :: (between ++ later :: after)) → code ≠ credOk →
      (∀ event ∈ since, event.reboots = false) → (∀ event ∈ between, event.reboots = false) →
      later.Refused) ∧
    (∀ out calls code root, .loaded (some out) calls code root ∈ past → code ≠ credOk →
      root = some blankRoot) := by
  refine ⟨?_, ?_, ?_, ?_, ?_⟩
  · intro out out' calls calls' root root' first second
    rcases run.loads out calls root first with ⟨value, rfl, held⟩
    rcases run.loads out' calls' root' second with ⟨value', rfl, held'⟩
    rw [held.unique held']
    exact ⟨rfl, rfl⟩
  · intro before out calls root after split later member
    subst split
    exact run.writes_nothing member
  · intro before calls code between later after split bad same
    subst split
    exact run.initialisation_refuses bad same
  · intro before first since out calls code root between later after split bad booted same
    subst split
    exact run.load_refuses bad booted same
  · intro out calls code root member bad
    rcases List.append_of_mem member with ⟨before, after, rfl⟩
    exact run.load_blank bad

def plainRoot : Bytes rootLen := List.Vector.replicate rootLen 7

def makeCalls : List (CallProgram.Event Reply) :=
  [⟨.nvsFlashInit, espOk⟩, ⟨.nvsOpen true, (espOk, 1)⟩,
    ⟨.nvsGetBlob 1, (espErrNvsNotFound, blankRoot, rootLen)⟩, ⟨.randFill, (cryptoOk, plainRoot)⟩,
    ⟨.nvsSetBlob 1 plainRoot, espOk⟩, ⟨.nvsCommit 1, espOk⟩, ⟨.nvsClose 1, ()⟩]

def loadCalls : List (CallProgram.Event Reply) :=
  [⟨.nvsOpen false, (espOk, 2)⟩, ⟨.nvsGetBlob 2, (espOk, plainRoot, rootLen)⟩, ⟨.nvsClose 2, ()⟩]

def findCalls : List (CallProgram.Event Reply) :=
  [⟨.nvsFlashInit, espOk⟩, ⟨.nvsOpen true, (espOk, 1)⟩,
    ⟨.nvsGetBlob 1, (espOk, plainRoot, rootLen)⟩, ⟨.nvsClose 1, ()⟩]

theorem makeCalls_answered :
    Runs.Run Answers {} makeCalls { durable := some plainRoot.toList, pending := none } := by
  have flash := Runs.Run.nil.snoc (@Answers.flashInit {} espOk)
  have opened := flash.snoc (Answers.opened true espOk 1)
  have got := opened.snoc (Answers.notFound 1 rfl blankRoot rootLen)
  have drawn := got.snoc (Answers.random cryptoOk plainRoot)
  have set := drawn.snoc (Answers.set 1 plainRoot espOk)
  have committed := set.snoc (Answers.committed 1)
  exact committed.snoc (Answers.closed 1)

theorem loadCalls_answered (nvs : Nvs) (stored : Stored plainRoot nvs) :
    Runs.Run Answers nvs loadCalls nvs := by
  have opened := Runs.Run.nil.snoc (@Answers.opened nvs false espOk 2)
  have got := opened.snoc
    (Answers.found 2 plainRoot.toList (Or.inl stored.1) plainRoot (List.take_length))
  exact got.snoc (Answers.closed 2)

theorem findCalls_answered (nvs : Nvs) (stored : Stored plainRoot nvs) :
    Runs.Run Answers nvs findCalls nvs := by
  have flash := Runs.Run.nil.snoc (@Answers.flashInit nvs espOk)
  have opened := flash.snoc (Answers.opened true espOk 1)
  have got := opened.snoc
    (Answers.found 1 plainRoot.toList (Or.inl stored.1) plainRoot (List.take_length))
  exact got.snoc (Answers.closed 1)

def firstBoot : List Event :=
  [.initialised makeCalls credOk, .loaded (some blankRoot) loadCalls credOk (some plainRoot)]

def secondBoot : List Event :=
  [.rebooted [], .initialised findCalls credOk,
    .loaded (some blankRoot) loadCalls credOk (some plainRoot)]

theorem twoBoots_run : ∃ state, History none (firstBoot ++ secondBoot) state := by
  have made := Runs.Run.nil.snoc (@Step.initialised ⟨{}, {}⟩ makeCalls credOk
    { ready := true } _ (.call (.call (.call (.call (.call (.call (.call (.done _))))))))
    makeCalls_answered)
  have loaded := made.snoc (Step.loaded (some blankRoot) loadCalls
    ⟨credOk, some plainRoot, { ready := true }⟩ _ (.call (.call (.call (.done _))))
    (loadCalls_answered _ ⟨rfl, rfl⟩))
  have again := loaded.snoc (Step.rebooted _ .lost)
  have found := again.snoc (Step.initialised findCalls credOk { ready := true } _
    (.call (.call (.call (.call (.done _))))) (findCalls_answered _ ⟨rfl, rfl⟩))
  exact ⟨_, found.snoc (Step.loaded (some blankRoot) loadCalls
    ⟨credOk, some plainRoot, { ready := true }⟩ _ (.call (.call (.call (.done _))))
    (loadCalls_answered _ ⟨rfl, rfl⟩))⟩

/-- The first boot makes a root; the second one finds it and does not write. -/
theorem made_root_is_kept :
    ∃ state, History none (firstBoot ++ secondBoot) state ∧
      (∀ root, .loaded (some blankRoot) loadCalls credOk root ∈ secondBoot →
        root = some plainRoot) ∧
      ∀ event ∈ secondBoot, ∀ call ∈ event.calls, writes call = false := by
  rcases twoBoots_run with ⟨state, run⟩
  have permanent := root_is_permanent run
  refine ⟨state, run, ?_, ?_⟩
  · intro root again
    exact (permanent.1 (some blankRoot) (some blankRoot) loadCalls loadCalls root (some plainRoot)
      (List.mem_append_right _ again) (List.mem_append_left _ (by simp [firstBoot]))).1
  · exact permanent.2.1 [.initialised makeCalls credOk] (some blankRoot) loadCalls
      (some plainRoot) secondBoot rfl

end P4Key.Cred.Root
