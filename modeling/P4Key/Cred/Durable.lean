import P4Key.Cred.Root

/-! The wrapping root is made once.

A boot writes only when nothing was stored, and it counts as initialised only after the
commit. So nothing that was ever given out is replaced. -/

namespace P4Key.Cred.Root

open Memory CallProgram

def writes (call : CallProgram.Event Reply) : Bool :=
  match call.1 with
  | .nvsSetBlob _ _ => true
  | _ => false

/-- What was stored is still stored, and nobody has tried to replace it. -/
def Cautious (nvs : Nvs) (calls : List (CallProgram.Event Reply)) (world : Nvs) : Prop :=
  ∀ blob, nvs.durable = some blob → world = nvs ∧ ∀ call ∈ calls, writes call = false

theorem Cautious.start (nvs : Nvs) : Cautious nvs [] nvs := fun _ _ => ⟨rfl, by simp⟩

theorem Cautious.read {nvs world : Nvs} {calls : List (CallProgram.Event Reply)}
    (cautious : Cautious nvs calls world) (call : CallProgram.Event Reply)
    (reads : writes call = false) : Cautious nvs (calls ++ [call]) world := by
  intro blob stored
  rcases cautious blob stored with ⟨same, quiet⟩
  exact ⟨same, List.forall_mem_append.mpr ⟨quiet, List.forall_mem_singleton.mpr reads⟩⟩

theorem Cautious.empty {nvs : Nvs} (nothing : nvs.durable = none)
    (calls : List (CallProgram.Event Reply)) (world : Nvs) : Cautious nvs calls world := by
  intro blob stored
  rw [nothing] at stored
  cases stored

def Nvs.Keeps (nvs : Nvs) : Prop :=
  nvs.pending = none ∧ ∃ blob, nvs.durable = some blob ∧ blob.length = rootLen

/-- How `p4_cred_init` may end after it has looked at the storage. -/
structure Initialised (flags : Flags) (world : Nvs) (result : Int × Flags) : Prop where
  ready : result.1 = credOk → result.2 = { flags with ready := true } ∧ world.Keeps
  failed : result.1 ≠ credOk → result.1 = credErrRoot ∧ result.2 = { flags with failed := true }

theorem closeHandle_survives {α : Type} {crash : List (CallProgram.Event Reply) → Nvs → Prop}
    {calls : List (CallProgram.Event Reply)} {world : Nvs} {handle : UInt32} {result : α}
    {post : List (CallProgram.Event Reply) → Nvs → α → Prop} (now : crash calls world)
    (later : crash (calls ++ [⟨.nvsClose handle, ()⟩]) world) (ends : ∀ calls, post calls world result) :
    Survives Answers crash calls world (closeHandle handle >>= fun _ => pure result) post := by
  rw [closeHandle]
  split
  · refine ⟨now, ?_⟩
    intro reply after answer
    cases answer
    exact ⟨later, ends _⟩
  · exact ⟨now, ends _⟩

section Ends

variable {nvs world : Nvs} {calls : List (CallProgram.Event Reply)} {flags : Flags} {handle : UInt32}

theorem rootFail_survives (cautious : Cautious nvs calls world) :
    Survives Answers (Cautious nvs) calls world (rootFail flags handle)
      (fun _ world result => Initialised flags world result) := by
  refine closeHandle_survives cautious (cautious.read _ rfl) (fun _ => ⟨?_, fun _ => ⟨rfl, rfl⟩⟩)
  intro good
  exact absurd good (by simp [credErrRoot, credOk])

theorem rootReady_survives (cautious : Cautious nvs calls world) (keeps : world.Keeps) :
    Survives Answers (Cautious nvs) calls world (rootReady flags handle)
      (fun _ world result => Initialised flags world result) := by
  refine ⟨cautious, ?_⟩
  intro reply after answer
  cases answer
  exact ⟨cautious.read _ rfl, fun _ => ⟨rfl, keeps⟩, fun impossible => absurd rfl impossible⟩

theorem makeRoot_survives (nothing : nvs.durable = none) :
    Survives Answers (Cautious nvs) calls world (makeRoot flags handle)
      (fun _ world result => Initialised flags world result) := by
  simp only [makeRoot, randFill, nvsSetBlob, nvsCommit, Program.perform_bind, survives_call]
  refine ⟨.empty nothing _ _, ?_⟩
  rintro ⟨randError, root⟩ after answer
  simp only
  split
  · exact rootFail_survives (.empty nothing _ _)
  refine ⟨.empty nothing _ _, ?_⟩
  intro setError middle set
  simp only
  split
  · exact rootFail_survives (.empty nothing _ _)
  refine ⟨.empty nothing _ _, ?_⟩
  intro commitError last commit
  simp only
  split
  · exact rootFail_survives (.empty nothing _ _)
  · rename_i good
    rw [not_not] at good
    refine rootReady_survives (.empty nothing _ _) ?_
    cases set
    cases commit with
    | committed => exact ⟨rfl, root.toList, rfl, List.Vector.toList_length root⟩
    | commitFailed _ _ bad => exact absurd good bad

end Ends

theorem credInit_survives (flags : Flags) (nvs : Nvs) (first : flags.failed = false)
    (fresh : flags.ready = false) (calm : nvs.pending = none) :
    Survives Answers (Cautious nvs) [] nvs (credInit flags)
      (fun _ world result => Initialised flags world result) := by
  rw [credInit, if_neg (by simp [first]), if_neg (by simp [fresh])]
  simp only [nvsFlashInit, nvsOpen, nvsGetBlob, Program.perform_bind, survives_call]
  refine ⟨.start nvs, ?_⟩
  intro initError nvs₁ init
  cases init
  have one := (Cautious.start nvs).read ⟨.nvsFlashInit, initError⟩ rfl
  split
  · exact rootFail_survives one
  refine ⟨one, ?_⟩
  rintro ⟨openError, handle⟩ nvs₂ opened
  cases opened
  have two := one.read ⟨.nvsOpen true, (openError, handle)⟩ rfl
  simp only
  split
  · exact rootFail_survives two
  refine ⟨two, ?_⟩
  rintro ⟨getError, root, len⟩ nvs₃ got
  have three := two.read ⟨.nvsGetBlob handle, (getError, root, len)⟩ rfl
  simp only
  cases got with
  | found _ blob shown _ copied =>
      rw [if_neg (by decide)]
      split
      · exact rootFail_survives three
      · rename_i whole
        simp only [ne_eq, not_or, not_not] at whole
        refine rootReady_survives three ⟨calm, blob, ?_, whole.2⟩
        rcases shown with durable | pending
        · exact durable
        · rw [calm] at pending
          cases pending
  | notFound _ absent _ _ =>
      rw [if_pos rfl]
      exact makeRoot_survives absent
  | getFailed _ _ bad other _ _ =>
      rw [if_neg other, if_pos (Or.inl bad)]
      exact rootFail_survives three

/-! Loading. -/

def Untouched (nvs : Nvs) (calls : List (CallProgram.Event Reply)) (world : Nvs) : Prop :=
  world = nvs ∧ ∀ call ∈ calls, writes call = false

theorem Untouched.read {nvs world : Nvs} {calls : List (CallProgram.Event Reply)}
    (untouched : Untouched nvs calls world) (call : CallProgram.Event Reply)
    (reads : writes call = false) : Untouched nvs (calls ++ [call]) world :=
  ⟨untouched.1, List.forall_mem_append.mpr ⟨untouched.2, List.forall_mem_singleton.mpr reads⟩⟩

structure Ended (flags : Flags) (nvs : Nvs) (result : Loaded) : Prop where
  good : result.code = credOk → result.flags = flags ∧
    ∃ root, result.root = some root ∧ nvs.Shows root.toList
  bad : result.code ≠ credOk → result.code = credErrRoot ∧ result.root = some blankRoot ∧
    result.flags = { ready := false, failed := true }

theorem rootRead_survives {nvs world : Nvs} {calls : List (CallProgram.Event Reply)} {flags : Flags}
    {handle : UInt32} {stored : Option (Bytes rootLen)} (untouched : Untouched nvs calls world)
    (shown : ∀ root, stored = some root → nvs.Shows root.toList) :
    Survives Answers (Untouched nvs) calls world (rootRead flags handle stored)
      (fun _ _ result => Ended flags nvs result) := by
  cases stored with
  | some root =>
      refine closeHandle_survives untouched (untouched.read _ rfl) (fun _ => ⟨?_, ?_⟩)
      · exact fun _ => ⟨rfl, root, rfl, shown root rfl⟩
      · exact fun impossible => absurd rfl impossible
  | none =>
      refine closeHandle_survives untouched (untouched.read _ rfl) (fun _ => ⟨?_, ?_⟩)
      · exact fun good => absurd good (by simp [credErrRoot, credOk])
      · exact fun _ => ⟨rfl, rfl, rfl⟩

theorem rootLoad_survives (flags : Flags) (nvs : Nvs) (out : Bytes rootLen)
    (ready : flags.ready = true) (good : flags.failed = false) :
    Survives Answers (Untouched nvs) [] nvs (rootLoad flags (some out))
      (fun _ _ result => Ended flags nvs result) := by
  have start : Untouched nvs [] nvs := ⟨rfl, by simp⟩
  rw [rootLoad]
  simp only
  rw [if_neg (by simp [ready, good])]
  simp only [nvsOpen, nvsGetBlob, Program.perform_bind, survives_call]
  refine ⟨start, ?_⟩
  rintro ⟨openError, handle⟩ nvs₁ opened
  cases opened
  have one := start.read ⟨.nvsOpen false, (openError, handle)⟩ rfl
  simp only
  split
  · exact rootRead_survives one (fun _ impossible => by cases impossible)
  refine ⟨one, ?_⟩
  rintro ⟨getError, stored, len⟩ nvs₂ got
  have two := one.read ⟨.nvsGetBlob handle, (getError, stored, len)⟩ rfl
  simp only
  cases got with
  | found _ blob shown _ copied =>
      apply rootRead_survives two
      intro root whole
      split at whole
      · rename_i size
        cases whole
        rw [size.2, List.take_of_length_le (by rw [List.Vector.toList_length])] at copied
        rw [copied]
        exact shown
      · cases whole
  | notFound _ absent _ _ =>
      rw [if_neg (by simp [espErrNvsNotFound, espOk])]
      exact rootRead_survives two (fun _ impossible => by cases impossible)
  | getFailed _ _ bad other _ _ =>
      rw [if_neg (fun both => bad both.1)]
      exact rootRead_survives two (fun _ impossible => by cases impossible)

/-! Boots. -/

structure Safe (state : State) : Prop where
  calm : state.flags.failed = false → state.nvs.pending = none
  keeps : state.flags.ready = true → state.flags.failed = false ∧ state.nvs.Keeps

def Idle {α : Type} (program : Storage α) (value : α) : Prop := program = .done value

theorem Idle.ended {α : Type} {program : Storage α} {value result : α} {nvs last : Nvs}
    {calls : List (CallProgram.Event Reply)} (idle : Idle program value)
    (run : Execution program calls result) (answered : Runs.Run Answers nvs calls last) :
    calls = [] ∧ result = value ∧ last = nvs := by
  rw [idle] at run
  cases run
  exact ⟨rfl, rfl, answered.of_nil⟩

theorem Idle.cut {α : Type} {program : Storage α} {value result : α} {nvs last : Nvs}
    {calls rest : List (CallProgram.Event Reply)} (idle : Idle program value)
    (run : Execution program (calls ++ rest) result) (answered : Runs.Run Answers nvs calls last) :
    calls = [] ∧ last = nvs := by
  rw [idle] at run
  generalize whole : calls ++ rest = all at run
  cases run
  have nothing := (List.append_eq_nil_iff.mp whole).1
  rw [nothing] at answered
  exact ⟨nothing, answered.of_nil⟩

theorem credInit_failed {flags : Flags} (failed : flags.failed = true) :
    Idle (credInit flags) (credErrRoot, flags) := by
  rw [Idle, credInit, if_pos failed]
  rfl

theorem credInit_ready {flags : Flags} (good : flags.failed = false) (ready : flags.ready = true) :
    Idle (credInit flags) (credOk, flags) := by
  rw [Idle, credInit, if_neg (by simp [good]), if_pos ready]
  rfl

theorem rootLoad_null (flags : Flags) : Idle (rootLoad flags none) ⟨credErrArg, none, flags⟩ := rfl

theorem rootLoad_refused {flags : Flags} (out : Bytes rootLen)
    (refused : flags.ready = false ∨ flags.failed = true) :
    Idle (rootLoad flags (some out)) ⟨credErrRoot, some blankRoot, flags⟩ := by
  rw [Idle, rootLoad]
  simp only
  rw [if_pos (by simpa using refused)]
  rfl

def Event.calls : Event → List (CallProgram.Event Reply)
  | .initialised calls _ => calls
  | .loaded _ calls _ _ => calls
  | .rebooted calls => calls

theorem Settles.same {nvs next : Nvs} (settles : Settles nvs next) (calm : nvs.pending = none) :
    next = nvs := by
  cases settles with
  | lost => rw [← calm]
  | stored blob pending =>
      rw [calm] at pending
      cases pending

theorem Settles.calm {nvs next : Nvs} (settles : Settles nvs next) : next.pending = none := by
  cases settles with
  | lost => rfl
  | stored blob pending => rfl

section Operations

variable {state : State} {nvs : Nvs} {calls : List (CallProgram.Event Reply)}

theorem Safe.credInit_cut (safe : Safe state) {rest : List (CallProgram.Event Reply)}
    {result : Int × Flags} (run : Execution (credInit state.flags) (calls ++ rest) result)
    (answered : Runs.Run Answers state.nvs calls nvs) :
    Cautious state.nvs calls nvs := by
  by_cases failed : state.flags.failed = true
  · rcases (credInit_failed failed).cut run answered with ⟨rfl, rfl⟩
    exact .start _
  rw [Bool.not_eq_true] at failed
  by_cases ready : state.flags.ready = true
  · rcases (credInit_ready failed ready).cut run answered with ⟨rfl, rfl⟩
    exact .start _
  rw [Bool.not_eq_true] at ready
  have survives := credInit_survives state.flags state.nvs failed ready (safe.calm failed)
  exact survives.cut run answered

theorem rootLoad_cut (out : Option (Bytes rootLen)) {rest : List (CallProgram.Event Reply)}
    {result : Loaded} (run : Execution (rootLoad state.flags out) (calls ++ rest) result)
    (answered : Runs.Run Answers state.nvs calls nvs) : Untouched state.nvs calls nvs := by
  cases out with
  | none =>
      rcases (rootLoad_null state.flags).cut run answered with ⟨rfl, rfl⟩
      exact ⟨rfl, by simp⟩
  | some out =>
      by_cases refused : state.flags.ready = false ∨ state.flags.failed = true
      · rcases (rootLoad_refused out refused).cut run answered with ⟨rfl, rfl⟩
        exact ⟨rfl, by simp⟩
      · simp only [not_or, Bool.not_eq_false, Bool.not_eq_true] at refused
        exact (rootLoad_survives state.flags state.nvs out refused.1 refused.2).cut run answered

theorem Safe.credInit_ended (safe : Safe state) {code : Int} {flags : Flags}
    (run : Execution (credInit state.flags) calls (code, flags))
    (answered : Runs.Run Answers state.nvs calls nvs) :
    Safe ⟨nvs, flags⟩ ∧ (code = credOk → flags.ready = true) ∧
      (code ≠ credOk → code = credErrRoot ∧ flags.failed = true) ∧
      (state.flags.failed = true → code = credErrRoot ∧ calls = [] ∧ flags.failed = true) ∧
      (state.flags.ready = true → flags.ready = true) := by
  by_cases failed : state.flags.failed = true
  · rcases (credInit_failed failed).ended run answered with ⟨rfl, result, rfl⟩
    cases result
    refine ⟨safe, ?_, fun _ => ⟨rfl, failed⟩, fun _ => ⟨rfl, rfl, failed⟩, id⟩
    intro good
    exact absurd good (by decide)
  have good := failed
  rw [Bool.not_eq_true] at good
  by_cases ready : state.flags.ready = true
  · rcases (credInit_ready good ready).ended run answered with ⟨rfl, result, rfl⟩
    cases result
    exact ⟨safe, fun _ => ready, fun impossible => absurd rfl impossible,
      fun impossible => absurd impossible failed, id⟩
  have fresh := ready
  rw [Bool.not_eq_true] at fresh
  have ends := ((credInit_survives state.flags state.nvs good fresh (safe.calm good)).ended run
    answered).2
  refine ⟨?_, ?_, ?_, fun impossible => absurd impossible failed,
    fun impossible => absurd impossible ready⟩
  · by_cases done : code = credOk
    · rcases ends.ready done with ⟨same, keeps⟩
      simp only at same
      rw [same]
      exact ⟨fun _ => keeps.1, fun _ => ⟨good, keeps⟩⟩
    · rcases ends.failed done with ⟨-, same⟩
      simp only at same
      rw [same]
      refine ⟨?_, fun impossible => absurd impossible ready⟩
      intro impossible
      cases impossible
  · intro done
    have same := (ends.ready done).1
    simp only at same
    rw [same]
  · intro bad
    rcases ends.failed bad with ⟨root, same⟩
    simp only at same
    rw [same]
    exact ⟨root, rfl⟩

theorem Safe.rootLoad_ended (safe : Safe state) {out : Bytes rootLen} {result : Loaded}
    (run : Execution (rootLoad state.flags (some out)) calls result)
    (answered : Runs.Run Answers state.nvs calls nvs) :
    (result.code = credOk → result.flags = state.flags ∧ state.nvs.Keeps ∧
      ∃ root, result.root = some root ∧ state.nvs.durable = some root.toList) ∧
    (result.code ≠ credOk → result.code = credErrRoot ∧ result.root = some blankRoot ∧
      (result.flags = state.flags ∧ (state.flags.ready = false ∨ state.flags.failed = true) ∨
        result.flags = { ready := false, failed := true })) ∧
    (state.flags.failed = true → result.code = credErrRoot ∧ calls = []) := by
  by_cases refused : state.flags.ready = false ∨ state.flags.failed = true
  · rcases (rootLoad_refused out refused).ended run answered with ⟨rfl, rfl, rfl⟩
    refine ⟨?_, fun _ => ⟨rfl, rfl, Or.inl ⟨rfl, refused⟩⟩, fun _ => ⟨rfl, rfl⟩⟩
    intro good
    exact absurd good (by simp [credErrRoot, credOk])
  · simp only [not_or, Bool.not_eq_false, Bool.not_eq_true] at refused
    have ends := ((rootLoad_survives state.flags state.nvs out refused.1 refused.2).ended run
      answered).2
    have keeps := (safe.keeps refused.1).2
    refine ⟨?_, ?_, ?_⟩
    · intro good
      rcases ends.good good with ⟨same, root, stored, durable | pending⟩
      · exact ⟨same, keeps, root, stored, durable⟩
      · rw [keeps.1] at pending
        cases pending
    · intro bad
      rcases ends.bad bad with ⟨code, blank, flags⟩
      exact ⟨code, blank, Or.inr flags⟩
    · intro failed
      rw [failed] at refused
      cases refused.2

end Operations

theorem Step.safe {state next : State} {event : Event} (step : Step state event next)
    (safe : Safe state) : Safe next := by
  have booted : ∀ nvs : Nvs, nvs.pending = none → Safe ⟨nvs, {}⟩ := by
    intro nvs calm
    refine ⟨fun _ => calm, ?_⟩
    intro impossible
    cases impossible
  cases step with
  | initialised calls code flags nvs run answered => exact (safe.credInit_ended run answered).1
  | loaded out calls result nvs run answered =>
      have untouched := (rootLoad_cut out (by rw [List.append_nil]; exact run) answered).1
      subst untouched
      cases out with
      | none =>
          rcases (rootLoad_null state.flags).ended run answered with ⟨-, same, -⟩
          rw [same]
          exact safe
      | some out =>
          have ends := safe.rootLoad_ended run answered
          by_cases good : result.code = credOk
          · rw [(ends.1 good).1]
            exact safe
          · rcases (ends.2.1 good).2.2 with ⟨same, -⟩ | same
            · rw [same]
              exact safe
            · rw [same]
              refine ⟨?_, ?_⟩
              · intro impossible
                cases impossible
              · intro impossible
                cases impossible
  | rebooted nvs settles => exact booted _ settles.calm
  | initialisationCut calls rest result nvs next run answered settles => exact booted _ settles.calm
  | loadCut out calls rest result nvs next run answered settles => exact booted _ settles.calm

theorem History.safe {stored : Option (List UInt8)} {past : List Event} {state : State}
    (run : History stored past state) : Safe state := by
  refine Runs.Run.invariant run Safe ?_ (fun _ _ _ safe step => step.safe safe)
  refine ⟨fun _ => rfl, ?_⟩
  intro impossible
  cases impossible

end P4Key.Cred.Root
