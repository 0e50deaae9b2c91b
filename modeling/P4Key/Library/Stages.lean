import P4Key.Library.Linking

/-! Programs that run stage by stage until one fails.

Each stage has calls of its own. What a run of the stages did is then read off its calls: a stage
passed if its own calls say so, and a call is made only when every stage before its own has passed. -/

namespace CallProgram

variable {Call : Type} {Reply : Call → Type} {State : Type}

/-- A stage works on the state, and says whether the next one may follow. -/
abbrev Stage (Call : Type) (Reply : Call → Type) (State : Type) : Type :=
  State → Program Call Reply (Bool × State)

theorem bind_bind {α β γ : Type} (program : Program Call Reply α) (middle : α → Program Call Reply β)
    (last : β → Program Call Reply γ) :
    program >>= middle >>= last = program >>= fun value => middle value >>= last :=
  Program.bind_assoc program middle last

def inOrder : List (Stage Call Reply State) → Stage Call Reply State
  | [], state => pure (true, state)
  | stage :: stages, state => stage state >>= fun out =>
      if out.1 then inOrder stages out.2 else pure (false, out.2)

def checked {Code : Type} (ok : Code → Bool) (run : State → Program Call Reply (Code × State)) :
    Stage Call Reply State :=
  fun state => run state >>= fun out => pure (ok out.1, out.2)

theorem inOrder_checked {Code : Type} (ok : Code → Bool)
    (run : State → Program Call Reply (Code × State)) (stages : List (Stage Call Reply State))
    (state : State) :
    inOrder (checked ok run :: stages) state =
      run state >>= fun out => if ok out.1 then inOrder stages out.2 else pure (false, out.2) :=
  bind_bind _ _ _

theorem checked_run {Code : Type} {ok : Code → Bool}
    {run : State → Program Call Reply (Code × State)} {state : State} {events : List (Event Reply)}
    {out : Bool × State} (execution : Execution (checked ok run state) events out) :
    ∃ code last, Execution (run state) events (code, last) ∧ out = (ok code, last) := by
  rcases execution_bind execution with ⟨before, after, ⟨code, last⟩, rfl, here, ended⟩
  cases ended
  rw [List.append_nil]
  exact ⟨code, last, here, rfl⟩

theorem bind_checked {Code : Type} {ok : Code → Bool}
    {run : State → Program Call Reply (Code × State)} {stages : List (Stage Call Reply State)}
    {rest : Code × State → Program Call Reply (Bool × State)} (state : State)
    (pass : ∀ out, ok out.1 = true → rest out = inOrder stages out.2)
    (fail : ∀ out, ok out.1 = false → rest out = pure (false, out.2)) :
    run state >>= rest = inOrder (checked ok run :: stages) state := by
  rw [inOrder_checked]
  refine congrArg (run state >>= ·) (funext fun out => ?_)
  cases good : ok out.1 with
  | false => exact fail out good
  | true => exact pass out good

/-- The stages ran from the first state to the last, and every one passed. -/
inductive Passed : List (Stage Call Reply State) → State → List (Event Reply) → State → Prop where
  | nil {state : State} : Passed [] state [] state
  | cons {stage : Stage Call Reply State} {stages : List (Stage Call Reply State)}
      {state middle last : State} {segment events : List (Event Reply)}
      (first : Execution (stage state) segment (true, middle))
      (rest : Passed stages middle events last) :
      Passed (stage :: stages) state (segment ++ events) last

theorem Passed.split {front back : List (Stage Call Reply State)} {state last : State}
    {events : List (Event Reply)} (passed : Passed (front ++ back) state events last) :
    ∃ before after middle, events = before ++ after ∧ Passed front state before middle ∧
      Passed back middle after last := by
  induction front generalizing state events with
  | nil => exact ⟨[], events, state, rfl, .nil, passed⟩
  | cons stage front ih =>
      cases passed with
      | cons first rest =>
          rcases ih rest with ⟨before, after, middle, rfl, earlier, later⟩
          exact ⟨_ ++ before, after, middle, (List.append_assoc _ _ _).symm, .cons first earlier, later⟩

theorem inOrder_cons {stage : Stage Call Reply State} {stages : List (Stage Call Reply State)}
    {state : State} {events : List (Event Reply)} {out : Bool × State}
    (run : Execution (inOrder (stage :: stages) state) events out) :
    (Execution (stage state) events (false, out.2) ∧ out.1 = false) ∨
    ∃ segment later middle, events = segment ++ later ∧
      Execution (stage state) segment (true, middle) ∧ Execution (inOrder stages middle) later out := by
  rcases execution_bind run with ⟨segment, later, ⟨passed, middle⟩, rfl, first, rest⟩
  cases passed with
  | false =>
      cases rest
      rw [List.append_nil]
      exact Or.inl ⟨first, rfl⟩
  | true => exact Or.inr ⟨segment, later, middle, rfl, first, rest⟩

/-- Either every stage passed, or one failed behind others that passed. -/
theorem inOrder_cases {stages : List (Stage Call Reply State)} {state : State}
    {events : List (Event Reply)} {out : Bool × State}
    (run : Execution (inOrder stages state) events out) :
    (out.1 = true ∧ Passed stages state events out.2) ∨
    (out.1 = false ∧ ∃ front stage back before segment middle, stages = front ++ stage :: back ∧
      events = before ++ segment ∧ Passed front state before middle ∧
      Execution (stage middle) segment (false, out.2)) := by
  induction stages generalizing state events with
  | nil =>
      cases run
      exact Or.inl ⟨rfl, .nil⟩
  | cons stage stages ih =>
      rcases inOrder_cons run with ⟨failed, ended⟩ | ⟨segment, later, middle, rfl, first, rest⟩
      · exact Or.inr ⟨ended, [], stage, stages, [], events, state, rfl, rfl, .nil, failed⟩
      · rcases ih rest with ⟨all, passed⟩ | ⟨ended, front, failing, back, before, tail, here, split,
          calls, passed, failed⟩
        · exact Or.inl ⟨all, .cons first passed⟩
        · rw [split, calls, ← List.append_assoc]
          exact Or.inr ⟨ended, stage :: front, failing, back, segment ++ before, tail, here, rfl,
            rfl, .cons first passed, failed⟩

theorem event_in_append {before after segment later : List (Event Reply)} {event : Event Reply}
    (split : before ++ event :: after = segment ++ later) :
    (∃ behind, before = segment ++ behind ∧ later = behind ++ event :: after) ∨
    ∃ inside, segment = before ++ event :: inside ∧ after = inside ++ later := by
  rcases List.append_eq_append_iff.mp split with ⟨between, whole, tail⟩ | ⟨behind, front, tail⟩
  · cases between with
    | nil => exact Or.inl ⟨[], by simpa using whole.symm, by simpa using tail.symm⟩
    | cons head inside =>
        rw [List.cons_append, List.cons.injEq] at tail
        exact Or.inr ⟨inside, by rw [whole, tail.1], tail.2⟩
  · exact Or.inl ⟨behind, front, tail⟩

theorem inOrder_call {stages : List (Stage Call Reply State)} {state : State}
    {before after : List (Event Reply)} {event : Event Reply} {out : Bool × State}
    (run : Execution (inOrder stages state) (before ++ event :: after) out) :
    ∃ front stage back done first second middle last, stages = front ++ stage :: back ∧
      before = done ++ first ∧ Passed front state done middle ∧
      Execution (stage middle) (first ++ event :: second) last := by
  induction stages generalizing state before with
  | nil =>
      generalize whole : before ++ event :: after = events at run
      cases run
      simp at whole
  | cons stage stages ih =>
      rcases inOrder_cons run with ⟨failed, -⟩ | ⟨segment, later, middle, split, first, rest⟩
      · exact ⟨[], stage, stages, [], before, after, state, _, rfl, rfl, .nil, failed⟩
      · rcases event_in_append split with ⟨behind, rfl, tail⟩ | ⟨inside, tail, -⟩
        · rw [tail] at rest
          rcases ih rest with ⟨front, here, back, done, first', second, middle', last, split',
            calls, passed, made⟩
          rw [split', calls, ← List.append_assoc]
          exact ⟨stage :: front, here, back, segment ++ done, first', second, middle', last, rfl,
            rfl, .cons first passed, made⟩
        · rw [tail] at first
          exact ⟨[], stage, stages, [], before, inside, state, _, rfl, rfl, .nil, first⟩

/-! Stages with names and calls of their own. -/

/-- `Fresh name state` says that the stage has not run, `Succeeded name` when it passed. -/
structure Plan (Name Call : Type) (Reply : Call → Type) (State : Type) where
  body : Name → Stage Call Reply State
  owner : Call → Name
  Fresh : Name → State → Prop
  Succeeded : Name → List (Event Reply) → Prop
  own : ∀ {name : Name} {state : State} {events : List (Event Reply)} {out : Bool × State},
    Execution (body name state) events out → ∀ event ∈ events, owner event.1 = name
  passed : ∀ {name : Name} {state : State} {events : List (Event Reply)} {out : Bool × State},
    Execution (body name state) events out → Fresh name state →
      (out.1 = true ↔ Succeeded name events)
  keeps : ∀ {name other : Name} {state : State} {events : List (Event Reply)} {out : Bool × State},
    Execution (body name state) events out → other ≠ name → Fresh other state → Fresh other out.2

namespace Plan

variable {Name : Type} [DecidableEq Name] (plan : Plan Name Call Reply State)

def callsOf (name : Name) (events : List (Event Reply)) : List (Event Reply) :=
  events.filter fun event => plan.owner event.1 = name

def Done (name : Name) (events : List (Event Reply)) : Prop :=
  plan.Succeeded name (plan.callsOf name events)

theorem callsOf_append (name : Name) (first second : List (Event Reply)) :
    plan.callsOf name (first ++ second) = plan.callsOf name first ++ plan.callsOf name second :=
  List.filter_append _ _

theorem callsOf_own {name : Name} {state : State} {events : List (Event Reply)} {out : Bool × State}
    (run : Execution (plan.body name state) events out) : plan.callsOf name events = events :=
  List.filter_eq_self.mpr fun event member => decide_eq_true (plan.own run event member)

theorem callsOf_none {name : Name} {events : List (Event Reply)}
    (others : ∀ event ∈ events, plan.owner event.1 ≠ name) : plan.callsOf name events = [] :=
  List.filter_eq_nil_iff.mpr fun event member mine =>
    others event member (of_decide_eq_true mine)

theorem done_append_left {name : Name} {events : List (Event Reply)} (later : List (Event Reply))
    (others : ∀ event ∈ events, plan.owner event.1 ≠ name) :
    plan.Done name (events ++ later) ↔ plan.Done name later := by
  rw [Done, callsOf_append, plan.callsOf_none others, List.nil_append, Done]

theorem done_append_right {name : Name} {later : List (Event Reply)} (events : List (Event Reply))
    (others : ∀ event ∈ later, plan.owner event.1 ≠ name) :
    plan.Done name (events ++ later) ↔ plan.Done name events := by
  rw [Done, callsOf_append, plan.callsOf_none others, List.append_nil, Done]

theorem done_own {name : Name} {state : State} {events : List (Event Reply)} {out : Bool × State}
    (run : Execution (plan.body name state) events out) (fresh : plan.Fresh name state) :
    plan.Done name events ↔ out.1 = true := by
  rw [Done, plan.callsOf_own run]
  exact (plan.passed run fresh).symm

structure AllPassed (names : List Name) (state : State) (events : List (Event Reply))
    (last : State) : Prop where
  within : ∀ event ∈ events, plan.owner event.1 ∈ names
  all : ∀ name ∈ names, plan.Done name events
  others : ∀ name ∉ names, plan.Fresh name state → plan.Fresh name last

variable {names : List Name} {state : State}

theorem allPassed (distinct : names.Nodup) (fresh : ∀ name ∈ names, plan.Fresh name state)
    {events : List (Event Reply)} {last : State}
    (passed : Passed (names.map plan.body) state events last) :
    plan.AllPassed names state events last := by
  induction names generalizing state events with
  | nil =>
      cases passed
      exact ⟨by simp, by simp, fun _ _ fresh => fresh⟩
  | cons name names ih =>
      rw [List.nodup_cons] at distinct
      cases passed with
      | @cons _ _ _ middle _ segment later first rest =>
          have kept : ∀ other ∈ names, plan.Fresh other middle := by
            intro other member
            have apart : other ≠ name := fun same => distinct.1 (same ▸ member)
            exact plan.keeps first apart (fresh other (List.mem_cons_of_mem _ member))
          have behind := ih distinct.2 kept rest
          have mine := plan.own first
          refine ⟨?_, ?_, ?_⟩
          · intro event member
            rcases List.mem_append.mp member with here | there
            · exact List.mem_cons.mpr (Or.inl (mine event here))
            · exact List.mem_cons_of_mem _ (behind.within event there)
          · intro other member
            rcases List.mem_cons.mp member with rfl | inside
            · rw [plan.done_append_right]
              · exact (plan.done_own first (fresh other List.mem_cons_self)).mpr rfl
              · intro event there same
                exact distinct.1 (same ▸ behind.within event there)
            · rw [plan.done_append_left]
              · exact behind.all other inside
              · intro event here same
                exact distinct.1 (mine event here ▸ same ▸ inside)
          · intro other outside old
            rw [List.mem_cons, not_or] at outside
            exact behind.others other outside.2 (plan.keeps first outside.1 old)

/-- What a stage makes true when it passes, and the others keep, is true when all have passed. -/
theorem achieved (Achieved : Name → List (Event Reply) → State → Prop)
    (make : ∀ {name state events last}, Execution (plan.body name state) events (true, last) →
      plan.Fresh name state → Achieved name events last)
    (keep : ∀ {name other mine state events last}, Execution (plan.body name state) events (true, last) →
      other ≠ name → Achieved other mine state → Achieved other mine last)
    (distinct : names.Nodup) (fresh : ∀ name ∈ names, plan.Fresh name state)
    {events : List (Event Reply)} {last : State}
    (passed : Passed (names.map plan.body) state events last) :
    (∀ name ∈ names, Achieved name (plan.callsOf name events) last) ∧
      ∀ other ∉ names, ∀ mine, Achieved other mine state → Achieved other mine last := by
  induction names generalizing state events with
  | nil =>
      cases passed
      exact ⟨by simp, fun _ _ _ old => old⟩
  | cons name names ih =>
      rw [List.nodup_cons] at distinct
      cases passed with
      | @cons _ _ _ middle _ segment later first rest =>
          have kept : ∀ other ∈ names, plan.Fresh other middle := by
            intro other member
            have apart : other ≠ name := fun same => distinct.1 (same ▸ member)
            exact plan.keeps first apart (fresh other (List.mem_cons_of_mem _ member))
          rcases ih distinct.2 kept rest with ⟨behind, others⟩
          have within := (plan.allPassed distinct.2 kept rest).within
          constructor
          · intro other member
            rw [callsOf_append]
            rcases List.mem_cons.mp member with rfl | inside
            · have none : plan.callsOf other later = [] :=
                plan.callsOf_none fun event there same => distinct.1 (same ▸ within event there)
              rw [plan.callsOf_own first, none, List.append_nil]
              exact others other distinct.1 segment (make first (fresh other List.mem_cons_self))
            · have none : plan.callsOf other segment = [] :=
                plan.callsOf_none fun event here same =>
                  distinct.1 (plan.own first event here ▸ same ▸ inside)
              rw [none, List.nil_append]
              exact behind other inside
          · intro other outside mine old
            rw [List.mem_cons, not_or] at outside
            exact others other outside.2 mine (keep first outside.1 old)

/-- A call belongs to a stage of the plan. Every stage before that one is done, and no stage behind
it has made a call. -/
theorem called (distinct : names.Nodup) (fresh : ∀ name ∈ names, plan.Fresh name state)
    {before after : List (Event Reply)} {event : Event Reply} {out : Bool × State}
    (run : Execution (inOrder (names.map plan.body) state) (before ++ event :: after) out) :
    ∃ front back, names = front ++ plan.owner event.1 :: back ∧
      (∀ name ∈ front, plan.Done name before) ∧
      ∀ earlier ∈ before, plan.owner earlier.1 ∈ front ∨ plan.owner earlier.1 = plan.owner event.1 := by
  rcases inOrder_call run with ⟨stages, stage, rest, done, first, second, middle, last, split, rfl,
    passed, made⟩
  rcases List.map_eq_append_iff.mp split with ⟨front, tail, rfl, rfl, same⟩
  rcases List.map_eq_cons_iff.mp same with ⟨name, back, rfl, rfl, -⟩
  have mine := plan.own made
  have here : plan.owner event.1 = name := mine event (by simp)
  rw [List.nodup_append] at distinct
  have earlier := plan.allPassed distinct.1
    (fun name member => fresh name (List.mem_append_left _ member)) passed
  refine ⟨front, back, by rw [here], ?_, ?_⟩
  · intro other member
    rw [plan.done_append_right]
    · exact earlier.all other member
    · intro event inside same
      have owned := mine event (List.mem_append_left _ inside)
      exact distinct.2.2 other member name List.mem_cons_self (same.symm.trans owned)
  · intro call member
    rcases List.mem_append.mp member with past | present
    · exact Or.inl (earlier.within call past)
    · exact Or.inr ((mine call (List.mem_append_left _ present)).trans here.symm)

/-- The plan is carried out to its end just if every stage is done. -/
theorem completed (distinct : names.Nodup) (fresh : ∀ name ∈ names, plan.Fresh name state)
    {events : List (Event Reply)} {out : Bool × State}
    (run : Execution (inOrder (names.map plan.body) state) events out) :
    out.1 = true ↔ ∀ name ∈ names, plan.Done name events := by
  rcases inOrder_cases run with ⟨good, passed⟩ | ⟨bad, stages, stage, rest, before, segment, middle,
    split, rfl, passed, failed⟩
  · exact iff_of_true good (plan.allPassed distinct fresh passed).all
  · refine iff_of_false (by simp [bad]) fun all => ?_
    rcases List.map_eq_append_iff.mp split with ⟨front, tail, rfl, rfl, same⟩
    rcases List.map_eq_cons_iff.mp same with ⟨name, back, rfl, rfl, -⟩
    rw [List.nodup_append] at distinct
    have outside : name ∉ front := fun member =>
      distinct.2.2 name member name List.mem_cons_self rfl
    have earlier := plan.allPassed distinct.1
      (fun name member => fresh name (List.mem_append_left _ member)) passed
    have still := earlier.others name outside (fresh name (by simp))
    have done := all name (by simp)
    rw [plan.done_append_left] at done
    · have impossible := (plan.done_own failed still).mp done
      cases impossible
    · intro event member same
      exact outside (same ▸ earlier.within event member)

end Plan

end CallProgram
