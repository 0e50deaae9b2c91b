import Mathlib.Tactic

/-! Programs over functions they do not define.

A program either ends with a value or calls a function and continues with
whatever that function returned. An execution pairs every call with the reply
it got, so a statement about all executions is a statement about every
combination of replies. -/

namespace CallProgram

/-- A program whose calls are named by `Call`; the call `c` returns a `Reply c`. -/
inductive Program (Call : Type) (Reply : Call → Type) (α : Type) : Type where
  | done (value : α)
  | call (c : Call) (next : Reply c → Program Call Reply α)

/-- One call together with what it returned. -/
abbrev Event {Call : Type} (Reply : Call → Type) : Type := Sigma Reply

variable {Call : Type} {Reply : Call → Type} {α β γ : Type}

namespace Program

def bind : Program Call Reply α → (α → Program Call Reply β) → Program Call Reply β
  | .done value, rest => rest value
  | .call c next, rest => .call c (fun reply => (next reply).bind rest)

instance : Monad (Program Call Reply) where
  pure := .done
  bind := bind

def perform (c : Call) : Program Call Reply (Reply c) := .call c .done

@[simp] theorem pure_eq (value : α) : (pure value : Program Call Reply α) = .done value := rfl

@[simp] theorem call_bind (c : Call) (next : Reply c → Program Call Reply α)
    (rest : α → Program Call Reply β) :
    (Program.call c next >>= rest) = .call c (fun reply => next reply >>= rest) := rfl

@[simp] theorem perform_bind (c : Call) (rest : Reply c → Program Call Reply β) :
    (perform c >>= rest) = .call c rest := rfl

/-- Replaces every call by a program over other calls. -/
def interpret {Call' : Type} {Reply' : Call' → Type}
    (body : (c : Call) → Program Call' Reply' (Reply c)) :
    Program Call Reply α → Program Call' Reply' α
  | .done value => .done value
  | .call c next => (body c).bind (fun reply => (next reply).interpret body)

/-- The calls and replies when the function named `c` always returns `answer c`. -/
def trace (answer : (c : Call) → Reply c) : Program Call Reply α → List (Event Reply)
  | .done _ => []
  | .call c next => ⟨c, answer c⟩ :: (next (answer c)).trace answer

def value (answer : (c : Call) → Reply c) : Program Call Reply α → α
  | .done result => result
  | .call c next => (next (answer c)).value answer

/-- The value when the `n`th call `c` from `count` on is answered with `answer n c`. -/
def valueAt (answer : Nat → (c : Call) → Reply c) (count : Nat) : Program Call Reply α → α
  | .done result => result
  | .call c next => (next (answer count c)).valueAt answer (count + 1)

end Program

/-- `Execution program events value`: with exactly these replies the program ends in `value`. -/
inductive Execution : Program Call Reply α → List (Event Reply) → α → Prop where
  | done (value : α) : Execution (.done value) [] value
  | call {c : Call} {next : Reply c → Program Call Reply α} {reply : Reply c}
      {events : List (Event Reply)} {value : α} :
      Execution (next reply) events value →
      Execution (.call c next) (⟨c, reply⟩ :: events) value

/-- Every choice of fixed answers gives an execution, so no program gets stuck. -/
theorem execution_value (answer : (c : Call) → Reply c) (program : Program Call Reply α) :
    Execution program (program.trace answer) (program.value answer) := by
  induction program with
  | done value => exact .done value
  | call c next ih => exact .call (ih (answer c))

theorem execution_valueAt (answer : Nat → (c : Call) → Reply c) (count : Nat)
    (program : Program Call Reply α) :
    ∃ events, Execution program events (program.valueAt answer count) := by
  induction program generalizing count with
  | done value => exact ⟨[], .done value⟩
  | call c next ih =>
      obtain ⟨events, rest⟩ := ih (answer count c) (count + 1)
      exact ⟨⟨c, answer count c⟩ :: events, .call rest⟩

theorem trace_allowed {allowed : Event Reply → Prop} (answer : (c : Call) → Reply c)
    (legal : ∀ c, allowed ⟨c, answer c⟩) (program : Program Call Reply α) :
    ∀ event ∈ program.trace answer, allowed event := by
  induction program with
  | done value => simp [Program.trace]
  | call c next ih =>
      intro event member
      rcases List.mem_cons.mp member with rfl | member
      · exact legal c
      · exact ih (answer c) event member

theorem execution_bind {program : Program Call Reply α} {rest : α → Program Call Reply β}
    {events : List (Event Reply)} {result : β} (run : Execution (program >>= rest) events result) :
    ∃ before after value, events = before ++ after ∧ Execution program before value ∧
      Execution (rest value) after result := by
  induction program generalizing events with
  | done value => exact ⟨[], events, value, rfl, .done value, run⟩
  | call c next ih =>
      rw [Program.call_bind] at run
      cases run with
      | call tail =>
          obtain ⟨before, after, value, rfl, first, second⟩ := ih _ tail
          exact ⟨_ :: before, after, value, rfl, .call first, second⟩

/-- After `before`, every execution whose calls keep `rule` ends in `post`. What a call may return
can depend on the calls made before it. -/
def Meets (rule : List (Event Reply) → Event Reply → Prop) :
    List (Event Reply) → Program Call Reply α → (List (Event Reply) → α → Prop) → Prop
  | before, .done value, post => post before value
  | before, .call c next, post =>
      ∀ reply, rule before ⟨c, reply⟩ → Meets rule (before ++ [⟨c, reply⟩]) (next reply) post

section Sequencing

variable {rule : List (Event Reply) → Event Reply → Prop} {before : List (Event Reply)}

@[simp] theorem meets_done (value : α) (post : List (Event Reply) → α → Prop) :
    Meets rule before (.done value) post ↔ post before value := Iff.rfl

@[simp] theorem meets_call (c : Call) (next : Reply c → Program Call Reply α)
    (post : List (Event Reply) → α → Prop) :
    Meets rule before (.call c next) post ↔
      ∀ reply, rule before ⟨c, reply⟩ →
        Meets rule (before ++ [⟨c, reply⟩]) (next reply) post := Iff.rfl

/-- The rule of sequencing. -/
theorem meets_bind (program : Program Call Reply α) (rest : α → Program Call Reply β)
    (post : List (Event Reply) → β → Prop) :
    Meets rule before (program >>= rest) post ↔
      Meets rule before program (fun after value => Meets rule after (rest value) post) := by
  induction program generalizing before with
  | done value => rfl
  | call c next ih =>
      constructor
      · intro holds reply legal
        exact (ih reply).mp (holds reply legal)
      · intro holds reply legal
        exact (ih reply).mpr (holds reply legal)

/-- The rule of consequence. -/
theorem Meets.imp {program : Program Call Reply α} {first second : List (Event Reply) → α → Prop}
    (holds : Meets rule before program first)
    (weaker : ∀ events value, first events value → second events value) :
    Meets rule before program second := by
  induction program generalizing before with
  | done value => exact weaker _ _ holds
  | call c next ih => exact fun reply legal => ih reply (holds reply legal)

end Sequencing

/-- After `before`, every execution whose replies are all allowed ends in `post`, which sees
the whole list of calls made so far. -/
def Ensures (allowed : Event Reply → Prop) :
    List (Event Reply) → Program Call Reply α → (List (Event Reply) → α → Prop) → Prop
  | before, .done value, post => post before value
  | before, .call c next, post =>
      ∀ reply, allowed ⟨c, reply⟩ → Ensures allowed (before ++ [⟨c, reply⟩]) (next reply) post

section Rules

variable {allowed : Event Reply → Prop} {before : List (Event Reply)}

@[simp] theorem ensures_done (value : α) (post : List (Event Reply) → α → Prop) :
    Ensures allowed before (.done value) post ↔ post before value := Iff.rfl

@[simp] theorem ensures_call (c : Call) (next : Reply c → Program Call Reply α)
    (post : List (Event Reply) → α → Prop) :
    Ensures allowed before (.call c next) post ↔
      ∀ reply, allowed ⟨c, reply⟩ →
        Ensures allowed (before ++ [⟨c, reply⟩]) (next reply) post := Iff.rfl

theorem ensures_meets (program : Program Call Reply α) (post : List (Event Reply) → α → Prop) :
    Ensures allowed before program post ↔ Meets (fun _ event => allowed event) before program post := by
  induction program generalizing before with
  | done value => rfl
  | call c next ih =>
      rw [ensures_call, meets_call]
      simp only [ih]

theorem ensures_bind (program : Program Call Reply α) (rest : α → Program Call Reply β)
    (post : List (Event Reply) → β → Prop) :
    Ensures allowed before (program >>= rest) post ↔
      Ensures allowed before program (fun after value => Ensures allowed after (rest value) post) := by
  simp only [ensures_meets]
  exact meets_bind program rest post

theorem Ensures.imp {program : Program Call Reply α} {first second : List (Event Reply) → α → Prop}
    (holds : Ensures allowed before program first)
    (weaker : ∀ events value, first events value → second events value) :
    Ensures allowed before program second := by
  rw [ensures_meets] at holds ⊢
  exact holds.imp weaker

theorem ensures_true (program : Program Call Reply α) :
    Ensures allowed before program (fun _ _ => True) := by
  induction program generalizing before with
  | done value => trivial
  | call c next ih => exact fun reply _ => ih reply

theorem Ensures.strengthen {allowed' : Event Reply → Prop} {program : Program Call Reply α}
    {post : List (Event Reply) → α → Prop} (holds : Ensures allowed before program post)
    (fewer : ∀ event, allowed' event → allowed event) : Ensures allowed' before program post := by
  induction program generalizing before with
  | done value => exact holds
  | call c next ih => exact fun reply legal => ih reply (holds reply (fewer _ legal))

/-- Postconditions speak about exactly the executions. -/
theorem ensures_iff (program : Program Call Reply α) (post : List (Event Reply) → α → Prop) :
    Ensures allowed before program post ↔
      ∀ events value, Execution program events value → (∀ event ∈ events, allowed event) →
        post (before ++ events) value := by
  induction program generalizing before with
  | done value =>
      constructor
      · intro holds events result run _
        cases run
        simpa using holds
      · intro holds
        simpa using holds [] value (.done value) (by simp)
  | call c next ih =>
      constructor
      · intro holds events result run legal
        cases run with
        | call tail =>
            have rest := (ih _).mp (holds _ (legal _ List.mem_cons_self)) _ _ tail
              (fun event member => legal event (List.mem_cons_of_mem _ member))
            simpa using rest
      · intro holds reply legal
        refine (ih reply).mpr ?_
        intro events result run others
        have whole := holds (⟨c, reply⟩ :: events) result (.call run) (by
          intro event member
          rcases List.mem_cons.mp member with rfl | member
          · exact legal
          · exact others event member)
        simpa using whole

/-- Every execution from `before` on, whatever the replies are. -/
abbrev Ends (before : List (Event Reply)) (program : Program Call Reply α)
    (post : List (Event Reply) → α → Prop) : Prop :=
  Ensures (fun _ => True) before program post

theorem Ends.post {program : Program Call Reply α} {post : List (Event Reply) → α → Prop}
    (ends : Ends [] program post) {events : List (Event Reply)} {value : α}
    (run : Execution program events value) : post events value :=
  (ensures_iff program post).mp ends events value run fun _ _ => trivial

/-- What a program does does not depend on the calls before it. -/
theorem ensures_shift (program : Program Call Reply α) (post : List (Event Reply) → α → Prop) :
    Ensures allowed before program post ↔
      Ensures allowed [] program (fun events value => post (before ++ events) value) := by
  rw [ensures_iff, ensures_iff]
  simp only [List.nil_append]

/-- Calls answered within `allowed` may be replaced by programs that ensure those answers. -/
theorem ensures_interpret {Call' : Type} {Reply' : Call' → Type}
    {allowed' : Event Reply' → Prop} (body : (c : Call) → Program Call' Reply' (Reply c))
    (answers : ∀ c before, Ensures allowed' before (body c) (fun _ reply => allowed ⟨c, reply⟩))
    (program : Program Call Reply α) (post : α → Prop) (before' : List (Event Reply'))
    (holds : Ensures allowed before program (fun _ value => post value)) :
    Ensures allowed' before' (program.interpret body) (fun _ value => post value) := by
  induction program generalizing before before' with
  | done value => exact holds
  | call c next ih =>
      refine (ensures_bind (body c) _ _).mpr ((answers c before').imp ?_)
      intro events reply legal
      exact ih reply events (holds reply legal)

end Rules

/-! Safety of calls: a rule that every call keeps, given the calls before it. -/

def Guarded (rule : List (Event Reply) → Event Reply → Prop) (events : List (Event Reply)) : Prop :=
  ∀ before event after, events = before ++ event :: after → rule before event

@[simp] theorem guarded_nil (rule : List (Event Reply) → Event Reply → Prop) : Guarded rule [] := by
  intro before event after split
  simp at split

theorem guarded_append (rule : List (Event Reply) → Event Reply → Prop)
    (first second : List (Event Reply)) :
    Guarded rule (first ++ second) ↔
      Guarded rule first ∧ Guarded (fun before => rule (first ++ before)) second := by
  constructor
  · intro guarded
    constructor
    · rintro before event after rfl
      exact guarded before event (after ++ second) (by simp)
    · rintro before event after rfl
      exact guarded (first ++ before) event after (by simp)
  · rintro ⟨left, right⟩ before event after split
    rcases List.append_eq_append_iff.mp split with ⟨middle, rfl, rest⟩ | ⟨middle, rfl, rest⟩
    · exact right middle event after rest
    · cases middle with
      | nil =>
          simp only [List.nil_append] at rest
          have := right [] event after rest.symm
          simpa using this
      | cons head middle =>
          simp only [List.cons_append, List.cons.injEq] at rest
          obtain ⟨rfl, -⟩ := rest
          exact left before event middle rfl

@[simp] theorem guarded_cons (rule : List (Event Reply) → Event Reply → Prop) (event : Event Reply)
    (events : List (Event Reply)) :
    Guarded rule (event :: events) ↔
      rule [] event ∧ Guarded (fun before => rule (event :: before)) events := by
  have one : Guarded rule [event] ↔ rule [] event := by
    constructor
    · intro guarded
      exact guarded [] event [] rfl
    · intro holds before other after split
      rcases List.cons_eq_append_iff.mp split with ⟨rfl, rest⟩ | ⟨tail, rfl, rest⟩
      · cases rest
        exact holds
      · simp at rest
  have whole := guarded_append rule [event] events
  rw [one] at whole
  exact whole

theorem guarded_of_forall (rule : List (Event Reply) → Event Reply → Prop)
    (events : List (Event Reply)) (holds : ∀ before, ∀ event ∈ events, rule before event) :
    Guarded rule events := by
  rintro before event after rfl
  exact holds before event (by simp)

section History

variable {rule : List (Event Reply) → Event Reply → Prop} {before : List (Event Reply)}

theorem Meets.execution {program : Program Call Reply α} {post : List (Event Reply) → α → Prop}
    {events : List (Event Reply)} {value : α} (holds : Meets rule before program post)
    (run : Execution program events value)
    (kept : Guarded (fun done => rule (before ++ done)) events) : post (before ++ events) value := by
  induction run generalizing before with
  | done value => simpa using holds
  | @call c next reply events value _ ih =>
      rw [guarded_cons] at kept
      have legal : rule before ⟨c, reply⟩ := by simpa using kept.1
      have rest := @ih (before ++ [⟨c, reply⟩]) (holds reply legal) (by simpa using kept.2)
      simpa using rest

theorem execution_exists (live : ∀ done c, ∃ reply, rule done ⟨c, reply⟩)
    (program : Program Call Reply α) :
    ∃ events value, Execution program events value ∧
      Guarded (fun done => rule (before ++ done)) events := by
  induction program generalizing before with
  | done value => exact ⟨[], value, .done value, guarded_nil _⟩
  | call c next ih =>
      obtain ⟨reply, legal⟩ := live before c
      obtain ⟨events, value, run, kept⟩ := @ih reply (before ++ [⟨c, reply⟩])
      refine ⟨⟨c, reply⟩ :: events, value, .call run, ?_⟩
      rw [guarded_cons]
      exact ⟨by simpa using legal, by simpa using kept⟩

end History

/-! Two executions side by side. -/

/-- As long as two executions make the same calls, `same` relates the replies. -/
inductive Aligned (same : (c : Call) → Reply c → Reply c → Prop) :
    List (Event Reply) → List (Event Reply) → Prop where
  | stopLeft (second : List (Event Reply)) : Aligned same [] second
  | stopRight (first : List (Event Reply)) : Aligned same first []
  | apart {c c' : Call} (reply : Reply c) (reply' : Reply c') (first second : List (Event Reply)) :
      c ≠ c' → Aligned same (⟨c, reply⟩ :: first) (⟨c', reply'⟩ :: second)
  | step {c : Call} {reply reply' : Reply c} {first second : List (Event Reply)} :
      same c reply reply' → Aligned same first second →
      Aligned same (⟨c, reply⟩ :: first) (⟨c, reply'⟩ :: second)

theorem Aligned.cons {same : (c : Call) → Reply c → Reply c → Prop} {c : Call}
    {reply reply' : Reply c} {first second : List (Event Reply)}
    (aligned : Aligned same (⟨c, reply⟩ :: first) (⟨c, reply'⟩ :: second)) :
    same c reply reply' ∧ Aligned same first second := by
  cases aligned with
  | apart _ _ _ _ differ => exact absurd rfl differ
  | step agree rest => exact ⟨agree, rest⟩

theorem Aligned.drop {same : (c : Call) → Reply c → Reply c → Prop}
    {first second rest rest' : List (Event Reply)}
    (calls : first.map Sigma.fst = second.map Sigma.fst)
    (aligned : Aligned same (first ++ rest) (second ++ rest')) : Aligned same rest rest' := by
  induction first generalizing second with
  | nil =>
      have empty : second = [] := List.map_eq_nil_iff.mp calls.symm
      subst empty
      exact aligned
  | cons event first ih =>
      cases second with
      | nil => cases calls
      | cons other second =>
          obtain ⟨c, reply⟩ := event
          obtain ⟨c', reply'⟩ := other
          simp only [List.map_cons, List.cons.injEq] at calls
          obtain ⟨rfl, calls⟩ := calls
          exact ih calls aligned.cons.2

theorem aligned_trace {same : (c : Call) → Reply c → Reply c → Prop}
    (answer answer' : (c : Call) → Reply c) (agree : ∀ c, same c (answer c) (answer' c))
    (program program' : Program Call Reply α) :
    Aligned same (program.trace answer) (program'.trace answer') := by
  induction program generalizing program' with
  | done value => exact .stopLeft _
  | call c next ih =>
      cases program' with
      | done value => exact .stopRight _
      | call c' next' =>
          by_cases equal : c = c'
          · subst equal
            exact .step (agree c) (ih _ _)
          · exact .apart _ _ _ _ equal

end CallProgram
