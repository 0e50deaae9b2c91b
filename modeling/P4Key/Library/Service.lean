import P4Key.Library.CallProgram
import P4Key.Library.Runs

/-! Programs and the services that answer their calls.

A service has a state, and its steps say how it may answer a call. Programs that implement the
calls of one service over another carry what holds of the programs over the first to the
second. -/

namespace CallProgram

variable {Call Call' : Type} {Reply : Call → Type} {Reply' : Call' → Type}
variable {State State' α β : Type}

/-- Every run of the program with the service ends in `post`. -/
def Serves (step : State → Event Reply → State → Prop) :
    State → Program Call Reply α → (State → α → Prop) → Prop
  | state, .done value, post => post state value
  | state, .call c next, post =>
      ∀ reply after, step state ⟨c, reply⟩ after → Serves step after (next reply) post

section Rules

variable {step : State → Event Reply → State → Prop} {state : State}

@[simp] theorem serves_done (value : α) (post : State → α → Prop) :
    Serves step state (.done value) post ↔ post state value := Iff.rfl

@[simp] theorem serves_pure (value : α) (post : State → α → Prop) :
    Serves step state (pure value) post ↔ post state value := Iff.rfl

@[simp] theorem serves_call (c : Call) (next : Reply c → Program Call Reply α)
    (post : State → α → Prop) :
    Serves step state (.call c next) post ↔
      ∀ reply after, step state ⟨c, reply⟩ after → Serves step after (next reply) post := Iff.rfl

theorem serves_perform {c : Call} {rest : Reply c → Program Call Reply α} {post : State → α → Prop}
    (each : ∀ reply after, step state ⟨c, reply⟩ after → Serves step after (rest reply) post) :
    Serves step state (Program.perform c >>= rest) post := each

/-- The rule of consequence. -/
theorem Serves.imp {program : Program Call Reply α} {first second : State → α → Prop}
    (holds : Serves step state program first)
    (weaker : ∀ after value, first after value → second after value) :
    Serves step state program second := by
  induction program generalizing state with
  | done value => exact weaker state value holds
  | call c next ih =>
      intro reply after answered
      exact ih reply (holds reply after answered)

/-- The rule of sequencing. -/
theorem Serves.bind {program : Program Call Reply α} {rest : α → Program Call Reply β}
    {middle : State → α → Prop} {post : State → β → Prop}
    (first : Serves step state program middle)
    (second : ∀ after value, middle after value → Serves step after (rest value) post) :
    Serves step state (program >>= rest) post := by
  induction program generalizing state with
  | done value => exact second state value first
  | call c next ih =>
      intro reply after answered
      exact ih reply (first reply after answered)

theorem Serves.restrict {step' : State → Event Reply → State → Prop} {program : Program Call Reply α}
    {post : State → α → Prop} (holds : Serves step state program post)
    (fewer : ∀ before event after, step' before event after → step before event after) :
    Serves step' state program post := by
  induction program generalizing state with
  | done value => exact holds
  | call c next ih =>
      intro reply after answered
      exact ih reply (holds reply after (fewer state ⟨c, reply⟩ after answered))

theorem Serves.and {program : Program Call Reply α} {first second : State → α → Prop}
    (one : Serves step state program first) (two : Serves step state program second) :
    Serves step state program fun after value => first after value ∧ second after value := by
  induction program generalizing state with
  | done value => exact ⟨one, two⟩
  | call c next ih =>
      intro reply after answered
      exact ih reply (one reply after answered) (two reply after answered)

theorem Ensures.and {allowed : Event Reply → Prop} {before : List (Event Reply)}
    {program : Program Call Reply α} {first second : List (Event Reply) → α → Prop}
    (one : Ensures allowed before program first) (two : Ensures allowed before program second) :
    Ensures allowed before program fun events value => first events value ∧ second events value := by
  induction program generalizing before with
  | done value => exact ⟨one, two⟩
  | call c next ih =>
      intro reply legal
      exact ih reply (one reply legal) (two reply legal)

/-- What is served holds of every execution whose calls are a run of the service. -/
theorem Serves.execution {program : Program Call Reply α} {post : State → α → Prop}
    (holds : Serves step state program post) {events : List (Event Reply)} {value : α} {last : State}
    (run : Execution program events value) (answered : Runs.Run step state events last) :
    post last value := by
  induction run generalizing state with
  | done value =>
      rw [answered.of_nil]
      exact holds
  | call tail ih =>
      rcases answered.first_step with ⟨after, first, rest⟩
      exact ih (holds _ after first) rest

/-- A service that answers each call in a state like the last one serves every program to its end. -/
theorem Serves.ends {Alive : State → Prop}
    (answers : ∀ c before, Alive before →
      ∃ reply after, step before ⟨c, reply⟩ after ∧ Alive after)
    {program : Program Call Reply α} {post : State → α → Prop} (alive : Alive state)
    (holds : Serves step state program post) :
    ∃ events value last, Execution program events value ∧ Runs.Run step state events last ∧
      post last value := by
  induction program generalizing state with
  | done value => exact ⟨[], value, state, .done value, .nil, holds⟩
  | call c next ih =>
      rcases answers c state alive with ⟨reply, after, answered, alive'⟩
      rcases ih reply alive' (holds reply after answered) with ⟨events, value, last, run, rest, result⟩
      have first : Runs.Run step state [⟨c, reply⟩] after := Runs.Run.snoc .nil answered
      exact ⟨⟨c, reply⟩ :: events, value, last, .call run, first.append rest, result⟩

end Rules

section Implementation

variable {step : State → Event Reply → State → Prop} {step' : State' → Event Reply' → State' → Prop}
variable {body : (c : Call) → Program Call' Reply' (Reply c)}

/-- A service that is implemented over another one. -/
theorem Serves.interpret {Related : State → State' → Prop}
    (each : ∀ c state state', Related state state' → Serves step' state' (body c) fun after' reply =>
      ∃ after, step state ⟨c, reply⟩ after ∧ Related after after')
    {program : Program Call Reply α} {post : State → α → Prop} {state : State} {state' : State'}
    (holds : Serves step state program post) (related : Related state state') :
    Serves step' state' (program.interpret body) fun after' value =>
      ∃ after, Related after after' ∧ post after value := by
  induction program generalizing state state' with
  | done value => exact ⟨state, related, holds⟩
  | call c next ih =>
      refine (each c state state' related).bind ?_
      rintro after' reply ⟨after, answered, related'⟩
      exact ih reply (holds reply after answered) related'

theorem Ensures.served {allowed : Event Reply → Prop} {Good : State' → Prop}
    (each : ∀ c state, Good state → Serves step' state (body c) fun after reply =>
      Good after ∧ allowed ⟨c, reply⟩)
    {program : Program Call Reply α} {post : α → Prop} {before : List (Event Reply)}
    (holds : Ensures allowed before program fun _ value => post value) {state : State'}
    (good : Good state) :
    Serves step' state (program.interpret body) fun after value => Good after ∧ post value := by
  induction program generalizing before state with
  | done value => exact ⟨good, holds⟩
  | call c next ih =>
      refine (each c state good).bind ?_
      intro after reply kept
      exact ih reply (holds reply kept.2) kept.1

end Implementation

end CallProgram
