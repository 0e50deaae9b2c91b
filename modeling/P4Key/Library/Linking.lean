import P4Key.Library.CallProgram
import Mathlib.Data.List.Induction

/-! Programs linked with the code behind their calls, and programs that run call by call.

`interpret` replaces the calls of a program by programs. What a linked program does falls into
one segment for each call of the program that was linked, so a rule on the calls is a rule on the
segments. -/

namespace CallProgram

variable {Call Call' Call'' : Type} {Reply : Call → Type} {Reply' : Call' → Type}
variable {Reply'' : Call'' → Type} {α β : Type}

namespace Program

@[simp] theorem bind_done (program : Program Call Reply α) : program.bind .done = program := by
  induction program with
  | done value => rfl
  | call c next ih =>
      rw [bind]
      congr
      funext reply
      exact ih reply

@[simp] theorem interpret_perform (body : (c : Call) → Program Call' Reply' (Reply c)) (c : Call) :
    (perform c).interpret body = body c := bind_done (body c)

theorem bind_assoc {γ : Type} (program : Program Call Reply α) (middle : α → Program Call Reply β)
    (last : β → Program Call Reply γ) :
    (program.bind middle).bind last = program.bind fun value => (middle value).bind last := by
  induction program with
  | done value => rfl
  | call c next ih =>
      simp only [bind]
      congr
      funext reply
      exact ih reply

theorem interpret_bind (body : (c : Call) → Program Call' Reply' (Reply c))
    (program : Program Call Reply α) (rest : α → Program Call Reply β) :
    (program >>= rest).interpret body =
      program.interpret body >>= fun value => (rest value).interpret body := by
  induction program with
  | done value => rfl
  | call c next ih =>
      rw [call_bind, interpret, interpret]
      change _ = ((body c).bind _).bind _
      rw [bind_assoc]
      congr
      funext reply
      exact ih reply

theorem interpret_interpret (body : (c : Call) → Program Call' Reply' (Reply c))
    (body' : (c : Call') → Program Call'' Reply'' (Reply' c)) (program : Program Call Reply α) :
    (program.interpret body).interpret body' =
      program.interpret fun c => (body c).interpret body' := by
  induction program with
  | done value => rfl
  | call c next ih =>
      have split := interpret_bind body' (body c) fun reply => (next reply).interpret body
      simp only [ih] at split
      exact split

end Program

theorem execution_append {program : Program Call Reply α} {rest : α → Program Call Reply β}
    {before after : List (Event Reply)} {value : α} {result : β}
    (first : Execution program before value) (second : Execution (rest value) after result) :
    Execution (program >>= rest) (before ++ after) result := by
  induction first with
  | done value => exact second
  | call tail ih => exact .call (ih second)

theorem execution_perform {c : Call} {rest : Reply c → Program Call Reply α}
    {events : List (Event Reply)} {value : α}
    (run : Execution (Program.perform c >>= rest) events value) :
    ∃ reply later, events = ⟨c, reply⟩ :: later ∧ Execution (rest reply) later value := by
  rw [Program.perform_bind] at run
  cases run with
  | call tail => exact ⟨_, _, rfl, tail⟩

/-! The segments of a linked program. -/

/-- `Expansion body calls events`: the events are one execution of a body for each of the calls,
in this order. -/
inductive Expansion (body : (c : Call) → Program Call' Reply' (Reply c)) :
    List (Event Reply) → List (Event Reply') → Prop where
  | nil : Expansion body [] []
  | cons {c : Call} {reply : Reply c} {segment events : List (Event Reply')}
      {calls : List (Event Reply)} (run : Execution (body c) segment reply)
      (rest : Expansion body calls events) :
      Expansion body (⟨c, reply⟩ :: calls) (segment ++ events)

section Segments

variable {body : (c : Call) → Program Call' Reply' (Reply c)}

theorem execution_interpret {program : Program Call Reply α} {events : List (Event Reply')}
    {value : α} (run : Execution (program.interpret body) events value) :
    ∃ calls, Execution program calls value ∧ Expansion body calls events := by
  induction program generalizing events with
  | done result =>
      cases run
      exact ⟨[], .done _, .nil⟩
  | call c next ih =>
      obtain ⟨segment, rest, reply, rfl, first, second⟩ := execution_bind run
      obtain ⟨calls, tail, expansion⟩ := ih reply second
      exact ⟨⟨c, reply⟩ :: calls, .call tail, .cons first expansion⟩

/-- A linked program can do whatever its parts can do. -/
theorem Expansion.execution {program : Program Call Reply α} {calls : List (Event Reply)}
    {events : List (Event Reply')} {value : α} (expansion : Expansion body calls events)
    (run : Execution program calls value) : Execution (program.interpret body) events value := by
  induction run generalizing events with
  | done value =>
      cases expansion
      exact .done value
  | call tail ih =>
      cases expansion with
      | cons segment rest => exact execution_append segment (ih rest)

theorem expansion_exists {allowed : Event Reply' → Prop} {calls : List (Event Reply)}
    (each : ∀ event ∈ calls, ∃ segment, Execution (body event.1) segment event.2 ∧
      ∀ inner ∈ segment, allowed inner) :
    ∃ events, Expansion body calls events ∧ ∀ inner ∈ events, allowed inner := by
  induction calls with
  | nil => exact ⟨[], .nil, by simp⟩
  | cons event calls ih =>
      obtain ⟨first, rest⟩ := List.forall_mem_cons.mp each
      obtain ⟨segment, run, legal⟩ := first
      obtain ⟨events, expansion, others⟩ := ih rest
      exact ⟨segment ++ events, .cons run expansion, List.forall_mem_append.mpr ⟨legal, others⟩⟩

theorem Expansion.at_event {calls : List (Event Reply)} {before after : List (Event Reply')}
    {event : Event Reply'} (expansion : Expansion body calls (before ++ event :: after)) :
    ∃ front c reply back done first second, calls = front ++ ⟨c, reply⟩ :: back ∧
      Expansion body front done ∧ before = done ++ first ∧
      Execution (body c) (first ++ event :: second) reply := by
  generalize whole : before ++ event :: after = events at expansion
  induction expansion generalizing before with
  | nil => simp at whole
  | @cons c reply segment events calls run rest ih =>
      rcases List.append_eq_append_iff.mp whole.symm with ⟨between, rfl, split⟩ | ⟨between, same, split⟩
      · -- the event is behind this segment
        obtain ⟨front, c', reply', back, done, first, second, rfl, earlier, rfl, here⟩ := ih split.symm
        exact ⟨⟨c, reply⟩ :: front, c', reply', back, segment ++ done, first, second, rfl,
          .cons run earlier, by simp, here⟩
      · cases between with
        | nil =>
            rw [List.nil_append] at split
            rw [List.append_nil] at same
            obtain ⟨front, c', reply', back, done, first, second, rfl, earlier, none, inside⟩ :=
              @ih [] split
            refine ⟨⟨c, reply⟩ :: front, c', reply', back, segment ++ done, first, second, rfl,
              .cons run earlier, ?_, inside⟩
            rw [List.append_assoc, ← none, same, List.append_nil]
        | cons head between =>
            rw [List.cons_append, List.cons.injEq] at split
            rw [← split.1] at same
            rw [same] at run
            exact ⟨[], c, reply, calls, [], before, between, rfl, .nil, rfl, run⟩

theorem Expansion.split {first second : List (Event Reply)} {events : List (Event Reply')}
    (expansion : Expansion body (first ++ second) events) :
    ∃ before after, events = before ++ after ∧ Expansion body first before ∧
      Expansion body second after := by
  induction first generalizing events with
  | nil => exact ⟨[], events, rfl, .nil, expansion⟩
  | cons event first ih =>
      cases expansion with
      | cons run rest =>
          obtain ⟨before, after, rfl, front, back⟩ := ih rest
          exact ⟨_, after, (List.append_assoc _ _ _).symm, .cons run front, back⟩

theorem Expansion.of_mem {calls : List (Event Reply)} {events : List (Event Reply')} {c : Call}
    {reply : Reply c} (expansion : Expansion body calls events)
    (made : (⟨c, reply⟩ : Event Reply) ∈ calls) :
    ∃ before segment after, events = before ++ segment ++ after ∧
      Execution (body c) segment reply := by
  induction expansion with
  | nil => cases made
  | @cons c' reply' segment events calls run rest ih =>
      rcases List.mem_cons.mp made with same | later
      · cases same
        exact ⟨[], segment, events, rfl, run⟩
      · obtain ⟨before, found, after, rfl, here⟩ := ih later
        exact ⟨segment ++ before, found, after, by simp, here⟩

theorem Expansion.eq_map {calls : List (Event Reply)} {events : List (Event Reply')}
    (expansion : Expansion body calls events) (event : Event Reply → Event Reply')
    (one : ∀ (c : Call) (segment : List (Event Reply')) (reply : Reply c),
      Execution (body c) segment reply → segment = [event ⟨c, reply⟩]) :
    events = calls.map event := by
  induction expansion with
  | nil => rfl
  | cons run rest ih =>
      rw [one _ _ _ run, ih]
      rfl

end Segments

/-! A program as a thread of a larger system. -/

/-- After these calls and replies `rest` is left of the program. -/
inductive Progress (program : Program Call Reply α) :
    List (Event Reply) → Program Call Reply α → Prop where
  | start : Progress program [] program
  | step {events : List (Event Reply)} {c : Call} {next : Reply c → Program Call Reply α}
      (earlier : Progress program events (.call c next)) (reply : Reply c) :
      Progress program (events ++ [⟨c, reply⟩]) (next reply)

section Threads

variable {program rest : Program Call Reply α} {events : List (Event Reply)}

theorem Progress.execution (progress : Progress program events rest) {later : List (Event Reply)}
    {value : α} (run : Execution rest later value) : Execution program (events ++ later) value := by
  induction progress generalizing later with
  | start => exact run
  | step earlier reply ih =>
      have whole := ih (.call run)
      rw [List.append_assoc]
      exact whole

theorem progress_of_execution {later : List (Event Reply)} {value : α}
    (run : Execution program (events ++ later) value) :
    ∃ rest, Progress program events rest ∧ Execution rest later value := by
  induction events using List.reverseRecOn generalizing later with
  | nil => exact ⟨program, .start, run⟩
  | append_singleton events event ih =>
      rw [List.append_assoc] at run
      obtain ⟨rest, progress, tail⟩ := ih run
      cases tail with
      | call tail => exact ⟨_, progress.step _, tail⟩

theorem Progress.before {later : List (Event Reply)} {event : Event Reply}
    (progress : Progress program (events ++ event :: later) rest) :
    ∃ next, Progress program events (.call event.1 next) := by
  generalize whole : events ++ event :: later = all at progress
  induction progress generalizing later with
  | start => simp at whole
  | @step earlier c next first reply ih =>
      cases later using List.reverseRecOn with
      | nil =>
          obtain ⟨rfl, same⟩ := List.append_inj' whole rfl
          cases same
          exact ⟨next, first⟩
      | append_singleton later last =>
          rw [← List.cons_append, ← List.append_assoc] at whole
          exact ih (List.append_inj' whole rfl).1

/-- What holds of every execution holds of a call at the moment a thread is about to make it. -/
theorem Progress.call {c : Call} {next : Reply c → Program Call Reply α}
    (progress : Progress program events (.call c next)) (answer : (c : Call) → Reply c) :
    ∃ later value, Execution program (events ++ ⟨c, answer c⟩ :: later) value :=
  ⟨_, _, progress.execution (.call (execution_value answer (next (answer c))))⟩

end Threads

end CallProgram
