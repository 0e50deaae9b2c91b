import P4Key.Library.CallProgram
import P4Key.Library.Runs

/-! Programs whose calls act on a world, and that may be cut off between two calls.

The world answers a call by a relation, so it may fail wherever it likes. A
specification has two parts: what holds when the program ends, and what holds
whenever the power may go. -/

namespace CallProgram

variable {Call : Type} {Reply : Call → Type} {World α β : Type}

/-- Run against the world, the program ends in `post`, and `crash` holds at every moment. Both see
the calls made so far. -/
def Survives (answers : World → Event Reply → World → Prop) (crash : List (Event Reply) → World → Prop) :
    List (Event Reply) → World → Program Call Reply α →
      (List (Event Reply) → World → α → Prop) → Prop
  | before, world, .done value, post => crash before world ∧ post before world value
  | before, world, .call c next, post =>
      crash before world ∧ ∀ reply after, answers world ⟨c, reply⟩ after →
        Survives answers crash (before ++ [⟨c, reply⟩]) after (next reply) post

section Rules

variable {answers : World → Event Reply → World → Prop} {crash : List (Event Reply) → World → Prop}
  {before : List (Event Reply)} {world : World}

@[simp] theorem survives_call (c : Call) (next : Reply c → Program Call Reply α)
    (post : List (Event Reply) → World → α → Prop) :
    Survives answers crash before world (.call c next) post ↔
      crash before world ∧ ∀ reply after, answers world ⟨c, reply⟩ after →
        Survives answers crash (before ++ [⟨c, reply⟩]) after (next reply) post := Iff.rfl

theorem Survives.now {program : Program Call Reply α} {post : List (Event Reply) → World → α → Prop}
    (survives : Survives answers crash before world program post) : crash before world := by
  cases program with
  | done value => exact survives.1
  | call c next => exact survives.1

theorem Survives.cut {program : Program Call Reply α} {post : List (Event Reply) → World → α → Prop}
    (survives : Survives answers crash before world program post) {calls rest : List (Event Reply)}
    {value : α} {last : World} (run : Execution program (calls ++ rest) value)
    (answered : Runs.Run answers world calls last) : crash (before ++ calls) last := by
  induction calls generalizing before world program with
  | nil =>
      rw [answered.of_nil, List.append_nil]
      exact survives.now
  | cons call calls ih =>
      rw [List.cons_append] at run
      cases run with
      | call tail =>
          rcases answered.first_step with ⟨after, answer, others⟩
          have whole := ih (survives.2 _ after answer) tail others
          rw [List.append_assoc] at whole
          exact whole

theorem Survives.ended {program : Program Call Reply α}
    {post : List (Event Reply) → World → α → Prop}
    (survives : Survives answers crash before world program post) {calls : List (Event Reply)}
    {value : α} {last : World} (run : Execution program calls value)
    (answered : Runs.Run answers world calls last) :
    crash (before ++ calls) last ∧ post (before ++ calls) last value := by
  induction calls generalizing before world program with
  | nil =>
      rw [answered.of_nil, List.append_nil]
      cases run with
      | done => exact survives
  | cons call calls ih =>
      cases run with
      | call tail =>
          rcases answered.first_step with ⟨after, answer, others⟩
          have whole := ih (survives.2 _ after answer) tail others
          rw [List.append_assoc] at whole
          exact whole

end Rules

end CallProgram
