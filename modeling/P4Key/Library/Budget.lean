import P4Key.Library.Linking

/-! Budgets of programs.

A call spends what it costs; one that costs less than nothing earns. A program that is solvent from
a budget is never overdrawn, so no part of any execution has spent more than that budget. -/

namespace CallProgram

variable {Call : Type} {Reply : Call → Type} {α β : Type}

/-- From `budget` on the program is never overdrawn, and ends with `left` or more. -/
def Solvent (cost : Call → ℤ) : ℤ → Program Call Reply α → ℤ → Prop
  | budget, .done _, left => 0 ≤ budget ∧ left ≤ budget
  | budget, .call c next, left => 0 ≤ budget ∧ ∀ reply, Solvent cost (budget - cost c) (next reply) left

def spent (cost : Call → ℤ) (events : List (Event Reply)) : ℤ :=
  (events.map fun event => cost event.1).sum

@[simp] theorem spent_nil (cost : Call → ℤ) : spent cost ([] : List (Event Reply)) = 0 := rfl

@[simp] theorem spent_cons (cost : Call → ℤ) (event : Event Reply) (events : List (Event Reply)) :
    spent cost (event :: events) = cost event.1 + spent cost events := List.sum_cons

@[simp] theorem spent_append (cost : Call → ℤ) (first second : List (Event Reply)) :
    spent cost (first ++ second) = spent cost first + spent cost second := by
  rw [spent, List.map_append, List.sum_append, spent, spent]

section Rules

variable {cost : Call → ℤ} {budget left : ℤ}

@[simp] theorem solvent_done (value : α) :
    Solvent cost budget (.done value : Program Call Reply α) left ↔ 0 ≤ budget ∧ left ≤ budget :=
  Iff.rfl

@[simp] theorem solvent_call (c : Call) (next : Reply c → Program Call Reply α) :
    Solvent cost budget (.call c next) left ↔
      0 ≤ budget ∧ ∀ reply, Solvent cost (budget - cost c) (next reply) left := Iff.rfl

theorem Solvent.shift {program : Program Call Reply α} (solvent : Solvent cost budget program left)
    {more : ℤ} (gain : 0 ≤ more) : Solvent cost (budget + more) program (left + more) := by
  induction program generalizing budget with
  | done value => exact ⟨by linarith [solvent.1], by linarith [solvent.2]⟩
  | call c next ih =>
      refine ⟨by linarith [solvent.1], fun reply => ?_⟩
      have rest := ih reply (solvent.2 reply)
      rwa [show budget - cost c + more = budget + more - cost c by ring] at rest

theorem Solvent.left_mono {program : Program Call Reply α} {less : ℤ}
    (solvent : Solvent cost budget program left) (fewer : less ≤ left) :
    Solvent cost budget program less := by
  induction program generalizing budget with
  | done value => exact ⟨solvent.1, fewer.trans solvent.2⟩
  | call c next ih => exact ⟨solvent.1, fun reply => ih reply (solvent.2 reply)⟩

theorem Solvent.mono {program : Program Call Reply α} {more less : ℤ}
    (solvent : Solvent cost budget program left) (richer : budget ≤ more) (fewer : less ≤ left) :
    Solvent cost more program less := by
  have shifted := solvent.shift (sub_nonneg.mpr richer)
  rw [add_sub_cancel] at shifted
  exact shifted.left_mono (by linarith)

/-- The rule of sequencing. -/
theorem Solvent.bind {program : Program Call Reply α} {rest : α → Program Call Reply β} {middle : ℤ}
    (first : Solvent cost budget program middle)
    (second : ∀ value, Solvent cost middle (rest value) left) :
    Solvent cost budget (program >>= rest) left := by
  induction program generalizing budget with
  | done value => exact (second value).mono first.2 le_rfl
  | call c next ih => exact ⟨first.1, fun reply => ih reply (first.2 reply)⟩

theorem solvent_free (free : ∀ c, cost c = 0) (program : Program Call Reply α) (rich : 0 ≤ budget) :
    Solvent cost budget program budget := by
  induction program with
  | done value => exact ⟨rich, le_rfl⟩
  | call c next ih =>
      refine ⟨rich, fun reply => ?_⟩
      rw [free c, sub_zero]
      exact ih reply

theorem Solvent.nonneg {program : Program Call Reply α} (solvent : Solvent cost budget program left) :
    0 ≤ budget := by
  cases program with
  | done value => exact solvent.1
  | call c next => exact solvent.1

theorem solvent_pure (value : α) (rich : 0 ≤ budget) :
    Solvent cost budget (pure value : Program Call Reply α) budget := ⟨rich, le_rfl⟩

theorem solvent_perform {c : Call} {rest : Reply c → Program Call Reply α} (free : cost c = 0)
    (rich : 0 ≤ budget) (next : ∀ reply, Solvent cost budget (rest reply) left) :
    Solvent cost budget (Program.perform c >>= rest) left := by
  refine ⟨rich, fun reply => ?_⟩
  rw [free, sub_zero]
  exact next reply

/-- A linked program is solvent if the body of each call gets by on what the call costs. -/
theorem Solvent.interpret [∀ c, Nonempty (Reply c)] {Call' : Type} {Reply' : Call' → Type}
    {cost' : Call' → ℤ} {body : (c : Call) → Program Call' Reply' (Reply c)}
    {program : Program Call Reply α} (each : ∀ c, Solvent cost' (cost c) (body c) 0)
    (solvent : Solvent cost budget program left) :
    Solvent cost' budget (program.interpret body) left := by
  induction program generalizing budget with
  | done value => exact solvent
  | call c next ih =>
      have reply : Reply c := Classical.choice inferInstance
      have affordable : 0 ≤ budget - cost c := (solvent.2 reply).nonneg
      have paid := (each c).shift affordable
      rw [add_sub_cancel, zero_add] at paid
      exact paid.bind fun reply => ih reply (solvent.2 reply)

theorem Solvent.rename {Call' : Type} {Reply' : Call' → Type} {cost' : Call' → ℤ}
    {body : (c : Call) → Program Call' Reply' (Reply c)} {program : Program Call Reply α}
    (name : Call → Call')
    (one : ∀ c, ∃ next : Reply' (name c) → Reply c, body c = .call (name c) fun reply => .done (next reply))
    (same : ∀ c, cost' (name c) = cost c) (solvent : Solvent cost budget program left) :
    Solvent cost' budget (program.interpret body) left := by
  induction program generalizing budget with
  | done value => exact solvent
  | call c next ih =>
      rcases one c with ⟨back, shape⟩
      rw [Program.interpret, shape]
      refine ⟨solvent.1, fun reply => ?_⟩
      rw [same c]
      exact ih (back reply) (solvent.2 (back reply))

theorem Solvent.progress {program rest : Program Call Reply α} {events : List (Event Reply)}
    (solvent : Solvent cost budget program left) (progress : Progress program events rest) :
    Solvent cost (budget - spent cost events) rest left := by
  induction progress with
  | start => simpa using solvent
  | step earlier reply ih =>
      have rest := ih.2 reply
      rw [spent_append, spent_cons, spent_nil, add_zero, ← sub_sub]
      exact rest

theorem Solvent.spent_le {program rest : Program Call Reply α} {events : List (Event Reply)}
    (solvent : Solvent cost budget program left) (progress : Progress program events rest) :
    spent cost events ≤ budget := by
  have still := (solvent.progress progress).nonneg
  linarith

end Rules

end CallProgram
