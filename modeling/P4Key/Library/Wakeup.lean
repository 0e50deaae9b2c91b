import P4Key.Library.Runs

/-! Waiting for something with a binary semaphore.

Who looks, finds nothing and waits takes the semaphore to look again. Who makes
something appear leaves its region first and gives the semaphore behind it, so
there is a time in which the semaphore does not say what is there. -/

namespace Wakeup

variable {State Event : Type*}

/-- A system with one task that waits. -/
structure Protocol (State Event : Type*) where
  Step : State → Event → State → Prop
  Good : State → Prop
  waits : State → Bool
  ready : State → Prop
  /-- Whoever makes this step gives the semaphore behind it. -/
  signals : Event → Bool
  /-- The step needs the semaphore, and takes it. -/
  wakes : Event → Bool
  /-- The step takes the semaphore if it is given. -/
  drains : Event → Bool
  keep : ∀ {state event next}, Step state event next → Good state → Good next
  /-- Who begins to wait has found nothing. -/
  begins : ∀ {state event next}, Step state event next → Good state → waits state = false →
    waits next = true → ¬ ready next
  /-- What appears is signalled. -/
  appears : ∀ {state event next}, Step state event next → Good state → ¬ ready state → ready next →
    signals event = true
  /-- Nobody but the task that waits takes the semaphore, and it waits no longer then. -/
  leaves : ∀ {state event next}, Step state event next → wakes event || drains event →
    waits next = false

structure Signalled (State : Type*) where
  inner : State
  given : Bool := false
  /-- How many tasks have left their region and will give the semaphore. -/
  giving : Nat := 0

variable (protocol : Protocol State Event)

inductive Step : Signalled State → Option Event → Signalled State → Prop where
  | move {state : Signalled State} {event : Event} {next : State}
      (step : protocol.Step state.inner event next)
      (woken : protocol.wakes event = true → state.given = true) :
      Step state (some event)
        { inner := next
          given := state.given && !(protocol.wakes event || protocol.drains event)
          giving := state.giving + (protocol.signals event).toNat }
  | give {state : Signalled State} (somebody : 0 < state.giving) :
      Step state none { state with given := true, giving := state.giving - 1 }

abbrev Run (start : State) : List (Option Event) → Signalled State → Prop :=
  Runs.Run (Step protocol) { inner := start }

variable {protocol}

/-- Who waits while something is there will be woken. -/
structure Attended (protocol : Protocol State Event) (state : Signalled State) : Prop where
  good : protocol.Good state.inner
  attended : protocol.waits state.inner = true → protocol.ready state.inner →
    state.given = true ∨ 0 < state.giving

theorem Step.attended {state next : Signalled State} {event : Option Event}
    (step : Step protocol state event next) (before : Attended protocol state) :
    Attended protocol next := by
  cases step with
  | give somebody => exact ⟨before.good, fun _ _ => Or.inl rfl⟩
  | @move event next step woken =>
      refine ⟨protocol.keep step before.good, ?_⟩
      intro asleep there
      cases taken : protocol.wakes event || protocol.drains event with
      | true =>
          rw [protocol.leaves step taken] at asleep
          cases asleep
      | false =>
          cases earlier : protocol.waits state.inner with
          | false => exact absurd there (protocol.begins step before.good earlier asleep)
          | true =>
              simp only [Bool.not_false, Bool.and_true]
              by_cases was : protocol.ready state.inner
              · rcases before.attended earlier was with given | giving
                · exact Or.inl given
                · exact Or.inr (Nat.add_pos_left giving _)
              · have signalled := protocol.appears step before.good was there
                rw [signalled]
                exact Or.inr (Nat.succ_pos _)

theorem Run.attended {start : State} {past : List (Option Event)} {state : Signalled State}
    (run : Run protocol start past state) (good : protocol.Good start)
    (awake : protocol.waits start = false) : Attended protocol state := by
  apply Runs.Run.invariant run (Attended protocol)
  · refine ⟨good, ?_⟩
    intro asleep
    rw [awake] at asleep
    cases asleep
  · intro state event next before step
    exact step.attended before

/-- A run that leaves the semaphore alone, before anybody has given it. -/
theorem Run.lift {start last : State} {events : List Event}
    (run : Runs.Run protocol.Step start events last)
    (calm : ∀ event ∈ events, protocol.wakes event = false ∧ protocol.drains event = false) :
    Run protocol start (events.map some)
      { inner := last, giving := events.countP protocol.signals } := by
  induction run with
  | nil => exact .nil
  | @snoc events state next event run step ih =>
      have last := calm event (by simp)
      have before := ih fun earlier member => calm earlier (List.mem_append_left _ member)
      have moved : Step protocol { inner := state, giving := events.countP protocol.signals }
          (some event) _ := .move step (fun wakes => by rw [last.1] at wakes; cases wakes)
      have count : (events ++ [event]).countP protocol.signals =
          events.countP protocol.signals + (protocol.signals event).toNat := by
        rw [List.countP_append, List.countP_singleton]
        cases protocol.signals event <;> rfl
      rw [List.map_append, count]
      exact before.snoc moved

end Wakeup
