import Mathlib.Data.List.Induction

/-! Runs of a labelled step relation, and the rules that prove something about all of them. -/

namespace Runs

variable {State Event : Type*} {Step : State → Event → State → Prop}

/-- The events lead in this order from `start` to the state. -/
inductive Run (Step : State → Event → State → Prop) (start : State) : List Event → State → Prop where
  | nil : Run Step start [] start
  | snoc {events : List Event} {state next : State} {event : Event}
      (run : Run Step start events state) (step : Step state event next) :
      Run Step start (events ++ [event]) next

namespace Run

/-- What holds at the start and is kept by every step holds at the end. -/
theorem invariant {start last : State} {events : List Event} (run : Run Step start events last)
    (Invariant : State → Prop) (base : Invariant start)
    (keep : ∀ state event next, Invariant state → Step state event next → Invariant next) :
    Invariant last := by
  induction run with
  | nil => exact base
  | snoc run step ih => exact keep _ _ _ ih step

theorem invariant_along {start last : State} {events : List Event} (run : Run Step start events last)
    (Allowed : Event → Prop) (Invariant : State → Prop) (all : ∀ event ∈ events, Allowed event)
    (base : Invariant start)
    (keep : ∀ state event next, Allowed event → Invariant state → Step state event next →
      Invariant next) : Invariant last := by
  induction run with
  | nil => exact base
  | snoc run step ih =>
      have before := ih fun event member => all event (List.mem_append_left _ member)
      exact keep _ _ _ (all _ (List.mem_append_right _ (List.mem_singleton.mpr rfl))) before step

/-- The rule for a relation between the past and the state. -/
theorem history {start last : State} {events : List Event} (run : Run Step start events last)
    (Relation : List Event → State → Prop) (base : Relation [] start)
    (extend : ∀ past state event next, Run Step start past state → Relation past state →
      Step state event next → Relation (past ++ [event]) next) :
    Relation events last := by
  induction run with
  | nil => exact base
  | snoc run step ih => exact extend _ _ _ _ run ih step

/-- A counter that a step moves by at most one. -/
theorem counted {start last : State} {events : List Event} (run : Run Step start events last)
    (counter : State → Nat) (moves : Event → Bool)
    (move : ∀ state event next, Step state event next →
      counter next = counter state + (moves event).toNat) :
    counter last = counter start + events.countP moves := by
  induction run with
  | nil => rfl
  | @snoc events state next event run step ih =>
      rw [move _ _ _ step, ih, List.countP_append, List.countP_singleton]
      cases moves event <;> simp [Nat.add_assoc]

/-- The counter stays below a bound on the events among which those that move it are. -/
theorem counted_lt {start last : State} {events : List Event} (run : Run Step start events last)
    (counter : State → Nat) (moves : Event → Bool)
    (move : ∀ state event next, Step state event next →
      counter next = counter state + (moves event).toNat)
    (zero : counter start = 0) {others : Event → Bool}
    (among : ∀ event, moves event = true → others event = true) {bound : Nat}
    (fewer : events.countP others < bound) : counter last < bound :=
  calc counter last
    _ = events.countP moves := by rw [run.counted counter moves move, zero, Nat.zero_add]
    _ ≤ events.countP others := List.countP_mono_left fun event _ moved => among event moved
    _ < bound := fewer

theorem last_step {start last : State} {past : List Event} {event : Event}
    (run : Run Step start (past ++ [event]) last) :
    ∃ state, Run Step start past state ∧ Step state event last := by
  generalize whole : past ++ [event] = events at run
  cases run with
  | nil => simp at whole
  | snoc before step =>
      rcases List.append_inj' whole rfl with ⟨same, final⟩
      subst same
      cases final
      exact ⟨_, before, step⟩

theorem append {start middle last : State} {front back : List Event}
    (first : Run Step start front middle) (second : Run Step middle back last) :
    Run Step start (front ++ back) last := by
  induction second with
  | nil => simpa using first
  | snoc run step ih =>
      rw [← List.append_assoc]
      exact ih.snoc step

/-- Steps that another relation simulates make a run of that relation. -/
theorem map {Other : Type*} {Step' : Other → Event → Other → Prop} {start last : State}
    {events : List Event} (place : State → Other)
    (simulates : ∀ state event next, Step state event next → Step' (place state) event (place next))
    (run : Run Step start events last) : Run Step' (place start) events (place last) := by
  induction run with
  | nil => exact .nil
  | snoc run step ih => exact ih.snoc (simulates _ _ _ step)

/-- Two systems have the same runs if each step of the first shows one of the second and each
step of the second is shown by one of the first. -/
theorem shown_iff {Other : Type*} {Step' : Other → Event → Other → Prop} {start : State}
    (place : State → Other) (Good : State → Prop) (base : Good start)
    (keep : ∀ state event next, Good state → Step state event next → Good next)
    (forth : ∀ state event next, Good state → Step state event next →
      Step' (place state) event (place next))
    (back : ∀ state event after, Good state → Step' (place state) event after →
      ∃ next, Step state event next ∧ place next = after)
    (events : List Event) (after : Other) :
    Run Step' (place start) events after ↔ ∃ last, Run Step start events last ∧ place last = after := by
  constructor
  · intro run
    induction run with
    | nil => exact ⟨start, .nil, rfl⟩
    | snoc run step ih =>
        obtain ⟨state, before, rfl⟩ := ih
        obtain ⟨next, move, same⟩ := back _ _ _ (before.invariant Good base keep) step
        exact ⟨next, before.snoc move, same⟩
  · rintro ⟨last, run, rfl⟩
    induction run with
    | nil => exact .nil
    | snoc run step ih => exact ih.snoc (forth _ _ _ (run.invariant Good base keep) step)

theorem split {start last : State} (front back : List Event)
    (run : Run Step start (front ++ back) last) :
    ∃ middle, Run Step start front middle ∧ Run Step middle back last := by
  induction back using List.reverseRecOn generalizing last with
  | nil =>
      rw [List.append_nil] at run
      exact ⟨last, run, .nil⟩
  | append_singleton back event ih =>
      rw [← List.append_assoc] at run
      rcases run.last_step with ⟨state, before, step⟩
      rcases ih before with ⟨middle, first, second⟩
      exact ⟨middle, first, second.snoc step⟩

theorem of_nil {start last : State} (run : Run Step start [] last) : last = start := by
  generalize empty : ([] : List Event) = events at run
  cases run with
  | nil => rfl
  | snoc before step => simp at empty

theorem at_event {start last : State} {before after : List Event} {event : Event}
    (run : Run Step start (before ++ event :: after) last) :
    ∃ state next, Run Step start before state ∧ Step state event next ∧
      Run Step next after last := by
  rw [List.append_cons] at run
  rcases run.split (before ++ [event]) after with ⟨next, first, second⟩
  rcases first.last_step with ⟨state, past, step⟩
  exact ⟨state, next, past, step, second⟩

theorem first_step {start last : State} {event : Event} {after : List Event}
    (run : Run Step start (event :: after) last) :
    ∃ next, Step start event next ∧ Run Step next after last := by
  have whole : Run Step start ([] ++ event :: after) last := run
  rcases whole.at_event with ⟨state, next, none, step, rest⟩
  rw [none.of_nil] at step
  exact ⟨next, step, rest⟩

end Run

/-- Of two places in a list one is before the other, or they are the same. -/
theorem append_cons_cases {front back front' back' : List Event} {event event' : Event}
    (same : front ++ event :: back = front' ++ event' :: back') :
    (∃ middle, front' = front ++ event :: middle ∧ back = middle ++ event' :: back') ∨
    (front = front' ∧ event = event' ∧ back = back') ∨
    (∃ middle, front = front' ++ event' :: middle ∧ back' = middle ++ event :: back) := by
  rcases List.append_eq_append_iff.mp same with ⟨between, rfl, split⟩ | ⟨between, rfl, split⟩
  · cases between with
    | nil =>
        rw [List.nil_append, List.cons.injEq] at split
        exact Or.inr (Or.inl ⟨(List.append_nil _).symm, split⟩)
    | cons head between =>
        rw [List.cons_append, List.cons.injEq] at split
        rw [← split.1]
        exact Or.inl ⟨between, rfl, split.2⟩
  · cases between with
    | nil =>
        rw [List.nil_append, List.cons.injEq] at split
        exact Or.inr (Or.inl ⟨List.append_nil _, split.1.symm, split.2.symm⟩)
    | cons head between =>
        rw [List.cons_append, List.cons.injEq] at split
        rw [← split.1]
        exact Or.inr (Or.inr ⟨between, rfl, split.2⟩)

/-! A slot that some events fill and others empty. -/

section Slot

variable {Item : Type*} (fills : Event → Option Item) (empties : Item → Event → Bool)

def slotStep (slot : Option Item) (event : Event) : Option Item :=
  match fills event with
  | some item => some item
  | none => slot.filter fun item => !empties item event

/-- What is in the slot after the events. -/
def slot (events : List Event) : Option Item := events.foldl (slotStep fills empties) none

theorem slot_snoc (events : List Event) (event : Event) :
    slot fills empties (events ++ [event]) =
      slotStep fills empties (slot fills empties events) event := by
  simp [slot]

theorem slotStep_kept (item : Item) (event : Event) (quiet : fills event = none)
    (kept : empties item event = false) :
    slotStep fills empties (some item) event = some item := by
  simp [slotStep, quiet, kept]

theorem slotStep_emptied (item : Item) (event : Event) (quiet : fills event = none)
    (emptied : empties item event = true) : slotStep fills empties (some item) event = none := by
  simp [slotStep, quiet, emptied]

/-- What is in the slot was put there by an event after which nothing filled or emptied it. -/
theorem slot_some (events : List Event) (item : Item)
    (full : slot fills empties events = some item) :
    ∃ before event after, events = before ++ event :: after ∧ fills event = some item ∧
      ∀ later ∈ after, fills later = none ∧ empties item later = false := by
  induction events using List.reverseRecOn with
  | nil => simp [slot] at full
  | append_singleton events last ih =>
      rw [slot_snoc, slotStep] at full
      cases filled : fills last with
      | some put =>
          rw [filled] at full
          exact ⟨events, last, [], rfl, filled.trans full, by simp⟩
      | none =>
          simp only [filled, Option.filter_eq_some_iff, Bool.not_eq_true'] at full
          rcases ih full.1 with ⟨before, event, after, split, put, kept⟩
          refine ⟨before, event, after ++ [last], by simp [split], put, ?_⟩
          exact List.forall_mem_append.mpr
            ⟨kept, List.forall_mem_singleton.mpr ⟨filled, full.2⟩⟩

/-- After the last event that filled it, the slot has its item or nothing. -/
theorem slot_filled (before after : List Event) (event : Event) {item other : Item}
    (put : fills event = some item) (quiet : ∀ later ∈ after, fills later = none)
    (full : slot fills empties (before ++ event :: after) = some other) :
    other = item ∧ ∀ later ∈ after, empties item later = false := by
  induction after using List.reverseRecOn generalizing other with
  | nil =>
      rw [slot_snoc, slotStep, put] at full
      cases full
      exact ⟨rfl, by simp⟩
  | append_singleton after last ih =>
      have final := quiet last (List.mem_append_right _ (List.mem_singleton.mpr rfl))
      rw [← List.cons_append, ← List.append_assoc, slot_snoc, slotStep, final] at full
      simp only [Option.filter_eq_some_iff, Bool.not_eq_true'] at full
      have earlier := ih (fun later member => quiet later (List.mem_append_left _ member)) full.1
      refine ⟨earlier.1, List.forall_mem_append.mpr ⟨earlier.2, ?_⟩⟩
      rw [← earlier.1]
      exact List.forall_mem_singleton.mpr full.2

theorem slot_none_append (events later : List Event)
    (empty : slot fills empties events = none) (quiet : ∀ event ∈ later, fills event = none) :
    slot fills empties (events ++ later) = none := by
  induction later using List.reverseRecOn with
  | nil => simpa using empty
  | append_singleton later last ih =>
      have before := ih fun event member => quiet event (List.mem_append_left _ member)
      have final := quiet last (List.mem_append_right _ (List.mem_singleton.mpr rfl))
      rw [← List.append_assoc, slot_snoc, before, slotStep, final]
      rfl

end Slot

/-! A latch that some events set and others clear. -/

section Latch

variable (sets clears : Event → Bool)

def latchStep (latch : Bool) (event : Event) : Bool := sets event || latch && !clears event

def latch (events : List Event) : Bool := events.foldl (latchStep sets clears) false

theorem latch_snoc (events : List Event) (event : Event) :
    latch sets clears (events ++ [event]) =
      latchStep sets clears (latch sets clears events) event := by
  simp [latch]

theorem latch_set (before after : List Event) (event : Event) (set : sets event = true)
    (kept : ∀ later ∈ after, clears later = false) :
    latch sets clears (before ++ event :: after) = true := by
  induction after using List.reverseRecOn with
  | nil => simp [latch_snoc, latchStep, set]
  | append_singleton after last ih =>
      have earlier := ih fun later member => kept later (List.mem_append_left _ member)
      have final := kept last (List.mem_append_right _ (List.mem_singleton.mpr rfl))
      rw [← List.cons_append, ← List.append_assoc, latch_snoc, latchStep, earlier, final]
      exact Bool.or_true _

/-- A latch that is set was set by an event after which nothing cleared it. -/
theorem latch_true (events : List Event) (on : latch sets clears events = true) :
    ∃ before event after, events = before ++ event :: after ∧ sets event = true ∧
      ∀ later ∈ after, clears later = false := by
  induction events using List.reverseRecOn with
  | nil => simp [latch] at on
  | append_singleton events last ih =>
      rw [latch_snoc, latchStep, Bool.or_eq_true, Bool.and_eq_true, Bool.not_eq_true'] at on
      rcases on with now | earlier
      · exact ⟨events, last, [], rfl, now, by simp⟩
      · rcases ih earlier.1 with ⟨before, event, after, split, set, kept⟩
        refine ⟨before, event, after ++ [last], by simp [split], set, ?_⟩
        exact List.forall_mem_append.mpr ⟨kept, List.forall_mem_singleton.mpr earlier.2⟩

end Latch

end Runs
