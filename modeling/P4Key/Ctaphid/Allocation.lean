import P4Key.Ctaphid.Packets

/-! Channel allocation against an adversarial random source.

The loop looks for the first draw that it does not refuse. Which draw that is
and what the call makes of it decide the status, the count of draws and the
core, so the statuses are read off the sequence of draws alone. -/

namespace P4Key.Ctaphid

open Memory

def Usable (core : Core) (cid : UInt32) : Prop :=
  cid ≠ 0 ∧ cid ≠ broadcastCid ∧ ∀ i, ¬ Owns core i cid

def Refused (core : Core) (draw : Option (Bytes 4)) : Prop :=
  ∃ raw, draw = some raw ∧ ¬ Usable core (loadU32 raw.toList)

def Draws.Gives (draws : Draws) (core : Core) (k : Nat) (cid : UInt32) : Prop :=
  ∃ raw, draws k = some raw ∧ loadU32 raw.toList = cid ∧ Usable core cid

inductive Allocation (core : Core) (draws : Draws) :
    Except AllocateError UInt32 × Core × Nat → Prop where
  | full (taken : ∀ i, (core.channels i).allocated = true) :
      Allocation core draws (.error .full, core, 0)
  | ok {i : Fin channelCount} {k : Nat} {cid : UInt32}
      (free : (core.channels i).allocated = false) (early : k < cidRetries)
      (refused : ∀ j < k, Refused core (draws j)) (given : draws.Gives core k cid) :
      Allocation core draws
        (.ok cid, core.setChannel i { cid := cid, allocated := true }, k + 1)
  | random {i : Fin channelCount} {k : Nat}
      (free : (core.channels i).allocated = false) (early : k < cidRetries)
      (refused : ∀ j < k, Refused core (draws j)) (failed : draws k = none) :
      Allocation core draws (.error .random, core, k + 1)
  | cid {i : Fin channelCount} (free : (core.channels i).allocated = false)
      (refused : ∀ j < cidRetries, Refused core (draws j)) :
      Allocation core draws (.error .cid, core, cidRetries)

theorem chanFind_unused (core : Core) (cid : UInt32) (proper : cid ≠ 0 ∧ cid ≠ broadcastCid) :
    chanFind core cid = none ↔ ∀ i, ¬ Owns core i cid := by
  rw [chanFind, if_neg (by simpa only [not_or] using proper), List.find?_eq_none]
  simp only [List.mem_finRange, Bool.and_eq_true, beq_iff_eq, forall_const, Owns]

theorem usable_iff (core : Core) (cid : UInt32) :
    ¬ (cid = 0 ∨ cid = broadcastCid ∨ (chanFind core cid).isSome) ↔ Usable core cid := by
  rw [Usable, not_or, not_or, Bool.not_eq_true, Option.isSome_eq_false_iff,
    Option.isNone_iff_eq_none]
  by_cases proper : cid ≠ 0 ∧ cid ≠ broadcastCid
  · rw [chanFind_unused core cid proper]
  · constructor
    · intro unused
      exact absurd ⟨unused.1, unused.2.1⟩ proper
    · intro usable
      exact absurd ⟨usable.1, usable.2.1⟩ proper

theorem freeChannel_none {core : Core} (none : freeChannel core = none) (i : Fin channelCount) :
    (core.channels i).allocated = true := by
  have taken := List.find?_eq_none.mp none i (List.mem_finRange i)
  simpa using taken

theorem allocateLoop_allocation (core : Core) (i : Fin channelCount) (draws : Draws)
    (free : (core.channels i).allocated = false) (attempts attempt : Nat)
    (total : attempt + attempts = cidRetries) (refused : ∀ j < attempt, Refused core (draws j)) :
    Allocation core draws (allocateLoop core i draws attempts attempt) := by
  induction attempts generalizing attempt with
  | zero =>
      have last : attempt = cidRetries := total
      subst last
      exact Allocation.cid free refused
  | succ attempts ih =>
      have early : attempt < cidRetries := by omega
      rw [allocateLoop]
      cases drawn : draws attempt with
      | none => exact Allocation.random free early refused drawn
      | some raw =>
          simp only
          by_cases taken : loadU32 raw.toList = 0 ∨ loadU32 raw.toList = broadcastCid ∨
              (chanFind core (loadU32 raw.toList)).isSome
          · rw [if_pos taken]
            apply ih (attempt + 1) (by omega)
            intro j before
            by_cases last : j = attempt
            · subst last
              exact ⟨raw, drawn, fun usable => (usable_iff core _).mpr usable taken⟩
            · exact refused j (by omega)
          · rw [if_neg taken]
            exact Allocation.ok free early refused ⟨raw, drawn, rfl, (usable_iff core _).mp taken⟩

theorem chanAllocate_allocation (core : Core) (draws : Draws) :
    Allocation core draws (chanAllocate core draws) := by
  rw [chanAllocate]
  cases free : freeChannel core with
  | none => exact Allocation.full (freeChannel_none free)
  | some i =>
      apply allocateLoop_allocation core i draws (freeChannel_some free) cidRetries 0 (Nat.zero_add _)
      intro j before
      exact absurd before (Nat.not_lt_zero j)

theorem refused_none (core : Core) : ¬ Refused core none := by
  intro refused
  obtain ⟨raw, drawn, -⟩ := refused
  cases drawn

theorem Draws.Gives.accepted {core : Core} {draws : Draws} {k : Nat} {cid : UInt32}
    (given : draws.Gives core k cid) : ¬ Refused core (draws k) := by
  intro refused
  obtain ⟨raw, drawn, value, usable⟩ := given
  obtain ⟨other, again, unusable⟩ := refused
  rw [drawn] at again
  cases again
  rw [value] at unusable
  exact unusable usable

theorem first_unique {core : Core} {draws : Draws} {k l : Nat}
    (before : ∀ j < k, Refused core (draws j)) (here : ¬ Refused core (draws k))
    (earlier : ∀ j < l, Refused core (draws j)) (there : ¬ Refused core (draws l)) : k = l := by
  rcases Nat.lt_trichotomy k l with less | same | greater
  · exact absurd (earlier k less) here
  · exact same
  · exact absurd (before l greater) there

variable {core : Core} {draws : Draws} {outcome : Except AllocateError UInt32 × Core × Nat}

theorem free_not_full {i : Fin channelCount} (free : (core.channels i).allocated = false) :
    ¬ ∀ i, (core.channels i).allocated = true := by
  intro taken
  rw [taken i] at free
  cases free

theorem Allocation.full_iff (allocation : Allocation core draws outcome) :
    outcome.1 = .error .full ↔ ∀ i, (core.channels i).allocated = true := by
  cases allocation with
  | full taken => exact iff_of_true rfl taken
  | ok free _ _ _ => exact iff_of_false (by simp) (free_not_full free)
  | random free _ _ _ => exact iff_of_false (by simp) (free_not_full free)
  | cid free _ => exact iff_of_false (by simp) (free_not_full free)

theorem Allocation.draws_iff (allocation : Allocation core draws outcome) :
    outcome.2.2 = 0 ↔ ∀ i, (core.channels i).allocated = true := by
  cases allocation with
  | full taken => exact iff_of_true rfl taken
  | ok free _ _ _ => exact iff_of_false (Nat.succ_ne_zero _) (free_not_full free)
  | random free _ _ _ => exact iff_of_false (Nat.succ_ne_zero _) (free_not_full free)
  | cid free _ => exact iff_of_false (by simp [cidRetries]) (free_not_full free)

theorem Allocation.ok_iff (allocation : Allocation core draws outcome) (cid : UInt32) :
    outcome.1 = .ok cid ↔ (∃ i, (core.channels i).allocated = false) ∧
      ∃ k < cidRetries, draws.Gives core k cid ∧ ∀ j < k, Refused core (draws j) := by
  cases allocation with
  | full taken =>
      apply iff_of_false (by simp)
      intro ⟨⟨i, free⟩, _⟩
      exact free_not_full free taken
  | @ok i k found free early refused given =>
      constructor
      · intro same
        cases same
        exact ⟨⟨i, free⟩, k, early, given, refused⟩
      · intro ⟨_, l, _, again, earlier⟩
        have same := first_unique refused given.accepted earlier again.accepted
        subst l
        obtain ⟨raw, drawn, value, -⟩ := given
        obtain ⟨other, redrawn, revalue, -⟩ := again
        rw [drawn] at redrawn
        cases redrawn
        rw [← value, ← revalue]
  | random free early refused failed =>
      apply iff_of_false (by simp)
      intro ⟨_, l, _, given, earlier⟩
      have same := first_unique refused (failed ▸ refused_none core) earlier given.accepted
      subst l
      obtain ⟨raw, drawn, -⟩ := given
      rw [failed] at drawn
      cases drawn
  | cid free refused =>
      apply iff_of_false (by simp)
      intro ⟨_, l, early, given, _⟩
      exact given.accepted (refused l early)

theorem Allocation.random_iff (allocation : Allocation core draws outcome) :
    outcome.1 = .error .random ↔ (∃ i, (core.channels i).allocated = false) ∧
      ∃ k < cidRetries, draws k = none ∧ ∀ j < k, Refused core (draws j) := by
  cases allocation with
  | full taken =>
      apply iff_of_false (by simp)
      intro ⟨⟨i, free⟩, _⟩
      exact free_not_full free taken
  | ok free early refused given =>
      apply iff_of_false (by simp)
      intro ⟨_, l, _, failed, earlier⟩
      have same := first_unique refused given.accepted earlier (failed ▸ refused_none core)
      subst l
      obtain ⟨raw, drawn, -⟩ := given
      rw [failed] at drawn
      cases drawn
  | @random i k free early refused failed =>
      exact iff_of_true rfl ⟨⟨i, free⟩, k, early, failed, refused⟩
  | cid free refused =>
      apply iff_of_false (by simp)
      intro ⟨_, l, early, failed, _⟩
      exact refused_none core (failed ▸ refused l early)

theorem Allocation.cid_iff (allocation : Allocation core draws outcome) :
    outcome.1 = .error .cid ↔ (∃ i, (core.channels i).allocated = false) ∧
      ∀ j < cidRetries, Refused core (draws j) := by
  cases allocation with
  | full taken =>
      apply iff_of_false (by simp)
      intro ⟨⟨i, free⟩, _⟩
      exact free_not_full free taken
  | @ok i k found free early refused given =>
      apply iff_of_false (by simp)
      intro ⟨_, all⟩
      exact given.accepted (all k early)
  | @random i k free early refused failed =>
      apply iff_of_false (by simp)
      intro ⟨_, all⟩
      exact refused_none core (failed ▸ all k early)
  | @cid i free refused => exact iff_of_true rfl ⟨⟨i, free⟩, refused⟩

theorem Allocation.bounded (allocation : Allocation core draws outcome) :
    outcome.2.2 ≤ cidRetries := by
  cases allocation with
  | full _ => exact Nat.zero_le _
  | ok _ early _ _ => exact early
  | random _ early _ _ => exact early
  | cid _ _ => exact Nat.le_refl _

/-- A free slot is taken, or the core is what it was. -/
theorem Allocation.recorded (allocation : Allocation core draws outcome) :
    (∃ i cid, outcome.1 = .ok cid ∧ (core.channels i).allocated = false ∧
      outcome.2.1 = core.setChannel i { cid := cid, allocated := true }) ∨
    (∃ error, outcome.1 = .error error) ∧ outcome.2.1 = core := by
  cases allocation with
  | full _ => exact Or.inr ⟨⟨_, rfl⟩, rfl⟩
  | ok free _ _ _ => exact Or.inl ⟨_, _, rfl, free, rfl⟩
  | random _ _ _ _ => exact Or.inr ⟨⟨_, rfl⟩, rfl⟩
  | cid _ _ => exact Or.inr ⟨⟨_, rfl⟩, rfl⟩

/-- The status of `p4_ctaphid_chan_allocate`, its draws and its effect, for every core and
every sequence of draws. -/
theorem chanAllocate_exact (core : Core) (draws : Draws) :
    let outcome := chanAllocate core draws
    (outcome.1 = .error .full ↔ ∀ i, (core.channels i).allocated = true) ∧
    (outcome.2.2 = 0 ↔ ∀ i, (core.channels i).allocated = true) ∧
    (∀ cid, outcome.1 = .ok cid ↔ (∃ i, (core.channels i).allocated = false) ∧
      ∃ k < cidRetries, draws.Gives core k cid ∧ ∀ j < k, Refused core (draws j)) ∧
    (outcome.1 = .error .random ↔ (∃ i, (core.channels i).allocated = false) ∧
      ∃ k < cidRetries, draws k = none ∧ ∀ j < k, Refused core (draws j)) ∧
    (outcome.1 = .error .cid ↔ (∃ i, (core.channels i).allocated = false) ∧
      ∀ j < cidRetries, Refused core (draws j)) ∧
    outcome.2.2 ≤ cidRetries ∧
    ((∃ i cid, outcome.1 = .ok cid ∧ (core.channels i).allocated = false ∧
        outcome.2.1 = core.setChannel i { cid := cid, allocated := true } ∧
        ∀ j, j ≠ i → outcome.2.1.channels j = core.channels j) ∨
      (∃ error, outcome.1 = .error error) ∧ outcome.2.1 = core) := by
  have allocation := chanAllocate_allocation core draws
  refine ⟨allocation.full_iff, allocation.draws_iff, allocation.ok_iff, allocation.random_iff,
    allocation.cid_iff, allocation.bounded, ?_⟩
  rcases allocation.recorded with ⟨i, cid, ok, free, after⟩ | unchanged
  · apply Or.inl
    refine ⟨i, cid, ok, free, after, ?_⟩
    intro j other
    rw [after]
    exact Function.update_of_ne other _ _
  · exact Or.inr unchanged

end P4Key.Ctaphid
