import Mathlib.Tactic

/-! Runs of one level in a stream of samples. -/

namespace Debounce

variable {α : Type}

/-- The last `count` samples up to `time` have the level, and none of them is before `start`. -/
def Held (samples : Nat → α) (level : α) (start count time : Nat) : Prop :=
  start + count ≤ time + 1 ∧ ∀ k < count, samples (time - k) = level

def First (holds : Nat → Prop) (time : Nat) : Prop :=
  holds time ∧ ∀ earlier < time, ¬holds earlier

theorem First.unique {holds : Nat → Prop} {left right : Nat} (first : First holds left)
    (other : First holds right) : left = right := by
  rcases Nat.lt_trichotomy left right with before | same | after
  · exact absurd first.1 (other.2 left before)
  · exact same
  · exact absurd other.1 (first.2 right after)

/-- The samples in front of `time` end with a run of `length` samples of the level: it goes back
to `start` or to a sample of another level. -/
structure Run (samples : Nat → α) (level : α) (start time length : Nat) : Prop where
  inside : start + length ≤ time
  same : ∀ k < length, samples (time - 1 - k) = level
  maximal : start + length = time ∨ samples (time - 1 - length) ≠ level

variable {samples : Nat → α} {level : α} {start time length : Nat}

theorem Run.empty (samples : Nat → α) (level : α) (start : Nat) :
    Run samples level start start 0 where
  inside := Nat.le_refl _
  same := by simp
  maximal := Or.inl rfl

theorem Run.extend (run : Run samples level start time length) (more : samples time = level) :
    Run samples level start (time + 1) (length + 1) where
  inside := by
    have := run.inside
    omega
  same := by
    intro k below
    cases k with
    | zero => exact more
    | succ k =>
        have earlier := run.same k (by omega)
        have index : time + 1 - 1 - (k + 1) = time - 1 - k := by omega
        rw [index]
        exact earlier
  maximal := by
    rcases run.maximal with whole | other
    · exact Or.inl (by omega)
    · right
      have index : time + 1 - 1 - (length + 1) = time - 1 - length := by omega
      rw [index]
      exact other

theorem Run.reset (run : Run samples level start time length) (other : samples time ≠ level) :
    Run samples level start (time + 1) 0 where
  inside := by
    have := run.inside
    omega
  same := by simp
  maximal := Or.inr other

/-- The length of the run tells whether the last `count` samples have the level. -/
theorem Run.held_iff (run : Run samples level start (time + 1) length) (count : Nat) :
    Held samples level start count time ↔ count ≤ length := by
  constructor
  · rintro ⟨inside, held⟩
    by_contra short
    rcases run.maximal with whole | other
    · omega
    · exact other (held length (by omega))
  · intro enough
    refine ⟨?_, fun k below => run.same k (by omega)⟩
    have := run.inside
    omega

/-- While the run is shorter, the level has not been held for so long. -/
theorem Run.not_yet {count : Nat} (run : Run samples level start (time + 1) length)
    (short : length < count) (none_before : ∀ earlier < time, ¬ Held samples level start count earlier) :
    ∀ earlier < time + 1, ¬ Held samples level start count earlier := by
  intro earlier below
  rcases Nat.lt_succ_iff_lt_or_eq.mp below with before | rfl
  · exact none_before earlier before
  · rw [run.held_iff]
    omega

end Debounce
