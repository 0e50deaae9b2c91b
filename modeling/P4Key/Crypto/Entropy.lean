import P4Key.Crypto.Psa
import P4Key.Library.Linking
import P4Key.Library.Runs

/-! p4_crypto.c and p4_crypto_rng.c: the start of the library, and the source of its random bytes. -/

namespace P4Key.Crypto.Entropy

open Memory CallProgram

inductive Call where
  | bootloaderRandomEnable
  | bootloaderRandomDisable
  | psaCryptoInit
  | espFillRandom (len : Nat)
  deriving DecidableEq

@[reducible] def Reply : Call → Type
  | .bootloaderRandomEnable => Unit
  | .bootloaderRandomDisable => Unit
  | .psaCryptoInit => Int
  | .espFillRandom len => Bytes len

abbrev Source (α : Type) : Type := Program Call Reply α

def bootloaderRandomEnable : Source Unit := Program.perform Call.bootloaderRandomEnable

def bootloaderRandomDisable : Source Unit := Program.perform Call.bootloaderRandomDisable

def psaCryptoInit : Source Int := Program.perform Call.psaCryptoInit

def espFillRandom (len : Nat) : Source (Bytes len) := Program.perform (Call.espFillRandom len)

def cryptoInit (ready : Bool) : Source (Int × Bool) :=
  if ready then pure (cryptoOk, ready)
  else do
    bootloaderRandomEnable
    let status ← psaCryptoInit
    if status ≠ psaSuccess then do
      bootloaderRandomDisable
      pure (fromPsa status, ready)
    else pure (cryptoOk, true)

def randFill (ready : Bool) {len : Nat} (out : Option (Bytes len)) :
    Source (Int × Option (Bytes len)) :=
  match out with
  | none => pure (cryptoBadArg, none)
  | some bytes =>
    if !ready then pure (cryptoState, some bytes)
    else if len ≠ 0 then do
      let random ← espFillRandom len
      pure (cryptoOk, some random)
    else pure (cryptoOk, some bytes)

/-! Histories of calls. -/

inductive Event where
  | initialised (calls : List (CallProgram.Event Reply)) (code : Int)
  | filled (len : Nat) (out : Option (Bytes len)) (calls : List (CallProgram.Event Reply))
      (code : Int) (left : Option (Bytes len))

def Event.calls : Event → List (CallProgram.Event Reply)
  | .initialised calls _ => calls
  | .filled _ _ calls _ _ => calls

inductive Step : Bool → Event → Bool → Prop where
  | initialised {ready next : Bool} {calls : List (CallProgram.Event Reply)} {code : Int}
      (run : Execution (cryptoInit ready) calls (code, next)) : Step ready (.initialised calls code) next
  | filled {ready : Bool} {len : Nat} {out left : Option (Bytes len)}
      {calls : List (CallProgram.Event Reply)} {code : Int}
      (run : Execution (randFill ready out) calls (code, left)) :
      Step ready (.filled len out calls code left) ready

abbrev History : List Event → Bool → Prop := Runs.Run Step false

def allCalls (past : List Event) : List (CallProgram.Event Reply) := past.flatMap Event.calls

/-! The source. -/

def enables (call : CallProgram.Event Reply) : Bool := call.1 = .bootloaderRandomEnable

def disables (call : CallProgram.Event Reply) : Bool := call.1 = .bootloaderRandomDisable

def sourceOn (calls : List (CallProgram.Event Reply)) : Bool := Runs.latch enables disables calls

def Initialised (calls : List (CallProgram.Event Reply)) : Prop :=
  (⟨.psaCryptoInit, psaSuccess⟩ : CallProgram.Event Reply) ∈ calls

/-- The PSA library is started once, with the source on; the source stays on from then on, and
only then are bytes drawn. -/
def Ordered (before : List (CallProgram.Event Reply)) (call : CallProgram.Event Reply) : Prop :=
  match call.1 with
  | .bootloaderRandomEnable => sourceOn before = false
  | .bootloaderRandomDisable => sourceOn before = true ∧ ¬Initialised before
  | .psaCryptoInit => sourceOn before = true ∧ ¬Initialised before
  | .espFillRandom _ => sourceOn before = true ∧ Initialised before

/-- `crypto_init` on a library that is ready, one that starts, and one that does not. -/
theorem cryptoInit_cases {ready next : Bool} {calls : List (CallProgram.Event Reply)} {code : Int}
    (run : Execution (cryptoInit ready) calls (code, next)) :
    (ready = true ∧ calls = [] ∧ code = cryptoOk ∧ next = true) ∨
    (ready = false ∧ calls = [⟨.bootloaderRandomEnable, ()⟩, ⟨.psaCryptoInit, psaSuccess⟩] ∧
      code = cryptoOk ∧ next = true) ∨
    (ready = false ∧ ∃ status, status ≠ psaSuccess ∧ code = fromPsa status ∧
      calls = [⟨.bootloaderRandomEnable, ()⟩, ⟨.psaCryptoInit, status⟩,
        ⟨.bootloaderRandomDisable, ()⟩] ∧ next = false) := by
  cases ready with
  | true =>
      cases run
      exact Or.inl ⟨rfl, rfl, rfl, rfl⟩
  | false =>
      rcases execution_perform run with ⟨enabled, _, rfl, start⟩
      rcases execution_perform start with ⟨status, _, rfl, outcome⟩
      by_cases failed : status ≠ psaSuccess
      · rw [if_pos failed] at outcome
        rcases execution_perform outcome with ⟨disabled, _, rfl, last⟩
        cases last
        exact Or.inr (Or.inr ⟨rfl, status, failed, rfl, rfl, rfl⟩)
      · rw [if_neg failed] at outcome
        cases outcome
        rw [not_not.mp failed]
        exact Or.inr (Or.inl ⟨rfl, rfl, rfl, rfl⟩)

/-- `rand_fill` fills a buffer that is there once the library is ready, and else leaves it alone. -/
theorem randFill_cases {ready : Bool} {len : Nat} {out left : Option (Bytes len)}
    {calls : List (CallProgram.Event Reply)} {code : Int}
    (run : Execution (randFill ready out) calls (code, left)) :
    ((out = none ∨ ready = false) ∧ code ≠ cryptoOk ∧ calls = [] ∧ left = out) ∨
    (out ≠ none ∧ ready = true ∧ code = cryptoOk ∧
      ((∃ random, calls = [⟨.espFillRandom len, random⟩] ∧ left = some random) ∨
        len = 0 ∧ calls = [] ∧ left = out)) := by
  cases out with
  | none =>
      cases run
      exact Or.inl ⟨Or.inl rfl, by decide, rfl, rfl⟩
  | some bytes =>
      cases ready with
      | false =>
          cases run
          exact Or.inl ⟨Or.inr rfl, by decide, rfl, rfl⟩
      | true =>
          rw [randFill, if_neg (by decide)] at run
          have there : some bytes ≠ none := by simp
          by_cases empty : len = 0
          · rw [if_neg (not_not.mpr empty)] at run
            cases run
            exact Or.inr ⟨there, rfl, rfl, Or.inr ⟨empty, rfl, rfl⟩⟩
          · rw [if_pos empty] at run
            rcases execution_perform run with ⟨random, _, rfl, last⟩
            cases last
            exact Or.inr ⟨there, rfl, rfl, Or.inl ⟨random, rfl, rfl⟩⟩

/-! The source over a history. -/

theorem initialised_snoc (calls : List (CallProgram.Event Reply)) (call : CallProgram.Event Reply) :
    Initialised (calls ++ [call]) ↔ Initialised calls ∨ call = ⟨.psaCryptoInit, psaSuccess⟩ := by
  rw [Initialised, List.mem_append, List.mem_singleton, eq_comm (a := call), Initialised]

theorem sourceOn_snoc (calls : List (CallProgram.Event Reply)) (call : CallProgram.Event Reply) :
    sourceOn (calls ++ [call]) = (enables call || sourceOn calls && !disables call) :=
  Runs.latch_snoc enables disables calls call

structure Powered (calls : List (CallProgram.Event Reply)) (ready : Bool) : Prop where
  source : sourceOn calls = ready
  psa : Initialised calls ↔ ready = true
  ordered : Guarded Ordered calls

theorem powered_start : Powered [] false :=
  ⟨rfl, iff_of_false List.not_mem_nil (by decide), guarded_nil _⟩

theorem ordered_snoc {calls : List (CallProgram.Event Reply)}
    {call : CallProgram.Event Reply} (ordered : Guarded Ordered calls) (next : Ordered calls call) :
    Guarded Ordered (calls ++ [call]) := by
  rw [guarded_append, guarded_cons]
  exact ⟨ordered, by simpa using next, guarded_nil _⟩

theorem Powered.tried {calls : List (CallProgram.Event Reply)} (powered : Powered calls false)
    (status : Int) :
    sourceOn (calls ++ [⟨.bootloaderRandomEnable, ()⟩, ⟨.psaCryptoInit, status⟩]) = true ∧
    (Initialised (calls ++ [⟨.bootloaderRandomEnable, ()⟩, ⟨.psaCryptoInit, status⟩]) ↔
      status = psaSuccess) ∧
    Guarded Ordered (calls ++ [⟨.bootloaderRandomEnable, ()⟩, ⟨.psaCryptoInit, status⟩]) := by
  have fresh : ¬Initialised calls := by simp [powered.psa]
  rw [← List.singleton_append, ← List.append_assoc]
  have on : sourceOn (calls ++ [⟨.bootloaderRandomEnable, ()⟩]) = true := by
    rw [sourceOn_snoc]
    rfl
  have still : ¬Initialised (calls ++ [⟨.bootloaderRandomEnable, ()⟩]) := by
    rw [initialised_snoc]
    simp [fresh]
  have enabled : Guarded Ordered (calls ++ [⟨.bootloaderRandomEnable, ()⟩]) :=
    ordered_snoc powered.ordered powered.source
  refine ⟨?_, ?_, ordered_snoc enabled ⟨on, still⟩⟩
  · rw [sourceOn_snoc, on]
    rfl
  · rw [initialised_snoc, or_iff_right still]
    simp

theorem Step.powered {ready next : Bool} {event : Event} {calls : List (CallProgram.Event Reply)}
    (step : Step ready event next) (powered : Powered calls ready) :
    Powered (calls ++ event.calls) next := by
  cases step with
  | initialised run =>
      rcases cryptoInit_cases run with ⟨rfl, none, -, rfl⟩ | ⟨rfl, started, -, rfl⟩ |
        ⟨rfl, status, failed, -, stopped, rfl⟩
      · rw [Event.calls, none, List.append_nil]
        exact powered
      · rcases powered.tried psaSuccess with ⟨on, initialised, kept⟩
        rw [Event.calls, started]
        exact ⟨on, iff_of_true (initialised.mpr rfl) rfl, kept⟩
      · rcases powered.tried status with ⟨on, initialised, kept⟩
        have never : ¬Initialised _ := fun done => failed (initialised.mp done)
        have split : calls ++ [⟨.bootloaderRandomEnable, ()⟩, ⟨.psaCryptoInit, status⟩,
            ⟨.bootloaderRandomDisable, ()⟩] =
            calls ++ [⟨.bootloaderRandomEnable, ()⟩, ⟨.psaCryptoInit, status⟩] ++
              [⟨.bootloaderRandomDisable, ()⟩] := by simp
        rw [Event.calls, stopped, split]
        refine ⟨?_, ?_, ordered_snoc kept ⟨on, never⟩⟩
        · rw [sourceOn_snoc]
          exact Bool.and_false _
        · rw [initialised_snoc]
          exact iff_of_false (by simp [never]) (by decide)
  | filled run =>
      rcases randFill_cases run with
        ⟨-, -, none, -⟩ | ⟨-, ready, -, ⟨random, drawn, -⟩ | ⟨-, none, -⟩⟩
      · rw [Event.calls, none, List.append_nil]
        exact powered
      · rw [Event.calls, drawn]
        refine ⟨?_, ?_, ordered_snoc powered.ordered
          ⟨powered.source.trans ready, powered.psa.mpr ready⟩⟩
        · rw [sourceOn_snoc, powered.source]
          exact Bool.and_true _
        · rw [initialised_snoc, powered.psa]
          exact or_iff_left (by simp)
      · rw [Event.calls, none, List.append_nil]
        exact powered

theorem History.powered {past : List Event} {ready : Bool} (history : History past ready) :
    Powered (allCalls past) ready :=
  Runs.Run.history history (fun past ready => Powered (allCalls past) ready) powered_start
    fun past ready event next _ before step => by
      rw [allCalls, List.flatMap_append, List.flatMap_singleton]
      exact step.powered before

/-- The source of random bytes is on exactly while the library is ready. Every byte that
`rand_fill` gives out was drawn while it was on, and without it the buffer stays as it is. -/
theorem entropy_follows_ready {past : List Event} {ready : Bool} (history : History past ready) :
    sourceOn (allCalls past) = ready ∧ (Initialised (allCalls past) ↔ ready = true) ∧
      Guarded Ordered (allCalls past) ∧
      ∀ before len out calls code left after,
        past = before ++ .filled len out calls code left :: after →
        (code = cryptoOk ↔ out ≠ none ∧ sourceOn (allCalls before) = true) ∧
        (code ≠ cryptoOk → calls = [] ∧ left = out) ∧
        (code = cryptoOk → len ≠ 0 → ∃ random, calls = [⟨.espFillRandom len, random⟩] ∧
          left = some random) := by
  have powered := history.powered
  refine ⟨powered.source, powered.psa, powered.ordered, ?_⟩
  intro before len out calls code left after split
  subst split
  rcases Runs.Run.at_event history with ⟨here, next, earlier, step, -⟩
  rw [(History.powered earlier).source]
  cases step with
  | filled run =>
      rcases randFill_cases run with ⟨refused, bad, none, same⟩ | ⟨given, ready, good, served⟩
      · refine ⟨iff_of_false bad ?_, fun _ => ⟨none, same⟩, fun good => absurd good bad⟩
        rintro ⟨given, ready⟩
        rcases refused with missing | off
        · exact given missing
        · rw [off] at ready
          cases ready
      · refine ⟨iff_of_true good ⟨given, ready⟩, fun bad => absurd good bad, fun _ full => ?_⟩
        rcases served with drawn | ⟨empty, -, -⟩
        · exact drawn
        · exact absurd empty full

def retriedStart : List Event :=
  [.initialised [⟨.bootloaderRandomEnable, ()⟩, ⟨.psaCryptoInit, psaErrorBadState⟩,
      ⟨.bootloaderRandomDisable, ()⟩] cryptoState,
    .initialised [⟨.bootloaderRandomEnable, ()⟩, ⟨.psaCryptoInit, psaSuccess⟩] cryptoOk,
    .filled 2 (some ⟨[0, 0], rfl⟩) [⟨.espFillRandom 2, ⟨[7, 9], rfl⟩⟩] cryptoOk (some ⟨[7, 9], rfl⟩)]

theorem retriedStart_history : History retriedStart true :=
  have failed : Execution (cryptoInit false) [⟨.bootloaderRandomEnable, ()⟩,
      ⟨.psaCryptoInit, psaErrorBadState⟩, ⟨.bootloaderRandomDisable, ()⟩] (cryptoState, false) :=
    .call (.call (.call (.done _)))
  have started : Execution (cryptoInit false)
      [⟨.bootloaderRandomEnable, ()⟩, ⟨.psaCryptoInit, psaSuccess⟩] (cryptoOk, true) :=
    .call (.call (.done _))
  have filled : Execution (randFill true (some ⟨[0, 0], rfl⟩))
      [⟨.espFillRandom 2, ⟨[7, 9], rfl⟩⟩] (cryptoOk, some ⟨[7, 9], rfl⟩) := .call (.done _)
  ((Runs.Run.nil.snoc (.initialised failed)).snoc (.initialised started)).snoc (.filled filled)

theorem retriedStart_serves : sourceOn (allCalls retriedStart) = true ∧
    Guarded Ordered (allCalls retriedStart) :=
  have facts := entropy_follows_ready retriedStart_history
  ⟨facts.1, facts.2.2.1⟩

end P4Key.Crypto.Entropy
