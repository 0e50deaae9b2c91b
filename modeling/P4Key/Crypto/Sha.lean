import P4Key.Crypto.Psa
import P4Key.Library.Service

/-! p4_crypto_sha.c.

The input goes to PSA in chunks, and the output is written once, from a digest of its own. So the
two may share bytes. -/

namespace P4Key.Crypto.Sha

open Memory AddressSpace CallProgram

abbrev shaChunk : Nat := 64
abbrev sha256Len : Nat := 32

/-- The functions of PSA that it calls, for one operation of its own. -/
inductive Call where
  | psaHashSetup
  | psaHashUpdate (input : List UInt8)
  | psaHashFinish (size : Nat)
  | psaHashAbort
  deriving DecidableEq

@[reducible] def Reply : Call → Type
  | .psaHashFinish size => Int × Bytes size × Nat
  | _ => Int

abbrev Hash (α : Type) : Type := Program Call Reply α

def psaHashSetup : Hash Int := Program.perform Call.psaHashSetup

def psaHashUpdate (input : List UInt8) : Hash Int := Program.perform (Call.psaHashUpdate input)

def psaHashFinish (size : Nat) : Hash (Int × Bytes size × Nat) :=
  Program.perform (Call.psaHashFinish size)

def psaHashAbort : Hash Int := Program.perform Call.psaHashAbort

def hashUpdates (memory : Space) (input inLen : Nat) (status : Int) (offset : Nat) : Hash Int :=
  if _ : status = psaSuccess ∧ offset < inLen then do
    let take := if inLen - offset > shaChunk then shaChunk else inLen - offset
    let status ← psaHashUpdate (read memory ⟨input + offset, take⟩)
    hashUpdates memory input inLen status (offset + take)
  else pure status
termination_by inLen - offset
decreasing_by
  have size : shaChunk = 64 := rfl
  split <;> omega

def hashFinish (status : Int) : Hash (Int × Bytes sha256Len × Nat) :=
  if status = psaSuccess then psaHashFinish sha256Len
  else pure (status, List.Vector.replicate sha256Len 0, 0)

def BadArg (input inLen out : Nat) : Prop := out = 0 ∨ (input = 0 ∧ inLen ≠ 0)

instance (input inLen out : Nat) : Decidable (BadArg input inLen out) :=
  inferInstanceAs (Decidable (_ ∨ _))

def sha256Sum (ready : Bool) (memory : Space) (input inLen out : Nat) : Hash (Int × Space) :=
  if BadArg input inLen out then pure (cryptoBadArg, memory)
  else if !ready then pure (cryptoState, memory)
  else do
    let status ← psaHashSetup
    let status ← hashUpdates memory input inLen status 0
    let (status, digest, digestLen) ← hashFinish status
    if status ≠ psaSuccess ∨ digestLen ≠ sha256Len then
      let status := if status = psaSuccess then psaErrorCorruptionDetected else status
      let _ ← psaHashAbort
      pure (fromPsa status, memory)
    else pure (cryptoOk, write memory out digest.toList)

/-! The operation. -/

inductive Operation where
  | inactive
  | active (absorbed : List UInt8)
  | broken

def Passed : Event Reply → Prop
  | ⟨.psaHashSetup, status⟩ => status = psaSuccess
  | ⟨.psaHashUpdate _, status⟩ => status = psaSuccess
  | ⟨.psaHashFinish _, (status, _, len)⟩ => status = psaSuccess ∧ len = sha256Len
  | ⟨.psaHashAbort, status⟩ => status = psaSuccess

/-- Any call may fail, and then the operation has to be aborted. -/
inductive Step (hash : List UInt8 → Bytes sha256Len) : Operation → Event Reply → Operation → Prop where
  | setup : Step hash .inactive ⟨.psaHashSetup, psaSuccess⟩ (.active [])
  | update (absorbed input : List UInt8) :
      Step hash (.active absorbed) ⟨.psaHashUpdate input, psaSuccess⟩ (.active (absorbed ++ input))
  | finish (absorbed : List UInt8) :
      Step hash (.active absorbed) ⟨.psaHashFinish sha256Len, (psaSuccess, hash absorbed, sha256Len)⟩
        .inactive
  | failed (operation : Operation) (event : Event Reply) (other : event.1 ≠ .psaHashAbort)
      (bad : ¬ Passed event) : Step hash operation event .broken
  | abort (operation : Operation) (status : Int) : Step hash operation ⟨.psaHashAbort, status⟩ .inactive

section Service

variable {hash : List UInt8 → Bytes sha256Len} {memory : Space} {input inLen out : Nat}

/-- The operation after the bytes in front of `offset`, or after a failure. -/
def Absorbed (memory : Space) (input offset : Nat) (status : Int) : Operation → Prop
  | .active absorbed => status = psaSuccess ∧ absorbed = read memory ⟨input, offset⟩
  | _ => status ≠ psaSuccess

theorem hashUpdates_serves (status : Int) (offset : Nat) (inside : offset ≤ inLen)
    {operation : Operation} (here : Absorbed memory input offset status operation) :
    Serves (Step hash) operation (hashUpdates memory input inLen status offset) fun after status =>
      Absorbed memory input inLen status after := by
  induction status, offset using hashUpdates.induct inLen generalizing operation with
  | case1 status offset more take ih =>
      rw [hashUpdates, dif_pos more]
      intro status' after answered
      have taken : offset + take ≤ inLen := by
        simp only [take]
        split <;> omega
      refine ih status' taken ?_
      cases answered with
      | update absorbed =>
          refine ⟨rfl, ?_⟩
          rw [here.2]
          exact read_append memory input offset take
      | failed operation event other bad => exact bad
  | case2 status offset last =>
      rw [hashUpdates, dif_neg last]
      cases operation with
      | active absorbed =>
          refine ⟨here.1, ?_⟩
          have whole : offset = inLen := by
            by_contra short
            exact last ⟨here.1, by omega⟩
          rw [here.2, whole]
      | inactive => exact here
      | broken => exact here

/-- The operation is closed, and what was written is the hash of the input as it was. -/
theorem sha256Sum_serves (ready : Bool) :
    Serves (Step hash) .inactive (sha256Sum ready memory input inLen out) fun after (code, left) =>
      after = .inactive ∧
        (code = cryptoOk → left = write memory out (hash (read memory ⟨input, inLen⟩)).toList) ∧
        (code ≠ cryptoOk → left = memory) := by
  rw [sha256Sum]
  split
  · exact ⟨rfl, fun ok => absurd ok (by decide), fun _ => rfl⟩
  split
  · exact ⟨rfl, fun ok => absurd ok (by decide), fun _ => rfl⟩
  refine serves_perform fun status operation begun => ?_
  have start : Absorbed memory input 0 status operation := by
    cases begun with
    | setup => exact ⟨rfl, rfl⟩
    | failed operation event other bad => exact bad
  refine (hashUpdates_serves status 0 (Nat.zero_le _) start).bind ?_
  intro operation status fed
  have aborts : ∀ {operation : Operation} {status : Int}, status ≠ psaSuccess →
      Serves (Step hash) operation (psaHashAbort >>= fun _ => pure (fromPsa status, memory))
        fun after (code, left) => after = .inactive ∧
          (code = cryptoOk → left = write memory out (hash (read memory ⟨input, inLen⟩)).toList) ∧
          (code ≠ cryptoOk → left = memory) := by
    intro operation status failed
    refine serves_perform fun reply after aborted => ?_
    have closed : after = .inactive := by
      cases aborted with
      | failed _ _ other => exact absurd rfl other
      | abort => rfl
    exact ⟨closed, fun ok => absurd ((fromPsa_ok status).mp ok) failed, fun _ => rfl⟩
  rw [hashFinish]
  split
  · rename_i passed
    cases operation with
    | inactive => exact absurd passed fed
    | broken => exact absurd passed fed
    | active absorbed =>
        refine serves_perform fun reply after answered => ?_
        rcases reply with ⟨status', digest, len⟩
        dsimp only
        cases answered with
        | finish =>
            rw [if_neg (by decide), ← fed.2]
            exact ⟨rfl, fun _ => rfl, fun other => absurd rfl other⟩
        | failed _ _ other bad =>
            have wrong : status' ≠ psaSuccess ∨ len ≠ sha256Len := not_and_or.mp bad
            rw [if_pos wrong]
            refine aborts ?_
            split
            · exact corruption_fails
            · assumption
  · rename_i failed
    have wrong : status ≠ psaSuccess ∨ (0 : Nat) ≠ sha256Len := Or.inl failed
    rw [Program.pure_eq]
    change Serves (Step hash) operation (if _ then _ else _) _
    rw [if_pos wrong, if_neg failed]
    exact aborts failed

end Service

/-! The calls, whatever PSA replies. -/

section Calls

variable (memory : Space) (input inLen out : Nat)

def InChunks : Event Reply → Prop
  | ⟨.psaHashUpdate piece, _⟩ => 0 < piece.length ∧ piece.length ≤ shaChunk
  | _ => True

structure Log (events : List (Event Reply)) (status : Int) : Prop where
  passed : status = psaSuccess ↔ ∀ event ∈ events, Passed event
  chunks : ∀ event ∈ events, InChunks event

variable {memory input inLen out}

theorem Log.snoc {events : List (Event Reply)} {status status' : Int} {event : Event Reply}
    (log : Log events status) (success : status = psaSuccess) (here : status' = psaSuccess ↔ Passed event)
    (chunk : InChunks event) : Log (events ++ [event]) status' := by
  constructor
  · rw [List.forall_mem_append, List.forall_mem_singleton, here]
    exact ⟨fun passed => ⟨log.passed.mp success, passed⟩, fun both => both.2⟩
  · rw [List.forall_mem_append, List.forall_mem_singleton]
    exact ⟨log.chunks, chunk⟩

theorem hashUpdates_log (status : Int) (offset : Nat) {before : List (Event Reply)}
    (log : Log before status) :
    Ends before (hashUpdates memory input inLen status offset) fun events status => Log events status := by
  induction status, offset using hashUpdates.induct inLen generalizing before with
  | @case1 status offset more take ih =>
      rw [hashUpdates, dif_pos more]
      intro status' _
      have bounds : 0 < take ∧ take ≤ shaChunk := by
        have size : shaChunk = 64 := rfl
        simp only [take]
        split <;> omega
      refine ih status' (log.snoc more.1 Iff.rfl ?_)
      rw [InChunks, length_read]
      exact bounds
  | case2 status offset last =>
      rw [hashUpdates, dif_neg last]
      exact log

theorem sha256Sum_log (ready : Bool) :
    Ends [] (sha256Sum ready memory input inLen out) fun events (code, _) =>
      (code = cryptoOk ↔ ¬ BadArg input inLen out ∧ ready = true ∧ ∀ event ∈ events, Passed event) ∧
        ∀ event ∈ events, InChunks event := by
  rw [sha256Sum]
  split
  · rename_i bad
    exact ⟨iff_of_false (by decide) fun good => good.1 bad, by simp⟩
  rename_i arguments
  split
  · rename_i unset
    refine ⟨iff_of_false (by decide) fun good => ?_, by simp⟩
    rw [good.2.1] at unset
    cases unset
  rename_i set
  have begun : ready = true := by simpa using set
  intro status _
  have start : Log [⟨.psaHashSetup, status⟩] status := by
    constructor
    · rw [List.forall_mem_singleton]
      rfl
    · rw [List.forall_mem_singleton]
      trivial
  refine (ensures_bind (hashUpdates memory input inLen status 0) _ _).mpr
    ((hashUpdates_log status 0 start).imp ?_)
  intro events status log
  have aborts : ∀ {before : List (Event Reply)} {status : Int}, status ≠ psaSuccess →
      (¬ ∀ event ∈ before, Passed event) → (∀ event ∈ before, InChunks event) →
      Ends before (psaHashAbort >>= fun _ => pure (fromPsa status, memory)) fun events (code, _) =>
        (code = cryptoOk ↔ ¬ BadArg input inLen out ∧ ready = true ∧ ∀ event ∈ events, Passed event) ∧
          ∀ event ∈ events, InChunks event := by
    intro before status failed some' chunks reply _
    constructor
    · refine iff_of_false (fun ok => failed ((fromPsa_ok status).mp ok)) fun good => some' ?_
      exact (List.forall_mem_append.mp good.2.2).1
    · rw [List.forall_mem_append, List.forall_mem_singleton]
      exact ⟨chunks, trivial⟩
  rw [hashFinish]
  split
  · rename_i success
    rintro ⟨status', digest, len⟩ _
    have here : status' = psaSuccess ∧ len = sha256Len ↔
        Passed ⟨.psaHashFinish sha256Len, (status', digest, len)⟩ := Iff.rfl
    have chunks : ∀ event ∈ events ++ [⟨.psaHashFinish sha256Len, (status', digest, len)⟩],
        InChunks event := by
      rw [List.forall_mem_append, List.forall_mem_singleton]
      exact ⟨log.chunks, trivial⟩
    change Ends _ (if _ then _ else _) _
    split
    · rename_i wrong
      refine aborts ?_ ?_ chunks
      · split
        · exact corruption_fails
        · assumption
      · rw [List.forall_mem_append, List.forall_mem_singleton, ← here]
        exact fun all => not_and_or.mpr wrong all.2
    · rename_i whole
      refine ⟨iff_of_true rfl ⟨arguments, begun, ?_⟩, chunks⟩
      rw [List.forall_mem_append, List.forall_mem_singleton, ← here]
      exact ⟨log.passed.mp success, not_not.mp (mt not_and_or.mp whole)⟩
  · rename_i failed
    have wrong : status ≠ psaSuccess ∨ (0 : Nat) ≠ sha256Len := Or.inl failed
    change Ends events (if _ then _ else _) _
    rw [if_pos wrong, if_neg failed]
    exact aborts failed (mt log.passed.mpr failed) log.chunks

end Calls

/-- Whatever fails: the operation is closed at the end, and the output has the hash of the input
as it was before, or is left alone. The two may share bytes. -/
theorem sha256_is_streamed {hash : List UInt8 → Bytes sha256Len} (ready : Bool) (memory : Space)
    (input inLen out : Nat) {events : List (Event Reply)} {code : Int} {left : Space} {last : Operation}
    (run : Execution (sha256Sum ready memory input inLen out) events (code, left))
    (answered : Runs.Run (Step hash) .inactive events last) :
    last = .inactive ∧
      (code = cryptoOk ↔ ¬ BadArg input inLen out ∧ ready = true ∧ ∀ event ∈ events, Passed event) ∧
      (code = cryptoOk → left = write memory out (hash (read memory ⟨input, inLen⟩)).toList) ∧
      (code ≠ cryptoOk → left = memory) ∧ ∀ event ∈ events, InChunks event := by
  rcases (sha256Sum_serves ready).execution run answered with ⟨closed, hashed, alone⟩
  rcases (sha256Sum_log ready).post run with ⟨passed, chunks⟩
  exact ⟨closed, passed, hashed, alone, chunks⟩

def threeBytes : Space := write (fun _ => 0) 100 [1, 2, 3]

/-- The digest is written over the last two of the three bytes. -/
theorem overlapping_hash : ∃ events left,
    Execution (sha256Sum true threeBytes 100 3 101) events (cryptoOk, left) ∧
      read left ⟨100, 4⟩ = [1, 6, 6, 6] := by
  let digest : List UInt8 → Bytes sha256Len := fun bytes =>
    List.Vector.replicate sha256Len (UInt8.ofNat bytes.sum.toNat)
  let events : List (Event Reply) := [⟨.psaHashSetup, psaSuccess⟩,
    ⟨.psaHashUpdate (read threeBytes ⟨100, 3⟩), psaSuccess⟩,
    ⟨.psaHashFinish sha256Len, (psaSuccess, digest (read threeBytes ⟨100, 3⟩), sha256Len)⟩]
  have answered : Runs.Run (Step digest) .inactive events .inactive :=
    .snoc (.snoc (.snoc .nil .setup) (.update [] _)) (.finish _)
  have run : Execution (sha256Sum true threeBytes 100 3 101) events
      (cryptoOk, write threeBytes 101 (digest (read threeBytes ⟨100, 3⟩)).toList) := by
    refine .call ?_
    change Execution (hashUpdates threeBytes 100 3 psaSuccess 0 >>= _) _ _
    rw [hashUpdates, dif_pos (by decide)]
    refine .call ?_
    change Execution (hashUpdates threeBytes 100 3 psaSuccess 3 >>= _) _ _
    rw [hashUpdates, dif_neg (by decide)]
    exact .call (.done _)
  have hashed := (sha256_is_streamed true threeBytes 100 3 101 run answered).2.2.1 rfl
  refine ⟨events, _, run, ?_⟩
  rw [hashed]
  decide

end P4Key.Crypto.Sha
