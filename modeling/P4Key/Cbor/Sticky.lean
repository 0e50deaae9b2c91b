import P4Key.Cbor.Tree

/-! Whether one failed read is enough to reject a buffer.

It is, but for one exit of `reader_skip`: a string that declares more than
`P4_CBOR_MAX_BYTES` returns false and leaves the reader behind its head, at work.
What is said here is which buffers this lets through. -/

namespace P4Key.Cbor

open Memory

def Get.ended {α : Type} (get : Get α) (reader : Reader) : Bool × Reader :=
  ((get reader).1.isSome, (get reader).2)

inductive Call where
  | get (kind : Kind)
  | skip
  deriving DecidableEq, Repr

def Call.run : Call → Reader → Bool × Reader
  | .get kind => Get.ended kind.get
  | .skip => Get.ended P4Key.Cbor.skip

def runCalls : List Call → Reader → List Bool × Reader
  | [], reader => ([], reader)
  | call :: calls, reader =>
    ((call.run reader).1 :: (runCalls calls (call.run reader).2).1,
      (runCalls calls (call.run reader).2).2)

/-- Whatever is called on this buffer: after a call that returns false every call returns
false, and so does `p4_cbor_reader_done`. -/
def Sticky (data : List UInt8) : Prop :=
  ∀ (before : List Call) (call : Call) (after : List Call) (reached : Reader),
    reached = (runCalls before (readerInit data)).2 → (call.run reached).1 = false →
      (∀ result ∈ (runCalls after (call.run reached).2).1, result = false) ∧
        readerDone (runCalls after (call.run reached).2).2 = false

/-! What one call can read. -/

/-- An item of a get, or a negative number that is out of range for `p4_cbor_get_int`. -/
inductive Token where
  | item (item : Item)
  | negative (argument : Nat)
  deriving DecidableEq, Repr

def Token.Valid : Token → Prop
  | .item field => field.Valid
  | .negative argument => int64Max < argument ∧ argument < 2 ^ 64

def Token.encoding : Token → List UInt8
  | .item field => field.encoding
  | .negative argument => headBytes 1 argument

def tokenBytes (tokens : List Token) : List UInt8 := (tokens.map Token.encoding).flatten

/-- The head of a string that is declared longer than any string may be. -/
def Overlong (head : List UInt8) : Prop :=
  ∃ major value, (major = 2 ∨ major = 3) ∧ maxBytes < value ∧ value < 2 ^ 64 ∧
    head = headBytes (UInt8.ofNat major) value

/-- Tokens, then heads of overlong strings, then the end or one more token. -/
def Resumes (data : List UInt8) : Prop :=
  data.length ≤ maxBytes ∧ ∃ tokens heads rest, (∀ token ∈ tokens, token.Valid) ∧ heads ≠ [] ∧
    (∀ head ∈ heads, Overlong head) ∧ data = tokenBytes tokens ++ (heads.flatten ++ rest) ∧
    (rest = [] ∨ ∃ (token : Token) (tail : List UInt8), token.Valid ∧ rest = token.encoding ++ tail)

theorem tokenBytes_append (first second : List Token) :
    tokenBytes (first ++ second) = tokenBytes first ++ tokenBytes second := by
  simp [tokenBytes]

@[simp] theorem tokenBytes_cons (token : Token) (tokens : List Token) :
    tokenBytes (token :: tokens) = token.encoding ++ tokenBytes tokens := rfl

inductive Outcome (least : Nat) (reader : Reader) (rest : List UInt8) : Bool × Reader → Prop where
  | passed (tokens : List Token) (many : least ≤ tokens.length) (valid : ∀ token ∈ tokens, token.Valid)
      (tail : List UInt8) (split : rest = tokenBytes tokens ++ tail) :
      Outcome least reader rest (true, reader.advance (tokenBytes tokens).length)
  | failed (after : Reader) (flag : after.failed = true) : Outcome least reader rest (false, after)
  | stopped (tokens : List Token) (valid : ∀ token ∈ tokens, token.Valid) (head : List UInt8)
      (overlong : Overlong head) (tail : List UInt8)
      (split : rest = tokenBytes tokens ++ (head ++ tail)) :
      Outcome least reader rest (false, reader.advance (tokenBytes tokens ++ head).length)

theorem Outcome.behind {reader : Reader} {rest tail : List UInt8} {result : Bool × Reader}
    (tokens : List Token) (valid : ∀ token ∈ tokens, token.Valid)
    (split : rest = tokenBytes tokens ++ tail) {least : Nat}
    (outcome : Outcome least (reader.advance (tokenBytes tokens).length) tail result) :
    Outcome tokens.length reader rest result := by
  have both : ∀ others : List Token, (∀ token ∈ others, token.Valid) →
      ∀ token ∈ tokens ++ others, token.Valid := by
    intro others legal
    exact List.forall_mem_append.mpr ⟨valid, legal⟩
  cases outcome with
  | passed others many legal end' split' =>
      rw [Reader.advance_advance, ← List.length_append, ← tokenBytes_append]
      refine .passed _ (by simp) (both others legal) end' ?_
      rw [split, split', tokenBytes_append, List.append_assoc]
  | failed after flag => exact .failed after flag
  | stopped others legal head overlong end' split' =>
      rw [Reader.advance_advance, ← List.length_append, ← List.append_assoc, ← tokenBytes_append]
      refine .stopped _ (both others legal) head overlong end' ?_
      rw [split, split', tokenBytes_append, List.append_assoc]

theorem Outcome.weaken {least more : Nat} {reader : Reader} {rest : List UInt8}
    {result : Bool × Reader} (outcome : Outcome more reader rest result) (fewer : least ≤ more) :
    Outcome least reader rest result := by
  cases outcome with
  | passed tokens many valid tail split =>
      exact .passed tokens (Nat.le_trans fewer many) valid tail split
  | failed after flag => exact .failed after flag
  | stopped tokens valid head overlong tail split =>
      exact .stopped tokens valid head overlong tail split

theorem Outcome.one {reader : Reader} {rest tail : List UInt8} (token : Token) (valid : token.Valid)
    (split : rest = token.encoding ++ tail) :
    Outcome 1 reader rest (true, reader.advance token.encoding.length) := by
  have whole : tokenBytes [token] = token.encoding := by simp [tokenBytes]
  rw [← whole] at split ⊢
  exact .passed [token] (by simp) (by simpa using valid) tail split

theorem Get.ended_none {α : Type} {get : Get α} {reader after : Reader}
    (result : get reader = (none, after)) : get.ended reader = (false, after) := by
  rw [Get.ended, result]
  rfl

theorem Get.ended_some {α : Type} {get : Get α} {reader after : Reader} {value : α}
    (result : get reader = (some value, after)) : get.ended reader = (true, after) := by
  rw [Get.ended, result]
  rfl

theorem Get.ended_fail {α : Type} {get : Get α} {reader after : Reader}
    (result : get reader = Get.fail after) :
    get.ended reader = (false, { after with failed := true }) :=
  Get.ended_none result

theorem Kind.get_outcome (kind : Kind) {reader : Reader} {rest : List UInt8}
    (before : reader.Before rest) : Outcome 1 reader rest (Get.ended kind.get reader) := by
  rcases read : kind.get reader with ⟨_ | item, after⟩
  · rw [Get.ended_none read]
    exact .failed after (kind.get_flags reader after read)
  · rcases kind.get_recovers before read with ⟨-, valid, moved, tail, split⟩
    rw [Get.ended_some read, moved]
    exact .one (.item item) valid split

theorem skipItems_outcome {item : Get Unit}
    (one : ∀ reader rest, reader.Before rest → Outcome 1 reader rest (item.ended reader))
    (count : Nat) {reader : Reader} {rest : List UInt8} (before : reader.Before rest) :
    Outcome 0 reader rest ((skipItems item count).ended reader) := by
  induction count generalizing reader rest with
  | zero => exact .passed [] (Nat.zero_le _) (by simp) rest rfl
  | succ count ih =>
      have first := one reader rest before
      rcases read : item reader with ⟨_ | _, after⟩
      · have whole : skipItems item (count + 1) reader = (none, after) := by
          simp only [skipItems, read]
        rw [Get.ended_none read] at first
        rw [Get.ended_none whole]
        exact first.weaken (Nat.zero_le _)
      · have whole : (skipItems item (count + 1)).ended reader = (skipItems item count).ended after := by
          simp only [Get.ended, skipItems, read]
        rw [Get.ended_some read] at first
        rw [whole]
        cases first with
        | passed tokens many valid tail split =>
            rw [split] at before
            exact ((ih before.advance).behind tokens valid split).weaken (Nat.zero_le _)

theorem number_token (major : UInt8) (value : Nat) (number : major = 0 ∨ major = 1)
    (bound : value < 2 ^ 64) :
    ∃ token : Token, token.Valid ∧ token.encoding = headBytes major value := by
  rcases number with rfl | rfl
  · exact ⟨.item (.uint value), bound, rfl⟩
  · by_cases near : value ≤ int64Max
    · refine ⟨.item (.int (-1 - (value : Int))), ?_, int_encoding_negative value⟩
      simp only [int64Max] at near
      exact ⟨by omega, by omega⟩
    · exact ⟨.negative value, ⟨Nat.lt_of_not_le near, bound⟩, rfl⟩

theorem string_token (major : UInt8) (data : List UInt8) (string : major = 2 ∨ major = 3)
    (bound : data.length ≤ maxBytes) :
    ∃ token : Token, token.Valid ∧ token.encoding = headBytes major data.length ++ data := by
  rcases string with rfl | rfl
  · exact ⟨.item (.bytes data), bound, rfl⟩
  · exact ⟨.item (.text data), bound, rfl⟩

theorem container_token (major : UInt8) (count : Nat) (container : major = 4 ∨ major = 5)
    (bound : count ≤ maxContainerItems) :
    ∃ token : Token, token.Valid ∧ token.encoding = headBytes major count := by
  rcases container with rfl | rfl
  · exact ⟨.item (.array count), bound, rfl⟩
  · exact ⟨.item (.map count), bound, rfl⟩

theorem bool_token (value : Nat) (either : value = 20 ∨ value = 21) :
    ∃ token : Token, token.Valid ∧ token.encoding = headBytes 7 value := by
  rcases either with rfl | rfl
  · exact ⟨.item (.bool false), trivial, rfl⟩
  · exact ⟨.item (.bool true), trivial, rfl⟩

/-! `reader_skip`, by the major type of its item. -/

section Skip

variable {budget : Nat} {reader after : Reader} {rest : List UInt8} {major : UInt8} {value : Nat}

theorem skip_number_outcome (before : reader.Before rest)
    (head : readerHead reader = (some (major, value), after)) (number : major = 0 ∨ major = 1) :
    Outcome 1 reader rest ((readerSkip (budget + 1)).ended reader) := by
  rcases readerHead_recovers before head with ⟨bound, moved, tail, split⟩
  have ended : readerSkip (budget + 1) reader = (some (), after) := by
    simp only [readerSkip, head, number, if_true]
  rcases number_token major value number bound.2 with ⟨token, valid, same⟩
  rw [Get.ended_some ended, moved, ← same]
  rw [← same] at split
  exact .one token valid split

theorem skip_string_outcome (before : reader.Before rest)
    (head : readerHead reader = (some (major, value), after)) (number : ¬ (major = 0 ∨ major = 1))
    (string : major = 2 ∨ major = 3) :
    Outcome 1 reader rest ((readerSkip (budget + 1)).ended reader) := by
  rcases readerHead_recovers before head with ⟨bound, moved, tail, split⟩
  by_cases inside : value ≤ maxBytes
  · rw [split] at before
    have ahead := before.advance
    rw [← moved] at ahead
    rcases read : readerTake value after with ⟨_ | data, last⟩
    · have ended : readerSkip (budget + 1) reader = (none, last) := by
        simp only [readerSkip, head, number, string, inside, if_true, if_false, read]
      rw [Get.ended_none ended]
      exact .failed last (readerTake_flags value after last read)
    · have ended : readerSkip (budget + 1) reader = (some (), last) := by
        simp only [readerSkip, head, number, string, inside, if_true, if_false, read]
      rcases readerTake_recovers ahead read with ⟨size, moved', split'⟩
      rw [← size] at inside moved split
      rcases string_token major data string inside with ⟨token, valid, same⟩
      have total : last = reader.advance token.encoding.length := by
        rw [moved', moved, Reader.advance_advance, same, List.length_append, size]
      have whole : rest = token.encoding ++ tail.drop value := by
        rw [same, List.append_assoc, ← split']
        exact split
      rw [Get.ended_some ended, total]
      exact .one token valid whole
  · -- the exit that leaves the flag alone
    have ended : readerSkip (budget + 1) reader = (none, after) := by
      simp only [readerSkip, head, number, string, inside, if_true, if_false]
    have overlong : Overlong (headBytes major value) := by
      refine ⟨major.toNat, value, ?_, Nat.lt_of_not_le inside, bound.2, ?_⟩
      · rcases string with rfl | rfl
        · exact Or.inl rfl
        · exact Or.inr rfl
      · rw [UInt8.ofNat_toNat]
    rw [Get.ended_none ended, moved]
    exact .stopped [] (by simp) _ overlong tail split

theorem skip_container_outcome
    (inner : ∀ reader rest, reader.Before rest → Outcome 1 reader rest ((readerSkip budget).ended reader))
    (before : reader.Before rest) (head : readerHead reader = (some (major, value), after))
    (number : ¬ (major = 0 ∨ major = 1)) (string : ¬ (major = 2 ∨ major = 3))
    (container : major = 4 ∨ major = 5) :
    Outcome 1 reader rest ((readerSkip (budget + 1)).ended reader) := by
  rcases readerHead_recovers before head with ⟨bound, moved, tail, split⟩
  by_cases large : value > maxContainerItems
  · have ended : readerSkip (budget + 1) reader = Get.fail after := by
      simp only [readerSkip, head, number, string, container, large, if_true, if_false]
    rw [Get.ended_fail ended]
    exact .failed _ rfl
  · have ended : (readerSkip (budget + 1)).ended reader =
        (skipItems (readerSkip budget) (value * if major = 5 then 2 else 1)).ended after := by
      simp only [Get.ended, readerSkip, head, number, string, container, large, if_true, if_false]
    rcases container_token major value container (Nat.le_of_not_lt large) with ⟨token, valid, same⟩
    have one : tokenBytes [token] = headBytes major value := by simp [tokenBytes, same]
    rw [split] at before
    have contents := skipItems_outcome inner (value * if major = 5 then 2 else 1) before.advance
    rw [ended, moved]
    rw [← one] at contents split ⊢
    exact contents.behind [token] (by simpa using valid) split

theorem skip_simple_outcome (before : reader.Before rest)
    (head : readerHead reader = (some (major, value), after)) (number : ¬ (major = 0 ∨ major = 1))
    (string : ¬ (major = 2 ∨ major = 3)) (container : ¬ (major = 4 ∨ major = 5)) :
    Outcome 1 reader rest ((readerSkip (budget + 1)).ended reader) := by
  rcases readerHead_recovers before head with ⟨-, moved, tail, split⟩
  have unfolded : readerSkip (budget + 1) reader =
      if major = 7 ∧ (value = 20 ∨ value = 21) then (some (), after) else Get.fail after := by
    simp only [readerSkip, head, number, string, container, if_false]
  by_cases simple : major = 7 ∧ (value = 20 ∨ value = 21)
  · rw [if_pos simple] at unfolded
    rcases bool_token value simple.2 with ⟨token, valid, same⟩
    rw [simple.1, ← same] at moved split
    rw [Get.ended_some unfolded, moved]
    exact .one token valid split
  · rw [if_neg simple] at unfolded
    rw [Get.ended_fail unfolded]
    exact .failed _ rfl

theorem readerSkip_outcome (budget : Nat) {reader : Reader} {rest : List UInt8}
    (before : reader.Before rest) : Outcome 1 reader rest ((readerSkip budget).ended reader) := by
  induction budget generalizing reader rest with
  | zero => exact .failed _ rfl
  | succ budget ih =>
      rcases head : readerHead reader with ⟨_ | ⟨major, value⟩, after⟩
      · have ended : readerSkip (budget + 1) reader = (none, after) := by
          simp only [readerSkip, head]
        rw [Get.ended_none ended]
        exact .failed after (readerHead_flags reader after head)
      by_cases number : major = 0 ∨ major = 1
      · exact skip_number_outcome before head number
      by_cases string : major = 2 ∨ major = 3
      · exact skip_string_outcome before head number string
      by_cases container : major = 4 ∨ major = 5
      · exact skip_container_outcome (fun _ _ before => ih before) before head number string container
      · exact skip_simple_outcome before head number string container

end Skip

theorem Call.outcome (call : Call) {reader : Reader} {rest : List UInt8}
    (before : reader.Before rest) : Outcome 1 reader rest (call.run reader) := by
  cases call with
  | get kind => exact kind.get_outcome before
  | skip => exact readerSkip_outcome _ before

theorem Call.run_failed (call : Call) {reader : Reader} (failed : reader.failed = true) :
    (call.run reader).1 = false ∧ (call.run reader).2.failed = true := by
  cases call with
  | get kind =>
      rcases kind.get_sticks reader failed with ⟨after, refused, flag⟩
      rw [Call.run, Get.ended_none refused]
      exact ⟨rfl, flag⟩
  | skip =>
      rcases readerSkip_sticks (maxDepth + 1) reader failed with ⟨after, refused, flag⟩
      have ended : Call.skip.run reader = (false, after) := Get.ended_none refused
      rw [ended]
      exact ⟨rfl, flag⟩

/-! Every token is read by some call, and every overlong head stops `p4_cbor_skip`. -/

def Token.call : Token → Call
  | .item field => .get field.kind
  | .negative _ => .skip

theorem Token.call_passes (token : Token) (valid : token.Valid) {reader : Reader} {rest : List UInt8}
    (before : reader.Before (token.encoding ++ rest)) :
    token.call.run reader = (true, reader.advance token.encoding.length) := by
  cases token with
  | item field => exact Get.ended_some (field.get_reads valid reader rest before)
  | negative argument =>
      exact Get.ended_some
        (readerSkip_number 1 argument (Or.inr rfl) valid.2 maxDepth reader rest before)

theorem Overlong.stops {head : List UInt8} (overlong : Overlong head) {reader : Reader}
    {rest : List UInt8} (before : reader.Before (head ++ rest)) :
    Call.skip.run reader = (false, reader.advance head.length) := by
  rcases overlong with ⟨major, value, string, large, bound, rfl⟩
  have read := readerHead_reads major value (by omega) bound reader rest before
  apply Get.ended_none
  rw [skip]
  rcases string with rfl | rfl
  · simp only [UInt8.reduceOfNat] at read
    simp [readerSkip, read, Nat.not_le.mpr large]
  · simp only [UInt8.reduceOfNat] at read
    simp [readerSkip, read, Nat.not_le.mpr large]

theorem runCalls_append (first second : List Call) (reader : Reader) :
    runCalls (first ++ second) reader =
      ((runCalls first reader).1 ++ (runCalls second (runCalls first reader).2).1,
        (runCalls second (runCalls first reader).2).2) := by
  induction first generalizing reader with
  | nil => rfl
  | cons call calls ih => simp [runCalls, ih]

theorem runCalls_tokens (tokens : List Token) (valid : ∀ token ∈ tokens, token.Valid)
    {reader : Reader} {rest : List UInt8} (before : reader.Before (tokenBytes tokens ++ rest)) :
    (runCalls (tokens.map Token.call) reader).2 = reader.advance (tokenBytes tokens).length := by
  induction tokens generalizing reader with
  | nil => rfl
  | cons token tokens ih =>
      rw [tokenBytes_cons, List.append_assoc] at before
      have first := token.call_passes (valid token List.mem_cons_self) before
      have others := ih (fun other member => valid other (List.mem_cons_of_mem _ member)) before.advance
      rw [List.map_cons, runCalls, first]
      simp only
      rw [others, Reader.advance_advance, tokenBytes_cons, List.length_append]

theorem runCalls_heads (heads : List (List UInt8)) (overlong : ∀ head ∈ heads, Overlong head)
    {reader : Reader} {rest : List UInt8} (before : reader.Before (heads.flatten ++ rest)) :
    (runCalls (heads.map fun _ => .skip) reader).2 = reader.advance heads.flatten.length := by
  induction heads generalizing reader with
  | nil => rfl
  | cons head heads ih =>
      rw [List.flatten_cons, List.append_assoc] at before
      have first := (overlong head List.mem_cons_self).stops before
      have others := ih (fun other member => overlong other (List.mem_cons_of_mem _ member))
        before.advance
      rw [List.map_cons, runCalls, first]
      simp only
      rw [others, Reader.advance_advance, List.flatten_cons, List.length_append]

theorem readerInit_at {data bytes : List UInt8} (small : data.length ≤ maxBytes)
    (split : data = bytes) : (readerInit data).Before bytes := by
  have start := readerInit_before data small
  rw [List.append_nil] at start
  exact split ▸ start

/-- A buffer that resumes is read on after a failure. -/
theorem Resumes.not_sticky {data : List UInt8} (resumes : Resumes data) : ¬ Sticky data := by
  rcases resumes with ⟨small, tokens, heads, rest, valid, some', overlong, split, continued⟩
  obtain ⟨head, heads, rfl⟩ := List.exists_cons_of_ne_nil some'
  rw [List.flatten_cons, List.append_assoc] at split
  have start := readerInit_at small split
  have reached := runCalls_tokens tokens valid start
  have there := start.advance
  have stops := (overlong head List.mem_cons_self).stops there
  have behind := there.advance
  have skipped := runCalls_heads heads
    (fun other member => overlong other (List.mem_cons_of_mem _ member))
    behind
  have final := behind.advance
  intro sticky
  have claims := fun after => sticky (tokens.map Token.call) .skip after _ reached.symm (by rw [stops])
  rw [stops] at claims
  simp only at claims
  rcases continued with nothing | ⟨token, tail, legal, here⟩
  · have refused := (claims (heads.map fun _ => .skip)).2
    rw [skipped] at refused
    rw [nothing] at final
    have reachedEnd : readerDone ((((readerInit data).advance (tokenBytes tokens).length).advance
        head.length).advance heads.flatten.length) = true := by
      rcases final with ⟨working, inside, last⟩
      have size := congrArg List.length last
      rw [List.length_drop, List.length_nil] at size
      rw [readerDone, working, Bool.not_false, Bool.true_and, beq_iff_eq]
      omega
    rw [reachedEnd] at refused
    cases refused
  · rw [here] at final
    have passes := token.call_passes legal final
    have refused := (claims ((heads.map fun _ => .skip) ++ [token.call])).1 true (by
      rw [runCalls_append, skipped, List.mem_append]
      right
      rw [runCalls, passes]
      exact List.mem_cons_self)
    cases refused

/-! And every other buffer is rejected for good. -/

inductive Reached (data : List UInt8) : Bool → Reader → Prop where
  | working (small : data.length ≤ maxBytes) (tokens : List Token)
      (valid : ∀ token ∈ tokens, token.Valid) (tail : List UInt8)
      (split : data = tokenBytes tokens ++ tail) :
      Reached data false ((readerInit data).advance (tokenBytes tokens).length)
  | stalled (small : data.length ≤ maxBytes) (tokens : List Token)
      (valid : ∀ token ∈ tokens, token.Valid) (heads : List (List UInt8)) (some' : heads ≠ [])
      (overlong : ∀ head ∈ heads, Overlong head) (tail : List UInt8)
      (split : data = tokenBytes tokens ++ (heads.flatten ++ tail)) :
      Reached data true ((readerInit data).advance (tokenBytes tokens ++ heads.flatten).length)
  | failed (broken : Bool) (reader : Reader) (flag : reader.failed = true) :
      Reached data broken reader

theorem reached_init (data : List UInt8) : Reached data false (readerInit data) := by
  by_cases small : data.length ≤ maxBytes
  · exact .working small [] (by simp) data rfl
  · refine .failed _ _ ?_
    simp only [readerInit, decide_eq_true_eq]
    omega

/-- While no call has failed, a call reads tokens, or stops behind its first overlong head. -/
theorem reached_working {data : List UInt8} (small : data.length ≤ maxBytes) {tokens : List Token}
    (valid : ∀ token ∈ tokens, token.Valid) {tail : List UInt8}
    (split : data = tokenBytes tokens ++ tail) {result : Bool × Reader}
    (outcome : Outcome 1 ((readerInit data).advance (tokenBytes tokens).length) tail result) :
    Reached data (false || !result.1) result.2 := by
  cases outcome with
  | passed others many legal end' split' =>
      rw [Reader.advance_advance, ← List.length_append, ← tokenBytes_append]
      refine .working small (tokens ++ others) (List.forall_mem_append.mpr ⟨valid, legal⟩) end' ?_
      rw [split, split', tokenBytes_append, List.append_assoc]
  | failed after flag => exact .failed _ _ flag
  | stopped others legal head overlong end' split' =>
      rw [Reader.advance_advance, ← List.length_append, ← List.append_assoc, ← tokenBytes_append]
      have one : [head].flatten = head := by simp
      rw [← one]
      refine .stalled small (tokens ++ others) (List.forall_mem_append.mpr ⟨valid, legal⟩) [head]
        (by simp) (by simpa using overlong) end' ?_
      rw [one, tokenBytes_append, List.append_assoc, ← split']
      exact split

/-- Behind an overlong head no token can be read, so a call can only skip one more such head. -/
theorem reached_stalled {data : List UInt8} (safe : ¬ Resumes data)
    (small : data.length ≤ maxBytes) {tokens : List Token} (valid : ∀ token ∈ tokens, token.Valid)
    {heads : List (List UInt8)} (some' : heads ≠ []) (overlong : ∀ head ∈ heads, Overlong head)
    {tail : List UInt8} (split : data = tokenBytes tokens ++ (heads.flatten ++ tail))
    {result : Bool × Reader}
    (outcome : Outcome 1 ((readerInit data).advance (tokenBytes tokens ++ heads.flatten).length)
      tail result) :
    Reached data (true || !result.1) result.2 ∧ result.1 = false := by
  have dead : ∀ (token : Token) (end' : List UInt8), token.Valid → tail ≠ token.encoding ++ end' := by
    intro token end' legal here
    exact safe ⟨small, tokens, heads, tail, valid, some', overlong, split,
      Or.inr ⟨token, end', legal, here⟩⟩
  cases outcome with
  | passed others many legal end' split' =>
      cases others with
      | nil => simp at many
      | cons token others =>
          rw [tokenBytes_cons, List.append_assoc] at split'
          exact absurd split' (dead token _ (legal token List.mem_cons_self))
  | failed after flag => exact ⟨.failed _ _ flag, rfl⟩
  | stopped others legal head overlong' end' split' =>
      cases others with
      | cons token others =>
          rw [tokenBytes_cons, List.append_assoc] at split'
          exact absurd split' (dead token _ (legal token List.mem_cons_self))
      | nil =>
          refine ⟨?_, rfl⟩
          have bytes : tokenBytes [] ++ head = head := rfl
          have longer : heads.flatten ++ head = (heads ++ [head]).flatten := by simp
          rw [bytes, Reader.advance_advance, ← List.length_append, List.append_assoc, longer]
          refine .stalled small tokens valid (heads ++ [head]) (by simp) ?_ end' ?_
          · exact List.forall_mem_append.mpr ⟨overlong, List.forall_mem_singleton.mpr overlong'⟩
          · rw [← longer, List.append_assoc]
            exact split'.symm ▸ split

theorem Reached.call {data : List UInt8} (safe : ¬ Resumes data) {broken : Bool} {reader : Reader}
    (reached : Reached data broken reader) (call : Call) :
    Reached data (broken || !(call.run reader).1) (call.run reader).2 ∧
      (broken = true → (call.run reader).1 = false) := by
  cases reached with
  | working small tokens valid tail split =>
      have before := (readerInit_at small split).advance
      exact ⟨reached_working small valid split (call.outcome before), by
        intro impossible; cases impossible⟩
  | stalled small tokens valid heads some' overlong tail split =>
      have before := (readerInit_at small (split.trans (List.append_assoc _ _ _).symm)).advance
      have stuck := reached_stalled safe small valid some' overlong split (call.outcome before)
      exact ⟨stuck.1, fun _ => stuck.2⟩
  | failed _ _ flag =>
      have dies := call.run_failed flag
      exact ⟨.failed _ _ dies.2, fun _ => dies.1⟩

theorem Reached.calls {data : List UInt8} (safe : ¬ Resumes data) (calls : List Call) {broken : Bool}
    {reader : Reader} (reached : Reached data broken reader) :
    ∃ broken', Reached data broken' (runCalls calls reader).2 ∧ (broken = true → broken' = true ∧
      ∀ result ∈ (runCalls calls reader).1, result = false) := by
  induction calls generalizing broken reader with
  | nil => exact ⟨broken, reached, fun failed => ⟨failed, by simp [runCalls]⟩⟩
  | cons call calls ih =>
      have step := reached.call safe call
      rcases ih step.1 with ⟨broken', later, rest⟩
      refine ⟨broken', later, ?_⟩
      intro failed
      rcases rest (by rw [failed, Bool.true_or]) with ⟨still, results⟩
      refine ⟨still, ?_⟩
      intro result member
      rcases List.mem_cons.mp member with rfl | member
      · exact step.2 failed
      · exact results result member

theorem Reached.not_done {data : List UInt8} (safe : ¬ Resumes data) {reader : Reader}
    (reached : Reached data true reader) : readerDone reader = false := by
  rw [Bool.eq_false_iff]
  intro done
  rw [readerDone, Bool.and_eq_true, beq_iff_eq, Bool.not_eq_true'] at done
  cases reached with
  | stalled small tokens valid heads some' overlong tail split =>
      have size := congrArg List.length split
      have here := done.2
      simp only [Reader.advance, readerInit, List.length_append] at size here
      refine safe ⟨small, tokens, heads, tail, valid, some', overlong, split, Or.inl ?_⟩
      apply List.eq_nil_of_length_eq_zero
      omega
  | failed _ _ flag =>
      rw [flag] at done
      cases done.1

/-- A failed read is enough to reject exactly the buffers that do not resume. -/
theorem failure_is_sticky_iff (data : List UInt8) : Sticky data ↔ ¬ Resumes data := by
  constructor
  · intro sticky resumes
    exact resumes.not_sticky sticky
  · intro safe before call after reached here failed
    rcases (reached_init data).calls safe before with ⟨broken, there, -⟩
    rw [← here] at there
    have step := (there.call safe call).1
    rw [failed, Bool.not_false, Bool.or_true] at step
    rcases step.calls safe after with ⟨broken', last, rest⟩
    rcases rest rfl with ⟨still, results⟩
    rw [still] at last
    exact ⟨results, last.not_done safe⟩

/-- A string of 2049 bytes is declared, and the buffer ends behind its head. -/
theorem overlong_string_is_done : ¬ Sticky [0x59, 0x08, 0x01] := by
  intro sticky
  have accepted := (sticky [] .skip [] _ rfl (by decide)).2
  revert accepted
  decide

end P4Key.Cbor
