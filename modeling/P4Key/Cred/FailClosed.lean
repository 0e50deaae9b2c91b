import P4Key.Cred.RoundTrip
import P4Key.Crypto.Outcomes

/-! Credential calls fail closed, whatever the functions under them return. -/

namespace P4Key.Cred

open Memory CallProgram

/-- How a call with an output of `needed` bytes may end: with all of them written, or with an
error and zeros. Nothing changes behind them. -/
inductive FailsClosed (needed cap : Nat) (out : Option (List UInt8))
    (Written : List UInt8 → Prop) : Int × Option (List UInt8) → Prop where
  | success {memory bytes : List UInt8} (given : out = some memory) (room : needed ≤ cap)
      (whole : bytes.length = needed) (written : Written bytes) :
      FailsClosed needed cap out Written (credOk, some (bytes ++ memory.drop needed))
  | failure {error : Int} (failed : error ≠ credOk) :
      FailsClosed needed cap out Written
        (error, out.map fun memory => zeros (min cap needed) ++ memory.drop (min cap needed))

/-- The id of the nonce that was drawn, with what `gcm_seal` made of RP hash and scalar. -/
def Sealed (rpIdHash privateScalar : Option (List UInt8)) (events : List (Event Reply))
    (id : List UInt8) : Prop :=
  ∃ hash ∈ rpIdHash, ∃ scalar ∈ privateScalar, ∃ nonce root cipher tag,
    ⟨.randFill, (cryptoOk, nonce)⟩ ∈ events ∧ ⟨.rootLoad, (credOk, root)⟩ ∈ events ∧
    ⟨.gcmSeal root nonce (load aadLen (aad header) 0) (load cipherLen (plain hash scalar) 0),
      (cryptoOk, cipher, tag)⟩ ∈ events ∧
    id = header ++ nonce.toList ++ cipher.toList ++ tag.toList

/-- The scalar behind the RP hash in what `gcm_open` made of the id. -/
def Unsealed (rpIdHash credentialId : Option (List UInt8)) (events : List (Event Reply))
    (scalar : List UInt8) : Prop :=
  ∃ hash ∈ rpIdHash, ∃ id ∈ credentialId, ∃ root plaintext,
    ⟨.rootLoad, (credOk, root)⟩ ∈ events ∧
    ⟨.gcmOpen root (load nonceLen id nonceOffset) (load aadLen (aad (slice id 0 headerLen)) 0)
      (load cipherLen id cipherOffset) (load tagLen id tagOffset), (cryptoOk, plaintext)⟩ ∈ events ∧
    plaintext.toList = hash ++ scalar

def Whole (needed : Nat) (Written : List UInt8 → Prop) : Except Int (List UInt8) → Prop
  | .error error => error ≠ credOk
  | .ok bytes => bytes.length = needed ∧ Written bytes

theorem clear_eq (memory : List UInt8) (len : Nat) (inside : len ≤ memory.length) :
    clear memory len = zeros len ++ memory.drop len := by
  rw [clear, store_fits _ _ _ (by rw [length_zeros]; omega), List.take_zero, List.nil_append,
    length_zeros, Nat.zero_add]

theorem clearPrefix_closed {out : Option (List UInt8)} {cap : Nat} {Written : List UInt8 → Prop}
    (backed : ∀ memory ∈ out, cap ≤ memory.length) (needed : Nat) {error : Int}
    (failed : error ≠ credOk) :
    FailsClosed needed cap out Written (error, clearPrefix out cap needed) := by
  have wiped : clearPrefix out cap needed =
      out.map fun memory => zeros (min cap needed) ++ memory.drop (min cap needed) := by
    apply Option.map_congr
    intro memory given
    exact clear_eq memory _ (le_trans (min_le_left _ _) (backed memory given))
  rw [wiped]
  exact .failure failed

theorem finish_failed {memory : List UInt8} {cap : Nat} {Written : List UInt8 → Prop}
    (backed : cap ≤ memory.length) (needed : Nat) {error : Int} (failed : error ≠ credOk) :
    FailsClosed needed cap (some memory) Written (finish memory cap needed (.error error)) :=
  clearPrefix_closed (fun _ given => Option.some.inj given ▸ backed) needed failed

theorem finish_closed {memory : List UInt8} {cap needed : Nat} {Written : List UInt8 → Prop}
    (backed : cap ≤ memory.length) (room : needed ≤ cap) {result : Except Int (List UInt8)}
    (whole : Whole needed Written result) :
    FailsClosed needed cap (some memory) Written (finish memory cap needed result) := by
  cases result with
  | error error => exact finish_failed backed needed whole
  | ok bytes =>
    have length : bytes.length = needed := whole.1
    rw [finish, store_fits _ _ _ (by omega), List.take_zero, List.nil_append, length, Nat.zero_add]
    exact .success rfl room length whole.2

theorem scalarCheck_ends {allowed : Event Reply → Prop} (scalar : Bytes 32) (mismatchOnKey : Bool)
    (before : List (Event Reply)) :
    Ensures allowed before (scalarCheck scalar mismatchOnKey) fun events result =>
      ∃ reply, allowed ⟨.p256Pub scalar, reply⟩ ∧
        events = before ++ [⟨.p256Pub scalar, reply⟩] ∧
        (result = credOk ↔ reply.1 = cryptoOk) := by
  simp only [scalarCheck, p256Pub, Program.perform_bind, ensures_call]
  intro reply legal
  refine ⟨reply, legal, rfl, ?_⟩
  split
  · exact iff_of_true rfl ‹_›
  · rename_i failed
    refine iff_of_false ?_ failed
    repeat' split
    all_goals decide

theorem wrapKey_whole (rpIdHash privateScalar : List UInt8) (before : List (Event Reply)) :
    Ends before (wrapKey rpIdHash privateScalar) fun events result =>
      Whole credIdLen (Sealed (some rpIdHash) (some privateScalar) events) result := by
  simp only [wrapKey, randFill, rootLoad, gcmSeal, Program.perform_bind, ensures_call]
  intro reply _
  obtain ⟨randError, nonce⟩ := reply
  split
  · exact (by decide : credErrCrypto ≠ credOk)
  · rename_i drawn
    intro reply _
    obtain ⟨rootError, root⟩ := reply
    simp only
    split
    · exact (by decide : credErrRoot ≠ credOk)
    · rename_i loaded
      intro reply _
      obtain ⟨sealError, cipher, tag⟩ := reply
      simp only
      split
      · exact (by decide : credErrCrypto ≠ credOk)
      · rename_i done
        have drawn : randError = cryptoOk := not_not.mp drawn
        rw [not_not] at loaded done
        have id := wrapped_eq nonce.toList cipher.toList tag.toList nonce.toList_length
          cipher.toList_length tag.toList_length
        refine ⟨by simp [wrapped], rpIdHash, rfl, privateScalar, rfl, nonce, root, cipher, tag, ?_,
          ?_, ?_, id⟩
        · simp [drawn]
        · simp [loaded]
        · simp [done]

def OpensElsewhere (rpIdHash : List UInt8) : Event Reply → Prop
  | ⟨.gcmOpen _ _ _ _ _, (error, plain)⟩ =>
    error = cryptoOk ∧ slice plain.toList 0 rpIdHashLen ≠ rpIdHash
  | _ => False

theorem openKey_whole (rpIdHash credentialId : List UInt8) (hash : rpIdHash.length = rpIdHashLen) :
    Ends [] (openKey rpIdHash credentialId) fun events result =>
      Whole privateScalarLen (Unsealed (some rpIdHash) (some credentialId) events) result ∧
        ((∃ event ∈ events, OpensElsewhere rpIdHash event) → result = .error credErrMismatch) := by
  simp only [openKey, rootLoad, gcmOpen, Program.perform_bind, ensures_call]
  intro reply _
  obtain ⟨rootError, root⟩ := reply
  split
  · exact ⟨(by decide : credErrRoot ≠ credOk), by simp [OpensElsewhere]⟩
  · rename_i loaded
    intro reply _
    obtain ⟨openError, plain⟩ := reply
    simp only
    split
    · rename_i refused
      refine ⟨?_, by simp [OpensElsewhere, refused]⟩
      show (if openError = cryptoAuth then credErrMismatch else credErrCrypto) ≠ credOk
      split <;> decide
    · rename_i opened
      apply (ensures_bind _ _ _).mpr
      apply (scalarCheck_ends _ true _).imp
      intro events keyResult facts
      obtain ⟨reply, _, history, _⟩ := facts
      split
      · exact ⟨(by decide : credErrMismatch ≠ credOk), fun _ => rfl⟩
      · rename_i matched
        have size : (slice plain.toList 0 rpIdHashLen).length = rpIdHash.length := by
          rw [hash]
          simp [slice, rpIdHashLen]
        simp only [Bool.not_eq_true', not_or, Bool.not_eq_false, equalHash_iff _ _ size] at matched
        have nowhere : ¬ ∃ event ∈ events, OpensElsewhere rpIdHash event := by
          rw [history]
          simp [OpensElsewhere, matched.1]
        split
        · rename_i failed
          exact ⟨failed, fun elsewhere => absurd elsewhere nowhere⟩
        · have text : plain.toList = rpIdHash ++ (load privateScalarLen plain.toList
              rpIdHashLen).toList := by
            have joined := congrArg List.Vector.toList (contents_load plain)
            rw [contents_toList, load_toList _ _ _ (by simp), matched.1] at joined
            exact joined.symm
          have loaded : rootError = credOk := not_not.mp loaded
          rw [not_not] at opened
          refine ⟨⟨List.Vector.toList_length _, rpIdHash, rfl, credentialId, rfl, root, plain, ?_, ?_,
            text⟩, fun elsewhere => absurd elsewhere nowhere⟩
          · rw [history]
            simp [loaded]
          · rw [history]
            simp [opened]

/-! The two functions. -/

variable {cap : Nat}

theorem credWrap_closed (rpIdHash privateScalar : Option (List UInt8))
    {out : Option (List UInt8)} (backed : ∀ memory ∈ out, cap ≤ memory.length) :
    Ends [] (credWrap rpIdHash privateScalar out cap) fun events outcome =>
      FailsClosed credIdLen cap out (Sealed rpIdHash privateScalar events) outcome := by
  have argument : credErrArg ≠ credOk := by decide
  unfold credWrap
  split
  · rename_i rpIdHash privateScalar memory
    have space : cap ≤ memory.length := backed memory rfl
    split
    · exact finish_failed space credIdLen argument
    · split
      · exact finish_failed space credIdLen (by decide)
      · rename_i room
        apply (ensures_bind _ _ _).mpr
        apply (scalarCheck_ends _ false _).imp
        intro events result _
        split
        · rename_i failed
          exact finish_failed space credIdLen failed
        · apply (ensures_bind _ _ _).mpr
          apply (wrapKey_whole rpIdHash privateScalar events).imp
          intro _ id whole
          exact finish_closed space (Nat.not_lt.mp room) whole
  · exact clearPrefix_closed backed credIdLen argument

theorem credOpen_closed (rpIdHash credentialId : Option (List UInt8))
    {out : Option (List UInt8)} (backed : ∀ memory ∈ out, cap ≤ memory.length) :
    Ends [] (credOpen rpIdHash credentialId out cap) fun events outcome =>
      FailsClosed privateScalarLen cap out (Unsealed rpIdHash credentialId events) outcome ∧
        ∀ hash ∈ rpIdHash, (∃ event ∈ events, OpensElsewhere hash event) →
          outcome.1 = credErrMismatch := by
  have argument : credErrArg ≠ credOk := by decide
  unfold credOpen
  split
  · rename_i rpIdHash credentialId memory
    have space : cap ≤ memory.length := backed memory rfl
    split
    · exact ⟨finish_failed space privateScalarLen argument, by simp⟩
    · rename_i hash
      split
      · exact ⟨finish_failed space privateScalarLen (by decide), by simp⟩
      · rename_i room
        split
        · exact ⟨finish_failed space privateScalarLen (by decide), by simp⟩
        · apply (ensures_bind _ _ _).mpr
          apply (openKey_whole rpIdHash credentialId (not_not.mp hash)).imp
          intro events scalar ⟨whole, elsewhere⟩
          refine ⟨finish_closed space (Nat.not_lt.mp room) whole, ?_⟩
          intro given same opens
          rw [elsewhere (Option.some.inj same ▸ opens)]
          rfl
  · exact ⟨clearPrefix_closed backed privateScalarLen argument, by simp⟩

/-! An invalid scalar is found first. -/

/-- A reply of `p256_pub` that p4_crypto_p256.c can give for the scalar. -/
def PubReply : Event Reply → Prop
  | ⟨.p256Pub scalar, reply⟩ => ∃ target ready memory priv x y calls left,
    AddressSpace.read memory ⟨priv, privateScalarLen⟩ = scalar.toList ∧
      Execution (Crypto.p256Pub target ready memory priv x y) calls (reply.1, left)
  | _ => True

theorem PubReply.valid {scalar : Bytes 32} {reply : Reply (.p256Pub scalar)}
    (answer : PubReply ⟨.p256Pub scalar, reply⟩) (ok : reply.1 = cryptoOk) :
    Crypto.scalarValid scalar.toList = true := by
  obtain ⟨target, ready, memory, priv, x, y, calls, left, same, run⟩ := answer
  rw [← same]
  exact Crypto.p256Pub_valid target ready memory run ok

def BehindCheck : Call → Prop
  | .randFill => True
  | .rootLoad => True
  | .gcmSeal _ _ _ _ => True
  | _ => False

theorem credWrap_quiet (rpIdHash privateScalar out : Option (List UInt8)) (cap : Nat) :
    Ensures PubReply [] (credWrap rpIdHash privateScalar out cap) fun events _ =>
      ∀ scalar ∈ privateScalar, Crypto.scalarValid scalar = false →
        ∀ event ∈ events, ¬ BehindCheck event.1 := by
  unfold credWrap
  split
  · rename_i rpIdHash privateScalar memory
    split
    · exact fun _ _ _ _ member => absurd member List.not_mem_nil
    · rename_i lengths
      split
      · exact fun _ _ _ _ member => absurd member List.not_mem_nil
      · apply (ensures_bind _ _ _).mpr
        apply (scalarCheck_ends _ false _).imp
        intro events result ⟨reply, answer, history, ok⟩
        split
        · intro _ _ _ event member
          rw [history, List.nil_append, List.mem_singleton] at member
          rw [member]
          exact id
        · rename_i passed
          have valid := PubReply.valid answer (ok.mp (not_not.mp passed))
          apply (ensures_true _).imp
          intro _ _ _ scalar given invalid
          have size : privateScalar.length = privateScalarLen := by
            simp only [not_or, not_not] at lengths
            exact lengths.2
          rw [load_short _ _ (Nat.le_of_eq size), size, Nat.sub_self, zeros, List.replicate_zero,
            List.append_nil, Option.some.inj given, invalid] at valid
          exact absurd valid (by decide)
  · exact fun _ _ _ _ member => absurd member List.not_mem_nil

/-- Both functions fail closed for all pointers, lengths and capacities. `cred_wrap` uses no key
for an invalid scalar, and a credential of another RP is a mismatch whatever its scalar is. -/
theorem credential_calls_fail_closed (cap : Nat) (out : Option (List UInt8))
    (backed : ∀ memory ∈ out, cap ≤ memory.length) :
    (∀ rpIdHash privateScalar events outcome,
      Execution (credWrap rpIdHash privateScalar out cap) events outcome →
        FailsClosed credIdLen cap out (Sealed rpIdHash privateScalar events) outcome ∧
        ((∀ event ∈ events, PubReply event) →
          ∀ scalar ∈ privateScalar, Crypto.scalarValid scalar = false →
            ∀ event ∈ events, ¬ BehindCheck event.1)) ∧
    ∀ rpIdHash credentialId events outcome,
      Execution (credOpen rpIdHash credentialId out cap) events outcome →
        FailsClosed privateScalarLen cap out (Unsealed rpIdHash credentialId events) outcome ∧
        ∀ hash ∈ rpIdHash, (∃ event ∈ events, OpensElsewhere hash event) →
          outcome.1 = credErrMismatch := by
  constructor
  · intro rpIdHash privateScalar events outcome run
    have closed := (credWrap_closed rpIdHash privateScalar backed).post run
    have quiet := (ensures_iff _ _).mp (credWrap_quiet rpIdHash privateScalar out cap) events outcome
      run
    exact ⟨closed, quiet⟩
  · intro rpIdHash credentialId events outcome run
    exact (credOpen_closed rpIdHash credentialId backed).post run

theorem zero_refused : Execution (Crypto.p256Pub Crypto.esp32p4 true (fun _ => 0) 100 200 300) []
    (cryptoKey, fun _ => 0) := by
  rw [Crypto.p256Pub, if_neg (by decide), if_neg (by decide), if_neg (by decide),
    if_pos (by decide)]
  exact .done _

theorem FailsClosed.written {needed cap : Nat} {out : Option (List UInt8)}
    {Written : List UInt8 → Prop} {outcome : Int × Option (List UInt8)}
    (closed : FailsClosed needed cap out Written outcome) (ok : outcome.1 = credOk) :
    ∃ memory ∈ out, ∃ bytes, Written bytes ∧ outcome.2 = some (bytes ++ memory.drop needed) := by
  cases closed with
  | success given room whole written => exact ⟨_, given, _, written, rfl⟩
  | failure failed => exact absurd ok failed

/-- The scalar zero is not wrapped, another one is, and a credential for the hash of zeros is not
opened for that of ones. -/
theorem credential_calls_fail_closed_zero :
    (∀ event ∈ (credWrap (some (zeros 32)) (some (zeros 32)) (some (zeros 100)) 100).trace
      plainReplies, ¬ BehindCheck event.1) ∧
    (∃ id, Sealed (some (zeros 32)) (some (List.replicate 32 2)) ((credWrap (some (zeros 32))
      (some (List.replicate 32 2)) (some (zeros 100)) 100).trace plainReplies) id ∧
      ((credWrap (some (zeros 32)) (some (List.replicate 32 2)) (some (zeros 100)) 100).value
        plainReplies).2 = some id) ∧
    ((credOpen (some (List.replicate 32 1)) (some (header ++ zeros 76 ++ List.replicate 16 7))
      (some (zeros 100)) 100).value plainReplies).1 = credErrMismatch := by
  have backed : ∀ memory ∈ some (zeros 100), 100 ≤ memory.length := by simp
  obtain ⟨wraps, opens⟩ := credential_calls_fail_closed 100 (some (zeros 100)) backed
  refine ⟨?_, ?_, ?_⟩
  · apply (wraps (some (zeros 32)) (some (zeros 32)) _ _ (execution_value plainReplies _)).2 _
      (zeros 32) rfl (by decide)
    intro event member
    have only : event = ⟨.p256Pub (load 32 (zeros 32) 0), plainReplies _⟩ :=
      List.mem_singleton.mp member
    rw [only]
    exact ⟨Crypto.esp32p4, true, fun _ => 0, 100, 200, 300, [], fun _ => 0, by decide, zero_refused⟩
  · have closed := (wraps (some (zeros 32)) (some (List.replicate 32 2)) _ _
      (execution_value plainReplies _)).1
    obtain ⟨memory, given, id, written, out⟩ := closed.written (by decide +kernel)
    cases given
    rw [List.drop_eq_nil_of_le (by rw [length_zeros]; decide), List.append_nil] at out
    exact ⟨id, written, out⟩
  · apply (opens (some (List.replicate 32 1)) _ _ _ (execution_value plainReplies _)).2
      (List.replicate 32 1) rfl
    exact ⟨_, List.mem_cons_of_mem _ List.mem_cons_self, by decide, by decide⟩

end P4Key.Cred
