import P4Key.Crypto.IdealAnswers
import P4Key.Ctap.AssertionGrammar
import P4Key.Device.Agreement
import P4Key.Device.Delivers
import P4Key.Device.Works

/-! The device on such a platform: what a registration promises, an assertion keeps. -/

namespace P4Key.Device.Platform

open Memory CallProgram Cbor Ctap

variable {outside : Outside} {state : State}

def Consents : Event Reply → Prop
  | ⟨.pressWait _, result⟩ => result = pressOk
  | ⟨.pressCancelled _, cancelled⟩ => cancelled = false
  | _ => True

def ConsentedStep (outside : Outside) (before : State) (event : Event Reply) (after : State) : Prop :=
  Step outside before event after ∧ Consents event

def Consented : Event Device.Reply → Prop
  | ⟨.pressWait _, result⟩ => result = pressOk
  | ⟨.pressCancelled _, cancelled⟩ => cancelled = false
  | _ => True

theorem body_consented (frame : Frame) (idle : state.Idle) (call : Device.Call) :
    Serves (ConsentedStep outside) state (body frame call) fun after reply =>
      after = state ∧ Sound outside ⟨call, reply⟩ ∧ Works ⟨call, reply⟩ ∧ Consented ⟨call, reply⟩ := by
  have delivers : Serves (ConsentedStep outside) state (body frame call) fun after reply =>
      after = state ∧ Sound outside ⟨call, reply⟩ ∧ Works ⟨call, reply⟩ :=
    (body_delivers frame idle call).restrict fun _ _ _ both => both.1
  have consented : Serves (ConsentedStep outside) state (body frame call) fun _ reply =>
      Consented ⟨call, reply⟩ := by
    cases call with
    | pressWait cid => exact fun reply after both => both.2
    | pressCancelled cid => exact fun reply after both => both.2
    | _ => exact delivers.imp fun _ _ _ => trivial
  exact (delivers.and consented).imp fun _ _ ⟨⟨same, sound, works⟩, consent⟩ =>
    ⟨same, sound, works, consent⟩

/-! Commands. -/

/-- What holds of a command over sound calls holds of it on the platform. -/
theorem platform_serves {α : Type} {command : Command α} {post : α → Prop} (frame : Frame)
    (idle : state.Idle)
    (holds : Ensures (CommandSound outside) [] command fun _ value => post value) :
    Serves (Step outside) state (platform frame command) fun after value =>
      after = state ∧ post value := by
  have linked := ensures_interpret Device.body (fun call before => body_sound call) command post [] holds
  have each : ∀ (call : Device.Call) (here : State), here = state →
      Serves (Step outside) here (body frame call) fun after reply =>
        after = state ∧ Sound outside ⟨call, reply⟩ := by
    rintro call here rfl
    exact (body_delivers frame idle call).imp fun _ _ ⟨same, sound, _⟩ => ⟨same, sound⟩
  rw [platform]
  exact linked.served each rfl

abbrev Working (outside : Outside) (event : Event Device.Reply) : Prop :=
  Sound outside event ∧ Works event ∧ Consented event

theorem credWrap_works {before : List (Event Device.Reply)} (rpHash scalar : Bytes 32) :
    Ensures (Working outside) before (Device.body (.credWrap rpHash scalar)) fun _ reply =>
      Crypto.scalarValid scalar.toList = true → reply.1 = credOk := by
  have wraps : Ensures (Cred.Ideal outside.scheme outside.root) []
      (Cred.credWrap (some rpHash.toList) (some scalar.toList) (some (zeros 100)) 100)
      fun _ result => Crypto.scalarValid scalar.toList = true → result.1 = credOk := by
    refine (ensures_iff _ _).mpr fun events result run ideal valid => ?_
    have spec := (ensures_iff _ _).mp (@Cred.credWrap_ensures outside.scheme outside.root [] rpHash
      scalar (zeros 100) 100 (by decide)) events result run fun event member => (ideal event member).1
    rcases spec with ⟨-, nonce, rfl⟩ | ⟨-, invalid | ⟨event, member, failed⟩⟩
    · rfl
    · rw [valid] at invalid
      cases invalid
    · exact absurd (ideal event member).2 failed
  have each : ∀ (call : Cred.Call) (before : List (Event Device.Reply)), Ensures (Working outside) before
      (Program.perform (Device.Call.cred call)) fun _ reply =>
        Cred.Ideal outside.scheme outside.root ⟨call, reply⟩ :=
    fun call before reply working => ⟨working.1, working.2.1⟩
  have linked := ensures_interpret _ each _ _ before wraps
  exact (ensures_bind _ _ _).mpr linked

theorem body_works {before : List (Event Device.Reply)} (call : Ctap.Call) :
    Ensures (Working outside) before (Device.body call) fun _ reply => Obliging outside ⟨call, reply⟩ := by
  have sound : Ensures (Working outside) before (Device.body call) fun _ reply =>
      CommandSound outside ⟨call, reply⟩ := (body_sound call).strengthen fun _ working => working.1
  cases call with
  | sha256Sum input => exact fun reply working => ⟨working.1, working.2.1⟩
  | credOpen rpHash id => exact sound.imp fun _ _ right => ⟨right, trivial⟩
  | credWrap rpHash scalar => exact sound.and (credWrap_works rpHash scalar)
  | pressWait cid => exact fun reply working => ⟨working.1, working.2.2⟩
  | pressCancelled cid => exact fun reply working => ⟨working.1, working.2.2⟩
  | p256Make => exact fun reply working => ⟨working.1, working.2.1⟩
  | p256SignHash scalar digest => exact fun reply working => ⟨working.1, working.2.1⟩

theorem platform_works {α : Type} {command : Command α} {post : α → Prop} (frame : Frame)
    (idle : state.Idle) (holds : Ensures (Obliging outside) [] command fun _ value => post value) :
    Serves (ConsentedStep outside) state (platform frame command) fun after value =>
      after = state ∧ post value := by
  have linked := ensures_interpret Device.body (fun call before => body_works call) command post [] holds
  have each : ∀ (call : Device.Call) (here : State), here = state →
      Serves (ConsentedStep outside) here (body frame call) fun after reply =>
        after = state ∧ Working outside ⟨call, reply⟩ := by
    rintro call here rfl
    exact body_consented frame idle call
  rw [platform]
  exact linked.served each rfl

/-! Such a platform exists. -/

theorem hash_answers (hash : List UInt8 → Bytes 32) (operation : Crypto.Sha.Operation)
    (call : Crypto.Sha.Call) :
    ∃ reply after, Crypto.Sha.Step hash operation ⟨call, reply⟩ after ∧
      (Fits operation call → Crypto.Sha.Passed ⟨call, reply⟩) := by
  have refused : (-1 : Int) ≠ Crypto.psaSuccess := by decide
  by_cases fits : Fits operation call
  · cases call with
    | psaHashSetup =>
        cases operation with
        | inactive => exact ⟨Crypto.psaSuccess, _, .setup, fun _ => rfl⟩
        | _ => cases fits
    | psaHashUpdate input =>
        cases operation with
        | active absorbed => exact ⟨Crypto.psaSuccess, _, .update absorbed input, fun _ => rfl⟩
        | _ => cases fits
    | psaHashFinish size =>
        cases operation with
        | active absorbed =>
            cases fits
            exact ⟨(Crypto.psaSuccess, hash absorbed, 32), _, .finish absorbed, fun _ => ⟨rfl, rfl⟩⟩
        | _ => cases fits
    | psaHashAbort => exact ⟨Crypto.psaSuccess, _, .abort operation _, fun _ => rfl⟩
  · cases call with
    | psaHashSetup =>
        exact ⟨(-1 : Int), _, .failed operation _ (by simp) refused, fun good => absurd good fits⟩
    | psaHashUpdate input =>
        exact ⟨(-1 : Int), _, .failed operation _ (by simp) refused, fun good => absurd good fits⟩
    | psaHashFinish size =>
        refine ⟨(-1, List.Vector.replicate size 0, 0), _, .failed operation _ (by simp) ?_,
          fun good => absurd good fits⟩
        exact fun passed => refused passed.1
    | psaHashAbort => exact absurd (by cases operation <;> trivial) fits

section Answers

variable {stream : List UInt8 → List UInt8 → Nat → UInt8}

theorem platform_answers (signs : Crypto.Ideal.Signs (algorithms outside))
    (streams : Crypto.Ideal.Streams (algorithms outside) stream) (call : Call) (before : State)
    (live : before.psa.Live stream) :
    ∃ reply after, ConsentedStep outside before ⟨call, reply⟩ after ∧ after.psa.Live stream := by
  cases call with
  | psa call =>
      rcases Crypto.Ideal.answers signs streams live call with ⟨reply, after, step, live'⟩
      exact ⟨reply, { before with psa := after }, ⟨.psa step, trivial⟩, live'⟩
  | hash call =>
      rcases hash_answers outside.hash before.hash call with ⟨reply, after, step, passed⟩
      exact ⟨reply, { before with hash := after }, ⟨.hash step passed, trivial⟩, live⟩
  | random call =>
      have reply : Nonempty (Crypto.Entropy.Reply call) := by
        cases call with
        | espFillRandom len => exact ⟨List.Vector.replicate len 0⟩
        | psaCryptoInit => exact ⟨(0 : Int)⟩
        | _ => exact ⟨()⟩
      rcases reply with ⟨reply⟩
      exact ⟨reply, before, ⟨.random call reply, trivial⟩, live⟩
  | nvs call =>
      have reply : ∃ reply, Stored outside.root ⟨call, reply⟩ := by
        cases call with
        | nvsOpen readWrite => exact ⟨(Cred.Root.espOk, 1), rfl⟩
        | nvsGetBlob handle => exact ⟨(Cred.Root.espOk, outside.root, 32), rfl, rfl, rfl⟩
        | nvsClose handle => exact ⟨(), trivial⟩
        | randFill => exact ⟨(0, outside.root), trivial⟩
        | _ => exact ⟨(0 : Int), trivial⟩
      rcases reply with ⟨reply, stored⟩
      exact ⟨reply, before, ⟨.nvs stored, trivial⟩, live⟩
  | pressWait cid => exact ⟨pressOk, before, ⟨.pressWait cid pressOk, rfl⟩, live⟩
  | pressCancelled cid => exact ⟨false, before, ⟨.pressCancelled cid false, rfl⟩, live⟩

end Answers

def sampleFrame : Frame := ⟨1024, fun _ => 0, by norm_num, by norm_num⟩

def signingOutside : Outside :=
  { sampleOutside with verifies := fun _ _ signature => signature = Crypto.signatureDer 1 1 }

theorem signingOutside_signs : Crypto.Ideal.Signs (algorithms signingOutside) :=
  fun _ _ => ⟨1, 1, by norm_num, by norm_num, rfl⟩

theorem signingOutside_streams :
    Crypto.Ideal.Streams (algorithms signingOutside) fun _ _ _ => 0 := by
  intro key nonce ad plain
  change plain.toList = Crypto.Ideal.masked (fun _ => 0) plain.toList
  apply List.ext_getElem
  · rw [Crypto.Ideal.length_masked]
  · intro i left right
    simp only [Crypto.Ideal.masked, List.getElem_mapIdx, UInt8.xor_zero]

theorem empty_live : ({} : Crypto.Ideal.State).Live fun _ _ _ => 0 := by
  refine ⟨?_, fun operation active => by cases active⟩
  simp

/-! Requests. -/

/-- A request leaves PSA as it was, whatever the user does. -/
theorem requests_leave_no_keys (outside : Outside) (frame : Frame) (state : State) (idle : state.Idle)
    (cid : UInt32) (request response : List UInt8) (responseCap : Nat) :
    Serves (Step outside) state (platform frame (dispatch cid request response responseCap))
      fun after _ => after = state :=
  (platform_serves frame idle (ensures_true _)).imp fun _ _ both => both.1

theorem sample_request_leaves_no_keys :
    Serves (Step signingOutside) {}
      (platform sampleFrame (dispatch 5 (cmdMakeCredential :: sampleRegistration) (zeros 300) 300))
      fun after _ => after = {} :=
  requests_leave_no_keys signingOutside sampleFrame {} ⟨rfl, rfl⟩ 5
    (cmdMakeCredential :: sampleRegistration) (zeros 300) 300

/-- Every request can be carried out with the user's consent, and a run of it that ends leaves PSA as
it was. -/
theorem requests_are_carried_out (outside : Outside) (stream : List UInt8 → List UInt8 → Nat → UInt8)
    (signs : Crypto.Ideal.Signs (algorithms outside))
    (streams : Crypto.Ideal.Streams (algorithms outside) stream) (frame : Frame) (state : State)
    (idle : state.Idle) (live : state.psa.Live stream) (cid : UInt32) (request response : List UInt8)
    (responseCap : Nat) :
    ∃ events answer, Execution (platform frame (dispatch cid request response responseCap)) events answer ∧
      Runs.Run (ConsentedStep outside) state events state := by
  have served : Serves (ConsentedStep outside) state
      (platform frame (dispatch cid request response responseCap)) fun after _ => after = state :=
    (requests_leave_no_keys outside frame state idle cid request response responseCap).restrict
      fun _ _ _ both => both.1
  rcases served.ends (platform_answers signs streams) live with ⟨events, answer, last, run, steps, rfl⟩
  exact ⟨events, answer, run, steps⟩

theorem sample_request_is_carried_out :
    ∃ events answer,
      Execution (platform sampleFrame
        (dispatch 5 (cmdMakeCredential :: sampleRegistration) (zeros 300) 300)) events answer ∧
      Runs.Run (ConsentedStep signingOutside) {} events {} :=
  requests_are_carried_out signingOutside (fun _ _ _ => 0) signingOutside_signs signingOutside_streams
    sampleFrame {} ⟨rfl, rfl⟩ empty_live 5 (cmdMakeCredential :: sampleRegistration) (zeros 300) 300

/-! Registration and assertion. -/

/-- With the user's consent a registration fails only for a credential that is excluded, and the
credential that it returns is signed for by its key at its own RP, and is unknown at any other. PSA
holds the same keys after each command as before it. -/
theorem registrations_are_honoured (outside : Outside) (frame : Frame) (state : State)
    (idle : state.Idle) (cid : UInt32) (request response : List UInt8) (responseCap : Nat)
    (parsed : MakeCredential.Request) (accepted : MakeCredential.readRequest request = .ok parsed)
    (room : 244 ≤ responseCap) (small : responseCap ≤ 2048) (backed : responseCap ≤ response.length) :
    Serves (ConsentedStep outside) state
      (platform frame (makeCredential cid request response responseCap)) fun after outcome =>
        after = state ∧
        (Excluded outside (outside.hash parsed.rpId) parsed.exclude →
          outcome = .stop .credentialExcluded response) ∧
        (¬ Excluded outside (outside.hash parsed.rpId) parsed.exclude →
          outcome.code = .ok ∧ outcome.responseLen = 244 ∧ ∃ (keys : KeyPair) (id : Bytes 100),
            IsKeyPair outside keys ∧
            Cred.IsCredential outside.scheme outside.root (outside.hash parsed.rpId) keys.scalar
              id.toList ∧
            outcome.response = store response 0 (encodings (MakeCredential.attestationItems
              (MakeCredential.authDataBytes (outside.hash parsed.rpId) id keys.x keys.y))) ∧
            ∀ (frame' : Frame) (cid' : UInt32) (request' response' : List UInt8) (responseCap' : Nat)
              (parsed' : GetAssertion.Request), GetAssertion.readRequest request' = .ok parsed' →
              OnlyCredential parsed'.allow id.toList → 239 ≤ responseCap' → responseCap' ≤ 2048 →
              responseCap' ≤ response'.length →
              Serves (ConsentedStep outside) after
                (platform frame' (getAssertion cid' request' response' responseCap'))
                fun after' outcome' => after' = state ∧
                  (outside.hash parsed'.rpId = outside.hash parsed.rpId →
                    Asserted outside keys.scalar id.toList (outside.hash parsed'.rpId)
                      parsed'.clientHash response' outcome') ∧
                  (outside.hash parsed'.rpId ≠ outside.hash parsed.rpId →
                    outcome' = .stop .noCredentials response')) := by
  have registers : Ensures (Obliging outside) [] (makeCredential cid request response responseCap)
      fun _ outcome => outcome.code = .ok → ∃ parsed, MakeCredential.readRequest request = .ok parsed ∧
        ∃ calls, Registered outside (outside.hash parsed.rpId) response calls outcome := by
    have registered := (@makeCredential_registers outside [] cid request response responseCap
      backed).strengthen fun event (both : Obliging outside event) => both.1
    refine registered.imp fun calls outcome holds done => ?_
    rcases holds done with ⟨parsed, accepted, kept⟩
    exact ⟨parsed, accepted, calls, kept⟩
  have completes := @makeCredential_completes outside [] cid request response responseCap parsed
    accepted room small backed
  have both := registers.and completes
  refine (platform_works frame idle both).imp ?_
  rintro after outcome ⟨rfl, registered, refused, done⟩
  refine ⟨rfl, refused, fun free => ?_⟩
  rcases registered (done free) with
    ⟨same, accepted', -, keys, id, -, pair, credential, len, -, memory⟩
  cases accepted.symm.trans accepted'
  refine ⟨done free, len, keys, id, pair, credential, memory, ?_⟩
  intro frame' cid' request' response' responseCap' parsed' accepted' only room' small' backed'
  have answers := getAssertion_obliged (@getAssertion_answers outside [] cid' request' response'
    id.toList responseCap' parsed' accepted' id.toList_length only room' small' backed')
  refine (platform_works frame' idle answers).imp ?_
  rintro after' outcome' ⟨rfl, asserted, unknown⟩
  refine ⟨rfl, fun same => asserted keys.scalar (same ▸ credential), fun differs => unknown ?_⟩
  exact fun scalar credential' => differs (credential'.unique credential).1

def descEntries (id : List UInt8) : List TextEntry :=
  [(typeText, headBytes 3 10 ++ publicKeyText), (idText, headBytes 2 100 ++ id)]

def descWord (id : List UInt8) : List UInt8 :=
  headBytes 5 2 ++ ((descEntries id).map TextEntry.bytes).flatten

def assertionFields (rp : UInt8) (id : List UInt8) : List Field :=
  [(1, headBytes 3 1 ++ [rp]), (2, headBytes 2 32 ++ zeros 32), (3, headBytes 4 1 ++ descWord id)]

/-- An assertion at the RP of this one letter, for the one credential. -/
def assertionRequest (rp : UInt8) (id : List UInt8) : List UInt8 :=
  headBytes 5 3 ++ ((assertionFields rp id).map Field.bytes).flatten

theorem descWord_spelled {id : List UInt8} (size : id.length = 100) :
    descMap false ⟨id, true⟩ (descWord id) := by
  have type : typeWord true (headBytes 3 10 ++ publicKeyText) := ⟨publicKeyText, rfl, rfl⟩
  have spelled : bytesWord id (headBytes 2 100 ++ id) := by rw [bytesWord, size]
  refine ⟨descEntries id, ⟨by simp [descEntries, maxContainerItems], rfl⟩, ⟨_, rfl, type⟩,
    ⟨_, rfl, spelled⟩, fun impossible => absurd impossible (by decide), ?_⟩
  intro entry member other
  rcases List.mem_pair.mp member with rfl | rfl
  · exact absurd (List.mem_cons_self ..) other
  · exact absurd (List.mem_cons_of_mem _ (List.mem_cons_self ..)) other

theorem assertionFields_key {rp : UInt8} {id : List UInt8} {entry : Field}
    (member : entry ∈ assertionFields rp id) : 1 ≤ entry.1 ∧ entry.1 ≤ 3 := by
  simp only [assertionFields, List.mem_cons, List.not_mem_nil, or_false] at member
  rcases member with rfl | rfl | rfl <;> simp

theorem assertionFields_request (rp : UInt8) {id : List UInt8} (size : id.length = 100) :
    GetAssertion.IsRequest (assertionFields rp id) ⟨[rp], zeros 32, [⟨id, true⟩], false⟩ where
  keys := by
    refine ⟨rfl, fun key _ => ?_⟩
    simp only [Grammar.entriesOf, assertionFields, List.filter_cons, List.filter_nil, decide_eq_true_eq]
    split_ifs <;> simp <;> omega
  rpId := ⟨_, rfl, rfl, List.cons_ne_nil _ _⟩
  clientHash := ⟨_, rfl, rfl, rfl⟩
  allow := by
    refine Or.inr ⟨_, rfl, ⟨[descWord id], by simp [maxContainerItems],
      .cons (descWord_spelled size) .nil, by simp⟩, by simp [maxCredentialsInList]⟩
  extensions := fun entry member key => by have := assertionFields_key member; omega
  options := fun entry member key => by have := assertionFields_key member; omega
  pinAuth := rfl
  pinProtocol := rfl
  others := fun entry member far => by have := assertionFields_key member; omega
  supported := rfl

theorem assertionRequest_accepted (rp : UInt8) {id : List UInt8} (size : id.length = 100) :
    GetAssertion.readRequest (assertionRequest rp id) = .ok ⟨[rp], zeros 32, [⟨id, true⟩], false⟩ := by
  apply (assertionFields_request rp size).accepted
  · exact ⟨by simp [assertionFields, maxContainerItems],
      fun entry member => by have := assertionFields_key member; omega, rfl⟩
  · have lengths : typeText.length = 4 ∧ publicKeyText.length = 10 ∧ idText.length = 2 := by decide
    simp [assertionRequest, assertionFields, descWord, descEntries, Field.bytes, TextEntry.bytes,
      headBytes, size, maxBytes, lengths]

/-- The credential is made at the RP `a`, signed for there, and unknown at the RP `b`. -/
theorem sample_registration_is_honoured :
    ∃ events outcome, Execution
      (platform sampleFrame (makeCredential 5 sampleRegistration (zeros 300) 300)) events outcome ∧
      Runs.Run (ConsentedStep signingOutside) {} events {} ∧ outcome.code = .ok ∧
      ∃ (keys : KeyPair) (id : Bytes 100),
        outcome.response = store (zeros 300) 0 (encodings (MakeCredential.attestationItems
          (MakeCredential.authDataBytes (signingOutside.hash [0x61]) id keys.x keys.y))) ∧
        (∃ events asserted, Execution (platform sampleFrame
          (getAssertion 6 (assertionRequest 0x61 id.toList) (zeros 300) 300)) events asserted ∧
          Runs.Run (ConsentedStep signingOutside) {} events {} ∧
          Asserted signingOutside keys.scalar id.toList (signingOutside.hash [0x61]) (zeros 32)
            (zeros 300) asserted) ∧
        ∃ events unknown, Execution (platform sampleFrame
          (getAssertion 6 (assertionRequest 0x62 id.toList) (zeros 300) 300)) events unknown ∧
          Runs.Run (ConsentedStep signingOutside) {} events {} ∧
          unknown = .stop .noCredentials (zeros 300) := by
  have answers := platform_answers signingOutside_signs signingOutside_streams
  have honoured := registrations_are_honoured signingOutside sampleFrame {} ⟨rfl, rfl⟩ 5
    sampleRegistration (zeros 300) 300 ⟨[0x61], [], true, false⟩ sampleRegistration_accepted (by decide)
    (by decide) (by rw [length_zeros])
  rcases honoured.ends answers empty_live with ⟨events, outcome, last, run, steps, rfl, -, done⟩
  have free : ¬ Excluded signingOutside (signingOutside.hash [0x61]) [] := by
    rintro ⟨item, member, -⟩
    cases member
  rcases done free with ⟨ok, -, keys, id, -, -, response, later⟩
  have size : id.toList.length = 100 := id.toList_length
  have served := fun rp => later sampleFrame 6 (assertionRequest rp id.toList) (zeros 300) 300 _
    (assertionRequest_accepted rp size) (onlyCredential_singleton id.toList) (by decide) (by decide)
    (by rw [length_zeros])
  have apart : signingOutside.hash [0x62] ≠ signingOutside.hash [0x61] := by decide
  refine ⟨events, outcome, run, steps, ok, keys, id, response, ?_, ?_⟩
  · rcases (served 0x61).ends answers empty_live with ⟨events, asserted, last, run, steps, rfl, same, -⟩
    exact ⟨events, asserted, run, steps, same rfl⟩
  · rcases (served 0x62).ends answers empty_live with ⟨events, unknown, last, run, steps, rfl, -, other⟩
    exact ⟨events, unknown, run, steps, other apart⟩

end P4Key.Device.Platform
