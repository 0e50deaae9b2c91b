import P4Key.Device.Worker

/-! What the worker has been told before it makes a key or signs.

`press_wait` has granted a fresh press for the channel of the request, and the call right before
has found the request not cancelled. -/

namespace P4Key.Device

open Memory CallProgram P4Key.Ctap

def WorkerCall.usesKey : WorkerCall → Bool
  | .p256Make => true
  | .p256SignHash _ _ => true
  | _ => false

def ConsentGiven (cid : UInt32) (before : List (Event WorkerReply)) : Prop :=
  ∃ earlier wait later,
    before = earlier ++ wait.map pressEvent ++ later ++ [⟨.press (.hidCancelled cid), false⟩] ∧
    Execution (Press.pressWait cid) wait pressOk

/-- A key is used by the two functions of p4_crypto.c and below no other call. -/
theorem Belongs.usesKey {call : Ctap.Call} {c : WorkerCall} (belongs : Belongs call c)
    (uses : c.usesKey = true) :
    call = .p256Make ∨ ∃ privateScalar digest, call = .p256SignHash privateScalar digest := by
  cases call with
  | p256Make => exact Or.inl rfl
  | p256SignHash privateScalar digest => exact Or.inr ⟨privateScalar, digest, rfl⟩
  | _ => cases c <;> first | exact False.elim belongs | cases uses

theorem perform_alone {call c : WorkerCall} {reply : WorkerReply c} {result : WorkerReply call}
    {first second : List (Event WorkerReply)}
    (run : Execution (performWorker call) (first ++ ⟨c, reply⟩ :: second) result) : first = [] := by
  generalize whole : first ++ ⟨c, reply⟩ :: second = events at run
  cases run with
  | call ended =>
      cases ended
      cases first with
      | nil => rfl
      | cons head tail => simp at whole

theorem usesKey_call {call : Ctap.Call} {c : WorkerCall} {reply : WorkerReply c}
    {first second : List (Event WorkerReply)} {result : Ctap.Reply call}
    (run : Execution (commandBody call) (first ++ ⟨c, reply⟩ :: second) result)
    (uses : c.usesKey = true) : UsesKey call ∧ first = [] := by
  have belongs := commandBody_belongs run ⟨c, reply⟩ (by simp)
  rcases belongs.usesKey uses with rfl | ⟨privateScalar, digest, rfl⟩
  · exact ⟨trivial, perform_alone run⟩
  · exact ⟨trivial, perform_alone run⟩

/-- Consent, as the command sees it, is consent of the calls below it. -/
theorem consented_granted {cid : UInt32} {calls : Calls} {events : List (Event WorkerReply)}
    (consented : Consented cid calls) (expansion : Expansion commandBody calls events) :
    ConsentGiven cid events := by
  obtain ⟨made, front, rfl⟩ := consented
  have waited : (⟨.pressWait cid, pressOk⟩ : Event Ctap.Reply) ∈ front := by simpa using made
  obtain ⟨before, after, rfl, earlier, looked⟩ := expansion.split
  obtain ⟨first, segment, last, rfl, run⟩ := earlier.of_mem waited
  rw [commandBody, body, Program.interpret_perform] at run
  obtain ⟨wait, granted, rfl⟩ := pressCalls_execution run
  refine ⟨first, wait, last, ?_, granted⟩
  cases looked with
  | cons look rest =>
      cases rest
      rw [commandBody, body, Program.interpret_perform] at look
      obtain ⟨one, ended, rfl⟩ := pressCalls_execution look
      cases ended with
      | call rest =>
          cases rest
          rfl

theorem serve_calls {message : Ctaphid.Message} {response : List UInt8} {c : WorkerCall}
    {reply : WorkerReply c} {before after : List (Event WorkerReply)} {memory : List UInt8}
    (run : Execution (serve message response) (before ++ ⟨c, reply⟩ :: after) memory)
    (uses : c.usesKey = true) :
    ∃ commands answer between, Execution ((dispatch message.cid message.data response
      maxMessage).interpret commandBody) commands answer ∧
        commands = before ++ ⟨c, reply⟩ :: between := by
  rw [serve_eq] at run
  obtain ⟨commands, last, answer, whole, dispatched, sent⟩ := execution_bind run
  refine ⟨commands, answer, ?_⟩
  rcases List.append_eq_append_iff.mp whole with ⟨between, rfl, split⟩ | ⟨between, rfl, split⟩
  · cases between with
    | nil =>
        -- the answer itself uses no key
        cases sent with
        | call ended =>
            cases ended
            cases split
            cases uses
    | cons head between =>
        rw [List.cons_append, List.cons.injEq] at split
        rw [← split.1] at dispatched ⊢
        exact ⟨between, dispatched, rfl⟩
  · cases sent with
    | call ended =>
        cases ended
        cases between with
        | nil =>
            cases split
            cases uses
        | cons head between => simp at split

/-- At every moment at which the worker is about to make a key or to sign, it has been granted. -/
theorem serve_granted {message : Ctaphid.Message} {response : List UInt8} {c : WorkerCall}
    {next : WorkerReply c → Worker (List UInt8)} {before : List (Event WorkerReply)}
    (progress : Progress (serve message response) before (.call c next))
    (uses : c.usesKey = true) : ConsentGiven message.cid before := by
  obtain ⟨later, memory, run⟩ := progress.call failingReplies
  obtain ⟨commands, answer, between, dispatched, rfl⟩ := serve_calls run uses
  obtain ⟨calls, command, expansion⟩ := execution_interpret dispatched
  obtain ⟨front, call, result, back, done, first, second, rfl, earlier, rfl, here⟩ :=
    expansion.at_event
  obtain ⟨used, rfl⟩ := usesKey_call here uses
  have consented : Guarded (consentRule message.cid) (front ++ ⟨call, result⟩ :: back) :=
    (ensures_iff _ _).mp (dispatch_consents message.data response maxMessage) _ answer command
      fun _ _ => trivial
  rw [List.append_nil]
  exact consented_granted (consented front ⟨call, result⟩ back rfl used) earlier

theorem payload_status {answer : Answer}
    (status : (payload answer).head? = some statusOk) :
    answer.error = none ∧ answer.response.head? = some statusOk := by
  rw [payload, Hid.dispatchResult] at status
  cases failed : answer.error with
  | some error =>
      rw [failed] at status
      simp only [List.head?_take, Nat.one_ne_zero, if_false] at status
      exact absurd (head_store_zero _ _ _ status) (by decide)
  | none =>
      rw [failed] at status
      refine ⟨rfl, ?_⟩
      simp only [List.head?_take] at status
      split at status
      · cases status
      · exact status

/-- The use of a key behind a status OK: it was made or signed with, and the call succeeded. -/
structure Earned (request : List UInt8) (event : Event WorkerReply) : Prop where
  made : request.head? = some cmdMakeCredential →
    ∃ keys, event = ⟨.p256Make, (cryptoOk, keys)⟩
  signed : request.head? = some cmdGetAssertion →
    ∃ privateScalar digest signature,
      event = ⟨.p256SignHash privateScalar digest, (cryptoOk, signature)⟩

theorem Earned.usesKey {request : List UInt8} {event : Event WorkerReply}
    (earned : Earned request event)
    (command : request.head? = some cmdMakeCredential ∨ request.head? = some cmdGetAssertion) :
    event.1.usesKey = true := by
  rcases command with make | assertion
  · rcases earned.made make with ⟨keys, rfl⟩
    rfl
  · rcases earned.signed assertion with ⟨privateScalar, digest, signature, rfl⟩
    rfl

theorem success_uses_key {cid : UInt32} {request response : List UInt8}
    {events : List (Event WorkerReply)} {answer : Answer}
    (run : Execution ((dispatch cid request response maxMessage).interpret commandBody)
      events answer)
    (command : request.head? = some cmdMakeCredential ∨
      request.head? = some cmdGetAssertion)
    (status : (payload answer).head? = some statusOk) :
    ∃ front event back, events = front ++ event :: back ∧ Earned request event := by
  rcases payload_status status with ⟨accepted, ok⟩
  rcases execution_interpret run with ⟨calls, inner, expansion⟩
  rcases command with make | assertion
  · rcases List.head?_eq_some_iff.mp make with ⟨body, rfl⟩
    rcases dispatch_makeCredential_ok cid body response _ calls answer inner accepted ok with
      ⟨memory, cap, outcome, registered, success⟩
    rcases (makeCredential_presence cid body memory cap calls outcome registered).2 success with
      ⟨-, rpHash, keys, id, member, -⟩
    rcases expansion.of_mem member with ⟨before, segment, after, rfl, inside⟩
    cases inside with
    | call ended =>
        cases ended
        refine ⟨before, _, after, by simp, fun _ => ⟨keys, rfl⟩, ?_⟩
        exact fun other => absurd (Option.some.inj other) (by decide)
  · rcases List.head?_eq_some_iff.mp assertion with ⟨body, rfl⟩
    rcases dispatch_getAssertion_ok cid body response _ calls answer inner accepted ok with
      ⟨memory, cap, outcome, asserted, success⟩
    rcases (getAssertion_presence cid body memory cap calls outcome asserted).2 success with
      ⟨-, scalar, digest, signature, member⟩
    rcases expansion.of_mem member with ⟨before, segment, after, rfl, inside⟩
    cases inside with
    | call ended =>
        cases ended
        refine ⟨before, _, after, by simp, ?_, fun _ => ⟨scalar, digest, signature, rfl⟩⟩
        exact fun other => absurd (Option.some.inj other) (by decide)

end P4Key.Device
