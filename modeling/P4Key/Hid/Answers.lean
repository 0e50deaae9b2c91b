import P4Key.Ctap.Framing
import P4Key.Hid.Worker

/-! `send_dispatch_result` of ctap_stub.c: every request that the worker takes is answered by one
`hid_send_msg`, with arguments that it accepts. -/

namespace P4Key.Hid

open Memory CallProgram P4Key.Ctaphid P4Key.Usb P4Key.Ctap

inductive StubCall where
  | called (call : Ctap.Call)
  | hidSendMsg (cid : UInt32) (command : UInt8) (data : List UInt8)

@[reducible] def StubReply : StubCall → Type
  | .called call => Ctap.Reply call
  | .hidSendMsg _ _ _ => HidResult

abbrev Stub (α : Type) : Type := Program StubCall StubReply α

def performStub (call : StubCall) : Stub (StubReply call) := Program.perform call

def asStub {α : Type} (command : Command α) : Stub α :=
  command.interpret fun call => performStub (.called call)

def dispatchResult (answer : Answer) : List UInt8 × Nat :=
  match answer.error with
  | some _ => (store answer.response 0 [Refusal.other.code], 1)
  | none => (answer.response, answer.responseLen)

/-- `send_dispatch_result`, with `s_response` after it. -/
def sendDispatchResult (cid : UInt32) (command : UInt8) (request response : List UInt8) :
    Stub (List UInt8) := do
  let answer ← asStub (dispatch cid request response maxMessage)
  let (response, responseLen) := dispatchResult answer
  let _ ← performStub (.hidSendMsg cid command (response.take responseLen))
  pure (clear response maxMessage)

def sends (events : List (CallProgram.Event StubReply)) : List (UInt32 × UInt8 × List UInt8) :=
  events.filterMap fun event =>
    match event with
    | ⟨.hidSendMsg cid command data, _⟩ => some (cid, command, data)
    | _ => none

theorem sends_append (first second : List (CallProgram.Event StubReply)) :
    sends (first ++ second) = sends first ++ sends second := by
  simp [sends]

/-- A command that runs as part of the worker is a run of the command, and sends nothing. -/
theorem asStub_execution {α : Type} (command : Command α)
    {events : List (CallProgram.Event StubReply)} {value : α}
    (run : Execution (asStub command) events value) :
    sends events = [] ∧ ∃ calls, Execution command calls value := by
  induction command generalizing events with
  | done result =>
      cases run
      exact ⟨rfl, [], .done _⟩
  | call c next ih =>
      cases run with
      | call rest =>
          obtain ⟨silent, calls, tail⟩ := ih _ rest
          refine ⟨?_, _, .call tail⟩
          rw [← List.singleton_append, sends_append, silent]
          rfl

/-- What is sent has one byte at least, whatever the dispatcher returned. -/
theorem dispatchResult_sent {response : List UInt8} {answer : Answer}
    (size : response.length = maxMessage) (framed : Framed response maxMessage answer) :
    1 ≤ ((dispatchResult answer).1.take (dispatchResult answer).2).length ∧
      ((dispatchResult answer).1.take (dispatchResult answer).2).length ≤ maxMessage := by
  have whole : answer.response.length = maxMessage := framed.size.trans size
  have message : maxMessage = 2048 := rfl
  rw [dispatchResult]
  cases failed : answer.error with
  | some error =>
      simp only [List.length_take, length_store, whole]
      omega
  | none =>
      obtain ⟨positive, fits, -⟩ := framed.replied failed
      simp only [List.length_take, whole]
      omega

theorem hidTakeMsg_taken {service : Service} (linked : Linked service) {task : Task} {cap : Nat}
    {reads : TakeReads} {message : Message}
    (taken : (hidTakeMsg service task cap reads).2 = .taken message) :
    message.cid ≠ 0 ∧ message.command = cmdCbor ∧ message.data.length ≤ maxPayload := by
  have after := hidTakeMsg_linked linked task cap reads
  rcases hidTakeMsg_cases service task cap reads linked.valid with
    ⟨result, same⟩ | ⟨-, same⟩ | ⟨-, -, -, -, -, -, same⟩
  · rw [same] at taken
    cases taken
  · rw [same] at taken
    cases taken
  · rw [same] at taken after
    cases taken
    have holds := after.claim _ rfl
    obtain ⟨i, owns, -⟩ := holds.generation
    have proper := after.valid.registered.assigned i owns.1
    rw [owns.2] at proper
    refine ⟨proper.1, holds.cbor, ?_⟩
    simp only [handOffMessage, List.length_take, List.Vector.toList_length]
    exact Nat.min_le_right _ _

theorem taken_message {bus : Bus} {before after : List Event} {last : State} {task : Task}
    {cap : Nat} {message : Message}
    (run : SystemRun bus (before ++ .took task cap (.taken message) :: after) last) :
    message.cid ≠ 0 ∧ message.command = cmdCbor ∧ message.data.length ≤ maxPayload := by
  obtain ⟨state, next, earlier, step, -⟩ := run.at_event
  have linked := SystemRun.linked earlier
  generalize event : Event.took task cap (.taken message) = taken at step
  cases step with
  | took _ _ reads last along =>
      injection event with _ _ outcome
      exact hidTakeMsg_taken linked outcome.symm
  | _ => cases event

/-- Every request gets an error or one well-formed reply. For every message that the worker takes
in a run of the system, `send_dispatch_result` calls `hid_send_msg` once, for the channel and the
command of the message, with 1 to 2048 bytes and with arguments that it does not refuse. -/
theorem dispatched_requests_get_one_reply :
    (∀ cid request response responseCap calls answer, request.length ≤ maxMessage →
      responseCap ≤ response.length →
      Execution (dispatch cid request response responseCap) calls answer →
      Framed response responseCap answer) ∧
    ∀ bus before after last worker cap message response events memory,
      SystemRun bus (before ++ .took worker cap (.taken message) :: after) last →
      response.length = maxMessage →
      Execution (sendDispatchResult message.cid message.command message.data response) events
        memory →
      ∃ data, sends events = [(message.cid, message.command, data)] ∧
        1 ≤ data.length ∧ data.length ≤ 2048 ∧
        sendArguments message.cid message.command data = true := by
  have framed : ∀ cid request response responseCap calls answer,
      responseCap ≤ response.length →
      Execution (dispatch cid request response responseCap) calls answer →
      Framed response responseCap answer := by
    intro cid request response responseCap calls answer backed run
    exact (ensures_iff _ _).mp (dispatch_framed cid request response responseCap backed []) calls
      answer run (fun _ _ => trivial)
  constructor
  · intro cid request response responseCap calls answer _ backed run
    exact framed cid request response responseCap calls answer backed run
  · intro bus before after last worker cap message response events memory run size answered
    obtain ⟨proper, cbor, -⟩ := taken_message run
    obtain ⟨commands, rest, answer, rfl, dispatched, sent⟩ := execution_bind answered
    obtain ⟨silent, calls, commandRun⟩ := asStub_execution _ dispatched
    have reply := framed _ _ _ _ _ _ (Nat.le_of_eq size.symm) commandRun
    obtain ⟨positive, bounded⟩ := dispatchResult_sent size reply
    cases sent with
    | call done =>
        cases done
        refine ⟨_, ?_, positive, bounded, ?_⟩
        · rw [sends_append, silent]
          rfl
        · rw [cbor]
          exact sendArguments_cbor proper bounded

def stubReplies : (call : StubCall) → StubReply call
  | .called call => consentingReplies call
  | .hidSendMsg _ _ _ => .ok

theorem taken_request_is_answered_once :
    ∃ data, sends ((sendDispatchResult 1 cmdCbor [4] (zeros maxMessage)).trace stubReplies) =
        [(1, cmdCbor, data)] ∧
      1 ≤ data.length ∧ data.length ≤ 2048 ∧ sendArguments 1 cmdCbor data = true :=
  dispatched_requests_get_one_reply.2 liveFlags.bus _ [] _ 7 2048 ⟨1, cmdCbor, [4], 1⟩
    (zeros maxMessage) _ _ taken_run (length_zeros _) (execution_value stubReplies _)

end P4Key.Hid
