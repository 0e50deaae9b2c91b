import P4Key.Ctap.Consent
import P4Key.Device.Linked
import P4Key.Hid.Answers
import P4Key.Library.Linking
import P4Key.Press.Fresh

/-! The task of ctap_stub.c, linked with everything that it runs itself.

`send_dispatch_result` gets the commands, p4_cred.c and p4_press.c. What stays outside are the
functions of the transport, the button, the delay and the crypto library. -/

namespace P4Key.Device

open Memory CallProgram P4Key.Ctap

inductive WorkerCall where
  | sha256Sum (input : List UInt8)
  | p256Make
  | p256SignHash (privateScalar digest : Bytes 32)
  | cred (call : Cred.Call)
  | press (call : Press.Call)
  | hidSendMsg (cid : UInt32) (command : UInt8) (data : List UInt8)

@[reducible] def WorkerReply : WorkerCall → Type
  | .sha256Sum _ => Int × Bytes 32
  | .p256Make => Int × Ctap.KeyPair
  | .p256SignHash _ _ => Int × Ctap.Signature
  | .cred call => Cred.Reply call
  | .press call => Press.Reply call
  | .hidSendMsg _ _ _ => Hid.HidResult

abbrev Worker (α : Type) : Type := Program WorkerCall WorkerReply α

def performWorker (call : WorkerCall) : Worker (WorkerReply call) := Program.perform call

def pressCalls {α : Type} (program : Press.Wait α) : Worker α :=
  program.interpret fun call => performWorker (.press call)

/-- The functions of p4_press.c behind the calls that Linked leaves open. -/
def pressBody : (call : Call) → Worker (Reply call)
  | .sha256Sum input => performWorker (.sha256Sum input)
  | .pressWait cid => pressCalls (Press.pressWait cid)
  | .pressCancelled cid => pressCalls (Press.pressCancelled cid)
  | .p256Make => performWorker .p256Make
  | .p256SignHash privateScalar digest => performWorker (.p256SignHash privateScalar digest)
  | .cred call => performWorker (.cred call)

/-- The function behind a call of a command, with all that it calls in turn. -/
def commandBody (call : Ctap.Call) : Worker (Ctap.Reply call) := (body call).interpret pressBody

def workerBody : (call : Hid.StubCall) → Worker (Hid.StubReply call)
  | .called call => commandBody call
  | .hidSendMsg cid command data => performWorker (.hidSendMsg cid command data)

/-- What the worker does with a message that it has taken, up to `s_response` after it. -/
def serve (message : Ctaphid.Message) (response : List UInt8) : Worker (List UInt8) :=
  (Hid.sendDispatchResult message.cid message.command message.data response).interpret workerBody

def payload (answer : Answer) : List UInt8 :=
  (Hid.dispatchResult answer).1.take (Hid.dispatchResult answer).2

theorem serve_eq (message : Ctaphid.Message) (response : List UInt8) :
    serve message response =
      (dispatch message.cid message.data response maxMessage).interpret commandBody >>= fun answer =>
        performWorker (.hidSendMsg message.cid message.command (payload answer)) >>= fun _ =>
          pure (clear (Hid.dispatchResult answer).1 maxMessage) := by
  have linked : (Hid.asStub (dispatch message.cid message.data response maxMessage)).interpret
      workerBody = (dispatch message.cid message.data response maxMessage).interpret commandBody := by
    rw [Hid.asStub, Program.interpret_interpret]
    congr
    funext call
    exact Program.interpret_perform workerBody (.called call)
  rw [serve, Hid.sendDispatchResult, Program.interpret_bind, linked]
  congr

/-! The calls behind one call of a command. -/

def pressEvent : Event Press.Reply → Event WorkerReply
  | ⟨call, reply⟩ => ⟨.press call, reply⟩

theorem pressCalls_execution {α : Type} {program : Press.Wait α} {events : List (Event WorkerReply)}
    {value : α} (run : Execution (pressCalls program) events value) :
    ∃ calls, Execution program calls value ∧ events = calls.map pressEvent := by
  obtain ⟨calls, inner, expansion⟩ := execution_interpret run
  refine ⟨calls, inner, ?_⟩
  clear inner run
  induction expansion with
  | nil => rfl
  | cons segment rest ih =>
      cases segment with
      | call ended =>
          cases ended
          rw [ih]
          rfl

/-- What a call of a command may call in turn. -/
def Belongs : Ctap.Call → WorkerCall → Prop
  | .sha256Sum _, .sha256Sum _ => True
  | .credOpen _ _, .cred _ => True
  | .credWrap _ _, .cred _ => True
  | .pressWait _, .press _ => True
  | .pressCancelled _, .press _ => True
  | .p256Make, .p256Make => True
  | .p256SignHash scalar digest, .p256SignHash scalar' digest' =>
    scalar' = scalar ∧ digest' = digest
  | _, _ => False

theorem credCalls_belong {α : Type} {program : Cred.Crypto α} {events : List (Event Reply)}
    {value : α} (run : Execution (credCalls program) events value) :
    ∀ event ∈ events, ∃ call reply, event = ⟨.cred call, reply⟩ := by
  obtain ⟨calls, -, expansion⟩ := execution_interpret run
  clear run
  induction expansion with
  | nil => simp
  | cons segment rest ih =>
      cases segment with
      | call ended =>
          cases ended
          exact List.forall_mem_cons.mpr ⟨⟨_, _, rfl⟩, ih⟩

theorem pressBody_cred {calls : List (Event Reply)} {events : List (Event WorkerReply)}
    (expansion : Expansion pressBody calls events)
    (cred : ∀ event ∈ calls, ∃ call reply, event = ⟨.cred call, reply⟩) :
    ∀ event ∈ events, ∃ call reply, event = ⟨.cred call, reply⟩ := by
  induction expansion with
  | nil => simp
  | @cons c reply segment events calls run rest ih =>
      rw [List.forall_mem_cons] at cred
      obtain ⟨call, reply', same⟩ := cred.1
      cases same
      refine List.forall_mem_append.mpr ⟨?_, ih cred.2⟩
      cases run with
      | call ended =>
          cases ended
          exact List.forall_mem_singleton.mpr ⟨_, _, rfl⟩

theorem credBody_belongs {α β : Type} {program : Cred.Crypto α} {last : α → Firmware β}
    (silent : ∀ value, ∃ result, last value = .done result) {events : List (Event WorkerReply)}
    {value : β} (run : Execution ((credCalls program >>= last).interpret pressBody) events value) :
    ∀ event ∈ events, ∃ call reply, event = ⟨.cred call, reply⟩ := by
  obtain ⟨calls, inner, expansion⟩ := execution_interpret run
  obtain ⟨before, after, middle, rfl, first, second⟩ := execution_bind inner
  obtain ⟨result, done⟩ := silent middle
  rw [done] at second
  cases second
  rw [List.append_nil] at expansion
  exact pressBody_cred expansion (credCalls_belong first)

theorem commandBody_belongs {call : Ctap.Call} {events : List (Event WorkerReply)}
    {reply : Ctap.Reply call} (run : Execution (commandBody call) events reply) :
    ∀ event ∈ events, Belongs call event.1 := by
  cases call with
  | sha256Sum input =>
      cases run with
      | call ended =>
          cases ended
          simp [Belongs]
  | credOpen rpHash id =>
      intro event member
      obtain ⟨call, reply, rfl⟩ := credBody_belongs (fun value => ⟨_, rfl⟩) run event member
      trivial
  | credWrap rpHash privateScalar =>
      intro event member
      obtain ⟨call, reply, rfl⟩ := credBody_belongs (fun value => ⟨_, rfl⟩) run event member
      trivial
  | pressWait cid =>
      rw [commandBody, body, Program.interpret_perform] at run
      obtain ⟨calls, -, rfl⟩ := pressCalls_execution run
      intro event member
      obtain ⟨inner, -, rfl⟩ := List.mem_map.mp member
      trivial
  | pressCancelled cid =>
      cases run with
      | call ended =>
          cases ended
          simp [Belongs]
  | p256Make =>
      cases run with
      | call ended =>
          cases ended
          simp [Belongs]
  | p256SignHash privateScalar digest =>
      cases run with
      | call ended =>
          cases ended
          simp [Belongs]

/-! The answer. -/

/-- Replies to every call, to reach the end of a program. -/
def failingReplies : (call : WorkerCall) → WorkerReply call
  | .sha256Sum _ => (-1, load 32 [] 0)
  | .p256Make => (-1, ⟨load 32 [] 0, load 32 [] 0, load 32 [] 0⟩)
  | .p256SignHash _ _ => (-1, ⟨load 72 [] 0, 0⟩)
  | .cred (.p256Pub _) => (-1, load 32 [] 0, load 32 [] 0)
  | .cred .randFill => (-1, load 12 [] 0)
  | .cred .rootLoad => (-1, load 32 [] 0)
  | .cred (.gcmSeal _ _ _ _) => (-1, load 64 [] 0, load 16 [] 0)
  | .cred (.gcmOpen _ _ _ _ _) => (-1, load 64 [] 0)
  | .press .buttonReady => false
  | .press .buttonPressed => false
  | .press (.hidCancelled _) => true
  | .press (.hidKeepalive _ _) => -1
  | .press (.taskDelay _) => ()
  | .hidSendMsg _ _ _ => .timeout

def WorkerCall.sends : WorkerCall → Bool
  | .hidSendMsg _ _ _ => true
  | _ => false

theorem Belongs.silent {call : Ctap.Call} {c : WorkerCall} (belongs : Belongs call c) :
    c.sends = false := by
  cases c with
  | hidSendMsg cid command data => cases call <;> exact False.elim belongs
  | _ => rfl

theorem commands_silent {call : Command Answer} {events : List (Event WorkerReply)}
    {answer : Answer} (run : Execution (call.interpret commandBody) events answer) :
    ∀ event ∈ events, event.1.sends = false := by
  obtain ⟨calls, -, expansion⟩ := execution_interpret run
  intro event member
  obtain ⟨before, after, rfl⟩ := List.append_of_mem member
  obtain ⟨front, call, reply, back, done, first, second, -, -, -, inside⟩ := expansion.at_event
  exact (commandBody_belongs inside event (by simp)).silent

/-- What the worker does with a message: a dispatch, and one answer. -/
theorem serve_shape {message : Ctaphid.Message} {response : List UInt8} {events : List (Event WorkerReply)}
    {memory : List UInt8} (run : Execution (serve message response) events memory) :
    ∃ commands answer result, Execution ((dispatch message.cid message.data response
        maxMessage).interpret commandBody) commands answer ∧
      events = commands ++
        [⟨.hidSendMsg message.cid message.command (payload answer), result⟩] := by
  rw [serve_eq] at run
  obtain ⟨commands, last, answer, rfl, dispatched, sent⟩ := execution_bind run
  cases sent with
  | call ended =>
      cases ended
      exact ⟨commands, answer, _, dispatched, rfl⟩

theorem answer_last {message : Ctaphid.Message} {response : List UInt8} {events later : List (Event WorkerReply)}
    {call : WorkerCall} {reply : WorkerReply call} {memory : List UInt8}
    (run : Execution (serve message response) (events ++ ⟨call, reply⟩ :: later) memory)
    (sends : call.sends = true) :
    ∃ answer, Execution ((dispatch message.cid message.data response
        maxMessage).interpret commandBody) events answer ∧ later = [] ∧
      call = .hidSendMsg message.cid message.command (payload answer) := by
  obtain ⟨commands, answer, result, dispatched, whole⟩ := serve_shape run
  rcases Runs.append_cons_cases whole with
    ⟨middle, inside, -⟩ | ⟨same, last, none⟩ | ⟨middle, -, impossible⟩
  · have silent := commands_silent dispatched ⟨call, reply⟩ (by simp [inside])
    rw [sends] at silent
    cases silent
  · cases last
    rw [same]
    exact ⟨answer, dispatched, none, rfl⟩
  · simp at impossible

theorem about_to_answer {message : Ctaphid.Message} {response : List UInt8}
    {events : List (Event WorkerReply)} {call : WorkerCall}
    {rest : WorkerReply call → Worker (List UInt8)}
    (progress : Progress (serve message response) events (.call call rest))
    (sends : call.sends = true) :
    ∃ answer, Execution ((dispatch message.cid message.data response
        maxMessage).interpret commandBody) events answer ∧
      call = .hidSendMsg message.cid message.command (payload answer) := by
  obtain ⟨later, memory, run⟩ := progress.call failingReplies
  obtain ⟨answer, dispatched, -, same⟩ := answer_last run sends
  exact ⟨answer, dispatched, same⟩

/-- An answer has one byte at least, and no more than the memory it comes from. -/
theorem payload_sent {cid : UInt32} {request response : List UInt8}
    {events : List (Event WorkerReply)} {answer : Answer}
    (run : Execution ((dispatch cid request response maxMessage).interpret commandBody)
      events answer) (size : response.length = maxMessage) :
    1 ≤ (payload answer).length ∧ (payload answer).length ≤ maxMessage := by
  obtain ⟨calls, command, -⟩ := execution_interpret run
  have framed := (ensures_iff _ _).mp (dispatch_framed cid request response maxMessage
    (Nat.le_of_eq size.symm) []) calls answer command fun _ _ => trivial
  exact Hid.dispatchResult_sent size framed

end P4Key.Device
