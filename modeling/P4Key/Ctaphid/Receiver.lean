import Mathlib.Logic.Function.Basic
import P4Key.Ctaphid.Operations

/-! What the CTAPHID receiver is for, without its records.

A receiver has open channels, told apart by their CIDs, and at most one
transaction. A request in reception is the bytes that have come, so there is no
sequence counter, no buffer and no flag that could be left over. -/

namespace P4Key.Ctaphid

open Memory

/-- An open channel: how many transactions it has begun, and whether it is to be told of a
request that timed out. -/
structure Line where
  generation : UInt32 := 0
  late : Bool := false
  deriving DecidableEq, Repr

inductive Transaction where
  | idle
  | receiving (cid : UInt32) (command : UInt8) (length : Nat) (data : List UInt8) (lastMs : UInt32)
  | processing (cid : UInt32) (command : UInt8) (message : Option (List UInt8)) (cancelled : Bool)
  deriving DecidableEq, Repr

def Transaction.cid : Transaction → Option UInt32
  | .idle => none
  | .receiving cid .. => some cid
  | .processing cid .. => some cid

structure Receiver where
  lines : UInt32 → Option Line := fun _ => none
  transaction : Transaction := .idle

namespace Receiver

def adjust (receiver : Receiver) (cid : UInt32) (change : Line → Line) : Receiver :=
  { receiver with lines := Function.update receiver.lines cid ((receiver.lines cid).map change) }

def enrol (receiver : Receiver) (cid : UInt32) : Receiver :=
  { receiver with lines := Function.update receiver.lines cid (some {}) }

def set (receiver : Receiver) (transaction : Transaction) : Receiver :=
  { receiver with transaction := transaction }

def generation (receiver : Receiver) (cid : UInt32) : UInt32 :=
  ((receiver.lines cid).map Line.generation).getD 0

def refuse (receiver : Receiver) (cid : UInt32) (error : UInt8) : Receiver × Action :=
  (receiver, sendAction cid cmdError [error])

/-! New channels. -/

def Full (receiver : Receiver) : Prop :=
  ∃ cids : Fin channelCount → UInt32, Function.Injective cids ∧
    ∀ k, (receiver.lines (cids k)).isSome

def usable (receiver : Receiver) (cid : UInt32) : Bool :=
  cid != 0 && cid != broadcastCid && (receiver.lines cid).isNone

/-- The CID of the first draw that is usable, if none before it fails. -/
def pick (receiver : Receiver) (draws : Draws) : List Nat → Option UInt32
  | [] => none
  | k :: later =>
    match draws k with
    | none => none
    | some raw =>
      if receiver.usable (loadU32 raw.toList) then some (loadU32 raw.toList)
      else receiver.pick draws later

def greet (receiver : Receiver) (asker cid : UInt32) (nonce : List UInt8) : Receiver × Action :=
  (receiver, sendAction asker cmdInit (load 17 (initReplyBytes cid nonce) 0).toList)

open Classical in
/-- INIT to all: a new channel, if one is left and the random source finds a name for it. -/
noncomputable def welcome (receiver : Receiver) (nonce : List UInt8) (draws : Draws) :
    Receiver × Action :=
  if receiver.Full then receiver.refuse broadcastCid errChannelBusy
  else
    match receiver.pick draws (List.range cidRetries) with
    | none => receiver.refuse broadcastCid errOther
    | some cid => (receiver.enrol cid).greet broadcastCid cid nonce

def restart (receiver : Receiver) (cid : UInt32) (nonce : List UInt8) : Receiver × Action :=
  if receiver.lines cid = none then receiver.refuse cid errInvalidChannel
  else if ∃ other, receiver.transaction.cid = some other ∧ other ≠ cid then
    receiver.refuse cid errChannelBusy
  else
    ((receiver.set .idle).adjust cid fun line => ⟨line.generation + 1, false⟩).greet cid cid nonce

/-! Requests. -/

/-- A whole PING is echoed, any other request is handed over. -/
def deliver (receiver : Receiver) (cid : UInt32) (command : UInt8) (data : List UInt8) :
    Receiver × Action :=
  if command = cmdPing then
    (receiver.set (.processing cid command none false),
      { kind := .send, cid := cid, command := command, generation := receiver.generation cid
        data := data })
  else
    (receiver.set (.processing cid command (some data) false),
      { kind := .message, cid := cid, command := command, generation := receiver.generation cid
        data := data })

def collect (receiver : Receiver) (cid : UInt32) (command : UInt8) (length : Nat)
    (data : List UInt8) (nowMs : UInt32) : Receiver × Action :=
  if data.length = length then receiver.deliver cid command data
  else (receiver.set (.receiving cid command length data nowMs), noAction)

def request (receiver : Receiver) (cid : UInt32) (command : UInt8) (length : Nat)
    (data : List UInt8) (nowMs : UInt32) : Receiver × Action :=
  let told := receiver.adjust cid fun line => { line with late := false }
  match receiver.transaction with
  | .receiving sender .. =>
    if sender = cid then (told.set .idle).refuse cid errInvalidSeq
    else told.refuse cid errChannelBusy
  | .processing .. => told.refuse cid errChannelBusy
  | .idle =>
    if maxPayload < length then told.refuse cid errInvalidLen
    else if command ≠ cmdPing ∧ command ≠ cmdCbor then told.refuse cid errInvalidCmd
    else if command = cmdCbor ∧ length = 0 then told.refuse cid errInvalidLen
    else (receiver.adjust cid fun line => ⟨line.generation + 1, false⟩).collect cid command length
      (data.take length) nowMs

def due (received : Nat) : UInt8 := UInt8.ofNat ((received - initDataBytes) / contDataBytes)

def resume (receiver : Receiver) (cid : UInt32) (line : Line) (sequence : UInt8) (data : List UInt8)
    (nowMs : UInt32) : Receiver × Action :=
  if line.late then (receiver.adjust cid fun line => { line with late := false }).refuse cid errMsgTimeout
  else
    match receiver.transaction with
    | .receiving sender command length before _ =>
      if sender ≠ cid then (receiver, noAction)
      else if sequence ≠ due before.length then (receiver.set .idle).refuse cid errInvalidSeq
      else receiver.collect cid command length (before ++ data.take (length - before.length)) nowMs
    | _ => (receiver, noAction)

/-- CANCEL says nothing unless it names the running CBOR request. -/
def interrupt (receiver : Receiver) (cid : UInt32) (length : Nat) : Receiver × Action :=
  match receiver.transaction with
  | .processing sender command message _ =>
    if length = 0 ∧ sender = cid ∧ command = cmdCbor then
      (receiver.set (.processing sender command message true),
        { kind := .cancel, cid := cid, command := cmdCancel, generation := receiver.generation cid })
    else (receiver, noAction)
  | _ => (receiver, noAction)

def expire (receiver : Receiver) (nowMs : UInt32) : Receiver :=
  match receiver.transaction with
  | .receiving cid _ _ _ lastMs =>
    if timeExpired nowMs lastMs messageTimeoutMs then
      (receiver.set .idle).adjust cid fun line => { line with late := true }
    else receiver
  | _ => receiver

noncomputable def handle (receiver : Receiver) (report : Report) (nowMs : UInt32) (draws : Draws) :
    Receiver × Action :=
  let cid := report.cid
  let nonce := slice report.toList 7 8
  if report.command = cmdCancel then receiver.interrupt cid report.declaredLen
  else if report.command = cmdInit then
    if report.declaredLen ≠ 8 then receiver.refuse cid errInvalidLen
    else if cid = broadcastCid then receiver.welcome nonce draws
    else receiver.restart cid nonce
  else
    match receiver.lines cid with
    | none =>
      if report.isInitial then receiver.refuse cid errInvalidChannel else (receiver, noAction)
    | some line =>
      if report.isInitial then
        receiver.request cid report.command report.declaredLen report.initData nowMs
      else receiver.resume cid line report.command report.contData nowMs

noncomputable def feed (receiver : Receiver) (report : Report) (nowMs : UInt32) (draws : Draws) :
    Receiver × Action :=
  (receiver.expire nowMs).handle report nowMs draws

/-! The other side. -/

def take (receiver : Receiver) (cap : Nat) : Except TakeError Message × Receiver :=
  match receiver.transaction with
  | .processing cid command (some data) cancelled =>
    if data.length > cap then (.error .small, receiver)
    else
      (.ok ⟨cid, command, data, receiver.generation cid⟩,
        receiver.set (.processing cid command none cancelled))
  | _ => (.error .empty, receiver)

def Runs (receiver : Receiver) (cid generation : UInt32) : Prop :=
  receiver.transaction.cid = some cid ∧ receiver.generation cid = generation

instance (receiver : Receiver) (cid generation : UInt32) : Decidable (receiver.Runs cid generation) :=
  inferInstanceAs (Decidable (_ ∧ _))

def finish (receiver : Receiver) (cid generation : UInt32) : Receiver :=
  match receiver.transaction with
  | .processing .. => if receiver.Runs cid generation then receiver.set .idle else receiver
  | _ => receiver

def cancelled (receiver : Receiver) (cid generation : UInt32) : Bool :=
  match receiver.transaction with
  | .processing _ _ _ flag => !decide (receiver.Runs cid generation) || flag
  | _ => true

def clearCancel (receiver : Receiver) (cid generation : UInt32) : Receiver :=
  match receiver.transaction with
  | .processing sender command message _ =>
    if receiver.Runs cid generation then receiver.set (.processing sender command message false)
    else receiver
  | _ => receiver

inductive Step : Receiver → Event → Receiver → Prop where
  | feed (receiver : Receiver) (report : Report) (nowMs : UInt32) (draws : Draws) :
      Step receiver (.fed report nowMs (receiver.feed report nowMs draws).2)
        (receiver.feed report nowMs draws).1
  | cleanup (receiver : Receiver) (nowMs : UInt32) :
      Step receiver (.cleaned nowMs) (receiver.expire nowMs)
  | take (receiver : Receiver) (cap : Nat) :
      Step receiver (.took cap (receiver.take cap).1) (receiver.take cap).2
  | finish (receiver : Receiver) (cid generation : UInt32) :
      Step receiver (.finished cid generation) (receiver.finish cid generation)
  | clearCancel (receiver : Receiver) (cid generation : UInt32) :
      Step receiver (.uncancelled cid generation) (receiver.clearCancel cid generation)
  | reset (receiver : Receiver) : Step receiver .reset {}

abbrev Run : List Event → Receiver → Prop := Runs.Run Step {}

end Receiver

end P4Key.Ctaphid
