import P4Key.Cred.Ideal
import P4Key.Ctap.Calls

/-! The commands linked with p4_cred.c.

What is left outside is the crypto library, the root storage and the button. -/

namespace P4Key.Device

open Memory CallProgram

inductive Call where
  | sha256Sum (input : List UInt8)
  | pressWait (cid : UInt32)
  | pressCancelled (cid : UInt32)
  | p256Make
  | p256SignHash (privateScalar digest : Bytes 32)
  | cred (call : Cred.Call)
  deriving DecidableEq

@[reducible] def Reply : Call → Type
  | .sha256Sum _ => Int × Bytes 32
  | .pressWait _ => Int
  | .pressCancelled _ => Bool
  | .p256Make => Int × Ctap.KeyPair
  | .p256SignHash _ _ => Int × Ctap.Signature
  | .cred call => Cred.Reply call

abbrev Firmware (α : Type) : Type := Program Call Reply α

def credCalls {α : Type} (program : Cred.Crypto α) : Firmware α :=
  program.interpret fun call => Program.perform (Call.cred call)

/-- The function behind each call of a command. The two credential functions get the arrays
that the commands declare for them. -/
def body : (call : Ctap.Call) → Firmware (Ctap.Reply call)
  | .sha256Sum input => Program.perform (Call.sha256Sum input)
  | .credOpen rpHash credentialId => do
    let (error, out) ← credCalls
      (Cred.credOpen (some rpHash.toList) (some credentialId) (some (zeros 32)) 32)
    pure (error, load 32 (out.getD []) 0)
  | .credWrap rpHash privateScalar => do
    let (error, out) ← credCalls
      (Cred.credWrap (some rpHash.toList) (some privateScalar.toList) (some (zeros 100)) 100)
    pure (error, load 100 (out.getD []) 0)
  | .pressWait cid => Program.perform (Call.pressWait cid)
  | .pressCancelled cid => Program.perform (Call.pressCancelled cid)
  | .p256Make => Program.perform Call.p256Make
  | .p256SignHash privateScalar digest => Program.perform (Call.p256SignHash privateScalar digest)

def link {α : Type} (command : Ctap.Command α) : Firmware α := command.interpret body

/-- What the parts outside the firmware compute. -/
structure Outside where
  hash : List UInt8 → Bytes 32
  publicKey : Bytes 32 → Bytes 32 × Bytes 32
  /-- Whether a signature on a digest verifies under the public point. -/
  verifies : Bytes 32 × Bytes 32 → Bytes 32 → List UInt8 → Prop
  scheme : Cred.Scheme
  root : Bytes 32

variable (outside : Outside)

def Sound : Event Reply → Prop
  | ⟨.sha256Sum input, (error, digest)⟩ => error = cryptoOk → digest = outside.hash input
  | ⟨.p256Make, (error, keys)⟩ => error = cryptoOk →
    Crypto.scalarValid keys.scalar.toList = true ∧ outside.publicKey keys.scalar = (keys.x, keys.y)
  | ⟨.p256SignHash scalar digest, (error, signature)⟩ =>
    error = cryptoOk → Crypto.scalarValid scalar.toList = true →
      0 < signature.len ∧ signature.len ≤ 72 ∧
      outside.verifies (outside.publicKey scalar) digest
        (signature.bytes.toList.take signature.len)
  | ⟨.cred call, reply⟩ => Cred.Sound outside.scheme outside.root ⟨call, reply⟩
  | _ => True

/-- The call succeeded; the user consents and cancels nothing. -/
def Succeeds : Event Reply → Prop
  | ⟨.sha256Sum _, (error, _)⟩ => error = cryptoOk
  | ⟨.pressWait _, result⟩ => result = pressOk
  | ⟨.pressCancelled _, cancelled⟩ => cancelled = false
  | ⟨.p256SignHash _ _, (error, _)⟩ => error = cryptoOk
  | ⟨.cred call, reply⟩ => Cred.Succeeds ⟨call, reply⟩
  | _ => True

def CommandSound : Event Ctap.Reply → Prop
  | ⟨.sha256Sum input, (error, digest)⟩ => error = cryptoOk → digest = outside.hash input
  | ⟨.credOpen rpHash id, (error, scalar)⟩ =>
    (error = credOk ∧ Cred.IsCredential outside.scheme outside.root rpHash scalar id) ∨
      error = credErrMismatch ∧
        ∀ scalar, ¬ Cred.IsCredential outside.scheme outside.root rpHash scalar id
  | ⟨.credWrap rpHash scalar, (error, id)⟩ => error = credOk →
    Cred.IsCredential outside.scheme outside.root rpHash scalar id.toList
  | ⟨.p256Make, (error, keys)⟩ => error = cryptoOk →
    Crypto.scalarValid keys.scalar.toList = true ∧ outside.publicKey keys.scalar = (keys.x, keys.y)
  | ⟨.p256SignHash scalar digest, (error, signature)⟩ =>
    error = cryptoOk → Crypto.scalarValid scalar.toList = true →
      0 < signature.len ∧ signature.len ≤ 72 ∧
      outside.verifies (outside.publicKey scalar) digest
        (signature.bytes.toList.take signature.len)
  | _ => True

def CommandSucceeds : Event Ctap.Reply → Prop
  | ⟨.sha256Sum _, (error, _)⟩ => error = cryptoOk
  | ⟨.pressWait _, result⟩ => result = pressOk
  | ⟨.pressCancelled _, cancelled⟩ => cancelled = false
  | ⟨.p256SignHash _ _, (error, _)⟩ => error = cryptoOk
  | _ => True

variable {outside} {before : List (Event Reply)}

theorem credCalls_ensures {α : Type} {program : Cred.Crypto α} {post : α → Prop}
    (holds : Ensures (Cred.Sound outside.scheme outside.root) [] program (fun _ result => post result)) :
    Ensures (Sound outside) before (credCalls program) (fun _ result => post result) := by
  apply ensures_interpret _ _ program post before holds
  intro call before reply sound
  exact sound

theorem credOpen_answers (rpHash : Bytes 32) (id : List UInt8) :
    Ensures (Sound outside) before (body (.credOpen rpHash id)) (fun _ reply =>
      CommandSound outside ⟨.credOpen rpHash id, reply⟩) := by
  apply (ensures_bind _ _ _).mpr
  apply (credCalls_ensures (Cred.credOpen_ensures rpHash id (zeros 32) 32 (by decide))).imp
  intro events result cases
  rcases cases with ⟨scalar, credential, rfl⟩ | ⟨none, rfl⟩
  · have loaded : load 32 (store (zeros 32) 0 scalar.toList) 0 = scalar := by
      have same := load_store (zeros 32) scalar.toList (by simp)
      rw [List.Vector.toList_length] at same
      exact List.Vector.toList_injective same
    refine Or.inl ⟨rfl, ?_⟩
    simp only [Option.getD_some, loaded]
    exact credential
  · exact Or.inr ⟨rfl, none⟩

theorem credWrap_answers (rpHash scalar : Bytes 32) :
    Ensures (Sound outside) before (body (.credWrap rpHash scalar)) (fun _ reply =>
      CommandSound outside ⟨.credWrap rpHash scalar, reply⟩) := by
  apply (ensures_bind _ _ _).mpr
  have spec := @Cred.credWrap_ensures outside.scheme outside.root [] rpHash scalar (zeros 100) 100
    (by decide)
  have wrap : Ensures (Cred.Sound outside.scheme outside.root) []
      (Cred.credWrap (some rpHash.toList) (some scalar.toList) (some (zeros 100)) 100)
      (fun _ result => result.1 = credOk →
        Crypto.scalarValid scalar.toList = true ∧ ∃ nonce, result.2 = some (store (zeros 100) 0
          (Cred.credentialId outside.scheme outside.root nonce rpHash scalar))) := by
    apply spec.imp
    intro events result cases success
    rcases cases with ⟨valid, nonce, rfl⟩ | ⟨failed, -⟩
    · exact ⟨valid, nonce, rfl⟩
    · exact absurd success failed
  apply (credCalls_ensures wrap).imp
  intro events result wrapped success
  rcases wrapped success with ⟨valid, nonce, out⟩
  have same := load_store (zeros 100)
    (Cred.credentialId outside.scheme outside.root nonce rpHash scalar)
    (by rw [Cred.length_credentialId]; decide)
  rw [Cred.length_credentialId] at same
  refine ⟨valid, nonce, ?_⟩
  simp only [out, Option.getD_some]
  exact same

theorem body_sound (call : Ctap.Call) :
    Ensures (Sound outside) before (body call) (fun _ reply =>
      CommandSound outside ⟨call, reply⟩) := by
  cases call with
  | sha256Sum input => exact fun reply sound => sound
  | credOpen rpHash id => exact credOpen_answers rpHash id
  | credWrap rpHash scalar => exact credWrap_answers rpHash scalar
  | pressWait cid => exact fun reply sound => sound
  | pressCancelled cid => exact fun reply sound => sound
  | p256Make => exact fun reply sound => sound
  | p256SignHash scalar digest => exact fun reply sound => sound

theorem ensures_of_sound {α : Type} {program : Firmware α} {post : List (Event Reply) → α → Prop}
    (holds : Ensures (Sound outside) before program post) :
    Ensures (fun event => Sound outside event ∧ Succeeds event) before program post :=
  holds.strengthen fun _ both => both.1

theorem body_succeeds (call : Ctap.Call) :
    Ensures (fun event => Sound outside event ∧ Succeeds event) before (body call) (fun _ reply =>
      CommandSound outside ⟨call, reply⟩ ∧ CommandSucceeds ⟨call, reply⟩) := by
  cases call with
  | sha256Sum input => exact fun reply both => both
  | credOpen rpHash id =>
      exact (ensures_of_sound (credOpen_answers rpHash id)).imp fun _ _ sound => ⟨sound, trivial⟩
  | credWrap rpHash scalar =>
      exact (ensures_of_sound (credWrap_answers rpHash scalar)).imp fun _ _ sound => ⟨sound, trivial⟩
  | pressWait cid => exact fun reply both => both
  | pressCancelled cid => exact fun reply both => both
  | p256Make => exact fun reply both => both
  | p256SignHash scalar digest => exact fun reply both => both

end P4Key.Device
