import P4Key.Device.Platform

/-! The platform delivers what the commands rely on. -/

namespace P4Key.Device.Platform

open Memory AddressSpace CallProgram Crypto

variable {outside : Outside} {state : State}

/-! Parts of the platform. -/

theorem psaCalls_serves {α : Type} {program : Psa α} {post : Ideal.State → α → Prop}
    (holds : Serves (Ideal.Step (algorithms outside)) state.psa program post) :
    Serves (Step outside) state (psaCalls program) fun after value =>
      ∃ psa, after = { state with psa := psa } ∧ post psa value := by
  have each : ∀ (c : Crypto.Call) (psa : Ideal.State) (here : State), here = { state with psa := psa } →
      Serves (Step outside) here (Program.perform (Call.psa c)) fun after reply =>
        ∃ psa', Ideal.Step (algorithms outside) psa ⟨c, reply⟩ psa' ∧
          after = { state with psa := psa' } := by
    rintro c psa here rfl reply after answered
    cases answered with
    | psa step => exact ⟨_, step, rfl⟩
  exact holds.interpret each rfl

def HashStep (hash : List UInt8 → Bytes 32) (before : Sha.Operation) (event : Event Sha.Reply)
    (after : Sha.Operation) : Prop :=
  Sha.Step hash before event after ∧ (Fits before event.1 → Sha.Passed event)

theorem hashCalls_serves {α : Type} {program : Sha.Hash α} {post : Sha.Operation → α → Prop}
    (holds : Serves (HashStep outside.hash) state.hash program post) :
    Serves (Step outside) state (hashCalls program) fun after value =>
      ∃ hash, after = { state with hash := hash } ∧ post hash value := by
  have each : ∀ (c : Sha.Call) (hash : Sha.Operation) (here : State), here = { state with hash := hash } →
      Serves (Step outside) here (Program.perform (Call.hash c)) fun after reply =>
        ∃ hash', HashStep outside.hash hash ⟨c, reply⟩ hash' ∧
          after = { state with hash := hash' } := by
    rintro c hash here rfl reply after answered
    cases answered with
    | hash step passed => exact ⟨_, ⟨step, passed⟩, rfl⟩
  exact holds.interpret each rfl

theorem readBytes_eq {space : Space} {first size : Nat} {bytes : Bytes size}
    (same : read space ⟨first, size⟩ = bytes.toList) : readBytes space first size = bytes :=
  List.Vector.toList_injective same

theorem read_last (space : Space) (first : Nat) {size : Nat} (bytes : Bytes size) :
    read (write space first bytes.toList) ⟨first, size⟩ = bytes.toList := by
  have whole := read_write space first bytes.toList
  rw [List.Vector.toList_length] at whole
  exact whole

theorem read_other (space : Space) (first : Nat) {size : Nat} (bytes : Bytes size) (range : Range)
    (apart : range.first + range.len ≤ first ∨ first + size ≤ range.first) :
    read (write space first bytes.toList) range = read space range := by
  apply read_write_apart
  rw [List.Vector.toList_length]
  exact apart

theorem read_pair (space : Space) {first second size size' : Nat} (one : Bytes size) (two : Bytes size')
    (apart : first + size ≤ second) :
    readBytes (write (write space first one.toList) second two.toList) first size = one ∧
      readBytes (write (write space first one.toList) second two.toList) second size' = two := by
  constructor
  · apply readBytes_eq
    rw [read_other _ second two _ (Or.inl apart), read_last]
  · exact readBytes_eq (read_last _ second two)

section Bodies

variable (frame : Frame)

theorem Frame.apart (frame : Frame) {first len second len' : Nat} (low : first + len ≤ 256)
    (low' : second + len' ≤ 256) (order : first + len ≤ second ∨ second + len' ≤ first) :
    overlap esp32p4 (frame.base + first) len (frame.base + second) len' = false := by
  have inside := frame.inside
  have proper := frame.proper
  have holds : ∀ {offset size : Nat}, offset + size ≤ 256 →
      esp32p4.Holds ⟨frame.base + offset, size⟩ := by
    intro offset size bound
    constructor
    · exact Or.inl (by dsimp only; omega)
    · dsimp only [esp32p4]
      omega
  rw [Bool.eq_false_iff]
  intro shared
  rcases (Range.meets_iff _ _).mp ((overlap_iff esp32p4 _ _ (holds low) (holds low')).mp shared)
    with ⟨-, -, before, after⟩
  dsimp only at before after
  omega

theorem Frame.read_place {arrays : List UInt8} (before : List UInt8) {size offset : Nat}
    (field : Bytes size) (after : List UInt8) (split : arrays = before ++ (field.toList ++ after))
    (here : offset = before.length) :
    read (frame.place arrays) ⟨frame.base + offset, size⟩ = field.toList :=
  read_write_part frame.memory frame.base split here (List.Vector.toList_length field).symm

theorem hashUpdates_passes {hash : List UInt8 → Bytes 32} {memory : Space} {input inLen : Nat}
    (status : Int) (offset : Nat) (good : status = psaSuccess) (absorbed : List UInt8) :
    Serves (HashStep hash) (.active absorbed) (Sha.hashUpdates memory input inLen status offset)
      fun after status => status = psaSuccess ∧ ∃ absorbed, after = .active absorbed := by
  induction status, offset using Sha.hashUpdates.induct inLen generalizing absorbed with
  | case1 status offset more take ih =>
      rw [Sha.hashUpdates, dif_pos more]
      rintro status' after ⟨step, passed⟩
      have good' : status' = psaSuccess := passed trivial
      cases step with
      | update => exact ih psaSuccess rfl _
      | failed operation event other bad => exact absurd good' bad
  | case2 status offset last =>
      rw [Sha.hashUpdates, dif_neg last]
      exact ⟨good, absorbed, rfl⟩

theorem sha256Sum_passes {hash : List UInt8 → Bytes 32} {memory : Space} {input inLen out : Nat}
    (arguments : ¬ Sha.BadArg input inLen out) :
    Serves (HashStep hash) .inactive (Sha.sha256Sum true memory input inLen out) fun _ result =>
      result.1 = cryptoOk := by
  rw [Sha.sha256Sum, if_neg arguments, if_neg (by decide)]
  rintro status after ⟨step, passed⟩
  have good : status = psaSuccess := passed trivial
  cases step with
  | failed operation event other bad => exact absurd good bad
  | setup =>
      refine (hashUpdates_passes psaSuccess 0 rfl []).bind ?_
      rintro after status ⟨rfl, absorbed, rfl⟩
      rw [Sha.hashFinish, if_pos rfl]
      rintro ⟨status, digest, len⟩ after ⟨-, passed⟩
      have finished : status = psaSuccess ∧ len = Sha.sha256Len := passed rfl
      rcases finished with ⟨rfl, rfl⟩
      exact rfl

theorem sha256Sum_delivers (idle : state.Idle) (input : List UInt8) :
    Serves (Step outside) state (sha256Sum frame input) fun after reply =>
      after = state ∧ reply = (cryptoOk, outside.hash input) := by
  have proper := frame.proper
  have arguments : ¬ Sha.BadArg frame.base input.length (frame.base + input.length) := by
    rw [Sha.BadArg]
    omega
  have streamed : Serves (HashStep outside.hash) state.hash
      (Sha.sha256Sum true (frame.place input) frame.base input.length (frame.base + input.length))
      fun after out => after = .inactive ∧ out = (cryptoOk,
        write (frame.place input) (frame.base + input.length) (outside.hash input).toList) := by
    rw [idle.hash]
    have hashed : Serves (HashStep outside.hash) .inactive _ _ :=
      (@Sha.sha256Sum_serves outside.hash (frame.place input) frame.base input.length
        (frame.base + input.length) true).restrict fun _ _ _ both => both.1
    refine (hashed.and (sha256Sum_passes arguments)).imp ?_
    rintro after ⟨code, left⟩ ⟨⟨closed, written, -⟩, ok⟩
    have source : read (frame.place input) ⟨frame.base, input.length⟩ = input :=
      read_write frame.memory frame.base input
    rw [source] at written
    exact ⟨closed, Prod.ext ok (written ok)⟩
  refine (hashCalls_serves streamed).bind ?_
  rintro after out ⟨hash, rfl, rfl, rfl⟩
  refine ⟨?_, Prod.ext rfl (readBytes_eq (read_last _ _ _))⟩
  rw [← idle.hash]

theorem p256Make_delivers :
    Serves (Step outside) state (p256Make frame) fun after (error, keys) =>
      after = state ∧ error = cryptoOk ∧ scalarValid keys.scalar.toList = true ∧
        outside.publicKey keys.scalar = (keys.x, keys.y) := by
  have proper := frame.proper
  have apart : makeOverlap esp32p4 (frame.base + 0) (frame.base + 32) (frame.base + 64) = false := by
    simp only [makeOverlap, Bool.or_eq_false_iff]
    refine ⟨⟨?_, ?_⟩, ?_⟩
    all_goals exact frame.apart (by decide) (by decide) (by decide)
  rw [Nat.add_zero] at apart
  refine (psaCalls_serves (Ideal.p256Make_serves esp32p4 (frame.place []) (by omega) apart)).bind ?_
  rintro after ⟨error, left⟩ ⟨psa, rfl, rfl, scalar, valid, same⟩
  simp only [Prod.mk.injEq] at same
  rcases same with ⟨rfl, same⟩
  have points := read_pair (write (makeCleared (frame.place []) frame.base (frame.base + 32)
    (frame.base + 64)) frame.base scalar.toList) (outside.publicKey scalar).1
    (outside.publicKey scalar).2 (Nat.le_refl (frame.base + 64))
  have written : left = write (write (write (makeCleared (frame.place []) frame.base (frame.base + 32)
    (frame.base + 64)) frame.base scalar.toList) (frame.base + 32) (outside.publicKey scalar).1.toList)
    (frame.base + 64) (outside.publicKey scalar).2.toList := same
  have behind : ∀ offset, 32 ≤ offset → frame.base + 32 ≤ frame.base + offset := fun _ more =>
    Nat.add_le_add_left more _
  have private' : readBytes left frame.base 32 = scalar := by
    apply readBytes_eq
    rw [written, read_other _ _ _ _ (Or.inl (behind 64 (by decide))),
      read_other _ _ _ _ (Or.inl (behind 32 le_rfl)), read_last]
  rw [← written] at points
  refine ⟨rfl, rfl, ?_, ?_⟩
  · rw [private']
    exact valid
  · rw [private', points.1, points.2]

theorem p256Pub_delivers (scalar : Bytes 32) :
    Serves (Step outside) state (p256Pub frame scalar) fun after (error, _) =>
      after = state ∧ error = if scalarValid scalar.toList then cryptoOk else cryptoKey := by
  have proper := frame.proper
  have apart : pubOverlap esp32p4 (frame.base + 0) (frame.base + 32) (frame.base + 64) = false := by
    simp only [pubOverlap, Bool.or_eq_false_iff]
    refine ⟨⟨?_, ?_⟩, ?_⟩
    all_goals exact frame.apart (by decide) (by decide) (by decide)
  rw [Nat.add_zero] at apart
  have given : read (frame.place scalar.toList) ⟨frame.base, p256ScalarLen⟩ = scalar.toList :=
    read_last frame.memory frame.base scalar
  have kept : read (pubCleared (frame.place scalar.toList) (frame.base + 32) (frame.base + 64))
      ⟨frame.base, p256ScalarLen⟩ = scalar.toList := by
    rw [pubCleared, AddressSpace.clear, AddressSpace.clear, read_write_apart, read_write_apart, given]
    all_goals exact Or.inl (by dsimp only [p256ScalarLen]; omega)
  refine (psaCalls_serves (Ideal.p256Pub_serves esp32p4 (frame.place scalar.toList) (by omega) apart
    given kept)).bind ?_
  rintro after ⟨error, left⟩ ⟨psa, rfl, rfl, same⟩
  refine ⟨rfl, ?_⟩
  cases valid : scalarValid scalar.toList with
  | true =>
      rw [valid, if_pos rfl] at same
      exact (Prod.mk.inj same).1
  | false =>
      rw [valid, if_neg (by decide)] at same
      exact (Prod.mk.inj same).1

theorem p256SignHash_delivers (scalar digest : Bytes 32) :
    Serves (Step outside) state (p256SignHash frame scalar digest) fun after (error, signature) =>
      after = state ∧ (error = cryptoOk → scalarValid scalar.toList = true → 0 < signature.len ∧
        signature.len ≤ 72 ∧ outside.verifies (outside.publicKey scalar) digest
          (signature.bytes.toList.take signature.len)) ∧
      (scalarValid scalar.toList = true → error = cryptoOk) := by
  have proper := frame.proper
  have lengthApart : signLenOverlap esp32p4 (frame.base + 0) (frame.base + 32) (frame.base + 64)
      (frame.base + 136) = false := by
    simp only [signLenOverlap, Bool.or_eq_false_iff]
    refine ⟨⟨?_, ?_⟩, ?_⟩
    all_goals exact frame.apart (by decide) (by decide) (by decide)
  have apart : signOverlap esp32p4 (frame.base + 0) (frame.base + 32) (frame.base + 64) = false := by
    simp only [signOverlap, Bool.or_eq_false_iff]
    refine ⟨?_, ?_⟩
    all_goals exact frame.apart (by decide) (by decide) (by decide)
  rw [Nat.add_zero] at apart lengthApart
  have untouched : ∀ offset (field : Bytes 32), offset + 32 ≤ 136 →
      read (frame.place (scalar.toList ++ digest.toList)) ⟨frame.base + offset, 32⟩ = field.toList →
      read (storeSize esp32p4 (frame.place (scalar.toList ++ digest.toList)) (frame.base + 136) 0)
        ⟨frame.base + offset, 32⟩ = field.toList := by
    intro offset field inside same
    rw [storeSize, read_write_apart, same]
    exact Or.inl (by dsimp only; omega)
  have given := untouched 0 scalar (by decide)
    (frame.read_place [] scalar digest.toList (List.nil_append _).symm rfl)
  have hashed := untouched 32 digest (by decide)
    (frame.read_place scalar.toList digest [] (by rw [List.append_nil]) (by simp))
  cases valid : scalarValid scalar.toList with
  | false =>
      refine (psaCalls_serves (Ideal.p256SignHash_refuses esp32p4 _ (by omega) (by omega) lengthApart
        apart given valid)).bind ?_
      rintro after ⟨error, left⟩ ⟨psa, rfl, rfl, refused⟩
      have refused : error = cryptoKey := refused
      refine ⟨rfl, ?_, fun impossible => by cases impossible⟩
      rintro rfl
      exact absurd refused (by decide)
  | true =>
      refine (psaCalls_serves (Ideal.p256SignHash_serves esp32p4 _ (by omega) (by omega) lengthApart
        apart given hashed valid)).bind ?_
      rintro after ⟨error, left⟩ ⟨psa, rfl, rfl, r, s, small, small', signed, same⟩
      rcases Prod.mk.inj same with ⟨rfl, written⟩
      rcases length_signatureDer small small' with ⟨long, short⟩
      have length : loadSize esp32p4 left (frame.base + 136) = (signatureDer r s).length := by
        rw [written, loadSize_storeSize]
        exact lt_of_le_of_lt short (by decide)
      have bytes : (read left ⟨frame.base + 64, 72⟩).take (signatureDer r s).length =
          signatureDer r s := by
        rw [written, storeSize, read_write_apart, read_write_front _ _ short]
        exact Or.inl (by dsimp only; omega)
      refine ⟨rfl, fun _ _ => ?_, fun _ => rfl⟩
      change 0 < loadSize esp32p4 left (frame.base + 136) ∧ loadSize esp32p4 left (frame.base + 136) ≤ 72 ∧
        outside.verifies (outside.publicKey scalar) digest ((read left ⟨frame.base + 64, 72⟩).take
          (loadSize esp32p4 left (frame.base + 136)))
      rw [length, bytes]
      exact ⟨by omega, short, signed⟩

theorem gcmSeal_delivers (idle : state.Idle) (key : Bytes 32) (nonce : Bytes 12) (aad : Bytes 24)
    (plain : Bytes 64) :
    Serves (Step outside) state (gcmSeal frame key nonce aad plain) fun after reply =>
      after = state ∧ reply = (cryptoOk, outside.scheme.sealed key nonce aad plain) := by
  have proper := frame.proper
  have apart : sealOverlap esp32p4 (frame.base + 0) (frame.base + 32) (frame.base + 44) 24
      (frame.base + 68) 64 (frame.base + 132) (frame.base + 196) = false := by
    simp only [sealOverlap, Bool.or_eq_false_iff]
    refine ⟨⟨⟨⟨⟨⟨⟨⟨?_, ?_⟩, ?_⟩, ?_⟩, ?_⟩, ?_⟩, ?_⟩, ?_⟩, ?_⟩
    all_goals exact frame.apart (by decide) (by decide) (by decide)
  rw [Nat.add_zero] at apart
  have arguments : ¬ SealBadArg frame.base (frame.base + 32) (frame.base + 44) 24 (frame.base + 68) 64
      (frame.base + 132) (frame.base + 196) := by
    rw [SealBadArg]
    omega
  have arrays : Ideal.Arrays
      (frame.place (key.toList ++ (nonce.toList ++ (aad.toList ++ plain.toList))))
      frame.base (frame.base + 32) (frame.base + 44) (frame.base + 68) key nonce aad plain := by
    constructor
    · exact frame.read_place [] key _ (List.nil_append _).symm rfl
    · exact frame.read_place key.toList nonce _ rfl (by simp)
    · exact frame.read_place (key.toList ++ nonce.toList) aad plain.toList (by simp) (by simp)
    · exact frame.read_place (key.toList ++ (nonce.toList ++ aad.toList)) plain [] (by simp) (by simp)
  refine (psaCalls_serves (Ideal.gcmSeal_serves esp32p4 _ arguments apart arrays idle.psa)).bind ?_
  rintro after ⟨error, left⟩ ⟨psa, rfl, rfl, same⟩
  rcases Prod.mk.inj same with ⟨rfl, rfl⟩
  have boxes := read_pair (frame.place (key.toList ++ (nonce.toList ++ (aad.toList ++ plain.toList))))
    (outside.scheme.sealed key nonce aad plain).1 (outside.scheme.sealed key nonce aad plain).2
    (show frame.base + 132 + 64 ≤ frame.base + 196 from le_rfl)
  exact ⟨rfl, Prod.ext rfl (Prod.ext boxes.1 boxes.2)⟩

theorem gcmOpen_delivers (idle : state.Idle) (key : Bytes 32) (nonce : Bytes 12) (aad : Bytes 24)
    (cipher : Bytes 64) (tag : Bytes 16) :
    Serves (Step outside) state (gcmOpen frame key nonce aad cipher tag) fun after (error, plain) =>
      after = state ∧ (error = cryptoOk ∨ error = cryptoAuth) ∧ outside.scheme.Opens key nonce aad
        (cipher, tag) (if error = cryptoOk then some plain else none) := by
  have proper := frame.proper
  have apart : openOverlap esp32p4 (frame.base + 0) (frame.base + 32) (frame.base + 44) 24
      (frame.base + 68) 64 (frame.base + 132) (frame.base + 148) = false := by
    simp only [openOverlap, Bool.or_eq_false_iff]
    refine ⟨⟨⟨⟨?_, ?_⟩, ?_⟩, ?_⟩, ?_⟩
    all_goals exact frame.apart (by decide) (by decide) (by decide)
  rw [Nat.add_zero] at apart
  have arguments : ¬ OpenBadArg frame.base (frame.base + 32) (frame.base + 44) 24 (frame.base + 68) 64
      (frame.base + 132) (frame.base + 148) := by
    rw [OpenBadArg]
    omega
  have arrays : Ideal.Arrays
      (frame.place (key.toList ++ (nonce.toList ++ (aad.toList ++ (cipher.toList ++ tag.toList)))))
      frame.base (frame.base + 32) (frame.base + 44) (frame.base + 68) key nonce aad cipher := by
    constructor
    · exact frame.read_place [] key _ (List.nil_append _).symm rfl
    · exact frame.read_place key.toList nonce _ rfl (by simp)
    · exact frame.read_place (key.toList ++ nonce.toList) aad (cipher.toList ++ tag.toList) (by simp)
        (by simp)
    · exact frame.read_place (key.toList ++ (nonce.toList ++ aad.toList)) cipher tag.toList (by simp)
        (by simp)
  have mark : ∀ body : Bytes 64, read (write
      (frame.place (key.toList ++ (nonce.toList ++ (aad.toList ++ (cipher.toList ++ tag.toList)))))
      (frame.base + 148) body.toList) ⟨frame.base + 132, gcmTagLen⟩ = tag.toList := by
    intro body
    have before : frame.base + 132 + gcmTagLen ≤ frame.base + 148 := le_rfl
    rw [read_other _ _ body ⟨frame.base + 132, gcmTagLen⟩ (Or.inl before)]
    exact frame.read_place (key.toList ++ (nonce.toList ++ (aad.toList ++ cipher.toList))) tag []
      (by simp) (by simp)
  refine (psaCalls_serves (Ideal.gcmOpen_serves esp32p4 _ arguments apart arrays mark idle.psa)).bind ?_
  rintro after ⟨error, left⟩ ⟨psa, rfl, rfl, ⟨plain, same, sealed⟩ | ⟨refused, denied⟩⟩
  · rcases Prod.mk.inj same with ⟨rfl, rfl⟩
    refine ⟨rfl, Or.inl rfl, fun other => ?_⟩
    rw [if_pos rfl, readBytes_eq (read_last _ _ plain), Option.some.injEq]
    have sealed : outside.scheme.sealed key nonce aad plain = (cipher, tag) := sealed
    rw [← sealed]
    exact (outside.scheme.sealed_injective key nonce aad).eq_iff.symm.trans eq_comm
  · have refused : error = cryptoAuth := refused
    refine ⟨rfl, Or.inr refused, fun other => ?_⟩
    rw [refused, if_neg (by decide)]
    exact iff_of_false (fun impossible => by cases impossible) (denied other)

theorem randFill_delivers :
    Serves (Step outside) state randFill fun after (error, _) => after = state ∧ error = cryptoOk := by
  intro reply after answered
  cases answered with
  | random => exact ⟨rfl, rfl⟩

def StorageStep (root : Bytes 32) (_ : Unit) (event : Event Cred.Root.Reply) (_ : Unit) : Prop :=
  Stored root event

theorem nvsCalls_serves {α : Type} {program : Cred.Root.Storage α} {post : α → Prop}
    (holds : Serves (StorageStep outside.root) () program fun _ value => post value) :
    Serves (Step outside) state (nvsCalls program) fun after value => after = state ∧ post value := by
  have each : ∀ (c : Cred.Root.Call) (idle : Unit) (here : State), here = state →
      Serves (Step outside) here (Program.perform (Call.nvs c)) fun after reply =>
        ∃ idle', StorageStep outside.root idle ⟨c, reply⟩ idle' ∧ after = state := by
    rintro c idle here rfl reply after answered
    cases answered with
    | nvs stored => exact ⟨(), stored, rfl⟩
  exact (holds.interpret each rfl).imp fun after value ⟨_, same, result⟩ => ⟨same, result⟩

theorem rootRead_serves (flags : Cred.Root.Flags) (handle : UInt32) (root : Bytes 32) :
    Serves (StorageStep root) () (Cred.Root.rootRead flags handle (some root)) fun _ loaded =>
      loaded = ⟨credOk, some root, flags⟩ := by
  rw [Cred.Root.rootRead, Cred.Root.closeHandle]
  split
  · exact fun _ _ _ => rfl
  · rfl

theorem rootLoad_delivers :
    Serves (Step outside) state rootLoad fun after reply =>
      after = state ∧ reply = (credOk, outside.root) := by
  have read : Serves (StorageStep outside.root) ()
      (Cred.Root.rootLoad { ready := true } (some Cred.Root.blankRoot)) fun _ loaded =>
        loaded = ⟨credOk, some outside.root, { ready := true }⟩ := by
    rintro ⟨openError, handle⟩ - (rfl : openError = Cred.Root.espOk)
    rintro ⟨getError, stored, storedLen⟩ - ⟨rfl, rfl, rfl⟩
    exact rootRead_serves { ready := true } handle outside.root
  refine (nvsCalls_serves read).bind ?_
  rintro after loaded ⟨rfl, rfl⟩
  exact ⟨rfl, rfl⟩

/-! All of the calls. -/

/-- What the platform makes succeed: all but the button, and a signature with a scalar that is no
key. -/
def Works : Event Device.Reply → Prop
  | ⟨.sha256Sum _, (error, _)⟩ => error = cryptoOk
  | ⟨.p256Make, (error, _)⟩ => error = cryptoOk
  | ⟨.p256SignHash scalar _, (error, _)⟩ => scalarValid scalar.toList = true → error = cryptoOk
  | ⟨.cred call, reply⟩ => Cred.Succeeds ⟨call, reply⟩
  | _ => True

/-- The functions behind the calls do what the commands rely on, and leave the platform as it was. -/
theorem body_delivers (idle : state.Idle) (call : Device.Call) :
    Serves (Step outside) state (body frame call) fun after reply =>
      after = state ∧ Sound outside ⟨call, reply⟩ ∧ Works ⟨call, reply⟩ := by
  cases call with
  | sha256Sum input =>
      refine (sha256Sum_delivers frame idle input).imp ?_
      rintro after reply ⟨rfl, rfl⟩
      exact ⟨rfl, fun _ => rfl, rfl⟩
  | pressWait cid =>
      intro reply after answered
      cases answered with
      | pressWait => exact ⟨rfl, trivial, trivial⟩
  | pressCancelled cid =>
      intro reply after answered
      cases answered with
      | pressCancelled => exact ⟨rfl, trivial, trivial⟩
  | p256Make =>
      refine (p256Make_delivers frame).imp ?_
      rintro after ⟨error, keys⟩ ⟨rfl, rfl, pair⟩
      exact ⟨rfl, fun _ => pair, rfl⟩
  | p256SignHash scalar digest =>
      refine (p256SignHash_delivers frame scalar digest).imp ?_
      rintro after ⟨error, signature⟩ ⟨rfl, signed, works⟩
      exact ⟨rfl, signed, works⟩
  | cred call =>
      cases call with
      | p256Pub scalar =>
          refine (p256Pub_delivers frame scalar).imp ?_
          rintro after ⟨error, point⟩ ⟨rfl, checked⟩
          exact ⟨rfl, checked, trivial⟩
      | randFill =>
          refine randFill_delivers.imp ?_
          rintro after ⟨error, nonce⟩ ⟨rfl, ok⟩
          exact ⟨rfl, trivial, ok⟩
      | rootLoad =>
          refine rootLoad_delivers.imp ?_
          rintro after reply ⟨rfl, rfl⟩
          exact ⟨rfl, ⟨rfl, rfl⟩, trivial⟩
      | gcmSeal key nonce aad plain =>
          refine (gcmSeal_delivers frame idle key nonce aad plain).imp ?_
          rintro after reply ⟨rfl, rfl⟩
          exact ⟨rfl, fun _ => rfl, rfl⟩
      | gcmOpen key nonce aad cipher tag =>
          refine (gcmOpen_delivers frame idle key nonce aad cipher tag).imp ?_
          rintro after ⟨error, plain⟩ ⟨rfl, known, opens⟩
          exact ⟨rfl, ⟨known, opens⟩, trivial⟩

end Bodies

end P4Key.Device.Platform
