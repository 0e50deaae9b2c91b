import P4Key.Cred.Cred
import P4Key.Crypto.Scalar
import P4Key.Library.Aead

/-! Wrapped credentials over an ideal scheme.

A credential id is the header, a nonce and the box that seals the RP hash and the
scalar. `cred_wrap` writes such an id, and `cred_open` accepts nothing else. -/

namespace P4Key.Cred

open Memory CallProgram Crypto

abbrev Scheme : Type := Aead (Bytes 32) (Bytes 12) (Bytes 24) (Bytes 64) (Bytes 64 × Bytes 16)

def credentialAad : Bytes 24 := ⟨header ++ aaguid, rfl⟩

def contents (rpIdHash scalar : Bytes 32) : Bytes 64 :=
  ⟨rpIdHash.toList ++ scalar.toList, by simp⟩

@[simp] theorem contents_toList (rpIdHash scalar : Bytes 32) :
    (contents rpIdHash scalar).toList = rpIdHash.toList ++ scalar.toList := rfl

theorem contents_inj {rpIdHash rpIdHash' scalar scalar' : Bytes 32}
    (same : contents rpIdHash scalar = contents rpIdHash' scalar') :
    rpIdHash = rpIdHash' ∧ scalar = scalar' := by
  have plains := congrArg List.Vector.toList same
  rw [contents_toList, contents_toList] at plains
  have parts := List.append_inj plains (by simp)
  exact ⟨List.Vector.toList_injective parts.1, List.Vector.toList_injective parts.2⟩

def credentialId (scheme : Scheme) (root : Bytes 32) (nonce : Bytes 12)
    (rpIdHash scalar : Bytes 32) : List UInt8 :=
  let box := scheme.sealed root nonce credentialAad (contents rpIdHash scalar)
  header ++ nonce.toList ++ box.1.toList ++ box.2.toList

def Sound (scheme : Scheme) (root : Bytes 32) : Event Reply → Prop
  | ⟨.p256Pub scalar, (error, _)⟩ =>
    error = if scalarValid scalar.toList then cryptoOk else cryptoKey
  | ⟨.randFill, _⟩ => True
  | ⟨.rootLoad, (error, loaded)⟩ => error = credOk ∧ loaded = root
  | ⟨.gcmSeal key nonce aad plain, (error, box)⟩ =>
    error = cryptoOk → box = scheme.sealed key nonce aad plain
  | ⟨.gcmOpen key nonce aad cipher tag, (error, plain)⟩ =>
    (error = cryptoOk ∨ error = cryptoAuth) ∧
      scheme.Opens key nonce aad (cipher, tag) (if error = cryptoOk then some plain else none)

/-- The calls that can fail for want of entropy or memory did not. -/
def Succeeds : Event Reply → Prop
  | ⟨.randFill, (error, _)⟩ => error = cryptoOk
  | ⟨.gcmSeal _ _ _ _, (error, _)⟩ => error = cryptoOk
  | _ => True

def Ideal (scheme : Scheme) (root : Bytes 32) (event : Event Reply) : Prop :=
  Sound scheme root event ∧ Succeeds event

section Fields

variable (scheme : Scheme) (root : Bytes 32) (nonce : Bytes 12) (rpIdHash scalar : Bytes 32)

@[simp] theorem length_credentialId :
    (credentialId scheme root nonce rpIdHash scalar).length = credIdLen := by
  simp [credentialId, header, credIdLen]

theorem credentialId_header :
    slice (credentialId scheme root nonce rpIdHash scalar) 0 headerLen = header := by
  simp [credentialId, slice, header, headerLen]

theorem credentialId_nonce :
    load nonceLen (credentialId scheme root nonce rpIdHash scalar) nonceOffset = nonce := by
  apply load_eq
  · rw [length_credentialId]
    decide
  · simp only [credentialId, List.append_assoc]
    exact slice_append header nonce.toList _ _ _ rfl nonce.toList_length.symm

theorem credentialId_box :
    (load cipherLen (credentialId scheme root nonce rpIdHash scalar) cipherOffset,
      load tagLen (credentialId scheme root nonce rpIdHash scalar) tagOffset) =
    scheme.sealed root nonce credentialAad (contents rpIdHash scalar) := by
  have cipher : load cipherLen (credentialId scheme root nonce rpIdHash scalar) cipherOffset =
      (scheme.sealed root nonce credentialAad (contents rpIdHash scalar)).1 := by
    apply load_eq
    · rw [length_credentialId]
      decide
    · rw [credentialId, List.append_assoc (header ++ nonce.toList)]
      exact slice_append _ _ _ _ _ (by simp [header, cipherOffset])
        (List.Vector.toList_length _).symm
  have tag : load tagLen (credentialId scheme root nonce rpIdHash scalar) tagOffset =
      (scheme.sealed root nonce credentialAad (contents rpIdHash scalar)).2 := by
    apply load_eq
    · rw [length_credentialId]
      decide
    · have field := slice_append
        (header ++ nonce.toList ++
          (scheme.sealed root nonce credentialAad (contents rpIdHash scalar)).1.toList)
        (scheme.sealed root nonce credentialAad (contents rpIdHash scalar)).2.toList []
        tagOffset tagLen (by simp [header, tagOffset]) (List.Vector.toList_length _).symm
      rw [List.append_nil] at field
      exact field
  exact Prod.ext cipher tag

theorem load_aad : load aadLen (aad header) 0 = credentialAad := by
  apply load_eq
  · decide
  · decide

theorem load_plain :
    load cipherLen (plain rpIdHash.toList scalar.toList) 0 = contents rpIdHash scalar := by
  have layout := plain_eq rpIdHash.toList scalar.toList rpIdHash.toList_length scalar.toList_length
  apply load_eq
  · rw [layout, List.length_append, List.Vector.toList_length, List.Vector.toList_length]
    decide
  · rw [layout, slice, List.drop_zero, contents_toList]
    apply List.take_of_length_le
    rw [List.length_append, List.Vector.toList_length, List.Vector.toList_length]

end Fields

variable {scheme : Scheme} {root : Bytes 32} {before : List (Event Reply)}

theorem scalarCheck_ensures (scalar : Bytes 32) (mismatchOnKey : Bool) :
    Ensures (Sound scheme root) before (scalarCheck scalar mismatchOnKey) (fun _ result =>
      result = if scalarValid scalar.toList then credOk
        else if mismatchOnKey then credErrMismatch else credErrKey) := by
  simp only [scalarCheck, p256Pub, Program.perform_bind, ensures_call, Program.pure_eq, ensures_done]
  intro reply sound
  have error : reply.1 = if scalarValid scalar.toList then cryptoOk else cryptoKey := sound
  rw [error]
  cases scalarValid scalar.toList with
  | true => simp
  | false => simp [cryptoKey, cryptoOk]

theorem wrapKey_ensures (rpIdHash scalar : Bytes 32) :
    Ensures (Sound scheme root) before (wrapKey rpIdHash.toList scalar.toList)
      (fun events result =>
        (∃ nonce, result = .ok (credentialId scheme root nonce rpIdHash scalar)) ∨
        (∃ event ∈ events, ¬ Succeeds event) ∧ ∃ error, error ≠ credOk ∧ result = .error error) := by
  simp only [wrapKey, randFill, rootLoad, gcmSeal, Program.perform_bind, ensures_call]
  intro random _
  by_cases filled : random.1 = cryptoOk
  swap
  · simp only [ne_eq, filled, not_false_eq_true, if_true, Program.pure_eq, ensures_done]
    exact Or.inr ⟨⟨_, List.mem_append_right _ List.mem_cons_self, filled⟩,
      credErrCrypto, by decide, rfl⟩
  simp only [ne_eq, filled, not_true_eq_false, if_false, ensures_call]
  intro loaded sound
  have right : loaded.1 = credOk ∧ loaded.2 = root := sound
  simp only [right.1, not_true_eq_false, if_false, ensures_call]
  intro box sound
  have sealedBox : box.1 = cryptoOk → box.2 = scheme.sealed loaded.2 random.2
      (load aadLen (aad header) 0)
      (load cipherLen (plain rpIdHash.toList scalar.toList) 0) := sound
  by_cases ok : box.1 = cryptoOk
  · simp only [ok, not_true_eq_false, if_false, Program.pure_eq, ensures_done]
    refine Or.inl ⟨random.2, ?_⟩
    have content := sealedBox ok
    rw [right.2, load_aad, load_plain] at content
    have layout := wrapped_eq random.2.toList box.2.1.toList box.2.2.toList
      (List.Vector.toList_length _) (List.Vector.toList_length _) (List.Vector.toList_length _)
    rw [layout, content]
    rfl
  · simp only [ok, not_false_eq_true, if_true, Program.pure_eq, ensures_done]
    exact Or.inr ⟨⟨_, List.mem_append_right _ List.mem_cons_self, ok⟩,
      credErrCrypto, by decide, rfl⟩

theorem credWrap_ensures (rpIdHash scalar : Bytes 32) (memory : List UInt8) (cap : Nat)
    (room : credIdLen ≤ cap) :
    Ensures (Sound scheme root) before
      (credWrap (some rpIdHash.toList) (some scalar.toList) (some memory) cap)
      (fun events result =>
        (scalarValid scalar.toList = true ∧ ∃ nonce, result =
          (credOk, some (store memory 0 (credentialId scheme root nonce rpIdHash scalar)))) ∨
        result.1 ≠ credOk ∧
          (scalarValid scalar.toList = false ∨ ∃ event ∈ events, ¬ Succeeds event)) := by
  have lengths : ¬ (rpIdHash.toList.length ≠ rpIdHashLen ∨
      scalar.toList.length ≠ privateScalarLen) := by
    simp [rpIdHashLen, privateScalarLen]
  simp only [credWrap]
  rw [if_neg lengths, if_neg (by omega), load_self]
  apply (ensures_bind _ _ _).mpr
  apply (scalarCheck_ensures scalar false).imp
  intro events result checked
  cases valid : scalarValid scalar.toList with
  | false =>
      rw [valid] at checked
      have failed : result ≠ credOk := by
        rw [checked]
        decide
      simp only [ne_eq, failed, not_false_eq_true, if_true, Program.pure_eq, ensures_done]
      exact Or.inr ⟨failed, Or.inl trivial⟩
  | true =>
      rw [valid] at checked
      simp only [checked, if_true, ne_eq, not_true_eq_false, if_false]
      apply (ensures_bind _ _ _).mpr
      apply (wrapKey_ensures rpIdHash scalar).imp
      intro events wrapped cases
      simp only [Program.pure_eq, ensures_done]
      rcases cases with ⟨nonce, rfl⟩ | ⟨failure, error, bad, rfl⟩
      · exact Or.inl ⟨trivial, nonce, rfl⟩
      · exact Or.inr ⟨bad, Or.inr failure⟩

/-- The bytes are a credential of this RP hash and this valid scalar. -/
def IsCredential (scheme : Scheme) (root rpIdHash scalar : Bytes 32) (id : List UInt8) : Prop :=
  scalarValid scalar.toList = true ∧ ∃ nonce, id = credentialId scheme root nonce rpIdHash scalar

theorem IsCredential.unique {rpIdHash rpIdHash' scalar scalar' : Bytes 32} {id : List UInt8}
    (one : IsCredential scheme root rpIdHash scalar id)
    (two : IsCredential scheme root rpIdHash' scalar' id) :
    rpIdHash = rpIdHash' ∧ scalar = scalar' := by
  rcases one with ⟨-, nonce, rfl⟩
  rcases two with ⟨-, nonce', same⟩
  have nonces := congrArg (fun id => load nonceLen id nonceOffset) same
  simp only [credentialId_nonce] at nonces
  subst nonces
  have boxes := congrArg (fun id => (load cipherLen id cipherOffset, load tagLen id tagOffset)) same
  simp only [credentialId_box] at boxes
  exact contents_inj (scheme.sealed_injective _ _ _ boxes)

theorem isCredential_iff (rpIdHash scalar : Bytes 32) (id : List UInt8)
    (size : id.length = credIdLen) (head : slice id 0 headerLen = header) :
    IsCredential scheme root rpIdHash scalar id ↔ scalarValid scalar.toList = true ∧
      scheme.sealed root (load nonceLen id nonceOffset) credentialAad (contents rpIdHash scalar) =
        (load cipherLen id cipherOffset, load tagLen id tagOffset) := by
  constructor
  · intro credential
    rcases credential with ⟨valid, nonce, rfl⟩
    rw [credentialId_nonce, credentialId_box]
    exact ⟨valid, rfl⟩
  · intro credential
    rcases credential with ⟨valid, box⟩
    refine ⟨valid, load nonceLen id nonceOffset, ?_⟩
    rw [credentialId, box]
    simp only
    rw [load_toList _ _ _ (by rw [size]; decide), load_toList _ _ _ (by rw [size]; decide),
      load_toList _ _ _ (by rw [size]; decide)]
    exact fields_eq id size head

theorem contents_load (plain : Bytes 64) :
    contents (load rpIdHashLen plain.toList 0) (load privateScalarLen plain.toList rpIdHashLen) =
      plain := by
  apply List.Vector.toList_injective
  rw [contents_toList, load_toList _ _ _ (by simp), load_toList _ _ _ (by simp)]
  have joined := slice_append_drop plain.toList 0 rpIdHashLen
  have tail : slice plain.toList rpIdHashLen privateScalarLen = plain.toList.drop rpIdHashLen :=
    List.take_of_length_le (by simp [privateScalarLen, rpIdHashLen])
  rw [tail]
  exact joined

theorem openKey_ensures (rpIdHash : Bytes 32) (id : List UInt8) (size : id.length = credIdLen)
    (head : slice id 0 headerLen = header) :
    Ensures (Sound scheme root) before (openKey rpIdHash.toList id) (fun _ result =>
      (∃ scalar, IsCredential scheme root rpIdHash scalar id ∧ result = .ok scalar.toList) ∨
      (∀ scalar, ¬ IsCredential scheme root rpIdHash scalar id) ∧
        result = .error credErrMismatch) := by
  simp only [openKey, rootLoad, gcmOpen, Program.perform_bind, ensures_call]
  intro loaded sound
  have right : loaded.1 = credOk ∧ loaded.2 = root := sound
  rw [if_neg (by rw [right.1]; decide), right.2, head, load_aad]
  simp only [ensures_call]
  intro reply sound
  have legal : (reply.1 = cryptoOk ∨ reply.1 = cryptoAuth) ∧
      scheme.Opens root (load nonceLen id nonceOffset) credentialAad
        (load cipherLen id cipherOffset, load tagLen id tagOffset)
        (if reply.1 = cryptoOk then some reply.2 else none) := sound
  rcases legal with ⟨status, opened⟩
  by_cases ok : reply.1 = cryptoOk
  swap
  · have denied : reply.1 = cryptoAuth := status.resolve_left ok
    rw [if_neg ok] at opened
    simp only [ne_eq, denied, Program.pure_eq]
    refine Or.inr ⟨?_, rfl⟩
    intro scalar credential
    have box := ((isCredential_iff rpIdHash scalar id size head).mp credential).2
    exact absurd ((opened _).mpr box) (by simp)
  rw [if_pos ok] at opened
  simp only [ne_eq, ok, not_true_eq_false, if_false]
  -- the plaintext splits into the RP hash and the scalar that were sealed
  generalize hashIs : load rpIdHashLen reply.2.toList 0 = sealedHash at *
  generalize scalarIs : load privateScalarLen reply.2.toList rpIdHashLen = scalar at *
  have box : scheme.sealed root (load nonceLen id nonceOffset) credentialAad
      (contents sealedHash scalar) =
      (load cipherLen id cipherOffset, load tagLen id tagOffset) := by
    rw [← hashIs, ← scalarIs, contents_load]
    exact (opened _).mp rfl
  have compared : equalHash (slice reply.2.toList 0 rpIdHashLen) rpIdHash.toList = true ↔
      sealedHash = rpIdHash := by
    rw [← load_toList rpIdHashLen reply.2.toList 0 (by simp [rpIdHashLen]), hashIs,
      equalHash_iff _ _ (by simp)]
    exact List.Vector.toList_injective.eq_iff
  have only : ∀ scalar', IsCredential scheme root rpIdHash scalar' id →
      sealedHash = rpIdHash ∧ scalar = scalar' := by
    intro scalar' credential
    have box' := ((isCredential_iff rpIdHash scalar' id size head).mp credential).2
    exact contents_inj (scheme.sealed_injective _ _ _ (box.trans box'.symm))
  apply (ensures_bind _ _ _).mpr
  apply (scalarCheck_ensures scalar true).imp
  intro events result checked
  by_cases sameRp : sealedHash = rpIdHash
  swap
  · have differs : equalHash (slice reply.2.toList 0 rpIdHashLen) rpIdHash.toList = false := by
      rw [← Bool.not_eq_true, compared]
      exact sameRp
    simp only [differs, Bool.not_false, true_or, if_true, Program.pure_eq, ensures_done]
    exact Or.inr ⟨fun scalar' credential => sameRp (only scalar' credential).1, trivial⟩
  rw [compared.mpr sameRp]
  cases valid : scalarValid scalar.toList with
  | false =>
      rw [valid] at checked
      simp only [checked, Bool.false_eq_true, if_false, if_true, or_true, Program.pure_eq,
        ensures_done]
      refine Or.inr ⟨?_, trivial⟩
      intro scalar' credential
      have same := (only scalar' credential).2
      have usable := credential.1
      rw [← same, valid] at usable
      cases usable
  | true =>
      rw [valid] at checked
      rw [if_pos rfl] at checked
      rw [checked, if_neg (by decide), if_neg (by decide)]
      refine Or.inl ⟨scalar, ?_, rfl⟩
      subst sameRp
      exact (isCredential_iff sealedHash scalar id size head).mpr ⟨valid, box⟩

/-- `cred_open` opens the credentials of its RP hash and has one answer for all other bytes. -/
theorem credOpen_ensures (rpIdHash : Bytes 32) (id memory : List UInt8) (cap : Nat)
    (room : privateScalarLen ≤ cap) :
    Ensures (Sound scheme root) before (credOpen (some rpIdHash.toList) (some id) (some memory) cap)
      (fun _ result =>
        (∃ scalar, IsCredential scheme root rpIdHash scalar id ∧
          result = (credOk, some (store memory 0 scalar.toList))) ∨
        (∀ scalar, ¬ IsCredential scheme root rpIdHash scalar id) ∧
          result = (credErrMismatch, some (clear memory privateScalarLen))) := by
  have wiped : clearPrefix (some memory) cap privateScalarLen =
      some (clear memory privateScalarLen) := by
    rw [clearPrefix, Option.map_some, Nat.min_eq_right room]
  simp only [credOpen]
  rw [if_neg (by rw [List.Vector.toList_length]; decide), if_neg (by omega)]
  by_cases foreign : id.length ≠ credIdLen ∨ slice id 0 headerLen ≠ header
  · rw [if_pos foreign]
    refine Or.inr ⟨?_, ?_⟩
    · intro scalar credential
      rcases credential with ⟨-, nonce, rfl⟩
      rcases foreign with size | head
      · exact size (length_credentialId _ _ _ _ _)
      · exact head (credentialId_header _ _ _ _ _)
    · rw [finish, wiped]
  · rw [if_neg foreign]
    rw [not_or, not_not, not_not] at foreign
    apply (ensures_bind _ _ _).mpr
    apply (openKey_ensures rpIdHash id foreign.1 foreign.2).imp
    intro events opened cases
    simp only [Program.pure_eq, ensures_done]
    rcases cases with ⟨scalar, credential, rfl⟩ | ⟨none, rfl⟩
    · exact Or.inl ⟨scalar, credential, rfl⟩
    · refine Or.inr ⟨none, ?_⟩
      rw [finish, wiped]

end P4Key.Cred
