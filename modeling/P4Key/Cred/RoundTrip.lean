import P4Key.Cred.Ideal

/-! Wrapped credentials open exactly where they were made. -/

namespace P4Key.Cred

open Memory CallProgram Crypto

variable {scheme : Scheme} {root : Bytes 32}

/-- An execution whose calls are ideal ends as the specification over sound calls says. -/
theorem ideal_post {α : Type} {program : Crypto α} {post : List (Event Reply) → α → Prop}
    (holds : Ensures (Sound scheme root) [] program post) {events : List (Event Reply)}
    {result : α} (run : Execution program events result)
    (ideal : ∀ event ∈ events, Ideal scheme root event) : post events result := by
  have spec := (ensures_iff program post).mp holds events result run
    (fun event member => (ideal event member).1)
  simpa using spec

/-- Wrapping succeeds on valid scalars, the id opens to the scalar under the same RP hash and
under no other, and `cred_open` accepts credentials only. -/
theorem wrapped_credentials_open_where_made (scheme : Scheme) (root : Bytes 32) :
    (∀ (rpIdHash scalar : Bytes 32) (memory : List UInt8) (cap : Nat),
      credIdLen ≤ cap → cap ≤ memory.length → ∀ events result,
      Execution (credWrap (some rpIdHash.toList) (some scalar.toList) (some memory) cap)
        events result →
      (∀ event ∈ events, Ideal scheme root event) →
        (result.1 = credOk ↔ scalarValid scalar.toList = true) ∧
        (result.1 = credOk → ∃ id : List UInt8, id.length = credIdLen ∧
          result.2 = some (store memory 0 id) ∧
          ∀ (rpIdHash' : Bytes 32) (out : List UInt8) (outCap : Nat),
            privateScalarLen ≤ outCap → outCap ≤ out.length → ∀ events' result',
            Execution (credOpen (some rpIdHash'.toList) (some id) (some out) outCap)
              events' result' →
            (∀ event ∈ events', Ideal scheme root event) →
              (rpIdHash' = rpIdHash → result' = (credOk, some (store out 0 scalar.toList))) ∧
              (rpIdHash' ≠ rpIdHash → result'.1 = credErrMismatch))) ∧
    (∀ (rpIdHash : Bytes 32) (id out : List UInt8) (outCap : Nat),
      privateScalarLen ≤ outCap → outCap ≤ out.length → ∀ events result,
      Execution (credOpen (some rpIdHash.toList) (some id) (some out) outCap) events result →
      (∀ event ∈ events, Ideal scheme root event) →
        (∃ scalar, IsCredential scheme root rpIdHash scalar id ∧
          result = (credOk, some (store out 0 scalar.toList))) ∨
        (∀ scalar, ¬ IsCredential scheme root rpIdHash scalar id) ∧
          result.1 = credErrMismatch) := by
  constructor
  · intro rpIdHash scalar memory cap room _ events result run ideal
    have wrapped := ideal_post (credWrap_ensures rpIdHash scalar memory cap room) run ideal
    rcases wrapped with ⟨valid, nonce, rfl⟩ | ⟨failed, cause⟩
    · refine ⟨by simp [valid], ?_⟩
      intro _
      refine ⟨_, length_credentialId scheme root nonce rpIdHash scalar, rfl, ?_⟩
      intro rpIdHash' out outCap space _ events' result' run' ideal'
      have made : IsCredential scheme root rpIdHash scalar
          (credentialId scheme root nonce rpIdHash scalar) := ⟨valid, nonce, rfl⟩
      have opened := ideal_post (credOpen_ensures rpIdHash' _ out outCap space) run' ideal'
      rcases opened with ⟨scalar', credential, rfl⟩ | ⟨none, rfl⟩
      · have same := credential.unique made
        exact ⟨fun _ => by rw [same.2], fun other => absurd same.1 other⟩
      · refine ⟨?_, fun _ => rfl⟩
        intro same
        subst same
        exact absurd made (none scalar)
    · have invalid : scalarValid scalar.toList = false := by
        rcases cause with invalid | ⟨event, member, failure⟩
        · exact invalid
        · exact absurd (ideal event member).2 failure
      exact ⟨by simp [failed, invalid], fun ok => absurd ok failed⟩
  · intro rpIdHash id out outCap space _ events result run ideal
    have opened := ideal_post (credOpen_ensures rpIdHash id out outCap space) run ideal
    rcases opened with credential | ⟨none, rfl⟩
    · exact Or.inl credential
    · exact Or.inr ⟨none, rfl⟩

def plainScheme : Scheme where
  sealed key _ _ plain := (plain, load tagLen key.toList 0)
  sealed_injective := by
    intro key nonce data first second same
    exact congrArg Prod.fst same

def plainRoot : Bytes 32 := List.Vector.replicate 32 7

def plainReplies : (c : Call) → Reply c
  | .p256Pub scalar =>
    (if scalarValid scalar.toList then cryptoOk else cryptoKey, scalar, scalar)
  | .randFill => (cryptoOk, List.Vector.replicate 12 5)
  | .rootLoad => (credOk, plainRoot)
  | .gcmSeal key nonce aad plain => (cryptoOk, plainScheme.sealed key nonce aad plain)
  | .gcmOpen key _ _ cipher tag =>
    if load tagLen key.toList 0 = tag then (cryptoOk, cipher) else (cryptoAuth, cipher)

theorem plainReplies_ideal (c : Call) : Ideal plainScheme plainRoot ⟨c, plainReplies c⟩ := by
  refine ⟨?_, by cases c <;> trivial⟩
  cases c with
  | p256Pub scalar => rfl
  | randFill => trivial
  | rootLoad => exact ⟨rfl, rfl⟩
  | gcmSeal key nonce aad plain => exact fun _ => rfl
  | gcmOpen key nonce aad cipher tag =>
      simp only [Sound, plainReplies, Aead.Opens, plainScheme]
      by_cases same : load tagLen key.toList 0 = tag
      · simp [same, eq_comm]
      · simp [same, cryptoAuth, cryptoOk]

/-- A wrapped scalar opens at its own RP and is a mismatch at another one. -/
theorem wrapped_scalar_opens :
    ∃ id : List UInt8,
      ((credOpen (some (zeros 32)) (some id) (some (zeros 40)) 40).value plainReplies) =
        (credOk, some (store (zeros 40) 0 (List.replicate 32 2))) ∧
      ((credOpen (some plainRoot.toList) (some id) (some (zeros 40)) 40).value plainReplies).1 =
        credErrMismatch := by
  have legal := fun program => trace_allowed (α := Int × Option (List UInt8)) plainReplies
    plainReplies_ideal program
  have wrap := (wrapped_credentials_open_where_made plainScheme plainRoot).1
    (List.Vector.replicate 32 0) (List.Vector.replicate 32 2) (zeros 100) 100 (by decide) (by decide)
    _ _ (execution_value plainReplies _) (legal _)
  obtain ⟨id, -, -, opens⟩ := wrap.2 (wrap.1.mpr (by decide))
  have opened := fun rpIdHash => opens rpIdHash (zeros 40) 40 (by decide) (by decide) _ _
    (execution_value plainReplies _) (legal _)
  exact ⟨id, (opened (List.Vector.replicate 32 0)).1 rfl, (opened plainRoot).2 (by decide)⟩

end P4Key.Cred
