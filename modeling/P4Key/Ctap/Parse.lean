import P4Key.Cbor.Reader

/-! What the two request parsers share.

p4_make_credential.c and p4_get_assertion.c hold near-identical static readers
for maps with text keys, credential descriptors and options. Each is one
definition here; the command modules apply it to their own values. -/

namespace P4Key.Ctap

open Cbor

def statusOk : UInt8 := 0x00

inductive Refusal where
  | invalidCommand
  | invalidParameter
  | invalidLength
  | cborUnexpectedType
  | invalidCbor
  | missingParameter
  | limitExceeded
  | credentialExcluded
  | unsupportedAlgorithm
  | operationDenied
  | unsupportedOption
  | keepaliveCancel
  | noCredentials
  | userActionTimeout
  | other
  deriving DecidableEq, Repr

def Refusal.code : Refusal → UInt8
  | invalidCommand => 0x01
  | invalidParameter => 0x02
  | invalidLength => 0x03
  | cborUnexpectedType => 0x11
  | invalidCbor => 0x12
  | missingParameter => 0x14
  | limitExceeded => 0x15
  | credentialExcluded => 0x19
  | unsupportedAlgorithm => 0x26
  | operationDenied => 0x27
  | unsupportedOption => 0x2b
  | keepaliveCancel => 0x2d
  | noCredentials => 0x2e
  | userActionTimeout => 0x2f
  | other => 0x7f

theorem Refusal.code_ne_ok (refusal : Refusal) : refusal.code ≠ statusOk := by
  cases refusal <;> decide

def maxMessage : Nat := 2048
def maxCredentialsInList : Nat := 16
def maxCredentialIdLen : Nat := 128

/-- A parser moves the shared reader or refuses the request. -/
abbrev Parse (α : Type) : Type := StateT Reader (Except Refusal) α

/-- One reader call whose failure ends the request with `status`. -/
def expect {α : Type} (get : Get α) (status : Refusal) : Parse α := fun reader =>
  match get reader with
  | (some value, reader) => .ok (value, reader)
  | (none, _) => .error status

@[simp] theorem parse_bind_ok {α β : Type} (first : Parse α) (second : α → Parse β)
    (reader : Reader) (result : β × Reader) :
    (first >>= second) reader = .ok result ↔
      ∃ value middle, first reader = .ok (value, middle) ∧ second value middle = .ok result := by
  change Except.bind (first reader) (fun pair => second pair.1 pair.2) = .ok result ↔ _
  cases first reader with
  | error status => simp [Except.bind]
  | ok pair =>
      obtain ⟨value, middle⟩ := pair
      simp [Except.bind]

@[simp] theorem parse_pure_ok {α : Type} (value : α) (reader : Reader) (result : α × Reader) :
    (pure value : Parse α) reader = .ok result ↔ (value, reader) = result := by
  change Except.ok (value, reader) = .ok result ↔ _
  simp

@[simp] theorem parse_throw_ok {α : Type} (status : Refusal) (reader : Reader)
    (result : α × Reader) : ¬ (throw status : Parse α) reader = .ok result := by
  intro impossible
  cases impossible

@[simp] theorem expect_ok {α : Type} (get : Get α) (status : Refusal) (reader : Reader)
    (value : α) (after : Reader) :
    expect get status reader = .ok (value, after) ↔ get reader = (some value, after) := by
  unfold expect
  rcases get reader with ⟨_ | found, rest⟩ <;> simp

def text (chars : List Char) : List UInt8 := chars.map fun char => UInt8.ofNat char.toNat

def idText : List UInt8 := text ['i', 'd']
def typeText : List UInt8 := text ['t', 'y', 'p', 'e']
def algText : List UInt8 := text ['a', 'l', 'g']
def publicKeyText : List UInt8 := text ['p', 'u', 'b', 'l', 'i', 'c', '-', 'k', 'e', 'y']
def rkText : List UInt8 := text ['r', 'k']
def upText : List UInt8 := text ['u', 'p']
def uvText : List UInt8 := text ['u', 'v']

def readPairs {σ : Type} (entry : List UInt8 → σ → Parse σ) : Nat → σ → Parse σ
  | 0, state => pure state
  | pairs + 1, state => do
    let key ← expect getText .cborUnexpectedType
    let state ← entry key state
    readPairs entry pairs state

def readTextMap {σ : Type} (entry : List UInt8 → σ → Parse σ) (state : σ) : Parse σ := do
  let pairs ← expect getMap .cborUnexpectedType
  readPairs entry pairs state

def readItems {α : Type} (item : Parse α) : Nat → Parse (List α)
  | 0 => pure []
  | count + 1 => do
    let first ← item
    let rest ← readItems item count
    pure (first :: rest)

/-- One pair of `read_rp` and of `read_user`: `id` once and nonempty, other keys skipped. -/
def readIdEntry (get : Get (List UInt8)) (key : List UInt8) (found : Option (List UInt8)) :
    Parse (Option (List UInt8)) :=
  if key = idText then
    if found.isSome then throw .invalidCbor
    else do
      let id ← expect get .cborUnexpectedType
      if id.length = 0 then throw .invalidParameter else pure (some id)
  else do
    expect skip .invalidCbor
    pure found

def readIdMap (get : Get (List UInt8)) : Parse (List UInt8) := do
  match ← readTextMap (readIdEntry get) none with
  | some id => pure id
  | none => throw .missingParameter

structure Desc where
  id : List UInt8
  publicKey : Bool
  deriving DecidableEq, Repr

/-- One pair of a credential descriptor. Only the exclude list rejects an empty `id`. -/
def readDescEntry (rejectEmpty : Bool) (key : List UInt8)
    (found : Option Bool × Option (List UInt8)) : Parse (Option Bool × Option (List UInt8)) :=
  if key = typeText then
    if found.1.isSome then throw .invalidCbor
    else do
      let type ← expect getText .cborUnexpectedType
      pure (some (decide (type = publicKeyText)), found.2)
  else if key = idText then
    if found.2.isSome then throw .invalidCbor
    else do
      let id ← expect getBytes .cborUnexpectedType
      if rejectEmpty ∧ id.length = 0 then throw .invalidParameter
      else pure (found.1, some id)
  else do
    expect skip .invalidCbor
    pure found

def readDesc (rejectEmpty : Bool) : Parse Desc := do
  match ← readTextMap (readDescEntry rejectEmpty) (none, none) with
  | (some publicKey, some id) => pure ⟨id, publicKey⟩
  | _ => throw .missingParameter

/-- `read_exclude` and `read_allow`. -/
def readDescs (rejectEmpty : Bool) : Parse (List Desc) := do
  let count ← expect getArray .cborUnexpectedType
  if count > maxCredentialsInList then throw .limitExceeded
  else readItems (readDesc rejectEmpty) count

structure OptionsFound where
  haveFirst : Bool
  haveUv : Bool
  unsupported : Bool
  deriving DecidableEq, Repr

/-- One pair of `read_options`. The first option is `rk` or `up`; a true `up` is supported. -/
def readOptionsEntry (first : List UInt8) (firstUnsupported : Bool) (key : List UInt8)
    (found : OptionsFound) : Parse OptionsFound :=
  if key = first ∨ key = uvText then
    let isFirst := decide (key = first)
    if (if isFirst then found.haveFirst else found.haveUv) then throw .invalidCbor
    else do
      let value ← expect getBool .cborUnexpectedType
      pure {
        haveFirst := found.haveFirst || isFirst
        haveUv := found.haveUv || !isFirst
        unsupported := found.unsupported || (value && (firstUnsupported || !isFirst)) }
  else do
    expect skip .invalidCbor
    pure found

def readOptions (first : List UInt8) (firstUnsupported : Bool) : Parse Bool := do
  let found ← readTextMap (readOptionsEntry first firstUnsupported) ⟨false, false, false⟩
  pure found.unsupported

def readIgnoredMap : Parse Unit :=
  readTextMap (fun _ _ => expect skip .invalidCbor) ()

/-- The check of `read_request` on a key: a known key must be new. -/
def seenAfter (seen : UInt32) (key : Nat) : Option UInt32 :=
  if key ≤ 32 then knownKeyOnce seen (UInt8.ofNat key) else some seen

/-- The loop over the pairs of a request: integer keys, the known ones once each. -/
def readFields {σ : Type} (field : Nat → σ → Parse σ) :
    Nat → UInt32 → σ → Parse (UInt32 × σ)
  | 0, seen, request => pure (seen, request)
  | pairs + 1, seen, request => do
    let key ← expect getUint .cborUnexpectedType
    match seenAfter seen key with
    | none => throw .invalidCbor
    | some seen => do
      let request ← field key request
      readFields field pairs seen request

/-- The whole of `read_request` up to the checks on the parsed request. -/
def readWhole {σ : Type} (field : Nat → σ → Parse σ) (required : UInt32) (request : σ)
    (data : List UInt8) : Except Refusal σ := do
  let (pairs, reader) ← expect getMap .invalidCbor (readerInit data)
  let ((seen, request), reader) ← readFields field pairs 0 request reader
  if !readerDone reader then throw .invalidCbor
  else if seen &&& required ≠ required then throw .missingParameter
  else pure request

theorem keysSeen_seenAfter (seen seen' : UInt32) (key : Nat)
    (accepted : seenAfter seen key = some seen') :
    keysSeen seen' = if key ≤ 32 then insert key (keysSeen seen) else keysSeen seen := by
  rw [seenAfter] at accepted
  by_cases small : key ≤ 32
  · rw [if_pos small] at accepted ⊢
    exact (knownKeyOnce_spec seen seen' key small accepted).2.2
  · rw [if_neg small] at accepted ⊢
    cases accepted
    rfl

/-- What every field preserves, with the known keys read so far, the whole request preserves. -/
theorem readFields_invariant {σ : Type} (field : Nat → σ → Parse σ) (inv : Set Nat → σ → Prop)
    (step : ∀ keys key request reader request' reader', inv keys request →
      field key request reader = .ok (request', reader') →
      inv (if key ≤ 32 then insert key keys else keys) request')
    (pairs : Nat) (seen : UInt32) (request : σ) (reader : Reader)
    (seen' : UInt32) (request' : σ) (reader' : Reader) (start : inv (keysSeen seen) request)
    (parsed : readFields field pairs seen request reader = .ok ((seen', request'), reader')) :
    inv (keysSeen seen') request' := by
  induction pairs generalizing seen request reader with
  | zero =>
      simp only [readFields, parse_pure_ok, Prod.mk.injEq] at parsed
      obtain ⟨⟨rfl, rfl⟩, -⟩ := parsed
      exact start
  | succ pairs ih =>
      simp only [readFields, parse_bind_ok, expect_ok] at parsed
      obtain ⟨key, afterKey, -, rest⟩ := parsed
      cases accepted : seenAfter seen key with
      | none =>
          rw [accepted] at rest
          exact absurd rest (parse_throw_ok _ _ _)
      | some seen₁ =>
          rw [accepted] at rest
          simp only [parse_bind_ok] at rest
          obtain ⟨request₁, reader₁, read, rest⟩ := rest
          have next := step (keysSeen seen) key _ _ _ _ start read
          refine ih seen₁ request₁ reader₁ ?_ rest
          rw [keysSeen_seenAfter seen seen₁ key accepted]
          exact next

/-- An accepted request holds every required key, and every field preserved the invariant. -/
theorem readWhole_invariant {σ : Type} (field : Nat → σ → Parse σ) (inv : Set Nat → σ → Prop)
    (step : ∀ keys key request reader request' reader', inv keys request →
      field key request reader = .ok (request', reader') →
      inv (if key ≤ 32 then insert key keys else keys) request')
    (required : UInt32) (request request' : σ) (data : List UInt8) (start : inv ∅ request)
    (parsed : readWhole field required request data = .ok request') :
    ∃ keys, keysSeen required ⊆ keys ∧ inv keys request' := by
  unfold readWhole at parsed
  cases head : expect getMap .invalidCbor (readerInit data) with
  | error status =>
      rw [head] at parsed
      cases parsed
  | ok first =>
      obtain ⟨pairs, reader⟩ := first
      rw [head] at parsed
      change (readFields field pairs 0 request reader >>= _) = _ at parsed
      cases body : readFields field pairs 0 request reader with
      | error status =>
          rw [body] at parsed
          cases parsed
      | ok second =>
          obtain ⟨⟨seen, result⟩, after⟩ := second
          rw [body] at parsed
          change (if _ then _ else _) = _ at parsed
          split at parsed
          · cases parsed
          · split at parsed
            · cases parsed
            · rename_i held
              cases parsed
              rw [ne_eq, not_not] at held
              refine ⟨keysSeen seen, mem_keysSeen_of_mask seen required held, ?_⟩
              refine readFields_invariant field inv step pairs 0 request reader seen _ after ?_ body
              rw [keysSeen_zero]
              exact start

end P4Key.Ctap
