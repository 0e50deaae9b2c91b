import P4Key.Crypto.P256
import P4Key.Crypto.Trails

/-! The calls of the P-256 functions before their cleanup. -/

namespace P4Key.Crypto

open Memory AddressSpace CallProgram

def exportEvents (pairId : KeyId) (priv : Bytes p256ScalarLen) (pub : Bytes p256PublicLen)
    (privateLen publicLen : Nat) : List (Event Reply) :=
  [⟨.generateKey (pairAttr .export), (psaSuccess, pairId)⟩,
    ⟨.exportKey pairId p256ScalarLen, (psaSuccess, priv, privateLen)⟩,
    ⟨.exportPublicKey pairId p256PublicLen, (psaSuccess, pub, publicLen)⟩]

theorem makeExport_trail :
    Ends [] makeExport fun events (attempt, privateLen, publicLen) =>
      Trail (liveKeys attempt.pairLive attempt.pairId)
        (exportEvents attempt.pairId attempt.priv attempt.pub privateLen publicLen) events
        attempt.status ∧
      (attempt.status = psaSuccess → attempt.pairLive = true) ∧ attempt.checkLive = false := by
  simp only [makeExport, call, Program.perform_bind, ensures_call]
  intro reply₁ _
  obtain ⟨status₁, pairId⟩ := reply₁
  have first : Trail (liveKeys (decide (status₁ = psaSuccess)) pairId)
      [⟨.generateKey (pairAttr .export), (psaSuccess, pairId)⟩]
      ([] ++ [⟨.generateKey (pairAttr .export), (status₁, pairId)⟩]) status₁ :=
    (Trail.start psaSuccess).create rfl rfl rfl fun success => by rw [success]
  split
  · rename_i success₁
    intro reply₂ _
    obtain ⟨status₂, priv, privateLen⟩ := reply₂
    have second : Trail (liveKeys (decide (status₁ = psaSuccess)) pairId)
        ([_] ++ [⟨.exportKey pairId p256ScalarLen, (psaSuccess, priv, privateLen)⟩])
        (([] ++ [_]) ++ [⟨.exportKey pairId p256ScalarLen, (status₂, priv, privateLen)⟩]) status₂ :=
      first.snoc success₁ rfl rfl fun success => by rw [success]
    simp only
    split
    · rename_i success₂
      intro reply₃ _
      obtain ⟨status₃, pub, publicLen⟩ := reply₃
      refine ⟨?_, fun _ => decide_eq_true success₁, rfl⟩
      exact second.snoc success₂ rfl rfl fun success => by
        have passed : status₃ = psaSuccess := success
        rw [passed]
    · rename_i failure
      exact ⟨second.failed failure, fun success => absurd success failure, rfl⟩
  · rename_i failure
    exact ⟨first.failed failure, fun success => absurd success failure, rfl⟩

def makeEvents (attempt : MakeAttempt) : List (Event Reply) :=
  exportEvents attempt.pairId attempt.priv attempt.pub p256ScalarLen p256PublicLen ++
    [⟨.importKey publicAttr attempt.pub.toList, (psaSuccess, attempt.checkId)⟩]

def MakeAttempt.keys (attempt : MakeAttempt) : List KeyId :=
  liveKeys attempt.pairLive attempt.pairId ++ liveKeys attempt.checkLive attempt.checkId

theorem makeWork_trail :
    Ends [] makeWork fun events attempt =>
      Trail attempt.keys (makeEvents attempt) events attempt.status ∧
      (attempt.status = psaSuccess → attempt.pairLive = true ∧ attempt.checkLive = true ∧
        attempt.pub.head = 0x04 ∧ scalarValid attempt.priv.toList = true) := by
  apply (ensures_bind _ _ _).mpr
  apply makeExport_trail.imp
  intro events outcome facts
  obtain ⟨attempt, privateLen, publicLen⟩ := outcome
  obtain ⟨trail, live, unset⟩ := facts
  have keys : attempt.keys = liveKeys attempt.pairLive attempt.pairId := by
    rw [MakeAttempt.keys, unset]
    exact List.append_nil _
  simp only
  split
  · rename_i wrong
    exact ⟨keys ▸ trail.failed corruption_fails, corruption_absurd⟩
  · rename_i whole
    split
    · rename_i success
      simp only [publicImport, call, Program.perform_bind, ensures_call]
      intro reply _
      obtain ⟨status, checkId⟩ := reply
      simp only [not_and, not_or, not_not, ne_eq, Bool.not_eq_false] at whole
      obtain ⟨privateSize, publicSize, form, valid⟩ := whole success
      refine ⟨?_, fun success' => ⟨live success, decide_eq_true success', form, valid⟩⟩
      rw [privateSize, publicSize] at trail
      exact trail.create success rfl rfl fun success => by
        have passed : status = psaSuccess := success
        rw [passed]
    · rename_i failure
      exact ⟨keys ▸ trail.failed failure, fun success => absurd success failure⟩

def pubEvents (priv : List UInt8) (attempt : PubAttempt) : List (Event Reply) :=
  [⟨.importKey (pairAttr .none) priv, (psaSuccess, attempt.pairId)⟩,
    ⟨.exportPublicKey attempt.pairId p256PublicLen, (psaSuccess, attempt.pub, p256PublicLen)⟩]

theorem pubWork_trail (priv : List UInt8) :
    Ends [] (pubWork priv) fun events attempt =>
      Trail (liveKeys attempt.pairLive attempt.pairId) (pubEvents priv attempt) events
        attempt.status ∧
      (attempt.status = psaSuccess → attempt.pairLive = true ∧ attempt.pub.head = 0x04) := by
  simp only [pubWork, pairImport, call, Program.perform_bind, ensures_call]
  intro reply₁ _
  obtain ⟨status₁, pairId⟩ := reply₁
  have first : Trail (liveKeys (decide (status₁ = psaSuccess)) pairId)
      [⟨.importKey (pairAttr .none) priv, (psaSuccess, pairId)⟩]
      ([] ++ [⟨.importKey (pairAttr .none) priv, (status₁, pairId)⟩]) status₁ :=
    (Trail.start psaSuccess).create rfl rfl rfl fun success => by rw [success]
  simp only
  split
  · rename_i success₁
    rw [decide_eq_true success₁] at first
    intro reply₂ _
    obtain ⟨status₂, pub, publicLen⟩ := reply₂
    simp only
    split
    · exact ⟨first.spoiled rfl rfl corruption_fails, corruption_absurd⟩
    · rename_i whole
      simp only [not_and, not_or, not_not, ne_eq] at whole
      refine ⟨?_, fun success => ⟨rfl, (whole success).2⟩⟩
      exact first.snoc success₁ rfl rfl fun success => by
        have passed : status₂ = psaSuccess := success
        rw [passed, (whole passed).1]
  · rename_i failure
    rw [decide_eq_false failure] at first
    exact ⟨first.failed failure, fun success => absurd success failure⟩

def signEvents (priv hash : List UInt8) (raw : Bytes p256RawSigLen) (attempt : SignAttempt) :
    List (Event Reply) :=
  [⟨.importKey (pairAttr .signHash) priv, (psaSuccess, attempt.pairId)⟩,
    ⟨.signHash attempt.pairId hash p256RawSigLen, (psaSuccess, raw, p256RawSigLen)⟩,
    ⟨.rawToDer p256Bits raw.toList p256DerMax, (0, attempt.der, attempt.derLen)⟩]

theorem signWork_trail (priv hash : List UInt8) :
    Ends [] (signWork priv hash) fun events attempt =>
      ∃ raw, Trail (liveKeys attempt.pairLive attempt.pairId) (signEvents priv hash raw attempt)
        events attempt.status ∧
      (attempt.status = psaSuccess → attempt.pairLive = true ∧
        derStrict attempt.der.toList attempt.derLen = some true) := by
  simp only [signWork, pairImport, call, Program.perform_bind, ensures_call]
  intro reply₁ _
  obtain ⟨status₁, pairId⟩ := reply₁
  have first : Trail (liveKeys (decide (status₁ = psaSuccess)) pairId)
      [⟨.importKey (pairAttr .signHash) priv, (psaSuccess, pairId)⟩]
      ([] ++ [⟨.importKey (pairAttr .signHash) priv, (status₁, pairId)⟩]) status₁ :=
    (Trail.start psaSuccess).create rfl rfl rfl fun success => by rw [success]
  simp only
  split
  · rename_i success₁
    rw [decide_eq_true success₁] at first
    intro reply₂ _
    obtain ⟨status₂, raw, rawLen⟩ := reply₂
    simp only
    split
    · exact ⟨raw, first.spoiled rfl rfl corruption_fails, corruption_absurd⟩
    · rename_i whole
      split
      · rename_i success₂
        have length : rawLen = p256RawSigLen := by_contra fun wrong => whole ⟨success₂, wrong⟩
        have full : raw.toList.take rawLen = raw.toList := by
          rw [length]
          exact List.take_of_length_le (by rw [List.Vector.toList_length])
        have second : Trail (liveKeys true pairId)
            ([_] ++ [⟨.signHash pairId hash p256RawSigLen, (psaSuccess, raw, p256RawSigLen)⟩])
            (([] ++ [_]) ++ [⟨.signHash pairId hash p256RawSigLen, (status₂, raw, rawLen)⟩])
            status₂ :=
          first.snoc success₁ rfl rfl fun success => by rw [success, length]
        rw [full]
        intro reply _
        obtain ⟨derStatus, der, derLen⟩ := reply
        simp only
        split
        · exact ⟨raw, second.spoiled rfl rfl corruption_fails, corruption_absurd⟩
        · rename_i strict
          simp only [not_or, not_not, ne_eq] at strict
          refine ⟨raw, ?_, fun _ => ⟨rfl, strict.2⟩⟩
          exact second.snoc success₂ rfl rfl fun _ => by rw [strict.1]
      · rename_i failure
        exact ⟨raw, first.spoiled rfl rfl failure, fun success => absurd success failure⟩
  · rename_i failure
    rw [decide_eq_false failure] at first
    exact ⟨List.Vector.replicate _ 0, first.failed failure, fun success => absurd success failure⟩

/-! `p256_verify_hash` has two conversions before its key. -/

theorem verifyRaw_trail (sig : List UInt8) :
    Ends [] (verifyRaw sig) fun events _ => Trail [] events events psaSuccess := by
  simp only [verifyRaw, call, Program.perform_bind, ensures_call]
  intro reply _
  split
  · exact ⟨rfl, rfl, fun _ => rfl⟩
  · intro reply' _
    simp only
    split <;> exact ⟨rfl, rfl, fun _ => rfl⟩

theorem verifyHash_one (key : KeyId) (hash signature : List UInt8) :
    OneCall (call (.verifyHash key hash signature)) ⟨.verifyHash key hash signature, psaSuccess⟩ :=
  fun _ _ _ => ⟨_, rfl, rfl, rfl, fun success => by rw [success]⟩

theorem verifyWork_trail (x y hash raw : List UInt8) {before : List (Event Reply)}
    (trail : Trail [] before before psaSuccess) :
    Ends before (verifyWork x y hash raw) fun events (status, publicId, publicLive) =>
      Trail (liveKeys publicLive publicId) (before ++
        [⟨.importKey publicAttr (0x04 :: (x ++ y)), (psaSuccess, publicId)⟩,
          ⟨.verifyHash publicId hash raw, psaSuccess⟩]) events status ∧
      (status = psaSuccess → publicLive = true) := by
  simp only [verifyWork, publicImport, call, Program.perform_bind, ensures_call]
  intro reply _
  obtain ⟨status, publicId⟩ := reply
  have first : Trail (liveKeys (decide (status = psaSuccess)) publicId)
      (before ++ [⟨.importKey publicAttr (0x04 :: (x ++ y)), (psaSuccess, publicId)⟩])
      (before ++ [⟨.importKey publicAttr (0x04 :: (x ++ y)), (status, publicId)⟩]) status :=
    trail.create rfl rfl rfl fun success => by rw [success]
  apply (ensures_bind _ _ _).mpr
  apply (whenOk_trail first (verifyHash_one publicId hash raw)).imp
  intro events status' facts
  obtain ⟨second, passed⟩ := facts
  rw [List.append_assoc] at second
  exact ⟨second, fun success => decide_eq_true (passed success)⟩

end P4Key.Crypto
