import P4Key.Library.Der

/-! `p4_p256_der_strict` of p4_crypto_p256_util.c.

A read of the string is `der[i]?`, so a read outside the object ends the call with `none`. -/

namespace P4Key.Crypto

open Memory Der

/-- The checks of `strict_integer` on the value: no sign, and a leading zero byte only where the
byte behind it needs one. -/
def strictValue (der : List UInt8) (pos valueLen : Nat) : Option Bool := do
  if (← der[pos]?) &&& 0x80 ≠ 0 then return false
  if valueLen = 33 then
    if (← der[pos]?) ≠ 0 then return false
    if (← der[pos + 1]?) &&& 0x80 = 0 then return false
    return true
  if valueLen > 1 then
    if (← der[pos]?) = 0 then
      if (← der[pos + 1]?) &&& 0x80 = 0 then return false
      return true
    return true
  return true

/-- `strict_integer`: the offset behind the integer, if it returns true. -/
def strictInteger (der : List UInt8) (stop offset : Nat) : Option (Option Nat) :=
  if offset > stop ∨ stop - offset < 2 then some none
  else do
    if (← der[offset]?) ≠ 0x02 then return none
    let valueLen := (← der[offset + 1]?).toNat
    let pos := offset + 2
    if valueLen = 0 ∨ valueLen > 33 ∨ valueLen > stop - pos then return none
    if ← strictValue der pos valueLen then return some (pos + valueLen) else return none

def derStrict (der : List UInt8) (derLen : Nat) : Option Bool :=
  if derLen < 8 ∨ derLen > 72 then some false
  else do
    if (← der[0]?) ≠ 0x30 then return false
    if (← der[1]?) &&& 0x80 ≠ 0 then return false
    if (← der[1]?).toNat ≠ derLen - 2 then return false
    match ← strictInteger der derLen 2 with
    | none => return false
    | some offset =>
      match ← strictInteger der derLen offset with
      | none => return false
      | some offset => return offset == derLen

def signatureDer (r s : Nat) : List UInt8 := Der.sequence [integer r, integer s]

/-- The bytes are a sequence of two integers with these values, in the shortest form or not. -/
def HoldsPair (bytes : List UInt8) (r s : Nat) : Prop :=
  ∃ first second, bytes = Der.sequence [tlv 0x02 first, tlv 0x02 second] ∧
    loadBE first = r ∧ loadBE second = s

private theorem highBit_fin :
    ∀ byte : Fin 256, UInt8.ofNat byte.val &&& 0x80 = 0 ↔ UInt8.ofNat byte.val < 0x80 := by
  decide +kernel

theorem highBit_clear (byte : UInt8) : byte &&& 0x80 = 0 ↔ byte < 0x80 := by
  simpa using highBit_fin ⟨byte.toNat, byte.toNat_lt⟩

def integerLength : List UInt8 → Option Nat
  | tag :: len :: rest =>
    let body := rest.take len.toNat
    if tag = 0x02 ∧ len.toNat ≤ 33 ∧ len.toNat ≤ rest.length ∧ Shortest body ∧ loadBE body < 2 ^ 256
    then some (2 + len.toNat) else none
  | _ => none

/-- A value of 33 bytes fits in 256 bits exactly if the first byte is the sign pad. -/
theorem value_small (first : UInt8) (rest : List UInt8) (short : rest.length ≤ 32) :
    loadBE (first :: rest) < 2 ^ 256 ↔ (rest.length = 32 → first = 0) := by
  by_cases padded : rest.length = 32
  · have power : 2 ^ 256 = 1 * 256 ^ rest.length := by
      rw [padded]
      norm_num
    rw [power, loadBE_cons_lt, Nat.lt_one_iff, ← UInt8.toNat_zero, UInt8.toNat_inj]
    exact ⟨fun zero _ => zero, fun zero => zero padded⟩
  · have bound : loadBE (first :: rest) < 2 ^ 256 := by
      calc
        loadBE (first :: rest) < 256 ^ (rest.length + 1) := loadBE_lt _
        _ ≤ 256 ^ 32 := Nat.pow_le_pow_right (by decide) (by omega)
        _ = 2 ^ 256 := by norm_num
    exact ⟨fun _ full => absurd full padded, fun _ => bound⟩

theorem strictValue_spec (before body after : List UInt8) (nonempty : body ≠ [])
    (short : body.length ≤ 33) :
    strictValue (before ++ (body ++ after)) before.length body.length =
      some (decide (Shortest body ∧ loadBE body < 2 ^ 256)) := by
  match body with
  | [] => exact absurd rfl nonempty
  | [first] =>
      have here : (before ++ ([first] ++ after))[before.length]? = some first := by simp
      have small := (value_small first [] (by simp)).mpr (by simp)
      simp only [strictValue, here, Shortest, Option.bind_eq_bind, Option.bind_some, ne_eq,
        highBit_clear, List.length_singleton, small, and_true]
      by_cases low : first < 0x80 <;> simp [low]
  | first :: second :: rest =>
      have here : (before ++ (first :: second :: rest ++ after))[before.length]? = some first := by
        simp
      have next : (before ++ (first :: second :: rest ++ after))[before.length + 1]? =
          some second := by
        simp
      have small := value_small first (second :: rest) (by
        simp only [List.length_cons] at short ⊢
        omega)
      simp only [strictValue, here, next, Shortest, Option.bind_eq_bind, Option.bind_some, ne_eq,
        highBit_clear, List.length_cons, small, ← UInt8.not_lt (a := second)]
      by_cases low : first < 0x80
      · by_cases full : rest.length = 31
        · by_cases zero : first = 0 <;> by_cases high : second < 0x80 <;>
            simp [low, full, zero, high]
        · by_cases zero : first = 0 <;> by_cases high : second < 0x80 <;>
            simp [low, full, zero, high]
      · simp [low]

/-- `strict_integer` reads no byte behind the string and no byte in front of the offset. -/
theorem strictInteger_spec (before bytes after : List UInt8) :
    strictInteger (before ++ (bytes ++ after)) (before.length + bytes.length) before.length =
      some ((integerLength bytes).map (before.length + ·)) := by
  match bytes with
  | [] => simp [strictInteger, integerLength]
  | [tag] => simp [strictInteger, integerLength]
  | tag :: len :: rest =>
      have here : (before ++ (tag :: len :: rest ++ after))[before.length]? = some tag := by simp
      have next : (before ++ (tag :: len :: rest ++ after))[before.length + 1]? = some len := by
        simp
      have room : ¬(before.length > before.length + (tag :: len :: rest).length ∨
          before.length + (tag :: len :: rest).length - before.length < 2) := by
        simp only [List.length_cons]
        omega
      rw [strictInteger, if_neg room]
      have stop : before.length + (tag :: len :: rest).length - (before.length + 2) =
          rest.length := by
        simp only [List.length_cons]
        omega
      simp only [here, next, stop, Option.bind_eq_bind, Option.bind_some, integerLength]
      by_cases number : tag = 0x02
      · rw [if_neg (not_not.mpr number)]
        by_cases sizes : len.toNat = 0 ∨ len.toNat > 33 ∨ len.toNat > rest.length
        · have refused : ¬(tag = 0x02 ∧ len.toNat ≤ 33 ∧ len.toNat ≤ rest.length ∧
              Shortest (rest.take len.toNat) ∧ loadBE (rest.take len.toNat) < 2 ^ 256) := by
            rintro ⟨-, small, fits, shortest, -⟩
            rcases sizes with empty | long | long
            · rw [empty, List.take_zero] at shortest
              exact shortest
            · omega
            · omega
          rw [if_pos sizes, if_neg refused]
          rfl
        · simp only [not_or, Nat.not_lt, gt_iff_lt] at sizes
          have size : (rest.take len.toNat).length = len.toNat := List.length_take_of_le sizes.2.2
          have value := strictValue_spec (before ++ [tag, len]) (rest.take len.toNat)
            (rest.drop len.toNat ++ after)
            (List.ne_nil_of_length_pos (by omega)) (by omega)
          have layout : before ++ [tag, len] ++ (rest.take len.toNat ++
              (rest.drop len.toNat ++ after)) = before ++ (tag :: len :: rest ++ after) := by
            rw [← List.append_assoc (rest.take _), List.take_append_drop]
            simp
          rw [layout, size, List.length_append] at value
          rw [if_neg (by simpa using sizes)]
          have advance : before.length + 2 + len.toNat = before.length + (2 + len.toNat) := by omega
          by_cases strict : Shortest (rest.take len.toNat) ∧ loadBE (rest.take len.toNat) < 2 ^ 256
          · rw [if_pos ⟨number, sizes.2.1, sizes.2.2, strict⟩]
            rw [decide_eq_true strict] at value
            simp only [List.length_cons, List.length_nil, Nat.zero_add, Nat.reduceAdd] at value
            rw [value]
            simp [advance]
          · rw [if_neg (fun all => strict all.2.2.2)]
            rw [decide_eq_false strict] at value
            simp only [List.length_cons, List.length_nil, Nat.zero_add, Nat.reduceAdd] at value
            rw [value]
            rfl
      · simp [number]

theorem width_256 (n : Nat) (small : n < 2 ^ 256) : width n ≤ 33 := by
  rw [width_le]
  omega

theorem integerLength_iff (bytes : List UInt8) (len : Nat) :
    integerLength bytes = some len ↔
      ∃ n after, n < 2 ^ 256 ∧ bytes = integer n ++ after ∧ len = (integer n).length := by
  constructor
  · intro found
    match bytes with
    | [] => cases found
    | [_] => cases found
    | tag :: size :: rest =>
        simp only [integerLength] at found
        split at found
        · rename_i strict
          obtain ⟨rfl, short, fits, shortest, small⟩ := strict
          have body := (shortest_iff _).mp shortest
          have length : (contents (loadBE (rest.take size.toNat))).length = size.toNat := by
            rw [← body]
            exact List.length_take_of_le fits
          have width_eq : width (loadBE (rest.take size.toNat)) = size.toNat := by
            rw [← length_contents]
            exact length
          have encoded : integer (loadBE (rest.take size.toNat)) =
              0x02 :: size :: rest.take size.toNat := by
            rw [integer, tlv_short _ _ (by rw [length]; omega), length, ← body]
            simp
          refine ⟨loadBE (rest.take size.toNat), rest.drop size.toNat, small, ?_, ?_⟩
          · rw [encoded, List.cons_append, List.cons_append, List.take_append_drop]
          · rw [← Option.some.inj found, length_integer _ (by omega), width_eq]
        · cases found
  · rintro ⟨n, after, small, rfl, rfl⟩
    have narrow := width_256 n small
    have size : (UInt8.ofNat (width n)).toNat = width n := by
      rw [UInt8.toNat_ofNat']
      omega
    have body : (contents n ++ after).take (width n) = contents n :=
      List.take_left' (length_contents n)
    rw [length_integer n (by omega), integer, tlv_short _ _ (by rw [length_contents]; omega),
      length_contents, List.cons_append, List.cons_append]
    simp only [integerLength, size, body, loadBE_contents]
    rw [if_pos ⟨trivial, narrow, by simp, shortest_contents n, small⟩]

def twoIntegers (bytes : List UInt8) : Bool :=
  match integerLength bytes with
  | none => false
  | some first =>
    match integerLength (bytes.drop first) with
    | none => false
    | some second => first + second == bytes.length

theorem twoIntegers_iff (bytes : List UInt8) :
    twoIntegers bytes = true ↔
      ∃ r s, r < 2 ^ 256 ∧ s < 2 ^ 256 ∧ bytes = integer r ++ integer s := by
  constructor
  · intro accepted
    rw [twoIntegers] at accepted
    split at accepted
    · cases accepted
    · rename_i first front
      obtain ⟨r, after, small, rfl, rfl⟩ := (integerLength_iff _ _).mp front
      rw [List.drop_left] at accepted
      split at accepted
      · cases accepted
      · rename_i second back
        obtain ⟨s, last, small', rfl, rfl⟩ := (integerLength_iff _ _).mp back
        have whole : last = [] := by
          apply List.eq_nil_of_length_eq_zero
          simp only [List.length_append, beq_iff_eq] at accepted
          omega
        exact ⟨r, s, small, small', by rw [whole, List.append_nil]⟩
  · rintro ⟨r, s, small, small', rfl⟩
    have front := (integerLength_iff (integer r ++ integer s) _).mpr ⟨r, _, small, rfl, rfl⟩
    have back := (integerLength_iff (integer s) _).mpr
      ⟨s, [], small', (List.append_nil _).symm, rfl⟩
    simp only [twoIntegers, front, List.drop_left, back, List.length_append, beq_self_eq_true]

/-- Nothing behind the string matters: `after` is the memory there. -/
theorem derStrict_cons (tag size : UInt8) (rest after : List UInt8)
    (bounds : 6 ≤ rest.length ∧ rest.length ≤ 70) :
    derStrict (tag :: size :: (rest ++ after)) (rest.length + 2) =
      some (tag == 0x30 && decide (size < 0x80) && size.toNat == rest.length &&
        twoIntegers rest) := by
  have range : ¬(rest.length + 2 < 8 ∨ rest.length + 2 > 72) := by omega
  have first := strictInteger_spec [tag, size] rest after
  have total : [tag, size].length + rest.length = rest.length + 2 := Nat.add_comm _ _
  rw [total] at first
  simp only [List.cons_append, List.nil_append, List.length_cons, List.length_nil, Nat.zero_add,
    Nat.reduceAdd] at first
  have here : (tag :: size :: (rest ++ after))[0]? = some tag := rfl
  have next : (tag :: size :: (rest ++ after))[1]? = some size := rfl
  rw [derStrict, if_neg range]
  simp only [here, next, Option.bind_eq_bind, Option.bind_some, ne_eq, highBit_clear, first,
    Nat.add_sub_cancel]
  by_cases sequence : tag = 0x30
  · by_cases short : size < 0x80
    · by_cases exact_size : size.toNat = rest.length
      · simp only [sequence, short, exact_size, not_true, if_false, beq_self_eq_true, decide_true,
          Bool.true_and]
        rw [twoIntegers]
        cases front : integerLength rest with
        | none => rfl
        | some len =>
            obtain ⟨r, behind, -, split, size_eq⟩ := (integerLength_iff _ _).mp front
            have inside : len ≤ rest.length := by
              rw [size_eq, split, List.length_append]
              omega
            have second := strictInteger_spec (tag :: size :: rest.take len) (rest.drop len) after
            have front_len : (tag :: size :: rest.take len).length = 2 + len := by
              simp only [List.length_cons, List.length_take]
              omega
            have stop : 2 + len + (rest.drop len).length = rest.length + 2 := by
              rw [List.length_drop]
              omega
            have string : tag :: size :: rest.take len ++ (rest.drop len ++ after) =
                tag :: size :: (rest ++ after) := by
              rw [List.cons_append, List.cons_append, ← List.append_assoc, List.take_append_drop]
            rw [string, front_len, stop] at second
            simp only [Option.map_some, ← sequence, second, Option.bind_some]
            cases integerLength (rest.drop len) with
            | none => rfl
            | some more =>
                simp only [Option.map_some]
                congr 1
                rw [Bool.eq_iff_iff, beq_iff_eq, beq_iff_eq]
                omega
      · simp [sequence, short, exact_size]
    · simp [sequence, short]
  · simp [sequence]

theorem length_integer_small {n : Nat} (small : n < 2 ^ 256) :
    3 ≤ (integer n).length ∧ (integer n).length ≤ 35 := by
  have narrow := width_256 n small
  have positive := width_pos n
  rw [length_integer n (by omega)]
  omega

theorem signatureDer_eq {r s : Nat} (small : r < 2 ^ 256) (small' : s < 2 ^ 256) :
    signatureDer r s =
      0x30 :: UInt8.ofNat (integer r ++ integer s).length :: (integer r ++ integer s) := by
  have left := length_integer_small small
  have right := length_integer_small small'
  have body : [integer r, integer s].flatten = integer r ++ integer s := by simp
  rw [signatureDer, Der.sequence, body, tlv_short _ _ (by rw [List.length_append]; omega)]

theorem length_signatureDer {r s : Nat} (small : r < 2 ^ 256) (small' : s < 2 ^ 256) :
    8 ≤ (signatureDer r s).length ∧ (signatureDer r s).length ≤ 72 := by
  have left := length_integer_small small
  have right := length_integer_small small'
  rw [signatureDer_eq small small']
  simp only [List.length_cons, List.length_append]
  omega

theorem HoldsPair.values {r s r' s' : Nat} (small : r < 2 ^ 256) (small' : s < 2 ^ 256)
    (holds : HoldsPair (signatureDer r s) r' s') : r = r' ∧ s = s' := by
  obtain ⟨first, second, same, rfl, rfl⟩ := holds
  have pair : [integer r, integer s].flatten = integer r ++ integer s := by simp
  have fields : [tlv 0x02 first, tlv 0x02 second].flatten =
      tlv 0x02 first ++ tlv 0x02 second := by simp
  have short := (length_signatureDer small small').2
  have outer := length_le_tlv 0x30 (tlv 0x02 first ++ tlv 0x02 second)
  have front := length_le_tlv 0x02 first
  have back := length_le_tlv 0x02 second
  rw [same, Der.sequence, fields] at short
  rw [List.length_append] at outer
  have left := length_integer_small small
  have right := length_integer_small small'
  rw [signatureDer, Der.sequence, Der.sequence, pair, fields] at same
  have inner := tlv_inj (by rw [List.length_append]; omega) (by rw [List.length_append]; omega) same
  have narrow := width_256 r small
  have narrow' := width_256 s small'
  rw [integer, integer] at inner
  obtain ⟨contents_r, rest⟩ := tlv_append_inj (by rw [length_contents]; omega) (by omega) inner
  have contents_s := tlv_inj (by rw [length_contents]; omega) (by omega) rest
  constructor
  · rw [← contents_r, loadBE_contents]
  · rw [← contents_s, loadBE_contents]

theorem signatureDer_holds (r s : Nat) : HoldsPair (signatureDer r s) r s :=
  ⟨contents r, contents s, rfl, loadBE_contents r, loadBE_contents s⟩

theorem derStrict_iff (string : List UInt8) :
    ∃ accepted, (∀ after, derStrict (string ++ after) string.length = some accepted) ∧
      (accepted = true ↔ ∃ r s, r < 2 ^ 256 ∧ s < 2 ^ 256 ∧ string = signatureDer r s) := by
  by_cases range : string.length < 8 ∨ string.length > 72
  · refine ⟨false, fun _ => by rw [derStrict, if_pos range], ?_⟩
    constructor
    · intro impossible
      cases impossible
    · rintro ⟨r, s, small, small', rfl⟩
      have := length_signatureDer small small'
      omega
  · match string with
    | [] => simp at range
    | [_] => simp at range
    | tag :: size :: rest =>
        simp only [List.length_cons, not_or, Nat.not_lt, gt_iff_lt] at range
        refine ⟨_, fun after => derStrict_cons tag size rest after (by omega), ?_⟩
        simp only [Bool.and_eq_true, beq_iff_eq, decide_eq_true_eq, twoIntegers_iff]
        constructor
        · rintro ⟨⟨⟨rfl, short⟩, exact_size⟩, r, s, small, small', rfl⟩
          refine ⟨r, s, small, small', ?_⟩
          rw [signatureDer_eq small small', ← exact_size]
          simp
        · rintro ⟨r, s, small, small', same⟩
          have bounds := length_signatureDer small small'
          rw [← same, List.length_cons, List.length_cons] at bounds
          rw [signatureDer_eq small small'] at same
          simp only [List.cons.injEq] at same
          obtain ⟨rfl, size_eq, rfl⟩ := same
          have value : size.toNat = (integer r ++ integer s).length := by
            rw [size_eq, UInt8.toNat_ofNat']
            omega
          refine ⟨⟨⟨rfl, ?_⟩, value⟩, r, s, small, small', rfl⟩
          rw [UInt8.lt_iff_toNat_lt, value]
          simp only [UInt8.reduceToNat]
          omega

theorem derStrict_bounds {der : List UInt8} {derLen : Nat} (strict : derStrict der derLen = some true) :
    8 ≤ derLen ∧ derLen ≤ 72 := by
  by_contra outside
  rw [derStrict, if_pos (by omega)] at strict
  exact absurd strict (by simp)

theorem derStrict_take (der : List UInt8) (derLen : Nat) (inside : derLen ≤ der.length) :
    derStrict (der.take derLen) derLen = derStrict der derLen := by
  obtain ⟨accepted, verdict, -⟩ := derStrict_iff (der.take derLen)
  rw [List.length_take_of_le inside] at verdict
  have alone := verdict []
  have whole := verdict (der.drop derLen)
  rw [List.append_nil] at alone
  rw [List.take_append_drop] at whole
  rw [alone, whole]

/-- `p4_p256_der_strict` reads no byte at or behind `derLen` and accepts exactly the DER encodings
of a pair of numbers below 2^256. An accepted string encodes one pair, and an accepted string that
holds a pair in any form is its one encoding. -/
theorem derStrict_canonical (der : List UInt8) (derLen : Nat) (inside : derLen ≤ der.length) :
    ∃ accepted, derStrict der derLen = some accepted ∧
      (∀ memory, derStrict (der.take derLen ++ memory) derLen = some accepted) ∧
      (accepted = true ↔ ∃! pair : Nat × Nat, pair.1 < 2 ^ 256 ∧ pair.2 < 2 ^ 256 ∧
        der.take derLen = signatureDer pair.1 pair.2) ∧
      (accepted = true → ∀ r s, HoldsPair (der.take derLen) r s →
        der.take derLen = signatureDer r s) := by
  have size : (der.take derLen).length = derLen := List.length_take_of_le inside
  obtain ⟨accepted, same, meaning⟩ := derStrict_iff (der.take derLen)
  rw [size] at same
  have whole := same (der.drop derLen)
  rw [List.take_append_drop] at whole
  refine ⟨accepted, whole, same, ?_, ?_⟩
  · rw [meaning]
    constructor
    · rintro ⟨r, s, small, small', encoded⟩
      refine ⟨(r, s), ⟨small, small', encoded⟩, ?_⟩
      rintro ⟨r', s'⟩ ⟨-, -, encoded'⟩
      have holds := signatureDer_holds r' s'
      rw [← encoded', encoded] at holds
      obtain ⟨rfl, rfl⟩ := holds.values small small'
      rfl
    · rintro ⟨⟨r, s⟩, ⟨small, small', encoded⟩, -⟩
      exact ⟨r, s, small, small', encoded⟩
  · intro yes r s holds
    obtain ⟨r', s', small, small', encoded⟩ := meaning.mp yes
    rw [encoded] at holds
    obtain ⟨rfl, rfl⟩ := holds.values small small'
    exact encoded

theorem derStrict_canonical_seven :
    ∃ accepted, derStrict [0x30, 0x06, 0x02, 0x01, 0x07, 0x02, 0x01, 0x08, 0xff] 8 =
        some accepted ∧
      (∀ memory, derStrict ([0x30, 0x06, 0x02, 0x01, 0x07, 0x02, 0x01, 0x08] ++ memory) 8 =
        some accepted) ∧
      (accepted = true ↔ ∃! pair : Nat × Nat, pair.1 < 2 ^ 256 ∧ pair.2 < 2 ^ 256 ∧
        [0x30, 0x06, 0x02, 0x01, 0x07, 0x02, 0x01, 0x08] = signatureDer pair.1 pair.2) ∧
      (accepted = true → ∀ r s,
        HoldsPair [0x30, 0x06, 0x02, 0x01, 0x07, 0x02, 0x01, 0x08] r s →
          [0x30, 0x06, 0x02, 0x01, 0x07, 0x02, 0x01, 0x08] = signatureDer r s) :=
  derStrict_canonical [0x30, 0x06, 0x02, 0x01, 0x07, 0x02, 0x01, 0x08, 0xff] 8 (by decide)

end P4Key.Crypto
