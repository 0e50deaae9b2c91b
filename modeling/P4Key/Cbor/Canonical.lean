import P4Key.Cbor.Failure

/-! What the reader accepts is what the writer makes.

A get that succeeds has read the one encoding of the value it returns, so a
buffer that was read to its end is written back byte for byte. -/

namespace P4Key.Cbor

open Memory

/-- Whatever `get` returns was before the reader, in its encoding, and nothing else is read. -/
def Recovers {α : Type} (get : Get α) (encoding : α → List UInt8) (valid : α → Prop) : Prop :=
  ∀ reader rest value after, reader.Before rest → get reader = (some value, after) →
    valid value ∧ after = reader.advance (encoding value).length ∧
      ∃ tail, rest = encoding value ++ tail

theorem readerTake_before {reader : Reader} {rest : List UInt8} (before : reader.Before rest)
    (len : Nat) :
    readerTake len reader =
      if len ≤ rest.length then (some (rest.take len), reader.advance len)
      else (none, { reader with failed := true }) := by
  rcases before with ⟨working, inside, tail⟩
  have size := congrArg List.length tail
  rw [List.length_drop] at size
  rw [readerTake, size]
  by_cases fits : len ≤ rest.length
  · rw [if_pos fits, if_neg (by rw [working]; simp; omega), slice, tail]
    rfl
  · rw [if_neg fits, if_pos (Or.inr (Or.inr (by omega)))]
    rfl

theorem readerTake_recovers {reader after : Reader} {rest bytes : List UInt8} {len : Nat}
    (before : reader.Before rest) (read : readerTake len reader = (some bytes, after)) :
    bytes.length = len ∧ after = reader.advance len ∧ rest = bytes ++ rest.drop len := by
  rw [readerTake_before before len] at read
  split at read
  · rename_i fits
    cases read
    exact ⟨by rw [List.length_take]; omega, rfl, (List.take_append_drop len rest).symm⟩
  · cases read

private theorem initialByte_split (byte : Fin 256) :
    (UInt8.ofNat byte >>> 5) <<< 5 ||| (UInt8.ofNat byte &&& 0x1f) = UInt8.ofNat byte := by
  revert byte
  decide +kernel

theorem initial_byte_split (byte : UInt8) : (byte >>> 5) <<< 5 ||| (byte &&& 0x1f) = byte := by
  have whole := initialByte_split ⟨byte.toNat, byte.toNat_lt⟩
  simpa using whole

theorem major_lt (byte : UInt8) : (byte >>> 5).toNat < 8 := by
  have := byte.toNat_lt
  simp [UInt8.toNat_shiftRight, Nat.shiftRight_eq_div_pow]
  omega

theorem headBytes_wide (major additional : UInt8) (count : Nat) (encoded : List UInt8)
    (bytes : argumentBytes additional = some count) (size : encoded.length = count)
    (shortest : overlong count (loadBE encoded) = false) :
    headBytes major (loadBE encoded) = (major <<< 5 ||| additional) :: encoded := by
  have bound := loadBE_lt encoded
  have same := storeBE_loadBE encoded
  rw [size] at bound same
  simp only [overlong, Bool.or_eq_false_iff, Bool.and_eq_false_imp, beq_iff_eq,
    decide_eq_false_iff_not] at shortest
  rcases shortest with ⟨⟨⟨one, two⟩, four⟩, eight⟩
  rw [headBytes]
  generalize loadBE encoded = value at *
  rw [argumentBytes] at bytes
  split at bytes
  · rename_i here
    cases bytes
    specialize one rfl
    rw [if_neg one, if_pos (by omega), here, ← same]
    rfl
  split at bytes
  · rename_i here
    cases bytes
    specialize two rfl
    rw [if_neg (by omega), if_neg two, if_pos (by omega), here, same]
  split at bytes
  · rename_i here
    cases bytes
    specialize four rfl
    rw [if_neg (by omega), if_neg (by omega), if_neg four, if_pos (by omega), here, same]
  split at bytes
  · rename_i here
    cases bytes
    specialize eight rfl
    rw [if_neg (by omega), if_neg (by omega), if_neg (by omega), if_neg eight, here, same]
  · cases bytes

theorem readerHead_cases {reader after : Reader} {major : UInt8} {value : Nat}
    (read : readerHead reader = (some (major, value), after)) :
    ∃ bytes middle, readerTake 1 reader = (some bytes, middle) ∧ major = bytes.headD 0 >>> 5 ∧
      (bytes.headD 0 &&& 0x1f < 24 ∧ value = (bytes.headD 0 &&& 0x1f).toNat ∧ after = middle ∨
        ∃ count encoded, argumentBytes (bytes.headD 0 &&& 0x1f) = some count ∧
          readerTake count middle = (some encoded, after) ∧
          overlong count (loadBE encoded) = false ∧ value = loadBE encoded) := by
  rw [readerHead] at read
  rcases first : readerTake 1 reader with ⟨_ | bytes, middle⟩
  · rw [first] at read
    cases read
  rw [first] at read
  simp only at read
  refine ⟨bytes, middle, rfl, ?_⟩
  split at read
  · rename_i narrow
    cases read
    exact ⟨rfl, Or.inl ⟨narrow, rfl, rfl⟩⟩
  cases wide : argumentBytes (bytes.headD 0 &&& 0x1f) with
  | none =>
      rw [wide] at read
      cases read
  | some count =>
      rw [wide] at read
      simp only at read
      rcases second : readerTake count middle with ⟨_ | encoded, last⟩
      · rw [second] at read
        cases read
      rw [second] at read
      simp only at read
      split at read
      · cases read
      · rename_i shortest
        cases read
        exact ⟨rfl, Or.inr ⟨count, encoded, rfl, second, by simpa using shortest, rfl⟩⟩

theorem argumentBytes_le {additional : UInt8} {count : Nat}
    (bytes : argumentBytes additional = some count) : count ≤ 8 := by
  rw [argumentBytes] at bytes
  split_ifs at bytes <;> cases bytes <;> decide

theorem readerHead_recovers {reader after : Reader} {rest : List UInt8} {major : UInt8} {value : Nat}
    (before : reader.Before rest) (read : readerHead reader = (some (major, value), after)) :
    (major.toNat < 8 ∧ value < 2 ^ 64) ∧ after = reader.advance (headBytes major value).length ∧
      ∃ tail, rest = headBytes major value ++ tail := by
  obtain ⟨bytes, middle, first, rfl, kind⟩ := readerHead_cases read
  obtain ⟨one, moved, split⟩ := readerTake_recovers before first
  obtain ⟨byte, rfl⟩ := List.length_eq_one_iff.mp one
  have whole := initial_byte_split byte
  have high := major_lt byte
  rw [List.headD_cons] at kind ⊢
  rcases kind with ⟨narrow, rfl, rfl⟩ | ⟨count, encoded, wide, second, shortest, rfl⟩
  · have small : (byte &&& 0x1f).toNat < 24 := by
      rw [UInt8.lt_iff_toNat_lt] at narrow
      exact narrow
    have head : headBytes (byte >>> 5) (byte &&& 0x1f).toNat = [byte] := by
      rw [headBytes, if_pos small, UInt8.ofNat_toNat, whole]
    rw [head]
    exact ⟨⟨high, by omega⟩, moved, _, split⟩
  · have ahead : middle.Before (rest.drop 1) := by
      rw [moved]
      rw [split] at before
      exact before.advance
    obtain ⟨size, moved₂, split₂⟩ := readerTake_recovers ahead second
    have head := headBytes_wide (byte >>> 5) _ count encoded wide size shortest
    rw [whole] at head
    have bound : loadBE encoded < 2 ^ 64 :=
      calc loadBE encoded
        _ < 256 ^ encoded.length := loadBE_lt encoded
        _ ≤ 256 ^ 8 := Nat.pow_le_pow_right (by decide) (size ▸ argumentBytes_le wide)
        _ = 2 ^ 64 := by norm_num
    rw [head]
    refine ⟨⟨high, bound⟩, ?_, (rest.drop 1).drop count, ?_⟩
    · rw [moved₂, moved, Reader.advance_advance, List.length_cons, size, Nat.add_comm]
    · rw [List.cons_append, ← split₂]
      exact split

theorem readerContainer_recovers (major : UInt8) :
    Recovers (readerContainer major) (headBytes major) (fun count => count ≤ maxContainerItems) := by
  intro reader rest count after before read
  rw [readerContainer] at read
  rcases head : readerHead reader with ⟨_ | ⟨found, value⟩, reader₁⟩
  · rw [head] at read
    cases read
  · rw [head] at read
    simp only at read
    split at read
    · cases read
    · rename_i accepted
      rw [not_or, not_not, Nat.not_lt] at accepted
      cases read
      rcases readerHead_recovers before head with ⟨-, moved, tail, split⟩
      rw [accepted.1] at moved split
      exact ⟨accepted.2, moved, tail, split⟩

theorem readerData_recovers (major : UInt8) :
    Recovers (readerData major) (fun data => headBytes major data.length ++ data)
      (fun data => data.length ≤ maxBytes) := by
  intro reader rest data after before read
  rw [readerData] at read
  rcases head : readerHead reader with ⟨_ | ⟨found, value⟩, reader₁⟩
  · rw [head] at read
    cases read
  · rw [head] at read
    simp only at read
    split at read
    · cases read
    · rename_i accepted
      rw [not_or, not_not, Nat.not_lt] at accepted
      rcases readerHead_recovers before head with ⟨-, moved, tail, split⟩
      rw [split] at before
      have ahead := before.advance
      rw [← moved] at ahead
      rcases readerTake_recovers ahead read with ⟨size, moved₁, split₁⟩
      rw [accepted.1, ← size] at moved split
      refine ⟨Nat.le_trans (Nat.le_of_eq size) accepted.2, ?_, tail.drop value, ?_⟩
      · rw [moved₁, moved, Reader.advance_advance, List.length_append, size]
      · rw [List.append_assoc, ← split₁]
        exact split

theorem getUint_recovers : Recovers getUint (headBytes 0) (fun value => value < 2 ^ 64) := by
  intro reader rest value after before read
  rw [getUint] at read
  rcases head : readerHead reader with ⟨_ | ⟨found, value₁⟩, reader₁⟩
  · rw [head] at read
    cases read
  · rw [head] at read
    simp only at read
    split at read
    · cases read
    · rename_i accepted
      rw [not_not] at accepted
      cases read
      rcases readerHead_recovers before head with ⟨bound, moved, tail, split⟩
      rw [accepted] at moved split
      exact ⟨bound.2, moved, tail, split⟩

theorem int_encoding_negative (encoded : Nat) :
    (Item.int (-1 - (encoded : Int))).encoding = headBytes 1 encoded := by
  have same : (-(-1 - (encoded : Int) + 1)).toNat = encoded := by omega
  rw [Item.encoding, if_neg (by omega), same]

theorem int_encoding_nonnegative (encoded : Nat) :
    (Item.int (encoded : Int)).encoding = headBytes 0 encoded := by
  rw [Item.encoding, if_pos (by omega), Int.toNat_natCast]

theorem getInt_recovers :
    Recovers getInt (fun value => (Item.int value).encoding) (fun value => (Item.int value).Valid) := by
  intro reader rest value after before read
  rw [getInt] at read
  rcases head : readerHead reader with ⟨_ | ⟨found, encoded⟩, reader₁⟩
  · rw [head] at read
    cases read
  · rw [head] at read
    simp only at read
    split at read
    · cases read
    · rename_i accepted
      simp only [int64Max, not_or, not_and, not_not, Nat.not_lt] at accepted
      rcases accepted with ⟨kind, positive, negative⟩
      rcases readerHead_recovers before head with ⟨-, moved, tail, split⟩
      by_cases sign : found = 0
      · rw [if_pos sign] at read
        cases read
        have bound := positive sign
        simp only [int_encoding_nonnegative]
        rw [sign] at moved split
        exact ⟨⟨by omega, by omega⟩, moved, tail, split⟩
      · rw [if_neg sign] at read
        cases read
        have one := kind sign
        have bound := negative one
        simp only [int_encoding_negative]
        rw [one] at moved split
        exact ⟨⟨by omega, by omega⟩, moved, tail, split⟩

theorem getBool_recovers :
    Recovers getBool (fun value => (Item.bool value).encoding) (fun _ => True) := by
  intro reader rest value after before read
  rw [getBool] at read
  rcases head : readerHead reader with ⟨_ | ⟨found, encoded⟩, reader₁⟩
  · rw [head] at read
    cases read
  · rw [head] at read
    simp only at read
    split at read
    · cases read
    · rename_i accepted
      simp only [not_or, not_and, not_not] at accepted
      rcases accepted with ⟨major, either⟩
      rcases readerHead_recovers before head with ⟨-, moved, tail, split⟩
      rw [major] at moved split
      cases read
      have encoding : (Item.bool (encoded == 21)).encoding = headBytes 7 encoded := by
        by_cases no : encoded = 20
        · rw [no]
          rfl
        · rw [either no]
          rfl
      simp only [encoding]
      exact ⟨trivial, moved, tail, split⟩

theorem Get.map_some {α β : Type} {f : α → β} {get : Get α} {reader after : Reader} {result : β}
    (read : get.map f reader = (some result, after)) :
    ∃ value, get reader = (some value, after) ∧ result = f value := by
  rw [Get.map] at read
  rcases inner : get reader with ⟨_ | value, reader₁⟩
  · rw [inner] at read
    cases read
  · rw [inner] at read
    cases read
    exact ⟨value, rfl, rfl⟩

theorem Kind.get_recovers (kind : Kind) {reader after : Reader} {rest : List UInt8} {item : Item}
    (before : reader.Before rest) (read : kind.get reader = (some item, after)) :
    item.kind = kind ∧ item.Valid ∧ after = reader.advance item.encoding.length ∧
      ∃ tail, rest = item.encoding ++ tail := by
  cases kind with
  | uint =>
      rcases Get.map_some read with ⟨value, inner, rfl⟩
      exact ⟨rfl, getUint_recovers _ _ _ _ before inner⟩
  | int =>
      rcases Get.map_some read with ⟨value, inner, rfl⟩
      exact ⟨rfl, getInt_recovers _ _ _ _ before inner⟩
  | bytes =>
      rcases Get.map_some read with ⟨value, inner, rfl⟩
      exact ⟨rfl, readerData_recovers 2 _ _ _ _ before inner⟩
  | text =>
      rcases Get.map_some read with ⟨value, inner, rfl⟩
      exact ⟨rfl, readerData_recovers 3 _ _ _ _ before inner⟩
  | bool =>
      rcases Get.map_some read with ⟨value, inner, rfl⟩
      exact ⟨rfl, getBool_recovers _ _ _ _ before inner⟩
  | array =>
      rcases Get.map_some read with ⟨value, inner, rfl⟩
      exact ⟨rfl, readerContainer_recovers 4 _ _ _ _ before inner⟩
  | map =>
      rcases Get.map_some read with ⟨value, inner, rfl⟩
      exact ⟨rfl, readerContainer_recovers 5 _ _ _ _ before inner⟩

theorem getItems_recovers (kinds : List Kind) {reader after : Reader} {rest : List UInt8}
    {items : List Item} (before : reader.Before rest)
    (read : getItems kinds reader = (some items, after)) :
    items.map Item.kind = kinds ∧ (∀ item ∈ items, item.Valid) ∧
      after = reader.advance (encodings items).length ∧ ∃ tail, rest = encodings items ++ tail := by
  induction kinds generalizing reader rest items with
  | nil =>
      cases read
      exact ⟨rfl, by simp, rfl, rest, rfl⟩
  | cons kind kinds ih =>
      simp only [getItems] at read
      rcases first : kind.get reader with ⟨_ | item, reader₁⟩
      · rw [first] at read
        cases read
      · rw [first] at read
        simp only at read
        rcases others : getItems kinds reader₁ with ⟨_ | found, reader₂⟩
        · rw [others] at read
          cases read
        · rw [others] at read
          cases read
          rcases kind.get_recovers before first with ⟨same, valid, moved, tail, split⟩
          rw [split] at before
          have ahead := before.advance
          rw [← moved] at ahead
          rcases ih ahead others with ⟨kinds', valids, moved₁, tail₁, split₁⟩
          refine ⟨by rw [List.map_cons, same, kinds'], ?_, ?_, tail₁, ?_⟩
          · intro other member
            rcases List.mem_cons.mp member with rfl | member
            · exact valid
            · exact valids other member
          · rw [moved₁, moved, Reader.advance_advance]
            simp [encodings]
          · rw [split, split₁]
            simp [encodings]

end P4Key.Cbor
