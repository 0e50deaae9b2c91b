import P4Key.Cbor.Grammar

/-! What `p4_cbor_skip` accepts, and what it touches. -/

namespace P4Key.Cbor

open Memory Grammar

/-! Which bytes a call reads. -/

structure Span (reader after : Reader) : Prop where
  data : after.data = reader.data
  forward : reader.offset ≤ after.offset
  inside : after.offset ≤ reader.data.length ∨ after.offset = reader.offset

/-- Only the bytes that the call moves over matter to it, and they are in the buffer. -/
structure Bounded {α : Type} (get : Get α) : Prop where
  span : ∀ reader, Span reader (get reader).2
  only : ∀ reader (data : List UInt8), data.length = reader.data.length →
    (∀ k, reader.offset ≤ k → k < (get reader).2.offset → data[k]? = reader.data[k]?) →
    get { reader with data := data } = ((get reader).1, { (get reader).2 with data := data })

theorem Span.refl (reader : Reader) (failed : Bool) :
    Span reader { reader with failed := failed } := ⟨rfl, Nat.le_refl _, Or.inr rfl⟩

theorem Span.trans {reader middle after : Reader} (first : Span reader middle)
    (second : Span middle after) : Span reader after := by
  refine ⟨second.data.trans first.data, Nat.le_trans first.forward second.forward, ?_⟩
  have inside := second.inside
  rw [first.data] at inside
  rcases inside with inside | same
  · exact Or.inl inside
  · rw [same]
    exact first.inside

section Bounds

variable {α γ : Type}

theorem Bounded.ret (value : α) : Bounded (fun reader => (some value, reader)) :=
  ⟨fun reader => .refl reader reader.failed, fun _ _ _ _ => rfl⟩

theorem Bounded.stop : Bounded (fun reader => (none, reader) : Get α) :=
  ⟨fun reader => .refl reader reader.failed, fun _ _ _ _ => rfl⟩

theorem Bounded.fail : Bounded (Get.fail : Get α) :=
  ⟨fun reader => .refl reader true, fun _ _ _ _ => rfl⟩

theorem Bounded.ite {c : Prop} [Decidable c] {yes no : Get α} (first : Bounded yes)
    (second : Bounded no) : Bounded (fun reader => if c then yes reader else no reader) := by
  by_cases chosen : c
  · simp only [if_pos chosen]
    exact first
  · simp only [if_neg chosen]
    exact second

theorem Bounded.andThen {first : Get α} {next : α → Get γ} (one : Bounded first)
    (others : ∀ value, Bounded (next value)) : Bounded (first.andThen next) := by
  constructor
  · intro reader
    have moved := one.span reader
    rw [Get.andThen]
    rcases read : first reader with ⟨_ | value, middle⟩
    · rw [read] at moved
      exact moved
    · rw [read] at moved
      exact moved.trans ((others value).span middle)
  · intro reader data size agrees
    have moved := one.span reader
    have same := one.only reader data size
    rw [Get.andThen] at agrees ⊢
    rw [Get.andThen]
    rcases read : first reader with ⟨_ | value, middle⟩
    · rw [read] at moved same agrees
      rw [same agrees]
    · rw [read] at moved same agrees
      have behind := (others value).span middle
      rw [same fun k low high => agrees k low (Nat.lt_of_lt_of_le high behind.forward)]
      have rest := (others value).only middle data (by rw [size, moved.data])
      rw [moved.data] at rest
      exact rest fun k low high => agrees k (Nat.le_trans moved.forward low) high

theorem readerTake_bounded (len : Nat) : Bounded (readerTake len) := by
  constructor
  · intro reader
    rw [readerTake]
    split
    · exact .refl reader true
    · rename_i fits
      simp only [not_or, Nat.not_lt] at fits
      refine ⟨rfl, Nat.le_add_right _ _, Or.inl ?_⟩
      have inside := fits.2
      simp only
      omega
  · intro reader data size agrees
    rw [readerTake] at agrees
    rw [readerTake, readerTake]
    by_cases refused : reader.failed ∨ reader.offset > reader.data.length ∨
        len > reader.data.length - reader.offset
    · rw [if_pos (by rw [size]; exact refused), if_pos refused]
      rfl
    · rw [if_neg refused] at agrees
      have bytes : slice data reader.offset len = slice reader.data reader.offset len := by
        apply List.ext_getElem?
        intro k
        simp only [slice, List.getElem?_take, List.getElem?_drop]
        by_cases inside : k < len
        · rw [if_pos inside, if_pos inside]
          exact agrees _ (Nat.le_add_right _ _) (by simp only; omega)
        · rw [if_neg inside, if_neg inside]
      rw [if_neg (by rw [size]; exact refused), if_neg refused, bytes]

theorem readerHead_bounded : Bounded readerHead := by
  have parts : readerHead = (readerTake 1).andThen fun bytes reader =>
      if bytes.headD 0 &&& 0x1f < 24 then
        (some (bytes.headD 0 >>> 5, (bytes.headD 0 &&& 0x1f).toNat), reader)
      else
        (argumentBytes (bytes.headD 0 &&& 0x1f)).elim (Get.fail reader) fun count =>
          (readerTake count).andThen (fun encoded reader =>
            if overlong count (loadBE encoded) then Get.fail reader
            else (some (bytes.headD 0 >>> 5, loadBE encoded), reader)) reader := by
    funext reader
    rw [Get.andThen]
    rcases first : readerTake 1 reader with ⟨_ | bytes, middle⟩
    · simp only [readerHead, first]
    · simp only [readerHead, first, Get.andThen]
      rcases argumentBytes (bytes.headD 0 &&& 0x1f) with _ | count
      · rfl
      · rcases second : readerTake count middle with ⟨_ | encoded, after⟩ <;>
          simp only [Option.elim_some, second]
  rw [parts]
  refine (readerTake_bounded 1).andThen fun bytes => .ite (.ret _) ?_
  cases argumentBytes (bytes.headD 0 &&& 0x1f) with
  | none => exact .fail
  | some count => exact (readerTake_bounded count).andThen fun encoded => .ite .fail (.ret _)

theorem skipItems_bounded {item : Get Unit} (one : Bounded item) (count : Nat) :
    Bounded (skipItems item count) := by
  induction count with
  | zero => exact .ret ()
  | succ count ih =>
      rw [skipItems_succ]
      exact one.andThen fun _ => ih

theorem skipBody_bounded_of {budget : Nat} (inner : Bounded (readerSkip budget)) (major : UInt8)
    (value : Nat) : Bounded (skipBody budget major value) := by
  refine .ite (.ret ()) (.ite ?_ (.ite ?_ ?_))
  · exact .ite ((readerTake_bounded value).andThen fun _ => .ret ()) .stop
  · exact .ite .fail (skipItems_bounded inner _)
  · exact .ite (.ret ()) .fail

theorem readerSkip_bounded (budget : Nat) : Bounded (readerSkip budget) := by
  induction budget with
  | zero => exact .fail
  | succ budget ih =>
      rw [readerSkip_succ]
      exact readerHead_bounded.andThen fun head => skipBody_bounded_of ih head.1 head.2

theorem skipBody_bounded (budget : Nat) (major : UInt8) (value : Nat) :
    Bounded (skipBody budget major value) := skipBody_bounded_of (readerSkip_bounded budget) major value

end Bounds

/-! Every item is longer than nothing. -/

theorem readerHead_moves {reader after : Reader} {head : UInt8 × Nat}
    (read : readerHead reader = (some head, after)) : reader.offset < after.offset := by
  rcases readerHead_cases read with ⟨bytes, middle, first, -, rest⟩
  have one : middle.offset = reader.offset + 1 := by
    rw [readerTake] at first
    split at first
    · cases first
    · cases first
      rfl
  have behind : middle.offset ≤ after.offset := by
    rcases rest with ⟨-, -, rfl⟩ | ⟨count, encoded, -, second, -, -⟩
    · exact Nat.le_refl _
    · have moved := (readerTake_bounded count).span middle
      rw [second] at moved
      exact moved.forward
  omega

theorem readerSkip_moves {budget : Nat} {reader after : Reader}
    (skipped : readerSkip budget reader = (some (), after)) : reader.offset < after.offset := by
  cases budget with
  | zero => cases skipped
  | succ budget =>
      rw [readerSkip_succ, Get.andThen] at skipped
      rcases head : readerHead reader with ⟨_ | head', middle⟩
      · rw [head] at skipped
        cases skipped
      · rw [head] at skipped
        have last : skipBody budget head'.1 head'.2 middle = (some (), after) := skipped
        have rest := (skipBody_bounded budget head'.1 head'.2).span middle
        rw [last] at rest
        exact Nat.lt_of_lt_of_le (readerHead_moves head) rest.forward

theorem Reader.ahead {reader : Reader} (small : reader.data.length ≤ maxBytes)
    (working : reader.failed = false) (inside : reader.offset ≤ reader.data.length) :
    reader.Ahead (reader.data.drop reader.offset) := by
  refine ⟨⟨working, inside, rfl⟩, ?_⟩
  rw [List.length_drop]
  omega

/-- `p4_cbor_skip` returns true if and only if one item of the grammar lies ahead, and then moves
over just that item. In every nested call it reads the bytes it moves over and no others, and it
moves if it returns true. -/
theorem skip_accepts_strict_items :
    (∀ reader : Reader, reader.data.length ≤ maxBytes → reader.failed = false →
      ((∃ after, skip reader = (some (), after)) ↔
        ∃ item tail, Strict 0 item ∧ reader.data.drop reader.offset = item ++ tail) ∧
      ∀ item tail, Strict 0 item → reader.data.drop reader.offset = item ++ tail →
        skip reader = (some (), { reader with offset := reader.offset + item.length })) ∧
    ∀ budget, Bounded (readerSkip budget) ∧
      ∀ reader after, readerSkip budget reader = (some (), after) → reader.offset < after.offset := by
  constructor
  · intro reader small working
    have moves : ∀ item tail, Strict 0 item → reader.data.drop reader.offset = item ++ tail →
        skip reader = (some (), { reader with offset := reader.offset + item.length }) := by
      intro item tail strict split
      have inside : reader.offset ≤ reader.data.length := by
        by_contra outside
        rw [List.drop_eq_nil_of_le (by omega)] at split
        exact strict.ne_nil (List.append_eq_nil_iff.mp split.symm).1
      have exact' := skip_accepts reader _ (Reader.ahead small working inside) ()
        (reader.advance item.length)
      exact Get.parser_some.mp (exact'.mpr ⟨item, tail, strict, split, rfl⟩)
    refine ⟨⟨?_, ?_⟩, moves⟩
    · rintro ⟨after, skipped⟩
      have moved := readerSkip_moves skipped
      have span := (readerSkip_bounded (maxDepth + 1)).span reader
      rw [show readerSkip (maxDepth + 1) reader = (some (), after) from skipped] at span
      have inside : reader.offset ≤ reader.data.length := by
        rcases span.inside with inside | same
        · exact Nat.le_trans span.forward inside
        · simp only at same
          omega
      have exact' := skip_accepts reader _ (Reader.ahead small working inside) () after
      rcases exact'.mp (Get.parser_of_some skipped) with ⟨item, tail, strict, split, -⟩
      exact ⟨item, tail, strict, split⟩
    · rintro ⟨item, tail, strict, split⟩
      exact ⟨_, moves item tail strict split⟩
  · intro budget
    exact ⟨readerSkip_bounded budget, fun _ _ skipped => readerSkip_moves skipped⟩

theorem sample_strict : Strict 0 [0x82, 0x01, 0x61, 0x41] := by
  have one : Strict 1 [0x01] := @Strict.number 1 1 0 (by decide) (Or.inl rfl) (by decide)
  have letter : Strict 1 [0x61, 0x41] := @Strict.string 1 3 [0x41] (by decide) (Or.inr rfl) (by decide)
  refine @Strict.array 0 [[0x01], [0x61, 0x41]] (by decide) (by decide) ?_
  intro item member
  rcases List.mem_pair.mp member with rfl | rfl
  · exact one
  · exact letter

/-- An item is skipped behind a byte that was read and before one that is no item. -/
theorem sample_item_is_skipped :
    skip ⟨[0x00, 0x82, 0x01, 0x61, 0x41, 0xff], 1, false⟩ =
        (some (), ⟨[0x00, 0x82, 0x01, 0x61, 0x41, 0xff], 5, false⟩) ∧
      ¬ ∃ after, skip ⟨[0x00, 0x82, 0x01, 0x61, 0x41, 0xff], 5, false⟩ = (some (), after) := by
  constructor
  · exact (skip_accepts_strict_items.1 ⟨[0x00, 0x82, 0x01, 0x61, 0x41, 0xff], 1, false⟩ (by decide)
      rfl).2 [0x82, 0x01, 0x61, 0x41] [0xff] sample_strict rfl
  · rintro ⟨after, skipped⟩
    have refused : (skip ⟨[0x00, 0x82, 0x01, 0x61, 0x41, 0xff], 5, false⟩).1 = none := by decide
    rw [skipped] at refused
    cases refused

end P4Key.Cbor
