import P4Key.Cbor.Canonical
import P4Key.Library.Grammar

/-! The grammar that the reader accepts. -/

namespace P4Key.Cbor

open Memory Grammar

def Reader.Ahead (reader : Reader) (rest : List UInt8) : Prop :=
  reader.Before rest ∧ rest.length ≤ maxBytes

theorem Reader.Ahead.advance {reader : Reader} {word rest : List UInt8}
    (ahead : reader.Ahead (word ++ rest)) : (reader.advance word.length).Ahead rest := by
  have size := ahead.2
  rw [List.length_append] at size
  exact ⟨ahead.1.advance, by omega⟩

def readerInput : Input Reader UInt8 where
  before := Reader.Ahead
  advance := Reader.advance
  behind := Reader.Ahead.advance
  advance_zero _ := rfl
  advance_add reader first second := reader.advance_advance first second

/-- A get without the reader that a failure leaves. -/
def Get.parser {α : Type} (get : Get α) : Parser Reader α := fun reader =>
  match get reader with
  | (some value, after) => some (value, after)
  | (none, _) => none

theorem Get.parser_some {α : Type} {get : Get α} {reader after : Reader} {value : α} :
    get.parser reader = some (value, after) ↔ get reader = (some value, after) := by
  rw [Get.parser]
  rcases get reader with ⟨_ | found, last⟩ <;> simp

theorem Get.parser_of_some {α : Type} {get : Get α} {reader after : Reader} {value : α}
    (read : get reader = (some value, after)) : get.parser reader = some (value, after) :=
  Get.parser_some.mpr read

theorem Get.parser_of_none {α : Type} {get : Get α} {reader after : Reader}
    (read : get reader = (none, after)) : get.parser reader = none := by
  rw [Get.parser, read]

def Get.andThen {α γ : Type} (first : Get α) (next : α → Get γ) : Get γ := fun reader =>
  match first reader with
  | (none, reader) => (none, reader)
  | (some value, reader) => next value reader

theorem Get.parser_andThen {α γ : Type} (first : Get α) (next : α → Get γ) :
    (first.andThen next).parser = first.parser.bind fun value => (next value).parser := by
  funext reader
  rw [Parser.bind]
  rcases read : first reader with ⟨_ | value, after⟩
  · have both : first.andThen next reader = (none, after) := by rw [Get.andThen, read]
    rw [Get.parser_of_none read, Get.parser_of_none both]
    rfl
  · have both : first.andThen next reader = next value after := by rw [Get.andThen, read]
    rw [Get.parser_of_some read, Get.parser, both]
    rfl

def Accepts {α : Type} (get : Get α) (language : Language UInt8 α) : Prop :=
  Exact readerInput get.parser language

/-- What a get reads back and what it recovers, within the size of a buffer. -/
theorem Accepts.of_reads {α : Type} {get : Get α} {encoding : α → List UInt8}
    {valid : α → Prop} (allowed : α → Prop) (recovers : Recovers get encoding valid)
    (reads : ∀ value, valid value → Reads get (encoding value) value)
    (weaker : ∀ value, valid value → allowed value)
    (enough : ∀ value, allowed value → (encoding value).length ≤ maxBytes → valid value) :
    Accepts get (fun value word => allowed value ∧ word = encoding value) := by
  intro reader rest ahead value after
  rw [Get.parser_some]
  constructor
  · intro read
    rcases recovers reader rest value after ahead.1 read with ⟨legal, moved, tail, split⟩
    exact ⟨encoding value, tail, ⟨weaker value legal, rfl⟩, split, moved⟩
  · rintro ⟨word, tail, ⟨legal, rfl⟩, rfl, rfl⟩
    have size := ahead.2
    rw [List.length_append] at size
    exact reads value (enough value legal (by omega)) reader tail ahead.1

/-! The words of single gets. -/

def uintWord : Language UInt8 Nat := fun value word => value < 2 ^ 64 ∧ word = headBytes 0 value

def intWord : Language UInt8 Int :=
  fun value word => (-2 ^ 63 ≤ value ∧ value < 2 ^ 63) ∧ word = (Item.int value).encoding

def bytesWord : Language UInt8 (List UInt8) := fun data word => word = headBytes 2 data.length ++ data

def textWord : Language UInt8 (List UInt8) := fun data word => word = headBytes 3 data.length ++ data

def boolWord : Language UInt8 Bool := fun value word => word = (Item.bool value).encoding

def arrayHead : Language UInt8 Nat :=
  fun count word => count ≤ maxContainerItems ∧ word = headBytes 4 count

def mapHead : Language UInt8 Nat :=
  fun count word => count ≤ maxContainerItems ∧ word = headBytes 5 count

def headWord : Language UInt8 (UInt8 × Nat) :=
  fun head word => (head.1.toNat < 8 ∧ head.2 < 2 ^ 64) ∧ word = headBytes head.1 head.2

theorem getUint_accepts : Accepts getUint uintWord :=
  .of_reads _ getUint_recovers getUint_reads (fun _ => id) (fun _ legal _ => legal)

theorem getInt_accepts : Accepts getInt intWord :=
  .of_reads _ getInt_recovers getInt_reads (fun _ => id) (fun _ legal _ => legal)

theorem readerData_accepts (major : Nat) (high : major < 8) :
    Accepts (readerData (UInt8.ofNat major))
      (fun data word => word = headBytes (UInt8.ofNat major) data.length ++ data) := by
  refine Exact.congr (Accepts.of_reads (fun _ => True)
    (readerData_recovers (UInt8.ofNat major)) (fun data => readerData_reads major data high)
    (fun _ _ => trivial) ?_) ?_
  · intro data _ size
    rw [List.length_append] at size
    omega
  · intro data word
    rw [true_and]

theorem getBytes_accepts : Accepts getBytes bytesWord := readerData_accepts 2 (by decide)

theorem getText_accepts : Accepts getText textWord := readerData_accepts 3 (by decide)

theorem getBool_accepts : Accepts getBool boolWord := by
  refine Exact.congr (Accepts.of_reads (fun _ => True) getBool_recovers
    (fun value _ => getBool_reads value) (fun _ _ => trivial) (fun _ _ _ => trivial)) ?_
  intro value word
  rw [true_and]
  rfl

theorem getArray_accepts : Accepts getArray arrayHead :=
  .of_reads _ (readerContainer_recovers 4) (fun count => readerContainer_reads 4 count (by decide))
    (fun _ => id) (fun _ legal _ => legal)

theorem getMap_accepts : Accepts getMap mapHead :=
  .of_reads _ (readerContainer_recovers 5) (fun count => readerContainer_reads 5 count (by decide))
    (fun _ => id) (fun _ legal _ => legal)

theorem readerHead_accepts : Accepts readerHead headWord := by
  refine .of_reads (fun head : UInt8 × Nat => head.1.toNat < 8 ∧ head.2 < 2 ^ 64) ?_ ?_ (fun _ => id)
    (fun _ legal _ => legal)
  · rintro reader rest ⟨major, value⟩ after before read
    exact readerHead_recovers before read
  · rintro ⟨major, value⟩ legal
    have reads := readerHead_reads major.toNat value legal.1 legal.2
    rw [UInt8.ofNat_toNat] at reads
    exact reads

/-! One item. -/

/-- An item in its shortest form that lies in `depth` containers: a number, a string, an array
or a map of definite length, true or false. -/
inductive Strict : Nat → List UInt8 → Prop where
  | number {depth value : Nat} {major : UInt8} (shallow : depth ≤ maxDepth)
      (kind : major = 0 ∨ major = 1) (bound : value < 2 ^ 64) : Strict depth (headBytes major value)
  | string {depth : Nat} {major : UInt8} {data : List UInt8} (shallow : depth ≤ maxDepth)
      (kind : major = 2 ∨ major = 3) (bound : data.length < 2 ^ 64) : Strict depth (headBytes major data.length ++ data)
  | array {depth : Nat} {items : List (List UInt8)} (shallow : depth ≤ maxDepth)
      (few : items.length ≤ maxContainerItems) (inner : ∀ item ∈ items, Strict (depth + 1) item) :
      Strict depth (headBytes 4 items.length ++ items.flatten)
  | map {depth : Nat} {pairs : List (List UInt8 × List UInt8)} (shallow : depth ≤ maxDepth)
      (few : pairs.length ≤ maxContainerItems) (keys : ∀ pair ∈ pairs, Strict (depth + 1) pair.1)
      (values : ∀ pair ∈ pairs, Strict (depth + 1) pair.2) :
      Strict depth (headBytes 5 pairs.length ++ (pairs.map fun pair => pair.1 ++ pair.2).flatten)
  | bool {depth : Nat} {value : Bool} (shallow : depth ≤ maxDepth) :
      Strict depth (Item.bool value).encoding

theorem Strict.shallow {depth : Nat} {word : List UInt8} (strict : Strict depth word) :
    depth ≤ maxDepth := by
  cases strict <;> assumption

theorem headBytes_ne_nil (major : UInt8) (value : Nat) : headBytes major value ≠ [] := by
  rw [headBytes]
  split_ifs <;> simp

theorem Strict.ne_nil {depth : Nat} {word : List UInt8} (strict : Strict depth word) : word ≠ [] := by
  cases strict with
  | number shallow kind bound => exact headBytes_ne_nil _ _
  | string shallow kind bound => simp [headBytes_ne_nil]
  | array shallow few inner => simp [headBytes_ne_nil]
  | map shallow few keys values => simp [headBytes_ne_nil]
  | bool shallow => simp [Item.encoding]

/-- What `reader_skip` does behind a head. -/
def skipBody (budget : Nat) (major : UInt8) (value : Nat) : Get Unit := fun reader =>
  if major = 0 ∨ major = 1 then (some (), reader)
  else if major = 2 ∨ major = 3 then
    if value ≤ maxBytes then
      (readerTake value).andThen (fun _ reader => (some (), reader)) reader
    else (none, reader)
  else if major = 4 ∨ major = 5 then
    if value > maxContainerItems then Get.fail reader
    else skipItems (readerSkip budget) (value * if major = 5 then 2 else 1) reader
  else if major = 7 ∧ (value = 20 ∨ value = 21) then (some (), reader)
  else Get.fail reader

theorem readerSkip_succ (budget : Nat) :
    readerSkip (budget + 1) = readerHead.andThen fun head => skipBody budget head.1 head.2 := by
  funext reader
  rw [Get.andThen]
  rcases head : readerHead reader with ⟨_ | ⟨major, value⟩, after⟩
  · simp only [readerSkip, head]
  · simp only [readerSkip, head, skipBody, Get.andThen]
    rcases readerTake value after with ⟨_ | bytes, last⟩ <;> rfl

theorem skipItems_succ (item : Get Unit) (count : Nat) :
    skipItems item (count + 1) = item.andThen fun _ => skipItems item count := by
  funext reader
  rw [Get.andThen]
  rcases head : item reader with ⟨_ | _, after⟩
  · simp only [skipItems, head]
  · simp only [skipItems, head]

def itemsWord (count depth : Nat) : Language UInt8 Unit :=
  fun _ word => ∃ items : List (List UInt8), items.length = count ∧
    (∀ item ∈ items, Strict depth item) ∧ word = items.flatten

theorem skipItems_accepts {item : Get Unit} {depth : Nat}
    (exact : Accepts item fun _ word => Strict depth word) (count : Nat) :
    Accepts (skipItems item count) (itemsWord count depth) := by
  have turns := Exact.loop (fun _ : Unit => item.parser)
    (fun count _ => (skipItems item count).parser) (fun word _ _ => Strict depth word) id
    (fun _ => exact.congr (by simp))
    (fun _ => rfl) (fun count _ => by rw [skipItems_succ, Get.parser_andThen]) count ()
  refine turns.congr ?_
  intro last word
  have folded : ∀ items : List (List UInt8), Folds (fun word (_ : Unit) (_ : Unit) => Strict depth word)
      items () last ↔ ∀ item ∈ items, Strict depth item := by
    intro items
    have steps := folds_where (fun _ state next => next = state) (Strict depth) items () last
    rw [folds_fixed] at steps
    refine Iff.trans (folds_congr ?_ items () last) (steps.trans (by simp))
    simp
  simp only [loop, folded, List.map_id, itemsWord]

def bodyWord (depth : Nat) (major : UInt8) (value : Nat) : Language UInt8 Unit :=
  if major = 0 ∨ major = 1 then only ()
  else if major = 2 ∨ major = 3 then fun _ word => word.length = value
  else if major = 4 ∨ major = 5 then
    if value > maxContainerItems then never
    else itemsWord (value * if major = 5 then 2 else 1) (depth + 1)
  else if major = 7 ∧ (value = 20 ∨ value = 21) then only ()
  else never

/-- A string longer than a buffer is not there, whether this is checked or not. -/
theorem skipString_accepts {budget : Nat} {major : UInt8} {value : Nat}
    (number : ¬ (major = 0 ∨ major = 1)) (string : major = 2 ∨ major = 3) :
    Accepts (skipBody budget major value) (fun _ word => word.length = value) := by
  intro reader rest ahead _ after
  rw [Get.parser_some, skipBody, if_neg number, if_pos string, Get.andThen, readerTake_before ahead.1]
  have small := ahead.2
  constructor
  · intro skipped
    by_cases inside : value ≤ maxBytes
    · by_cases fits : value ≤ rest.length
      · rw [if_pos inside, if_pos fits] at skipped
        cases skipped
        have size : (rest.take value).length = value := by
          rw [List.length_take]
          omega
        exact ⟨rest.take value, rest.drop value, size, (List.take_append_drop value rest).symm,
          by rw [size]; rfl⟩
      · rw [if_pos inside, if_neg fits] at skipped
        cases skipped
    · rw [if_neg inside] at skipped
      cases skipped
  · rintro ⟨word, tail, rfl, rfl, rfl⟩
    have fits : word.length ≤ (word ++ tail).length := by
      rw [List.length_append]
      omega
    rw [if_pos (Nat.le_trans fits small), if_pos fits]
    rfl

theorem skipBody_accepts {budget depth : Nat}
    (inner : Accepts (readerSkip budget) fun _ word => Strict (depth + 1) word) (major : UInt8)
    (value : Nat) : Accepts (skipBody budget major value) (bodyWord depth major value) := by
  by_cases number : major = 0 ∨ major = 1
  · have parser : (skipBody budget major value).parser = Parser.ret () := by
      funext reader
      apply Get.parser_of_some
      rw [skipBody, if_pos number]
    rw [bodyWord, if_pos number, Accepts, parser]
    exact Exact.ret ()
  by_cases string : major = 2 ∨ major = 3
  · rw [bodyWord, if_neg number, if_pos string]
    exact skipString_accepts number string
  by_cases container : major = 4 ∨ major = 5
  · rw [bodyWord, if_neg number, if_neg string, if_pos container]
    by_cases many : value > maxContainerItems
    · rw [if_pos many]
      apply Exact.never
      intro reader
      apply Get.parser_of_none
      rw [skipBody, if_neg number, if_neg string, if_pos container, if_pos many]
      rfl
    · have same : skipBody budget major value =
          skipItems (readerSkip budget) (value * if major = 5 then 2 else 1) := by
        funext reader
        rw [skipBody, if_neg number, if_neg string, if_pos container, if_neg many]
      rw [if_neg many, same]
      exact skipItems_accepts inner _
  rw [bodyWord, if_neg number, if_neg string, if_neg container]
  by_cases simple : major = 7 ∧ (value = 20 ∨ value = 21)
  · have parser : (skipBody budget major value).parser = Parser.ret () := by
      funext reader
      apply Get.parser_of_some
      rw [skipBody, if_neg number, if_neg string, if_neg container, if_pos simple]
    rw [if_pos simple, Accepts, parser]
    exact Exact.ret ()
  · rw [if_neg simple]
    apply Exact.never
    intro reader
    apply Get.parser_of_none
    rw [skipBody, if_neg number, if_neg string, if_neg container, if_neg simple]
    rfl

theorem paired (items : List (List UInt8)) (count : Nat) (size : items.length = count * 2) :
    ∃ pairs : List (List UInt8 × List UInt8), pairs.length = count ∧
      items = (pairs.map fun pair => [pair.1, pair.2]).flatten := by
  induction count generalizing items with
  | zero =>
      rw [Nat.zero_mul, List.length_eq_zero_iff] at size
      exact ⟨[], rfl, size⟩
  | succ count ih =>
      match items with
      | [] => simp at size
      | [item] =>
          rw [List.length_singleton] at size
          omega
      | key :: value :: items =>
          simp only [List.length_cons] at size
          rcases ih items (by omega) with ⟨pairs, same, split⟩
          exact ⟨(key, value) :: pairs, by rw [List.length_cons, same], by simp [split]⟩

theorem flatten_paired (pairs : List (List UInt8 × List UInt8)) :
    ((pairs.map fun pair => [pair.1, pair.2]).flatten).flatten =
      (pairs.map fun pair => pair.1 ++ pair.2).flatten := by
  induction pairs with
  | nil => rfl
  | cons pair pairs ih => simp [ih]

theorem Strict.of_body {depth : Nat} (shallow : depth ≤ maxDepth) {major : UInt8} {value : Nat}
    {word : List UInt8} (bound : value < 2 ^ 64) (body : bodyWord depth major value () word) :
    Strict depth (headBytes major value ++ word) := by
  rw [bodyWord] at body
  split at body
  · rename_i number
    rw [body.2, List.append_nil]
    exact .number shallow number bound
  split at body
  · rename_i string
    have size : word.length = value := body
    rw [← size] at bound ⊢
    exact .string shallow string bound
  split at body
  · rename_i container
    split at body
    · exact body.elim
    · rename_i few
      rw [Nat.not_lt] at few
      rcases body with ⟨items, size, inner, rfl⟩
      rcases container with rfl | rfl
      · rw [if_neg (by decide), Nat.mul_one] at size
        rw [← size] at few ⊢
        exact .array shallow few inner
      · rw [if_pos rfl] at size
        rcases paired items value size with ⟨pairs, same, rfl⟩
        rw [flatten_paired, ← same]
        rw [← same] at few
        simp only [List.forall_mem_flatten, List.forall_mem_map, List.forall_mem_cons,
          List.not_mem_nil, false_imp_iff, implies_true, and_true] at inner
        exact .map shallow few (fun pair member => (inner pair member).1)
          (fun pair member => (inner pair member).2)
  split at body
  · rename_i simple
    rw [body.2, List.append_nil, simple.1]
    rcases simple.2 with rfl | rfl
    · exact @Strict.bool depth false shallow
    · exact @Strict.bool depth true shallow
  · exact body.elim

theorem Strict.body {depth : Nat} {word : List UInt8} (strict : Strict depth word) :
    ∃ (major : UInt8) (value : Nat) (back : List UInt8), (major.toNat < 8 ∧ value < 2 ^ 64) ∧
      bodyWord depth major value () back ∧ word = headBytes major value ++ back := by
  have container : ∀ {count : Nat}, count ≤ maxContainerItems → count < 2 ^ 64 := by
    intro count few
    simp only [maxContainerItems] at few
    omega
  cases strict with
  | @number _ value major shallow kind bound =>
      refine ⟨major, value, [], ⟨?_, bound⟩, ?_, (List.append_nil _).symm⟩
      · rcases kind with rfl | rfl <;> decide
      · rw [bodyWord, if_pos kind]
        exact ⟨rfl, rfl⟩
  | @string _ major data shallow kind bound =>
      refine ⟨major, data.length, data, ⟨?_, bound⟩, ?_, rfl⟩
      · rcases kind with rfl | rfl <;> decide
      · rcases kind with rfl | rfl <;> rfl
  | @array _ items shallow few inner =>
      refine ⟨4, items.length, items.flatten, ⟨by decide, container few⟩, ?_, rfl⟩
      rw [bodyWord, if_neg (by decide), if_neg (by decide), if_pos (by decide),
        if_neg (Nat.not_lt.mpr few), if_neg (by decide), Nat.mul_one]
      exact ⟨items, rfl, inner, rfl⟩
  | @map _ pairs shallow few keys values =>
      refine ⟨5, pairs.length, _, ⟨by decide, container few⟩, ?_, rfl⟩
      rw [bodyWord, if_neg (by decide), if_neg (by decide), if_pos (by decide),
        if_neg (Nat.not_lt.mpr few), if_pos rfl]
      refine ⟨(pairs.map fun pair => [pair.1, pair.2]).flatten, ?_, ?_, (flatten_paired pairs).symm⟩
      · simp [List.length_flatten, Function.comp_def]
      · simp only [List.forall_mem_flatten, List.forall_mem_map, List.forall_mem_cons,
          List.not_mem_nil, false_imp_iff, implies_true, and_true]
        exact fun pair member => ⟨keys pair member, values pair member⟩
  | @bool _ value shallow =>
      refine ⟨7, if value then 21 else 20, [], ⟨by decide, by cases value <;> decide⟩, ?_, ?_⟩
      · cases value <;> exact ⟨rfl, rfl⟩
      · cases value <;> rfl

theorem head_body_iff {depth : Nat} (shallow : depth ≤ maxDepth) (word : List UInt8) :
    follow headWord (fun head => bodyWord depth head.1 head.2) () word ↔ Strict depth word := by
  constructor
  · rintro ⟨⟨major, value⟩, front, back, ⟨bound, rfl⟩, body, rfl⟩
    exact .of_body shallow bound.2 body
  · intro strict
    rcases strict.body with ⟨major, value, back, bound, body, split⟩
    exact ⟨⟨major, value⟩, headBytes major value, back, ⟨bound, rfl⟩, body, split⟩

theorem readerSkip_accepts (budget depth : Nat) (sum : budget + depth = maxDepth + 1) :
    Accepts (readerSkip budget) fun _ word => Strict depth word := by
  induction budget generalizing depth with
  | zero =>
      refine (Exact.never fun reader => rfl).congr ?_
      intro _ word
      constructor
      · intro impossible
        exact impossible.elim
      · intro strict
        have shallow := strict.shallow
        omega
  | succ budget ih =>
      have inner := ih (depth + 1) (by omega)
      have whole := Exact.bind readerHead_accepts
        (fun head => skipBody_accepts inner head.1 head.2)
      rw [← Get.parser_andThen, ← readerSkip_succ] at whole
      exact whole.congr fun _ word => head_body_iff (by omega) word

theorem skip_accepts : Accepts skip fun _ word => Strict 0 word := readerSkip_accepts _ 0 rfl

end P4Key.Cbor
