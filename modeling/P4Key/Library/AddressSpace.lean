import P4Key.Library.Memory

/-! One address space with all the buffers of a call in it.

Buffers are ranges of addresses and may share bytes. A write changes its own
range, so a program that writes to one buffer leaves another alone exactly where
the two do not meet. -/

namespace AddressSpace

open Memory

abbrev Space : Type := Nat → UInt8

structure Range where
  first : Nat
  len : Nat
  deriving DecidableEq, Repr

def Range.Contains (range : Range) (address : Nat) : Prop :=
  range.first ≤ address ∧ address < range.first + range.len

def Range.Meets (left right : Range) : Prop :=
  ∃ address, left.Contains address ∧ right.Contains address

theorem Range.meets_iff (left right : Range) :
    left.Meets right ↔ 0 < left.len ∧ 0 < right.len ∧
      left.first < right.first + right.len ∧ right.first < left.first + left.len := by
  constructor
  · rintro ⟨address, ⟨low, high⟩, low', high'⟩
    omega
  · intro ⟨nonempty, nonempty', before, after⟩
    refine ⟨max left.first right.first, ⟨le_max_left _ _, ?_⟩, le_max_right _ _, ?_⟩ <;> omega

instance (range : Range) (address : Nat) : Decidable (range.Contains address) :=
  inferInstanceAs (Decidable (_ ∧ _))

instance (left right : Range) : Decidable (left.Meets right) :=
  decidable_of_iff _ (Range.meets_iff left right).symm

def read (space : Space) (range : Range) : List UInt8 :=
  (List.range range.len).map fun i => space (range.first + i)

def write (space : Space) (first : Nat) (bytes : List UInt8) : Space := fun address =>
  if first ≤ address ∧ address < first + bytes.length then bytes.getD (address - first) 0
  else space address

def clear (space : Space) (range : Range) : Space := write space range.first (zeros range.len)

@[simp] theorem length_read (space : Space) (range : Range) :
    (read space range).length = range.len := by
  simp [read]

theorem write_outside {space : Space} {first address : Nat} {bytes : List UInt8}
    (outside : ¬ Range.Contains ⟨first, bytes.length⟩ address) :
    write space first bytes address = space address := if_neg outside

@[simp] theorem write_nil (space : Space) (first : Nat) : write space first [] = space := by
  funext address
  exact if_neg (by simp)

theorem read_congr {space other : Space} {range : Range}
    (same : ∀ address, range.Contains address → space address = other address) :
    read space range = read other range := by
  apply List.map_congr_left
  intro i member
  have inside : i < range.len := List.mem_range.mp member
  exact same _ ⟨Nat.le_add_right _ _, Nat.add_lt_add_left inside _⟩

theorem read_write (space : Space) (first : Nat) (bytes : List UInt8) :
    read (write space first bytes) ⟨first, bytes.length⟩ = bytes := by
  apply List.ext_getElem
  · simp
  · intro i left right
    have inside : first ≤ first + i ∧ first + i < first + bytes.length := by omega
    simp only [read, List.getElem_map, List.getElem_range, write, if_pos inside,
      Nat.add_sub_cancel_left, List.getD_eq_getElem?_getD, List.getElem?_eq_getElem right,
      Option.getD_some]

theorem read_append (space : Space) (first len more : Nat) :
    read space ⟨first, len⟩ ++ read space ⟨first + len, more⟩ = read space ⟨first, len + more⟩ := by
  simp only [read, List.range_add, List.map_append, List.map_map]
  congr 1
  refine List.map_congr_left fun i _ => ?_
  rw [Function.comp_apply, Nat.add_assoc]

theorem read_write_part (space : Space) (first : Nat) {bytes before field after : List UInt8}
    (split : bytes = before ++ (field ++ after)) {offset len : Nat} (here : offset = before.length)
    (size : len = field.length) : read (write space first bytes) ⟨first + offset, len⟩ = field := by
  have whole := read_write space first bytes
  have parts : read (write space first bytes) ⟨first, before.length⟩ ++
      (read (write space first bytes) ⟨first + before.length, field.length⟩ ++
        read (write space first bytes) ⟨first + before.length + field.length, after.length⟩) =
      before ++ (field ++ after) := by
    rw [split, List.length_append, List.length_append] at whole
    rw [read_append, read_append, split]
    exact whole
  have second := (List.append_inj parts (length_read _ _)).2
  rw [here, size]
  exact (List.append_inj second (length_read _ _)).1

theorem read_write_front (space : Space) (first : Nat) {bytes : List UInt8} {len : Nat}
    (inside : bytes.length ≤ len) :
    (read (write space first bytes) ⟨first, len⟩).take bytes.length = bytes := by
  obtain ⟨more, rfl⟩ := Nat.exists_eq_add_of_le inside
  rw [← read_append, read_write, List.take_left]

/-- Only addresses of these ranges change. -/
def Keeps (ranges : List Range) (before after : Space) : Prop :=
  ∀ address, (∀ range ∈ ranges, ¬ range.Contains address) → after address = before address

theorem Keeps.refl (ranges : List Range) (space : Space) : Keeps ranges space space :=
  fun _ _ => rfl

theorem Keeps.trans {ranges : List Range} {first second third : Space}
    (left : Keeps ranges first second) (right : Keeps ranges second third) :
    Keeps ranges first third := by
  intro address outside
  rw [right address outside, left address outside]

theorem Keeps.mono {ranges more : List Range} {before after : Space}
    (keeps : Keeps ranges before after) (sub : ranges ⊆ more) : Keeps more before after := by
  intro address outside
  exact keeps address fun range listed => outside range (sub listed)

theorem keeps_write {ranges : List Range} (space : Space) {range : Range} {bytes : List UInt8}
    (listed : range ∈ ranges) (short : bytes.length ≤ range.len) :
    Keeps ranges space (write space range.first bytes) := by
  intro address outside
  apply write_outside
  intro ⟨low, high⟩
  exact outside range listed ⟨low, Nat.lt_of_lt_of_le high (Nat.add_le_add_left short _)⟩

theorem keeps_clear {ranges : List Range} (space : Space) {range : Range} (listed : range ∈ ranges) :
    Keeps ranges space (clear space range) :=
  keeps_write space listed (Nat.le_of_eq (length_zeros _))

theorem Keeps.read {ranges : List Range} {before after : Space} (keeps : Keeps ranges before after)
    {range : Range} (apart : ∀ other ∈ ranges, ¬ range.Meets other) :
    AddressSpace.read after range = AddressSpace.read before range := by
  apply read_congr
  intro address inside
  apply keeps
  intro other listed there
  exact apart other listed ⟨address, inside, there⟩

theorem read_write_apart (space : Space) (first : Nat) (bytes : List UInt8) (range : Range)
    (apart : range.first + range.len ≤ first ∨ first + bytes.length ≤ range.first) :
    read (write space first bytes) range = read space range := by
  apply read_congr
  rintro address ⟨low, high⟩
  apply write_outside
  rintro ⟨low', high'⟩
  dsimp only at low' high'
  omega

def Blank (space : Space) (range : Range) : Prop :=
  ∀ address, range.Contains address → space address = 0

theorem Blank.read {space : Space} {range : Range} (blank : Blank space range) :
    AddressSpace.read space range = zeros range.len := by
  apply List.eq_replicate_iff.mpr
  refine ⟨length_read space range, ?_⟩
  intro byte member
  obtain ⟨i, inside, rfl⟩ := List.mem_map.mp member
  exact blank _ ⟨Nat.le_add_right _ _, Nat.add_lt_add_left (List.mem_range.mp inside) _⟩

theorem clear_inside {space : Space} {range : Range} {address : Nat}
    (inside : range.Contains address) : clear space range address = 0 := by
  have here : range.first ≤ address ∧ address < range.first + (zeros range.len).length := by
    rw [length_zeros]
    exact inside
  rw [clear, write, if_pos here, zeros, List.getD_eq_getElem?_getD, List.getElem?_replicate]
  split <;> rfl

theorem blank_clear (space : Space) (range : Range) : Blank (clear space range) range :=
  fun _ inside => clear_inside inside

/-- Clearing another range, which may share bytes with it, leaves it blank. -/
theorem Blank.clear {space : Space} {range : Range} (blank : Blank space range) (other : Range) :
    Blank (AddressSpace.clear space other) range := by
  intro address inside
  by_cases there : other.Contains address
  · exact clear_inside there
  · have apart : ¬ Range.Contains ⟨other.first, (zeros other.len).length⟩ address := by
      rw [length_zeros]
      exact there
    rw [AddressSpace.clear, write_outside apart]
    exact blank address inside

/-- Some range that is written meets another such range or a range that is read. -/
def Aliased (writes reads : List Range) : Prop :=
  ¬ writes.Pairwise (fun left right => ¬ left.Meets right) ∨
    ∃ left ∈ writes, ∃ right ∈ reads, left.Meets right

instance (writes reads : List Range) : Decidable (Aliased writes reads) :=
  inferInstanceAs (Decidable (_ ∨ _))

end AddressSpace
