import Mathlib.Algebra.GroupWithZero.Nat
import Mathlib.Data.List.Induction

/-!
# Bytes in memory

* `toBytes`, `ofBytes` : a number and the bytes of an object that holds it, the least significant first;
* `readAt`, `writeAt` : copies out of and into a buffer, `none` for one that leaves it;
* `Block`, `Block.load` : an allocation and loads from it, which may go beyond its end (`Block.Inside`);
* `Block.ofItems`, `Block.items` : an array of equally wide items, and what loads at that stride give.
-/

namespace Memory

/-! ## Numbers -/

def toBytes : Nat → Nat → List UInt8
  | 0, _ => []
  | width + 1, n => UInt8.ofNat n :: toBytes width (n / 2 ^ 8)

def ofBytes : List UInt8 → Nat
  | [] => 0
  | byte :: bytes => byte.toNat + 2 ^ 8 * ofBytes bytes

@[simp] theorem length_toBytes (width n : Nat) : (toBytes width n).length = width := by
  induction width generalizing n with
  | zero => rfl
  | succ width ih => rw [toBytes, List.length_cons, ih]

/-- What does not fit is cut off. -/
theorem ofBytes_toBytes_mod (width n : Nat) : ofBytes (toBytes width n) = n % 2 ^ (8 * width) := by
  induction width generalizing n with
  | zero => rw [toBytes, ofBytes, Nat.mul_zero, Nat.pow_zero, Nat.mod_one]
  | succ width ih =>
      rw [toBytes, ofBytes, ih, UInt8.toNat_ofNat', Nat.mul_succ, Nat.add_comm (8 * width), Nat.pow_add, Nat.mod_mul]

theorem ofBytes_toBytes {width n : Nat} (h : n < 2 ^ (8 * width)) : ofBytes (toBytes width n) = n := by
  rw [ofBytes_toBytes_mod, Nat.mod_eq_of_lt h]

/-! ## Buffers -/

section Buffers
variable {α : Type*}

/-- `memcpy` out of a buffer. -/
def readAt (buffer : List α) (offset size : Nat) : Option (List α) :=
  if offset + size ≤ buffer.length then some ((buffer.drop offset).take size) else none

/-- `memcpy` into a buffer. -/
def writeAt (buffer : List α) (offset : Nat) (source : List α) : Option (List α) :=
  if offset + source.length ≤ buffer.length then
    some (buffer.take offset ++ source ++ buffer.drop (offset + source.length))
  else
    none

theorem readAt_append (before source after : List α) :
    readAt (before ++ source ++ after) before.length source.length = some source := by
  have hfits : before.length + source.length ≤ (before ++ source ++ after).length := by
    rw [List.length_append, List.length_append]
    omega
  rw [readAt, if_pos hfits, List.append_assoc, List.drop_left, List.take_left]

theorem writeAt_append (before : List α) {source rest : List α} (h : source.length ≤ rest.length) :
    writeAt (before ++ rest) before.length source = some (before ++ source ++ rest.drop source.length) := by
  have hfits : before.length + source.length ≤ (before ++ rest).length := by
    rw [List.length_append]
    omega
  rw [writeAt, if_pos hfits, List.take_left, List.drop_append, List.drop_eq_nil_of_le (by omega), List.nil_append,
    Nat.add_sub_cancel_left]

end Buffers

/-! ## Blocks -/

/-- An allocation, with what memory holds from its end on. -/
structure Block where
  bytes : List UInt8
  beyond : Nat → UInt8

/-- A load of `width` bytes, the first of them at `offset`. -/
structure Access where
  offset : Nat
  width : Nat
deriving DecidableEq, Repr

namespace Block

def size (block : Block) : Nat := block.bytes.length

def byteAt (block : Block) (offset : Nat) : UInt8 :=
  block.bytes[offset]?.getD (block.beyond (offset - block.size))

def load (block : Block) (width offset : Nat) : Nat :=
  ofBytes ((List.range width).map fun i => block.byteAt (offset + i))

/-- Every byte that the loads read belongs to the block. -/
def Inside (block : Block) (reads : List Access) : Prop :=
  ∀ read ∈ reads, ∀ i < read.width, read.offset + i < block.size

instance (block : Block) (reads : List Access) : Decidable (block.Inside reads) :=
  inferInstanceAs (Decidable (∀ read ∈ reads, ∀ i < read.width, read.offset + i < block.size))

/-- The numbers at the first `count` places of an array whose items are `width` bytes wide. -/
def items (block : Block) (width count : Nat) : List Nat :=
  (List.range count).map fun k => block.load width (width * k)

/-- The loads of `items`. -/
def itemReads (width count : Nat) : List Access :=
  (List.range count).map fun k => ⟨width * k, width⟩

/-- The array of these numbers. -/
def ofItems (width : Nat) (numbers : List Nat) (beyond : Nat → UInt8) : Block where
  bytes := numbers.flatMap (toBytes width)
  beyond := beyond

theorem length_flatMap_toBytes (width : Nat) (numbers : List Nat) :
    (numbers.flatMap (toBytes width)).length = width * numbers.length := by
  induction numbers with
  | nil => rfl
  | cons n numbers ih =>
      rw [List.flatMap_cons, List.length_append, length_toBytes, ih, List.length_cons, Nat.mul_succ, Nat.add_comm]

@[simp] theorem size_ofItems (width : Nat) (numbers : List Nat) (beyond : Nat → UInt8) :
    (ofItems width numbers beyond).size = width * numbers.length := length_flatMap_toBytes width numbers

@[simp] theorem length_items (block : Block) (width count : Nat) : (block.items width count).length = count := by
  rw [items, List.length_map, List.length_range]

theorem load_middle (before source after : List UInt8) (beyond : Nat → UInt8) :
    (Block.mk (before ++ source ++ after) beyond).load source.length before.length = ofBytes source := by
  unfold load
  congr 1
  apply List.ext_getElem
  · rw [List.length_map, List.length_range]
  · intro i _ hi
    have hget : (before ++ source ++ after)[before.length + i]? = some (source.get ⟨i, hi⟩) := by
      rw [List.append_assoc, List.getElem?_append_right (Nat.le_add_right _ _), Nat.add_sub_cancel_left,
        List.getElem?_append_left hi]
      exact List.getElem?_eq_getElem hi
    rw [List.getElem_map, List.getElem_range, byteAt, hget]
    rfl

/-- Loads at the stride of the array give back its items. -/
theorem items_ofItems {width : Nat} {numbers : List Nat} (beyond : Nat → UInt8)
    (h : ∀ n ∈ numbers, n < 2 ^ (8 * width)) : (ofItems width numbers beyond).items width numbers.length = numbers := by
  apply List.ext_getElem
  · rw [length_items]
  · intro k _ hk
    have hload := load_middle ((numbers.take k).flatMap (toBytes width)) (toBytes width (numbers.get ⟨k, hk⟩))
      ((numbers.drop (k + 1)).flatMap (toBytes width)) beyond
    have hsplit : numbers.take k ++ [numbers.get ⟨k, hk⟩] ++ numbers.drop (k + 1) = numbers := by
      rw [List.append_assoc, List.singleton_append, List.get_eq_getElem, ← List.drop_eq_getElem_cons hk,
        List.take_append_drop]
    have hbytes : (numbers.take k).flatMap (toBytes width) ++ toBytes width (numbers.get ⟨k, hk⟩) ++
        (numbers.drop (k + 1)).flatMap (toBytes width) = numbers.flatMap (toBytes width) := by
      conv_rhs => rw [← hsplit, List.flatMap_append, List.flatMap_append, List.flatMap_singleton]
    rw [length_flatMap_toBytes, List.length_take, Nat.min_eq_left (Nat.le_of_lt hk), length_toBytes, hbytes,
      ofBytes_toBytes (h _ (List.get_mem numbers ⟨k, hk⟩))] at hload
    simp only [items, List.getElem_map, List.getElem_range]
    exact hload

/-- As many items as fit are read without leaving the block; one more is not. -/
theorem inside_itemReads_iff (block : Block) {width : Nat} (h : 0 < width) (count : Nat) :
    block.Inside (itemReads width count) ↔ width * count ≤ block.size := by
  constructor
  · intro hinside
    rcases Nat.eq_zero_or_pos count with rfl | hcount
    · omega
    · have hmem : (⟨width * (count - 1), width⟩ : Access) ∈ itemReads width count :=
        List.mem_map.mpr ⟨count - 1, List.mem_range.mpr (by omega), rfl⟩
      have hlast := hinside _ hmem (width - 1) (by show width - 1 < width; omega)
      have hsucc : width * count = width * (count - 1) + width := by
        rw [← Nat.mul_succ]
        congr 1
        omega
      have hlast' : width * (count - 1) + (width - 1) < block.size := hlast
      omega
  · intro hle read hread i hi
    obtain ⟨k, hk, rfl⟩ := List.mem_map.mp hread
    have hsucc : width * (k + 1) ≤ width * count := Nat.mul_le_mul_left width (List.mem_range.mp hk)
    have hi' : i < width := hi
    rw [Nat.mul_succ] at hsucc
    show width * k + i < block.size
    omega

end Block

end Memory
