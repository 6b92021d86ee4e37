import Wlcs.Lib.Memory

/-!
# `zwp_linux_dmabuf_feedback_v1`

The listener of `LinuxDmabufFeedbackV1` hands every event on to a mock method, three of them after decoding an array. The
protocol sends a device as the bytes of a `dev_t` and the formats of a tranche as 16-bit indices.

* `devnum`, `formats` : how the listener decodes the two kinds of array, with its loads;
* `receive` : the mock call that follows an event;
* `dmabuf_feedback_decodes_iff` : the arrays on which the calls say what the protocol says.
-/

namespace Wlcs.Dmabuf
open Memory

/-- `sizeof(dev_t)` -/
def devSize : Nat := 8

inductive FeedbackEvent
  | done
  | formatTable (fd : Int) (size : Nat)
  | mainDevice (device : Block)
  | trancheDone
  | trancheTargetDevice (device : Block)
  | trancheFormats (indices : Block)
  | trancheFlags (flags : Nat)

/-- The mock methods of `LinuxDmabufFeedbackV1`. -/
inductive MockCall
  | done
  | formatTable (fd : Int) (size : Nat)
  | mainDevice (devnum : Nat)
  | trancheDone
  | trancheTargetDevice (devnum : Nat)
  | trancheFormats (indices : List Nat)
  | trancheFlags (flags : Nat)
deriving DecidableEq, Repr

/-- `device->size == 1 ? *static_cast<dev_t*>(device->data) : 0` -/
def devnum (device : Block) : Nat × List Access :=
  if device.size = 1 then (device.load devSize 0, [⟨0, devSize⟩]) else (0, [])

/-- `std::vector<uint32_t>(i, i + indices->size/sizeof(uint32_t))` -/
def formats (indices : Block) : List Nat × List Access :=
  (indices.items 4 (indices.size / 4), Block.itemReads 4 (indices.size / 4))

/-- The listener. -/
def receive : FeedbackEvent → MockCall × List Access
  | .done => (.done, [])
  | .formatTable fd size => (.formatTable fd size, [])
  | .mainDevice device => (.mainDevice (devnum device).1, (devnum device).2)
  | .trancheDone => (.trancheDone, [])
  | .trancheTargetDevice device => (.trancheTargetDevice (devnum device).1, (devnum device).2)
  | .trancheFormats indices => (.trancheFormats (formats indices).1, (formats indices).2)
  | .trancheFlags flags => (.trancheFlags flags, [])

/-! ## The encoding of the protocol -/

def deviceArray (device : UInt64) (beyond : Nat → UInt8) : Block := ⟨toBytes devSize device.toNat, beyond⟩

/-- "Each index is a 16-bit unsigned integer in native endianness." -/
def indexArray (indices : List UInt16) (beyond : Nat → UInt8) : Block :=
  Block.ofItems 2 (indices.map UInt16.toNat) beyond

theorem size_deviceArray (device : UInt64) (beyond : Nat → UInt8) : (deviceArray device beyond).size = 8 :=
  length_toBytes devSize device.toNat

theorem size_indexArray (indices : List UInt16) (beyond : Nat → UInt8) :
    (indexArray indices beyond).size = 2 * indices.length := by
  rw [indexArray, Block.size_ofItems, List.length_map]

/-! ## What the listener makes of it -/

theorem devnum_of_size_ne {device : Block} (h : device.size ≠ 1) : devnum device = (0, []) := if_neg h

theorem devnum_deviceArray (device : UInt64) (beyond : Nat → UInt8) : devnum (deviceArray device beyond) = (0, []) := by
  apply devnum_of_size_ne
  rw [size_deviceArray]
  decide

/-- The one size for which the listener looks at a device is too small for it. -/
theorem inside_devnum_iff (device : Block) : device.Inside (devnum device).2 ↔ device.size ≠ 1 := by
  by_cases h : device.size = 1
  · rw [devnum, if_pos h]
    refine iff_of_false (fun hinside => ?_) (fun hne => hne h)
    have hlast := hinside ⟨0, devSize⟩ List.mem_cons_self 1 (by decide)
    rw [h] at hlast
    exact absurd hlast (by decide)
  · rw [devnum_of_size_ne h]
    exact iff_of_true (fun _ hread => nomatch hread) h

theorem inside_formats (indices : Block) : indices.Inside (formats indices).2 := by
  apply (Block.inside_itemReads_iff indices (by decide) _).mpr
  omega

/-- Two indices are read as one number, so that only an empty list keeps its length. -/
theorem formats_indexArray_iff (indices : List UInt16) (beyond : Nat → UInt8) :
    (formats (indexArray indices beyond)).1 = indices.map UInt16.toNat ↔ indices = [] := by
  constructor
  · intro h
    have hlength := congrArg List.length h
    rw [formats, Block.length_items, size_indexArray, List.length_map] at hlength
    apply List.length_eq_zero_iff.mp
    omega
  · intro h
    rw [formats, size_indexArray, h]
    rfl

/-- A device is reported as it was sent exactly if its number is 0, the indices of a tranche exactly if there are none,
and the loads stay inside the array unless a device is sent as one byte. -/
theorem dmabuf_feedback_decodes_iff (device : UInt64) (indices : List UInt16) (array : Block) (beyond : Nat → UInt8) :
    (((receive (.mainDevice (deviceArray device beyond))).1 = .mainDevice device.toNat ↔ device = 0) ∧
      ((receive (.trancheTargetDevice (deviceArray device beyond))).1 = .trancheTargetDevice device.toNat ↔
        device = 0)) ∧
    ((receive (.trancheFormats (indexArray indices beyond))).1 = .trancheFormats (indices.map UInt16.toNat) ↔
      indices = []) ∧
    ((array.Inside (receive (.mainDevice array)).2 ↔ array.size ≠ 1) ∧
      (array.Inside (receive (.trancheTargetDevice array)).2 ↔ array.size ≠ 1) ∧
      array.Inside (receive (.trancheFormats array)).2) := by
  have hzero : 0 = device.toNat ↔ device = 0 := by
    rw [← UInt64.toNat_inj, eq_comm]
    rfl
  refine ⟨?_, ?_, inside_devnum_iff array, inside_devnum_iff array, inside_formats array⟩
  · simp only [receive, devnum_deviceArray, MockCall.mainDevice.injEq, MockCall.trancheTargetDevice.injEq]
    exact ⟨hzero, hzero⟩
  · rw [receive, MockCall.trancheFormats.injEq]
    exact formats_indexArray_iff indices beyond

/-- The device 226:128, the formats 1 and 2, and a device of one byte. -/
theorem dmabuf_feedback_wrong :
    (receive (.mainDevice (deviceArray 57984 fun _ => 0))).1 = .mainDevice 0 ∧
    (receive (.trancheTargetDevice (deviceArray 57984 fun _ => 0))).1 = .trancheTargetDevice 0 ∧
    (receive (.trancheFormats (indexArray [1, 2] fun _ => 0))).1 = .trancheFormats [131073] ∧
    (receive (.trancheFormats (indexArray [1] fun _ => 0))).1 = .trancheFormats [] ∧
    ¬ (Block.mk [0] fun _ => 0).Inside (receive (.mainDevice ⟨[0], fun _ => 0⟩)).2 ∧
    ¬ (Block.mk [0] fun _ => 0).Inside (receive (.trancheTargetDevice ⟨[0], fun _ => 0⟩)).2 := by
  decide

end Wlcs.Dmabuf
