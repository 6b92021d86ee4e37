import Mathlib.Algebra.Group.Int.Defs
import Mathlib.Algebra.GroupWithZero.Nat
import Mathlib.Data.Int.Order.Basic

/-!
# The size of a `ShmBuffer`

The constructor computes the size of a buffer as a product of `int`s, makes an anonymous file of that size, maps it, and
hands it to the compositor as a pool. The size goes through `int`, `size_t` and `off_t` on the way.

* `Os` : the system calls that the constructor makes;
* `createAnonymousFile`, `construct` : the code, with every way in which it fails;
* `Sized` : the buffer has room for all its pixels, everywhere that its size is used;
* `shm_buffer_sized_iff` : it has if the size is an `int`.
-/

namespace Wlcs.Shm

/-! ## System calls -/

def EINVAL : Int := 22
def ENOSYS : Int := 38
def EISDIR : Int := 21
def ENOENT : Int := 2
def EOPNOTSUPP : Int := 95

/-- What the system calls of the constructor return: a descriptor, or the `errno` of the failure. A file cannot have a
negative size, and a mapping cannot be empty. -/
structure Os where
  /-- `memfd_create`, with or without `MFD_NOEXEC_SEAL` -/
  memfdCreate : Bool → Except Int Nat
  openTmpfile : Except Int Nat
  mkostemp : Except Int Nat
  unlink : Except Int Unit
  ftruncate : Int → Except Int Unit
  mmap : Nat → Except Int Unit
  ftruncate_neg : ∀ size < 0, ftruncate size = .error EINVAL
  mmap_zero : mmap 0 = .error EINVAL

/-- A `system_error` -/
structure SystemError where
  code : Int
  what : String
deriving DecidableEq, Repr

def errorIndicatesTmpfileNotSupported (error : Int) : Bool :=
  error = EISDIR || error = ENOENT || error = EOPNOTSUPP || error = EINVAL

/-- `mkostemp`, and `unlink` of the file it made. -/
def makeUnlinked (os : Os) : Except Int Nat :=
  match os.mkostemp with
  | .ok fd =>
    match os.unlink with
    | .ok () => .ok fd
    | .error error => .error error
  | .error error => .error error

/-- The descriptor of `create_anonymous_file`: each way to make the file is tried if the one before is not there. -/
def openAnonymousFile (os : Os) : Except Int Nat :=
  let sealed := os.memfdCreate true
  let fd :=
    match sealed with
    | .error error => if error = EINVAL then os.memfdCreate false else sealed
    | .ok _ => sealed
  match fd with
  | .error error =>
    if error = ENOSYS then
      match os.openTmpfile with
      | .error error => if errorIndicatesTmpfileNotSupported error then makeUnlinked os else .error error
      | .ok fd => .ok fd
    else
      fd
  | .ok _ => fd

/-! ## The constructor -/

/-- Conversion of an `int` to `size_t` -/
def sizeT (n : Int32) : Nat := (n.toInt % 2 ^ 64).toNat

/-- Conversion of a `size_t` to `off_t` -/
def offT (n : Nat) : Int := (n : Int).bmod (2 ^ 64)

/-- The descriptor and the size of the file. -/
def createAnonymousFile (os : Os) (size : Nat) : Except SystemError (Nat × Int) :=
  match openAnonymousFile os with
  | .error error => .error ⟨error, "Failed to open temporary file"⟩
  | .ok fd =>
    match os.ftruncate (offT size) with
    | .error error => .error ⟨error, "Failed to resize temporary file"⟩
    | .ok () => .ok (fd, offT size)

/-- A buffer that has been made: `size`, the length of the mapping and of the file behind it, and the arguments of
`wl_shm_create_pool` and `wl_shm_pool_create_buffer`. -/
structure ShmBuffer where
  size : Int32
  mappedLength : Nat
  fileSize : Int
  poolSize : Int32
  width : Int32
  height : Int32
  stride : Int32
deriving DecidableEq, Repr

/-- The products are those of 32-bit `int`s, which wrap around. -/
def construct (os : Os) (width height : Int32) : Except SystemError ShmBuffer :=
  let stride := width * 4
  let size := stride * height
  match createAnonymousFile os (sizeT size) with
  | .error error => .error error
  | .ok (_, fileSize) =>
    match os.mmap (sizeT size) with
    | .error error => .error ⟨error, "Failed to map buffer"⟩
    | .ok () => .ok ⟨size, sizeT size, fileSize, size, width, height, stride⟩

/-- `data().size()` -/
def ShmBuffer.dataSize (buffer : ShmBuffer) : Nat := sizeT buffer.size

/-! ## Sizes -/

/-- The number is an `int`. -/
def InInt (n : Int) : Prop := -2 ^ 31 ≤ n ∧ n < 2 ^ 31

/-- Neither product overflows, every size is that of the pixels, and each byte of a pixel lies in the pool. -/
structure Sized (width height : Int32) (buffer : ShmBuffer) : Prop where
  stride : InInt (width.toInt * 4)
  size : InInt (buffer.stride.toInt * height.toInt)
  data : (buffer.dataSize : Int) = 4 * width.toInt * height.toInt
  mapped : (buffer.mappedLength : Int) = 4 * width.toInt * height.toInt
  file : buffer.fileSize = 4 * width.toInt * height.toInt
  pool : buffer.poolSize.toInt = 4 * width.toInt * height.toInt
  pixels : ∀ x y i : Int, 0 ≤ x → x < width.toInt → 0 ≤ y → y < height.toInt → 0 ≤ i → i < 4 →
    0 ≤ buffer.stride.toInt * y + 4 * x + i ∧ buffer.stride.toInt * y + 4 * x + i < buffer.poolSize.toInt

theorem toInt_mul_of_inInt {a b : Int32} (h : InInt (a.toInt * b.toInt)) : (a * b).toInt = a.toInt * b.toInt := by
  rw [Int32.toInt_mul]
  apply Int.bmod_eq_of_le
  · exact h.1
  · exact h.2

theorem sizeT_of_nonneg {n : Int32} (h : 0 ≤ n.toInt) : (sizeT n : Int) = n.toInt := by
  have := n.toInt_lt
  unfold sizeT
  omega

/-- The size survives the way through `size_t`, whatever its sign. -/
theorem offT_sizeT (n : Int32) : offT (sizeT n) = n.toInt := by
  have hlt := n.toInt_lt
  have hle := n.le_toInt
  unfold offT sizeT
  rw [Int.bmod_def]
  omega

theorem createAnonymousFile_eq_ok_iff {os : Os} {size fd : Nat} {fileSize : Int} :
    createAnonymousFile os size = .ok (fd, fileSize) ↔
      openAnonymousFile os = .ok fd ∧ os.ftruncate (offT size) = .ok () ∧ offT size = fileSize := by
  unfold createAnonymousFile
  cases openAnonymousFile os with
  | error error => simp
  | ok opened => cases os.ftruncate (offT size) <;> simp

/-- The constructor completes if every call succeeds, and then the size is used as it is. -/
theorem construct_eq_ok_iff {os : Os} {width height : Int32} {buffer : ShmBuffer} :
    construct os width height = .ok buffer ↔
      (∃ fd, openAnonymousFile os = .ok fd) ∧ os.ftruncate (width * 4 * height).toInt = .ok () ∧
        os.mmap (sizeT (width * 4 * height)) = .ok () ∧
        ⟨width * 4 * height, sizeT (width * 4 * height), (width * 4 * height).toInt, width * 4 * height, width, height,
          width * 4⟩ = buffer := by
  have hfile := @createAnonymousFile_eq_ok_iff os (sizeT (width * 4 * height))
  rw [offT_sizeT] at hfile
  unfold construct
  cases h : createAnonymousFile os (sizeT (width * 4 * height)) with
  | error error =>
      simp only [h, reduceCtorEq, false_iff]
      rintro ⟨⟨fd, hopen⟩, htruncate, -, -⟩
      rw [hfile.mpr ⟨hopen, htruncate, rfl⟩] at h
      cases h
  | ok file =>
      obtain ⟨hopen, htruncate, hsize⟩ := hfile.mp h
      cases hmap : os.mmap (sizeT (width * 4 * height)) with
      | error error => simp only [h, hmap, reduceCtorEq, false_and, and_false]
      | ok _ => simp only [h, hmap, hopen, htruncate, ← hsize, Except.ok.injEq, exists_eq', true_and]

/-- Calls with a size that is not positive fail. -/
theorem size_pos_of_calls {os : Os} {size : Int32} (htruncate : os.ftruncate size.toInt = .ok ())
    (hmap : os.mmap (sizeT size) = .ok ()) : 0 < size.toInt := by
  have hneg : ¬ size.toInt < 0 := by
    intro hneg
    rw [os.ftruncate_neg _ hneg] at htruncate
    cases htruncate
  have hzero : size.toInt ≠ 0 := by
    intro hzero
    have hempty : sizeT size = 0 := by
      rw [sizeT, hzero]
      rfl
    rw [hempty, os.mmap_zero] at hmap
    cases hmap
  omega

/-- The buffer has room for its pixels exactly if their number of bytes is an `int`. -/
theorem shm_buffer_sized_iff (os : Os) (width height : Int32) (hwidth : 0 < width) (hheight : 0 < height)
    (buffer : ShmBuffer) (h : construct os width height = .ok buffer) :
    Sized width height buffer ↔ 4 * width.toInt * height.toInt < 2 ^ 31 := by
  have hw : 0 < width.toInt := Int32.lt_iff_toInt_lt.mp hwidth
  have hh : 0 < height.toInt := Int32.lt_iff_toInt_lt.mp hheight
  obtain ⟨-, htruncate, hmap, hbuffer⟩ := construct_eq_ok_iff.mp h
  have hpos := size_pos_of_calls htruncate hmap
  subst hbuffer
  constructor
  · intro hsized
    have hpool : (width * 4 * height).toInt = 4 * width.toInt * height.toInt := hsized.pool
    rw [← hpool]
    exact (width * 4 * height).toInt_lt
  · intro hlt
    have hproduct : 4 * width.toInt * height.toInt = width.toInt * 4 * height.toInt := by rw [Int.mul_comm 4]
    have hle : width.toInt * 4 ≤ width.toInt * 4 * height.toInt := by
      have := Int.mul_le_mul_of_nonneg_left (show 1 ≤ height.toInt by omega) (show 0 ≤ width.toInt * 4 by omega)
      rwa [Int.mul_one] at this
    have hstride : InInt (width.toInt * 4) := ⟨by omega, by omega⟩
    have hstrideEq : (width * 4).toInt = width.toInt * 4 :=
      toInt_mul_of_inInt (show InInt (width.toInt * (4 : Int32).toInt) from hstride)
    have hsize : InInt ((width * 4).toInt * height.toInt) := by
      rw [hstrideEq]
      exact ⟨by omega, by omega⟩
    have hsizeEq : (width * 4 * height).toInt = 4 * width.toInt * height.toInt := by
      rw [toInt_mul_of_inInt hsize, hstrideEq, hproduct]
    have hsizeT : (sizeT (width * 4 * height) : Int) = 4 * width.toInt * height.toInt := by
      rw [sizeT_of_nonneg (by omega), hsizeEq]
    refine ⟨hstride, hsize, hsizeT, hsizeT, hsizeEq, hsizeEq, ?_⟩
    intro x y i hx hxw hy hyh hi hi4
    show 0 ≤ (width * 4).toInt * y + 4 * x + i ∧ (width * 4).toInt * y + 4 * x + i < (width * 4 * height).toInt
    rw [hstrideEq, hsizeEq, hproduct]
    -- a row below ends before the last row does
    have hrows : width.toInt * 4 * (y + 1) ≤ width.toInt * 4 * height.toInt :=
      Int.mul_le_mul_of_nonneg_left (by omega) (by omega)
    have hrow : 0 ≤ width.toInt * 4 * y := Int.mul_nonneg (by omega) hy
    rw [Int.mul_add, Int.mul_one] at hrows
    exact ⟨by omega, by omega⟩

/-- A system with memory file descriptors on which only senseless sizes fail. -/
def memfdOs : Os where
  memfdCreate _ := .ok 3
  openTmpfile := .error ENOENT
  mkostemp := .error ENOENT
  unlink := .error ENOENT
  ftruncate size := if size < 0 then .error EINVAL else .ok ()
  mmap size := if size = 0 then .error EINVAL else .ok ()
  ftruncate_neg _ h := if_pos h
  mmap_zero := rfl

theorem construct_memfdOs {width height size : Int32} (hsize : width * 4 * height = size) (h : 0 < size.toInt) :
    construct memfdOs width height = .ok ⟨size, sizeT size, size.toInt, size, width, height, width * 4⟩ := by
  have hmapped : sizeT size ≠ 0 := by
    have := sizeT_of_nonneg (show 0 ≤ size.toInt by omega)
    omega
  have hfile : ¬ size.toInt < 0 := by omega
  subst hsize
  exact construct_eq_ok_iff.mpr ⟨⟨3, rfl⟩, if_neg hfile, if_neg hmapped, rfl⟩

theorem shm_buffer_sized_iff_640x480 :
    construct memfdOs 640 480 = .ok ⟨1228800, sizeT 1228800, 1228800, 1228800, 640, 480, 640 * 4⟩ ∧
      Sized 640 480 ⟨1228800, sizeT 1228800, 1228800, 1228800, 640, 480, 640 * 4⟩ :=
  have h := construct_memfdOs (show (640 : Int32) * 4 * 480 = 1228800 by decide) (by decide)
  ⟨h, (shm_buffer_sized_iff memfdOs 640 480 (by decide) (by decide) _ h).mpr (by decide)⟩

/-- A buffer of 4 GiB and 128 KiB gets a pool of 128 KiB. -/
theorem shm_buffer_wraps :
    construct memfdOs 32768 32769 = .ok ⟨131072, sizeT 131072, 131072, 131072, 32768, 32769, 32768 * 4⟩ ∧
      ¬ Sized 32768 32769 ⟨131072, sizeT 131072, 131072, 131072, 32768, 32769, 32768 * 4⟩ := by
  have h := construct_memfdOs (show (32768 : Int32) * 4 * 32769 = 131072 by decide) (by decide)
  refine ⟨h, fun hsized => ?_⟩
  exact absurd hsized.pool (by decide)

end Wlcs.Shm
