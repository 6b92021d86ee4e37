import Mathlib.Algebra.Order.Group.Int
import Mathlib.Algebra.Order.Group.MinMax
import Mathlib.Tactic.SplitIfs

/-!
# Placing an interval beside another one

Along one axis an interval is placed relative to an anchor interval and, if it then reaches over given bounds, flipped to
the other side of the anchor, slid back and cut off, as far as its rules allow.

* `Rules` : the rules of one axis, `Rules.place` what they lead to within `Bounds`;
* `place_of_fixed`, `place_of_inside` : no adjustment is allowed, or none is needed;
* `place_of_slide`, `place_of_flip`, `place_of_resize` : each adjustment by itself;
* `room_of_place_ne` : what a flip tells of the bounds.
-/

namespace Placement

/-- An end of an interval, or its middle. -/
inductive Side
  | near
  | middle
  | far
deriving DecidableEq, Repr

def Side.opposite : Side → Side
  | .near => .far
  | .middle => .middle
  | .far => .near

/-- The interval from `start` of the given length. -/
structure Span where
  start : Int
  length : Int
deriving DecidableEq, Repr

structure Bounds where
  lo : Int
  hi : Int
deriving DecidableEq, Repr

/-- What is allowed if the interval reaches over the bounds. -/
structure Adjustment where
  flip : Bool := false
  slide : Bool := false
  resize : Bool := false
deriving DecidableEq, Repr

structure Rules where
  size : Int
  /-- the interval that the placed one is put beside -/
  anchorRect : Span
  /-- the point of the anchor interval that counts -/
  anchor : Side
  /-- on which side of that point the interval lies -/
  gravity : Side
  offset : Int
  adjustment : Adjustment
deriving DecidableEq, Repr

namespace Rules
variable (r : Rules) (b : Bounds)

/-- Halves are rounded down. -/
def anchorPoint : Int :=
  match r.anchor with
  | .near => r.anchorRect.start
  | .middle => r.anchorRect.start + r.anchorRect.length / 2
  | .far => r.anchorRect.start + r.anchorRect.length

/-- Where the interval starts if nothing is adjusted. -/
def start : Int :=
  match r.gravity with
  | .near => r.anchorPoint - r.size + r.offset
  | .middle => r.anchorPoint - r.size / 2 + r.offset
  | .far => r.anchorPoint + r.offset

/-- The interval reaches over one of the bounds. -/
def Constrained : Prop := r.start < b.lo ∨ b.hi < r.start + r.size

instance : Decidable (r.Constrained b) := inferInstanceAs (Decidable (_ ∨ _))

def opposite : Rules := { r with anchor := r.anchor.opposite, gravity := r.gravity.opposite }

/-- The other side is taken only if there is enough room. -/
def flipped : Rules :=
  if r.adjustment.flip ∧ r.Constrained b ∧ ¬ r.opposite.Constrained b then r.opposite else r

/-- Towards the far end, until the near end is inside or the far one would leave. -/
def slideFar (start : Int) : Int := if start < b.lo then max start (min b.lo (b.hi - r.size)) else start

/-- Towards the near end, until the far end is inside or the near one would leave. -/
def slideNear (start : Int) : Int := if b.hi < start + r.size then min start (max (b.hi - r.size) b.lo) else start

/-- The direction of the gravity is tried first. -/
def slid : Int :=
  if r.adjustment.slide then
    match r.gravity with
    | .near => r.slideFar b (r.slideNear b r.start)
    | .middle | .far => r.slideNear b (r.slideFar b r.start)
  else
    r.start

/-- The part of the interval within the bounds, if there is any. -/
def cut (start : Int) : Span :=
  if r.adjustment.resize ∧ max start b.lo < min (start + r.size) b.hi then
    ⟨max start b.lo, min (start + r.size) b.hi - max start b.lo⟩
  else
    ⟨start, r.size⟩

def place : Span :=
  let r := r.flipped b
  r.cut b (r.slid b)

variable {r b}

theorem flipped_of_not_flip (h : r.adjustment.flip = false) : r.flipped b = r := by
  rw [flipped, if_neg]
  rintro ⟨hflip, -⟩
  rw [h] at hflip
  contradiction

theorem slid_of_not_slide (h : r.adjustment.slide = false) : r.slid b = r.start := by
  rw [slid, if_neg (Bool.eq_false_iff.mp h)]

theorem cut_of_not_resize (h : r.adjustment.resize = false) (start : Int) : r.cut b start = ⟨start, r.size⟩ := by
  rw [cut, if_neg]
  rintro ⟨hresize, -⟩
  rw [h] at hresize
  contradiction

/-- Without leave to adjust anything the bounds do not matter. -/
theorem place_of_fixed (h : r.adjustment = {}) : r.place b = ⟨r.start, r.size⟩ := by
  have hflip : r.flipped b = r := flipped_of_not_flip (by rw [h])
  rw [place, hflip, cut_of_not_resize (by rw [h]), slid_of_not_slide (by rw [h])]

variable {lo hi : Int}

/-- An interval within the bounds stays where it is, whatever may be adjusted. -/
theorem place_of_inside (hlo : lo ≤ r.start) (hhi : r.start + r.size ≤ hi) :
    r.place ⟨lo, hi⟩ = ⟨r.start, r.size⟩ := by
  have hflip : r.flipped ⟨lo, hi⟩ = r := by
    rw [flipped, if_neg]
    rintro ⟨-, hconstrained, -⟩
    rcases hconstrained with hlo' | hhi'
    · exact absurd hlo' (not_lt.mpr hlo)
    · exact absurd hhi' (not_lt.mpr hhi)
  have hfar : r.slideFar ⟨lo, hi⟩ r.start = r.start := if_neg (not_lt.mpr hlo)
  have hnear : r.slideNear ⟨lo, hi⟩ r.start = r.start := if_neg (not_lt.mpr hhi)
  have hslid : r.slid ⟨lo, hi⟩ = r.start := by
    unfold slid
    split
    · split
      · rw [hnear, hfar]
      · rw [hfar, hnear]
      · rw [hfar, hnear]
    · rfl
  rw [place, hflip, hslid, cut]
  split
  · rw [max_eq_left hlo, min_eq_left hhi, add_sub_cancel_left]
  · rfl

/-- Sliding takes an interval that fits to the nearest place within the bounds. -/
theorem place_of_slide (h : r.adjustment = { slide := true }) (hfits : lo + r.size ≤ hi) :
    r.place ⟨lo, hi⟩ = ⟨max lo (min r.start (hi - r.size)), r.size⟩ := by
  have hflip : r.flipped ⟨lo, hi⟩ = r := flipped_of_not_flip (by rw [h])
  rw [place, hflip, cut_of_not_resize (by rw [h]), slid, if_pos (by rw [h])]
  simp only [slideFar, slideNear]
  split
  all_goals
    congr 1
    split_ifs <;> omega

/-- The other side of the anchor has room. -/
theorem place_of_flip (h : r.adjustment = { flip := true }) (hconstrained : r.start < lo ∨ hi < r.start + r.size)
    (hlo : lo ≤ r.opposite.start) (hhi : r.opposite.start + r.size ≤ hi) :
    r.place ⟨lo, hi⟩ = ⟨r.opposite.start, r.size⟩ := by
  have hroom : ¬ r.opposite.Constrained ⟨lo, hi⟩ := not_or.mpr ⟨not_lt.mpr hlo, not_lt.mpr hhi⟩
  have hflip : r.flipped ⟨lo, hi⟩ = r.opposite := if_pos ⟨by rw [h], hconstrained, hroom⟩
  have hsame : r.opposite.adjustment = { flip := true } := h
  rw [place, hflip, cut_of_not_resize (by rw [hsame]), slid_of_not_slide (by rw [hsame])]
  rfl

/-- Flipping changes nothing unless there is room on the other side. -/
theorem room_of_place_ne (h : r.adjustment = { flip := true }) (hne : r.place ⟨lo, hi⟩ ≠ ⟨r.start, r.size⟩) :
    lo ≤ r.opposite.start ∧ r.opposite.start + r.size ≤ hi := by
  have hroom : ¬ r.opposite.Constrained ⟨lo, hi⟩ := by
    intro hconstrained
    have hflip : r.flipped ⟨lo, hi⟩ = r := if_neg fun hboth => hboth.2.2 hconstrained
    apply hne
    rw [place, hflip, cut_of_not_resize (by rw [h]), slid_of_not_slide (by rw [h])]
  obtain ⟨hlo, hhi⟩ := not_or.mp hroom
  exact ⟨not_lt.mp hlo, not_lt.mp hhi⟩

/-- Something of the interval is within the bounds. -/
theorem place_of_resize (h : r.adjustment = { resize := true }) (hpart : max r.start lo < min (r.start + r.size) hi) :
    r.place ⟨lo, hi⟩ = ⟨max r.start lo, min (r.start + r.size) hi - max r.start lo⟩ := by
  have hflip : r.flipped ⟨lo, hi⟩ = r := flipped_of_not_flip (by rw [h])
  rw [place, hflip, slid_of_not_slide (by rw [h]), cut, if_pos ⟨by rw [h], hpart⟩]

end Rules

end Placement
