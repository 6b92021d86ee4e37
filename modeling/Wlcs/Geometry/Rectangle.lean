import Mathlib

/-!
# Rectangles

`Point`, `Size` and `Rectangle` over the integers. A rectangle stands for the points `[top_left, bottom_right)`; `contains`,
`overlaps` and `intersection_of` are written separately, each with its own treatment of the edges and of empty sizes.

* `Rectangle.points` : the set that a rectangle stands for (`mem_points_iff`, by half-open intervals);
* `points_intersectionOf`, `overlaps_iff_nonempty`, `contains_iff_subset` : the operations on the sets;
* `Canonical` : the rectangles that `intersection_of` returns, which are told apart by their points;
* `rectangles_denote_points` : the three operations and `operator==` agree.
-/

namespace Wlcs.Geometry

structure Point where
  x : Int := 0
  y : Int := 0
deriving DecidableEq, Repr

structure Size where
  width : Int := 0
  height : Int := 0
deriving DecidableEq, Repr

structure Rectangle where
  topLeft : Point := {}
  size : Size := {}
deriving DecidableEq, Repr

namespace Rectangle

def bottomRight (r : Rectangle) : Point := ⟨r.topLeft.x + r.size.width, r.topLeft.y + r.size.height⟩

def left (r : Rectangle) : Int := r.topLeft.x

def right (r : Rectangle) : Int := r.bottomRight.x

def top (r : Rectangle) : Int := r.topLeft.y

def bottom (r : Rectangle) : Int := r.bottomRight.y

/-- `contains(Point)` -/
def containsPoint (r : Rectangle) (p : Point) : Bool :=
  if r.size.width = 0 || r.size.height = 0 then
    false
  else
    let br := r.bottomRight
    p.x ≥ r.left && p.x < br.x && p.y ≥ r.top && p.y < br.y

/-- `contains(Rectangle)` -/
def contains (self r : Rectangle) : Bool :=
  r.left ≥ self.left && r.left + r.size.width ≤ self.left + self.size.width &&
    r.top ≥ self.top && r.top + r.size.height ≤ self.top + self.size.height

def overlaps (self r : Rectangle) : Bool :=
  let disjoint : Bool := r.left ≥ self.right || r.right ≤ self.left || r.top ≥ self.bottom || r.bottom ≤ self.top ||
    self.size.width = 0 || self.size.height = 0 || r.size.width = 0 || r.size.height = 0
  !disjoint

/-- `operator==` -/
def equal (lhs rhs : Rectangle) : Bool :=
  (lhs.topLeft.x = rhs.topLeft.x && lhs.topLeft.y = rhs.topLeft.y) &&
    (lhs.size.width = rhs.size.width && lhs.size.height = rhs.size.height)

end Rectangle

open Rectangle

def intersectionOf (a b : Rectangle) : Rectangle :=
  let maxLeft := max a.left b.left
  let minRight := min a.right b.right
  let maxTop := max a.top b.top
  let minBottom := min a.bottom b.bottom
  if maxLeft < minRight ∧ maxTop < minBottom then
    ⟨⟨maxLeft, maxTop⟩, ⟨minRight - maxLeft, minBottom - maxTop⟩⟩
  else
    {}

namespace Rectangle

theorem right_eq (r : Rectangle) : r.right = r.left + r.size.width := rfl

theorem bottom_eq (r : Rectangle) : r.bottom = r.top + r.size.height := rfl

theorem eq_of_edges {r s : Rectangle} (hleft : r.left = s.left) (hright : r.right = s.right) (htop : r.top = s.top)
    (hbottom : r.bottom = s.bottom) : r = s := by
  obtain ⟨⟨rx, ry⟩, rw, rh⟩ := r
  obtain ⟨⟨sx, sy⟩, sw, sh⟩ := s
  simp only [left, right, top, bottom, bottomRight] at *
  subst hleft htop
  have hw : rw = sw := by omega
  have hh : rh = sh := by omega
  rw [hw, hh]

theorem equal_iff (lhs rhs : Rectangle) : lhs.equal rhs ↔ lhs = rhs := by
  obtain ⟨⟨lx, ly⟩, lw, lh⟩ := lhs
  obtain ⟨⟨rx, ry⟩, rw, rh⟩ := rhs
  simp [equal]

/-! ## The points of a rectangle -/

/-- No side is negative. -/
structure NonNeg (r : Rectangle) : Prop where
  width : 0 ≤ r.size.width
  height : 0 ≤ r.size.height

/-- Both sides are positive. -/
structure Positive (r : Rectangle) : Prop where
  width : 0 < r.size.width
  height : 0 < r.size.height

theorem Positive.nonNeg {r : Rectangle} (h : r.Positive) : r.NonNeg := ⟨h.width.le, h.height.le⟩

/-- The set that a rectangle stands for. -/
def points (r : Rectangle) : Set Point := {p | r.containsPoint p}

/-- A rectangle is the product of two half-open intervals, which are empty if a side is. -/
theorem mem_points_iff {r : Rectangle} (h : r.NonNeg) (p : Point) :
    p ∈ r.points ↔ p.x ∈ Set.Ico r.left r.right ∧ p.y ∈ Set.Ico r.top r.bottom := by
  have hw := h.width
  have hh := h.height
  show r.containsPoint p = true ↔ _
  rw [Set.mem_Ico, Set.mem_Ico, right_eq, bottom_eq, containsPoint]
  by_cases hempty : r.size.width = 0 ∨ r.size.height = 0
  · rw [if_pos (by simpa using hempty)]
    refine iff_of_false Bool.false_ne_true (fun hp => ?_)
    omega
  · rw [if_neg (by simpa using hempty)]
    simp only [Bool.and_eq_true, decide_eq_true_eq, and_assoc]
    rfl

theorem overlaps_iff {a b : Rectangle} (ha : a.NonNeg) (hb : b.NonNeg) :
    a.overlaps b ↔ max a.left b.left < min a.right b.right ∧ max a.top b.top < min a.bottom b.bottom := by
  have := ha.width
  have := ha.height
  have := hb.width
  have := hb.height
  simp only [overlaps, Bool.not_eq_true', Bool.or_eq_false_iff, decide_eq_false_iff_not]
  simp only [right_eq, bottom_eq, lt_min_iff, max_lt_iff]
  omega

/-! ## Intersections -/

/-- Positive, or the default rectangle. -/
def Canonical (r : Rectangle) : Prop := r.Positive ∨ r = {}

theorem Canonical.nonNeg {r : Rectangle} (h : r.Canonical) : r.NonNeg := by
  rcases h with h | h
  · exact h.nonNeg
  · subst h
    exact ⟨le_refl _, le_refl _⟩

theorem Positive.topLeft_mem {r : Rectangle} (h : r.Positive) : r.topLeft ∈ r.points := by
  have := h.width
  have := h.height
  rw [mem_points_iff h.nonNeg, Set.mem_Ico, Set.mem_Ico, right_eq, bottom_eq]
  unfold left top
  omega

theorem Positive.last_mem {r : Rectangle} (h : r.Positive) : ⟨r.right - 1, r.bottom - 1⟩ ∈ r.points := by
  have := h.width
  have := h.height
  simp only [mem_points_iff h.nonNeg, Set.mem_Ico, right_eq, bottom_eq]
  omega

theorem points_default : (({} : Rectangle)).points = ∅ := by
  ext p
  exact iff_of_false Bool.false_ne_true (fun h => h)

/-- `contains(Rectangle)` compares the edges. -/
theorem contains_iff (a r : Rectangle) :
    a.contains r ↔ a.left ≤ r.left ∧ r.right ≤ a.right ∧ a.top ≤ r.top ∧ r.bottom ≤ a.bottom := by
  simp only [contains, Bool.and_eq_true, decide_eq_true_eq, and_assoc]
  rfl

theorem contains_iff_subset {a r : Rectangle} (ha : a.NonNeg) (hr : r.Positive) :
    a.contains r ↔ r.points ⊆ a.points := by
  have hw := hr.width
  have hh := hr.height
  rw [contains_iff]
  constructor
  · rintro ⟨hleft, hright, htop, hbottom⟩ p hp
    rw [mem_points_iff hr.nonNeg] at hp
    rw [mem_points_iff ha]
    exact ⟨Set.Ico_subset_Ico hleft hright hp.1, Set.Ico_subset_Ico htop hbottom hp.2⟩
  · intro h
    -- the first and the last point of `r` are in `a`
    have hfirst := h hr.topLeft_mem
    have hlast := h hr.last_mem
    simp only [mem_points_iff ha, Set.mem_Ico] at hfirst hlast
    have hleft : r.left = r.topLeft.x := rfl
    have htop : r.top = r.topLeft.y := rfl
    omega

/-- Canonical rectangles are told apart by their points: the corners of a positive one can be read off its points. -/
theorem Canonical.eq_of_points_eq {r s : Rectangle} (hr : r.Canonical) (hs : s.Canonical) (h : r.points = s.points) :
    r = s := by
  rcases hr with hr | hr
  · rcases hs with hs | hs
    · have hrs := (contains_iff s r).mp ((contains_iff_subset hs.nonNeg hr).mpr h.subset)
      have hsr := (contains_iff r s).mp ((contains_iff_subset hr.nonNeg hs).mpr h.superset)
      exact eq_of_edges (by omega) (by omega) (by omega) (by omega)
    · rw [hs, points_default] at h
      exact absurd hr.topLeft_mem (h ▸ Set.notMem_empty _)
  · rcases hs with hs | hs
    · rw [hr, points_default] at h
      exact absurd hs.topLeft_mem (h ▸ Set.notMem_empty _)
    · rw [hr, hs]

end Rectangle

theorem canonical_intersectionOf (a b : Rectangle) : (intersectionOf a b).Canonical := by
  unfold intersectionOf
  simp only
  split
  · rename_i h
    left
    constructor
    · show 0 < min a.right b.right - max a.left b.left
      omega
    · show 0 < min a.bottom b.bottom - max a.top b.top
      omega
  · right
    rfl

theorem points_intersectionOf {a b : Rectangle} (ha : a.NonNeg) (hb : b.NonNeg) :
    (intersectionOf a b).points = a.points ∩ b.points := by
  ext p
  rw [Set.mem_inter_iff, mem_points_iff ha, mem_points_iff hb, mem_points_iff (canonical_intersectionOf a b).nonNeg]
  unfold intersectionOf
  simp only [Set.mem_Ico]
  split
  · simp only [right_eq, bottom_eq, left, top]
    omega
  · rename_i h
    simp only [right_eq, bottom_eq, left, top, lt_min_iff, max_lt_iff] at *
    omega

/-- Two rectangles overlap if some point is in both of them. -/
theorem overlaps_iff_nonempty {a b : Rectangle} (ha : a.NonNeg) (hb : b.NonNeg) :
    a.overlaps b ↔ (a.points ∩ b.points).Nonempty := by
  rw [overlaps_iff ha hb]
  constructor
  · intro h
    refine ⟨⟨max a.left b.left, max a.top b.top⟩, ?_⟩
    rw [Set.mem_inter_iff, mem_points_iff ha, mem_points_iff hb]
    simp only [Set.mem_Ico]
    omega
  · rintro ⟨p, hp⟩
    rw [Set.mem_inter_iff, mem_points_iff ha, mem_points_iff hb] at hp
    simp only [Set.mem_Ico] at hp
    omega

theorem overlaps_iff_positive {a b : Rectangle} (ha : a.NonNeg) (hb : b.NonNeg) :
    a.overlaps b ↔ (intersectionOf a b).Positive := by
  rw [overlaps_iff_nonempty ha hb, ← points_intersectionOf ha hb]
  constructor
  · intro hnonempty
    rcases canonical_intersectionOf a b with h | h
    · exact h
    · rw [h, points_default] at hnonempty
      exact absurd hnonempty Set.not_nonempty_empty
  · intro h
    exact ⟨_, h.topLeft_mem⟩

/-- An intersection is told by the points of the two rectangles. -/
theorem intersectionOf_eq {a b c d : Rectangle} (ha : a.NonNeg) (hb : b.NonNeg) (hc : c.NonNeg) (hd : d.NonNeg)
    (h : a.points ∩ b.points = c.points ∩ d.points) : intersectionOf a b = intersectionOf c d := by
  apply (canonical_intersectionOf a b).eq_of_points_eq (canonical_intersectionOf c d)
  rw [points_intersectionOf ha hb, points_intersectionOf hc hd, h]

theorem intersectionOf_comm {a b : Rectangle} (ha : a.NonNeg) (hb : b.NonNeg) :
    intersectionOf a b = intersectionOf b a :=
  intersectionOf_eq ha hb hb ha (Set.inter_comm _ _)

theorem intersectionOf_assoc {a b c : Rectangle} (ha : a.NonNeg) (hb : b.NonNeg) (hc : c.NonNeg) :
    intersectionOf (intersectionOf a b) c = intersectionOf a (intersectionOf b c) := by
  have hab := (canonical_intersectionOf a b).nonNeg
  have hbc := (canonical_intersectionOf b c).nonNeg
  apply intersectionOf_eq hab hc ha hbc
  rw [points_intersectionOf ha hb, points_intersectionOf hb hc, Set.inter_assoc]

theorem contains_iff_intersectionOf_eq {a r : Rectangle} (ha : a.NonNeg) (hr : r.Positive) :
    a.contains r ↔ intersectionOf a r = r := by
  rw [contains_iff_subset ha hr, ← Set.inter_eq_right, ← points_intersectionOf ha hr.nonNeg]
  constructor
  · exact (canonical_intersectionOf a r).eq_of_points_eq (Or.inl hr)
  · intro h
    rw [h]

/-- The operations on rectangles are those on the sets of their points. -/
theorem rectangles_denote_points (a b c r : Rectangle) (ha : a.NonNeg) (hb : b.NonNeg) (hc : c.NonNeg)
    (hr : r.Positive) :
    (∀ p, (intersectionOf a b).containsPoint p ↔ a.containsPoint p ∧ b.containsPoint p) ∧
    (a.overlaps b ↔ ∃ p, a.containsPoint p ∧ b.containsPoint p) ∧
    (a.overlaps b ↔ 0 < (intersectionOf a b).size.width ∧ 0 < (intersectionOf a b).size.height) ∧
    (a.contains r ↔ ∀ p, r.containsPoint p → a.containsPoint p) ∧
    (a.contains r ↔ (intersectionOf a r).equal r) ∧
    ((¬ ∃ p, (intersectionOf a b).containsPoint p) → (intersectionOf a b).equal {}) ∧
    (intersectionOf a b).equal (intersectionOf b a) ∧
    (intersectionOf (intersectionOf a b) c).equal (intersectionOf a (intersectionOf b c)) := by
  simp only [equal_iff]
  refine ⟨fun p => Set.ext_iff.mp (points_intersectionOf ha hb) p, overlaps_iff_nonempty ha hb, ?_,
    contains_iff_subset ha hr, contains_iff_intersectionOf_eq ha hr, ?_, intersectionOf_comm ha hb,
    intersectionOf_assoc ha hb hc⟩
  · rw [overlaps_iff_positive ha hb]
    exact ⟨fun h => ⟨h.width, h.height⟩, fun h => ⟨h.1, h.2⟩⟩
  · intro hempty
    rcases canonical_intersectionOf a b with h | h
    · exact absurd ⟨_, h.topLeft_mem⟩ hempty
    · exact h

/-- A rectangle across the origin, one of no width, one that touches the first, and one inside it. -/
theorem rectangles_denote_points_touching :
    (intersectionOf (intersectionOf ⟨⟨-5, -5⟩, ⟨10, 10⟩⟩ ⟨⟨3, 0⟩, ⟨0, 9⟩⟩) ⟨⟨5, -5⟩, ⟨4, 4⟩⟩).equal
      (intersectionOf ⟨⟨-5, -5⟩, ⟨10, 10⟩⟩ (intersectionOf ⟨⟨3, 0⟩, ⟨0, 9⟩⟩ ⟨⟨5, -5⟩, ⟨4, 4⟩⟩)) :=
  (rectangles_denote_points ⟨⟨-5, -5⟩, ⟨10, 10⟩⟩ ⟨⟨3, 0⟩, ⟨0, 9⟩⟩ ⟨⟨5, -5⟩, ⟨4, 4⟩⟩ ⟨⟨0, 0⟩, ⟨1, 1⟩⟩
    ⟨by decide, by decide⟩ ⟨by decide, by decide⟩ ⟨by decide, by decide⟩ ⟨by decide, by decide⟩).2.2.2.2.2.2.2

end Wlcs.Geometry
