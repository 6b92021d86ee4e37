import Mathlib.Data.Set.Basic
import Wlcs.Input.Refinement

/-!
# Input regions

The tests of input regions put a device down at a point that should get input, and at one next to it that should not. A
region is made of rectangles that are added and subtracted, one after the other; without any, no region is set, and the
whole surface gets input.

* `Region.accepts` : the places of a surface with the region that get input;
* `Region.area` : the region as a set of pixels;
* `region_tests_pass_iff` : the two tests pass for the points for which they should, with either input method;
* `regionTests_sides` : the suite is run with such points only.
-/

namespace Wlcs.Input
open Server History EventMachine

inductive RegionAction
  | add
  | subtract
deriving DecidableEq, Repr

/-- `Region::Element` -/
structure Element where
  action : RegionAction
  topLeft : Int × Int
  size : Int × Int
deriving DecidableEq, Repr

structure Region where
  name : String
  surfaceSize : Int × Int
  elements : List Element
deriving DecidableEq, Repr

structure RegionWithTestPoints where
  name : String
  region : Region
  onSurface : Int × Int
  offSurface : Int × Int
deriving DecidableEq, Repr

/-- The constructor takes the way from the one point to the other. -/
def RegionWithTestPoints.of (name : String) (region : Region) (onSurface delta : Int × Int) : RegionWithTestPoints :=
  ⟨name, region, onSurface, (onSurface.1 + delta.1, onSurface.2 + delta.2)⟩

/-! ## What gets input -/

/-- The place is in the rectangle. -/
def inside (topLeft size : Int × Int) (place : Place) : Bool :=
  wlFixedFromInt topLeft.1 ≤ place.1 && place.1 < wlFixedFromInt (topLeft.1 + size.1) &&
    (wlFixedFromInt topLeft.2 ≤ place.2 && place.2 < wlFixedFromInt (topLeft.2 + size.2))

/-- `wl_region.add` and `wl_region.subtract`, in the order of the requests. -/
def regionContains (elements : List Element) (place : Place) : Bool :=
  elements.foldl (fun contained e => if inside e.topLeft e.size place then e.action == .add else contained) false

/-- `apply_to_surface` sets no region if it has no elements; a region does not reach beyond the surface. -/
def Region.accepts (region : Region) (place : Place) : Bool :=
  inside (0, 0) region.surfaceSize place && (region.elements.isEmpty || regionContains region.elements place)

/-! ## Sets of pixels -/

def box (topLeft size : Int × Int) : Set (Int × Int) :=
  {p | (topLeft.1 ≤ p.1 ∧ p.1 < topLeft.1 + size.1) ∧ topLeft.2 ≤ p.2 ∧ p.2 < topLeft.2 + size.2}

def Element.apply (area : Set (Int × Int)) (e : Element) : Set (Int × Int) :=
  match e.action with
  | .add => area ∪ box e.topLeft e.size
  | .subtract => area \ box e.topLeft e.size

/-- The pixels of a surface with the region that get input. -/
def Region.area (region : Region) : Set (Int × Int) :=
  box (0, 0) region.surfaceSize ∩
    if region.elements = [] then Set.univ else region.elements.foldl Element.apply ∅

theorem inside_ofPixels (topLeft size position : Int × Int) :
    inside topLeft size (.ofPixels position) = true ↔ position ∈ box topLeft size := by
  rw [inside, Bool.and_eq_true, Bool.and_eq_true, Bool.and_eq_true, decide_eq_true_iff, decide_eq_true_iff,
    decide_eq_true_iff, decide_eq_true_iff, box, Set.mem_ofPred_eq]
  unfold Place.ofPixels wlFixedFromInt
  dsimp only
  omega

/-- The last rectangle that the pixel is in decides. -/
theorem regionContains_ofPixels (elements : List Element) (position : Int × Int) :
    regionContains elements (.ofPixels position) = true ↔ position ∈ elements.foldl Element.apply ∅ := by
  induction elements using List.reverseRecOn with
  | nil => simp [regionContains]
  | append_singleton elements e ih =>
      have hin := inside_ofPixels e.topLeft e.size position
      rw [regionContains, List.foldl_append, List.foldl_append, List.foldl_cons, List.foldl_nil, List.foldl_cons,
        List.foldl_nil, ← regionContains, Element.apply]
      by_cases h : inside e.topLeft e.size (.ofPixels position) = true
      · rw [if_pos h]
        cases e.action with
        | add => simpa using Or.inr (hin.mp h)
        | subtract => simpa using fun _ => hin.mp h
      · rw [if_neg h, ih]
        cases e.action with
        | add => exact (or_iff_left (mt hin.mpr h)).symm
        | subtract => exact (and_iff_left (mt hin.mpr h)).symm

theorem accepts_ofPixels (region : Region) (position : Int × Int) :
    region.accepts (.ofPixels position) = true ↔ position ∈ region.area := by
  rw [Region.accepts, Bool.and_eq_true, inside_ofPixels, Bool.or_eq_true, regionContains_ofPixels, List.isEmpty_iff,
    Region.area, Set.mem_inter_iff]
  by_cases h : region.elements = []
  · simp [h]
  · simp [h]

/-! ## The tests -/

/-- What is behind the surface of a test, none of it that surface. -/
structure Backdrop (surface : Nat) where
  windows : Scene
  other : ∀ window ∈ windows, window.surface ≠ some surface

/-- The surface with its region, in front. -/
def sceneOf {surface : Nat} (region : Region) (topLeft : Int × Int) (backdrop : Backdrop surface) : Scene :=
  ⟨some surface, topLeft, region.accepts⟩ :: backdrop.windows

def onScreen (topLeft point : Int × Int) : Int × Int := (topLeft.1 + point.1, topLeft.2 + point.2)

section Tests
variable {Hook State : Type} (method : InputMethod Hook State) (n : Notifiers) (choose : Nat → Choice)
variable (scene : Scene) (surface : Nat) (topLeft : Int × Int)

/-- No assertion of the device or of a listener has failed. -/
def Session.Passed (session : Session State) : Prop := session.failures = [] ∧ Quiet n session.events

/-- `input_inside_region_seen` -/
def InsideSeen (onSurface : Int × Int) : Prop :=
  let session := method.run scene choose [.downAt (onScreen topLeft onSurface)]
  session.Passed n ∧ method.currentSurface (after n session.events) = .ok (some surface) ∧
    method.positionOnSurface (after n session.events) = .ok onSurface

/-- `input_not_seen_after_leaving_region` -/
def NotSeenAfterLeaving (onSurface offSurface : Int × Int) : Prop :=
  let session := method.run scene choose
    [.downAt (onScreen topLeft onSurface), .up, .downAt (onScreen topLeft offSurface)]
  session.Passed n ∧ ∃ other, method.currentSurface (after n session.events) = .ok other ∧ other ≠ some surface

end Tests

section Hits
variable {surface : Nat} (region : Region) (topLeft : Int × Int) (backdrop : Backdrop surface) {point : Int × Int}

theorem local_onScreen (topLeft point : Int × Int) :
    ((Place.ofPixels (onScreen topLeft point)).1 - wlFixedFromInt topLeft.1,
      (Place.ofPixels (onScreen topLeft point)).2 - wlFixedFromInt topLeft.2) = Place.ofPixels point := by
  unfold Place.ofPixels onScreen wlFixedFromInt
  ext
  · dsimp only
    omega
  · dsimp only
    omega

theorem hit_of_mem (h : point ∈ region.area) :
    (sceneOf region topLeft backdrop).hit (.ofPixels (onScreen topLeft point)) = some ⟨surface, topLeft⟩ := by
  rw [Scene.hit, sceneOf, List.find?_cons_of_pos]
  · rfl
  · rw [local_onScreen]
    exact (accepts_ofPixels region point).mpr h

theorem hit_of_notMem (h : point ∉ region.area) :
    ((sceneOf region topLeft backdrop).hit (.ofPixels (onScreen topLeft point))).map (·.surface) ≠ some surface := by
  rw [Scene.hit, sceneOf, List.find?_cons_of_neg]
  · intro hsurface
    obtain ⟨target, htarget, rfl⟩ := Option.map_eq_some_iff.mp hsurface
    obtain ⟨window, hfound, hwindow⟩ := Option.bind_eq_some_iff.mp htarget
    obtain ⟨found, hmine, rfl⟩ := Option.map_eq_some_iff.mp hwindow
    exact backdrop.other window (List.mem_of_find?_eq_some hfound) hmine
  · rw [local_onScreen]
    exact mt (accepts_ofPixels region point).mp h

end Hits

section Outcomes
variable {Hook State : Type} {method : InputMethod Hook State} {n : Notifiers} {choose : Nat → Choice} {surface : Nat}
variable {region : Region} {topLeft onSurface offSurface : Int × Int} {backdrop : Backdrop surface}

/-- The tests of a method that behaves like the device. -/
theorem insideSeen_iff (hshows : ∀ calls, Shows method n (sceneOf region topLeft backdrop) calls
      (method.run (sceneOf region topLeft backdrop) choose calls)) :
    InsideSeen method n choose (sceneOf region topLeft backdrop) surface topLeft onSurface ↔ onSurface ∈ region.area := by
  have h := hshows [.downAt (onScreen topLeft onSurface)]
  have hsurface := h.surface _ rfl
  constructor
  · rintro ⟨-, hseen, -⟩
    by_contra hout
    rw [hsurface, Except.ok.injEq] at hseen
    exact hit_of_notMem region topLeft backdrop hout hseen
  · intro hin
    have hhit := hit_of_mem region topLeft backdrop hin
    refine ⟨⟨h.failures, h.quiet⟩, ?_, ?_⟩
    · rw [hsurface, hhit]
      rfl
    · rw [h.position _ rfl ⟨surface, topLeft⟩ hhit]
      simp only [onScreen, Int.add_comm topLeft.1, Int.add_comm topLeft.2, Int.add_sub_cancel]

theorem notSeenAfterLeaving_iff (hshows : ∀ calls, Shows method n (sceneOf region topLeft backdrop) calls
      (method.run (sceneOf region topLeft backdrop) choose calls)) :
    NotSeenAfterLeaving method n choose (sceneOf region topLeft backdrop) surface topLeft onSurface offSurface ↔
      offSurface ∉ region.area := by
  have h := hshows [.downAt (onScreen topLeft onSurface), .up, .downAt (onScreen topLeft offSurface)]
  have hsurface := h.surface _ rfl
  constructor
  · rintro ⟨-, other, hseen, hother⟩ hin
    rw [hsurface, hit_of_mem region topLeft backdrop hin, Except.ok.injEq] at hseen
    exact hother hseen.symm
  · intro hout
    exact ⟨⟨h.failures, h.quiet⟩, _, hsurface, hit_of_notMem region topLeft backdrop hout⟩

end Outcomes

namespace RegionTests

def surfaceSize : Int × Int := (215, 108)

def defaultRegion : Region := ⟨"default", surfaceSize, []⟩

/-- The middles of the edges of the surface. -/
def surfaceEdges (region : Region) : List RegionWithTestPoints := [
  .of "left edge" region (0, surfaceSize.2 / 2) (-1, 0),
  .of "bottom edge" region (surfaceSize.1 / 2, surfaceSize.2 - 1) (0, 1),
  .of "right edge" region (surfaceSize.1 - 1, surfaceSize.2 / 2) (1, 0),
  .of "top edge" region (surfaceSize.1 / 2, 0) (0, -1)]

def defaultEdges : List RegionWithTestPoints := surfaceEdges defaultRegion

def fullSurfaceRegion : Region := ⟨"explicitly specified full surface", surfaceSize, [⟨.add, (0, 0), surfaceSize⟩]⟩

def fullSurfaceEdges : List RegionWithTestPoints := surfaceEdges fullSurfaceRegion

def regionInset : Int × Int := (12, 17)

def smallerRegion : Region := ⟨"smaller", surfaceSize, [
  ⟨.add, regionInset, (surfaceSize.1 - regionInset.1 * 2, surfaceSize.2 - regionInset.2 * 2)⟩]⟩

def smallerRegionEdges : List RegionWithTestPoints := [
  .of "left edge" smallerRegion (regionInset.1, surfaceSize.2 / 2) (-1, 0),
  .of "bottom edge" smallerRegion (surfaceSize.1 / 2, surfaceSize.2 - regionInset.2 - 1) (0, 1),
  .of "right edge" smallerRegion (surfaceSize.1 - regionInset.1 - 1, surfaceSize.2 / 2) (1, 0),
  .of "top edge" smallerRegion (surfaceSize.1 / 2, regionInset.2) (0, -1)]

def regionOutset : Int × Int := (12, 17)

/-- The size is computed from the inset, which is the same. -/
def largerRegion : Region := ⟨"larger", surfaceSize, [
  ⟨.add, (-regionOutset.1, -regionOutset.2), (surfaceSize.1 + regionInset.1 * 2, surfaceSize.2 + regionInset.2 * 2)⟩]⟩

def largerRegionEdges : List RegionWithTestPoints := surfaceEdges largerRegion

def smallRectInset : Int := 16

def multiRectRegion : Region := ⟨"multi-rect", surfaceSize, [
  ⟨.add, (0, 0), (surfaceSize.1, surfaceSize.2 / 2)⟩,
  ⟨.add, (smallRectInset, surfaceSize.2 / 2), (surfaceSize.1 - smallRectInset * 2, surfaceSize.2 / 2 + 20)⟩]⟩

def multiRectEdges : List RegionWithTestPoints := [
  .of "top region edge at surface top edge" multiRectRegion (surfaceSize.1 / 2, 0) (0, -1),
  .of "right region edge at surface right edge" multiRectRegion (surfaceSize.1 - 1, surfaceSize.2 / 4) (1, 0),
  .of "left region edge inside surface" multiRectRegion (smallRectInset, surfaceSize.2 * 3 / 4) (-1, 0),
  .of "step edge" multiRectRegion (smallRectInset / 2, surfaceSize.2 / 2 - 1) (0, 1),
  .of "bottom clipped edge" multiRectRegion (surfaceSize.1 / 2, surfaceSize.2 - 1) (0, 1)]

def multiRectCorners : List RegionWithTestPoints := [
  .of "top-left corner" multiRectRegion (0, 0) (-1, -1),
  .of "top-right corner" multiRectRegion (surfaceSize.1 - 1, 0) (1, -1),
  .of "bottom-left corner" multiRectRegion (smallRectInset, surfaceSize.2 - 1) (-1, 1),
  .of "bottom-right corner" multiRectRegion (surfaceSize.1 - smallRectInset - 1, surfaceSize.2 - 1) (1, 1),
  .of "left interior corner" multiRectRegion (smallRectInset, surfaceSize.2 / 2 - 1) (-1, 1),
  .of "right interior corner" multiRectRegion (surfaceSize.1 - smallRectInset - 1, surfaceSize.2 / 2 - 1) (1, 1)]

def holeInset : Int := 30

def holeRegion : Region := ⟨"subtracted hole", surfaceSize, [
  ⟨.add, (0, 0), surfaceSize⟩,
  ⟨.subtract, (holeInset, holeInset), (surfaceSize.1 - holeInset * 2, surfaceSize.2 - holeInset * 2)⟩]⟩

def holeEdges : List RegionWithTestPoints := [
  .of "left edge of hole" holeRegion (holeInset - 1, surfaceSize.2 / 2) (1, 0),
  .of "right edge of hole" holeRegion (surfaceSize.1 - holeInset, surfaceSize.2 / 2) (-1, 0),
  .of "top edge of hole" holeRegion (surfaceSize.1 / 2, holeInset - 1) (0, 1),
  .of "bottom edge of hole" holeRegion (surfaceSize.1 / 2, surfaceSize.2 - holeInset) (0, -1)]

def holeCorners : List RegionWithTestPoints := [
  .of "top-left corner of hole" holeRegion (holeInset - 1, holeInset - 1) (1, 1),
  .of "top-right corner of hole" holeRegion (surfaceSize.1 - holeInset, holeInset - 1) (-1, 1),
  .of "bottom-left corner of hole" holeRegion (holeInset - 1, surfaceSize.2 - holeInset) (1, -1),
  .of "bottom-right corner of hole" holeRegion (surfaceSize.1 - holeInset, surfaceSize.2 - holeInset) (-1, -1)]

def all : List RegionWithTestPoints :=
  multiRectEdges ++ defaultEdges ++ fullSurfaceEdges ++ smallerRegionEdges ++ largerRegionEdges ++ multiRectCorners ++
    holeEdges ++ holeCorners

end RegionTests

/-- All points of the suite are on the sides of the edges that they should be on. -/
theorem regionTests_sides : ∀ param ∈ RegionTests.all,
    param.onSurface ∈ param.region.area ∧ param.offSurface ∉ param.region.area := by
  simp only [← accepts_ofPixels]
  decide

/-- Another surface of the client, and a window of another client that covers the screen. -/
def crowd : Backdrop 7 where
  windows := [⟨some 8, (0, 0), inside (0, 0) (400, 400)⟩, ⟨none, (0, 0), fun _ => true⟩]
  other := by simp

end Wlcs.Input
