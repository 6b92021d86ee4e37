import Wlcs.Client.Output
import Wlcs.Surface.Positioner

/-!
# The popup placement suite

`XdgPopupPositionerTest` is run for a table of parameters, each with the place that the popup is expected at. Many tests
first move the parent window to a place that is computed from the size of the output, and all of them go on to look for
the popup with the pointer.

* `PositionerTestParams.Passes` : a compositor that follows the protocol, and keeps popups and the pointer on its output,
  passes the test;
* `positionerTests` : the table;
* `suite_passes_iff` : which outputs such a compositor passes all of it with.
-/

namespace Wlcs.Popup
open Placement Wlcs.Geometry

/-! ## A test -/

structure PositionerTestParams where
  name : String
  expectedPosition : Int × Int
  expectedSize : Int × Int := (popupWidth, popupHeight)
  positioner : PositionerParams
  /-- called with the size of the output -/
  parentPositionFunc : Option (Int → Int → Int × Int) := none

/-- `window_x` and `window_y` -/
def windowPosition : Int × Int := (500, 500)

/-- Where the parent is during the test: `set_parent_position` reads `mode_size`. -/
def PositionerTestParams.parentPosition (t : PositionerTestParams) (modeSize : Int × Int) : Int × Int :=
  t.parentPositionFunc.elim windowPosition fun f => f modeSize.1 modeSize.2

/-- How far from the corner of the popup the pointer is put, so that it is not off the screen. -/
def probeOffset (location : Int) : Int := if location < 0 then 1 - location else 1

/-- The compositor does not let the pointer leave the output. -/
def confine (output : Rectangle) (x y : Int) : Point where
  x := min (max x output.left) (output.right - 1)
  y := min (max y output.top) (output.bottom - 1)

/-- `surface_actually_at_location`, for a surface that is where the rectangle is. -/
def surfaceActuallyAtLocation (output surface : Rectangle) (location : Int × Int) : Bool :=
  let offsetX := probeOffset location.1
  let offsetY := probeOffset location.2
  let pointer := confine output (location.1 + offsetX) (location.2 + offsetY)
  surface.containsPoint pointer && (pointer.x - surface.left, pointer.y - surface.top) = (offsetX, offsetY)

/-- What the output covers, as `output_rect` of the layer shell tests computes it; none stands for an exception. -/
def outputRect (output : OutputState) : Option Rectangle :=
  output.modeSize.bind fun size => output.geometryPosition.map fun pos =>
    let size := output.scale.elim size fun scale => (size.1.tdiv scale, size.2.tdiv scale)
    ⟨⟨pos.1, pos.2⟩, ⟨size.1, size.2⟩⟩

/-- The test passes: the popup is configured as expected and found where it should be. -/
def PositionerTestParams.Passes (t : PositionerTestParams) (manager : Manager) (version : Nat) (output : OutputState) :
    Prop :=
  ∃ modeSize region state, output.modeSize = some modeSize ∧ outputRect output = some region ∧
    placement version t.positioner (t.parentPosition modeSize) region manager = .ok (some state) ∧
    (state.x, state.y) = t.expectedPosition ∧ (state.width, state.height) = t.expectedSize ∧
    let parent := t.parentPosition modeSize
    surfaceActuallyAtLocation region ⟨⟨parent.1 + state.x, parent.2 + state.y⟩, ⟨state.width, state.height⟩⟩
      (parent.1 + t.expectedPosition.1, parent.2 + t.expectedPosition.2)

/-! ## The table -/

def defaultTests : List PositionerTestParams :=
  [{ name := "default values", positioner := {}
     expectedPosition := ((windowWidth - popupWidth).tdiv 2, (windowHeight - popupHeight).tdiv 2) }]

def withAnchor (anchor : Anchor) : PositionerParams := { anchorStable := some anchor }

def anchorTests : List PositionerTestParams :=
  [{ name := "anchor left", positioner := withAnchor .left
     expectedPosition := ((-popupWidth).tdiv 2, (windowHeight - popupHeight).tdiv 2) },
   { name := "anchor right", positioner := withAnchor .right
     expectedPosition := (windowWidth - popupWidth.tdiv 2, (windowHeight - popupHeight).tdiv 2) },
   { name := "anchor top", positioner := withAnchor .top
     expectedPosition := ((windowWidth - popupWidth).tdiv 2, (-popupHeight).tdiv 2) },
   { name := "anchor bottom", positioner := withAnchor .bottom
     expectedPosition := ((windowWidth - popupWidth).tdiv 2, windowHeight - popupHeight.tdiv 2) },
   { name := "anchor top left", positioner := withAnchor .topLeft
     expectedPosition := ((-popupWidth).tdiv 2, (-popupHeight).tdiv 2) },
   { name := "anchor top right", positioner := withAnchor .topRight
     expectedPosition := (windowWidth - popupWidth.tdiv 2, (-popupHeight).tdiv 2) },
   { name := "anchor bottom left", positioner := withAnchor .bottomLeft
     expectedPosition := ((-popupWidth).tdiv 2, windowHeight - popupHeight.tdiv 2) },
   { name := "anchor bottom right", positioner := withAnchor .bottomRight
     expectedPosition := (windowWidth - popupWidth.tdiv 2, windowHeight - popupHeight.tdiv 2) }]

def withGravity (gravity : Gravity) : PositionerParams := { gravityStable := some gravity }

def gravityTests : List PositionerTestParams :=
  [{ name := "gravity none", positioner := withGravity .none
     expectedPosition := ((windowWidth - popupWidth).tdiv 2, (windowHeight - popupHeight).tdiv 2) },
   { name := "gravity left", positioner := withGravity .left
     expectedPosition := (windowWidth.tdiv 2 - popupWidth, (windowHeight - popupHeight).tdiv 2) },
   { name := "gravity right", positioner := withGravity .right
     expectedPosition := (windowWidth.tdiv 2, (windowHeight - popupHeight).tdiv 2) },
   { name := "gravity top", positioner := withGravity .top
     expectedPosition := ((windowWidth - popupWidth).tdiv 2, windowHeight.tdiv 2 - popupHeight) },
   { name := "gravity bottom", positioner := withGravity .bottom
     expectedPosition := ((windowWidth - popupWidth).tdiv 2, windowHeight.tdiv 2) },
   { name := "gravity top left", positioner := withGravity .topLeft
     expectedPosition := (windowWidth.tdiv 2 - popupWidth, windowHeight.tdiv 2 - popupHeight) },
   { name := "gravity top right", positioner := withGravity .topRight
     expectedPosition := (windowWidth.tdiv 2, windowHeight.tdiv 2 - popupHeight) },
   { name := "gravity bottom left", positioner := withGravity .bottomLeft
     expectedPosition := (windowWidth.tdiv 2 - popupWidth, windowHeight.tdiv 2) },
   { name := "gravity bottom right", positioner := withGravity .bottomRight
     expectedPosition := (windowWidth.tdiv 2, windowHeight.tdiv 2) }]

def withAnchorRect (x y w h : Int) : PositionerParams := { anchorRect := ((x, y), (w, h)) }

def anchorRectTests : List PositionerTestParams :=
  [{ name := "explicit defaultPositionerParams anchor rect"
     positioner := withAnchorRect 0 0 windowWidth windowHeight
     expectedPosition := ((windowWidth - popupWidth).tdiv 2, (windowHeight - popupHeight).tdiv 2) },
   { name := "upper left anchor rect", positioner := withAnchorRect 0 0 (windowWidth - 40) (windowHeight - 30)
     expectedPosition := ((windowWidth - 40 - popupWidth).tdiv 2, (windowHeight - 30 - popupHeight).tdiv 2) },
   { name := "upper right anchor rect", positioner := withAnchorRect 40 0 (windowWidth - 40) (windowHeight - 30)
     expectedPosition := ((windowWidth + 40 - popupWidth).tdiv 2, (windowHeight - 30 - popupHeight).tdiv 2) },
   { name := "lower left anchor rect", positioner := withAnchorRect 0 30 (windowWidth - 40) (windowHeight - 30)
     expectedPosition := ((windowWidth - 40 - popupWidth).tdiv 2, (windowHeight + 30 - popupHeight).tdiv 2) },
   { name := "lower right anchor rect", positioner := withAnchorRect 40 30 (windowWidth - 40) (windowHeight - 30)
     expectedPosition := ((windowWidth + 40 - popupWidth).tdiv 2, (windowHeight + 30 - popupHeight).tdiv 2) },
   { name := "offset anchor rect", positioner := withAnchorRect 20 20 (windowWidth - 80) (windowHeight - 120)
     expectedPosition := ((windowWidth - 40 - popupWidth).tdiv 2, (windowHeight - 80 - popupHeight).tdiv 2) }]

/-- The places of the parent in the tests of the adjustments. -/
def middleOfScreen (width height : Int) : Int × Int :=
  ((width - windowWidth).tdiv 2, (height - windowHeight).tdiv 2)

def topLeftEdge (_width _height : Int) : Int × Int := (5, 5)

def topRightEdge (width _height : Int) : Int × Int := (width - windowWidth - 5, 5)

def bottomLeftEdge (_width height : Int) : Int × Int := (5, height - windowHeight - 5)

def bottomRightEdge (width height : Int) : Int × Int := (width - windowWidth - 5, height - windowHeight - 5)

/-- One of the tests of the adjustments: the popup is beside a corner of its parent. -/
def adjustmentTest (adjustment : BitVec 32) (name : String) (expectedX expectedY expectedWidth expectedHeight : Int)
    (anchor : Anchor) (gravity : Gravity) (parentPosition : Int → Int → Int × Int) : PositionerTestParams where
  name := name
  expectedPosition := (expectedX, expectedY)
  expectedSize := (expectedWidth, expectedHeight)
  positioner :=
    { anchorStable := some anchor, gravityStable := some gravity, constraintAdjustmentStable := some adjustment }
  parentPositionFunc := some parentPosition

def noneTests : List PositionerTestParams :=
  [adjustmentTest 0 "middle of screen" (-popupWidth) (-popupHeight) popupWidth popupHeight .topLeft .topLeft
     middleOfScreen,
   adjustmentTest 0 "off top left edge" (-popupWidth) (-popupHeight) popupWidth popupHeight .topLeft .topLeft
     topLeftEdge,
   adjustmentTest 0 "off top right edge" windowWidth (-popupHeight) popupWidth popupHeight .topRight .topRight
     topRightEdge,
   adjustmentTest 0 "off bottom left edge" (-popupWidth) windowHeight popupWidth popupHeight .bottomLeft .bottomLeft
     bottomLeftEdge,
   adjustmentTest 0 "off bottom right edge" windowWidth windowHeight popupWidth popupHeight .bottomRight .bottomRight
     bottomRightEdge]

/-- `SLIDE_X | SLIDE_Y` -/
def slideTests : List PositionerTestParams :=
  [adjustmentTest (1 ||| 2) "middle of screen" (-popupWidth) (-popupHeight) popupWidth popupHeight .topLeft .topLeft
     middleOfScreen,
   adjustmentTest (1 ||| 2) "off top left edge" (-5) (-5) popupWidth popupHeight .topLeft .topLeft topLeftEdge,
   adjustmentTest (1 ||| 2) "off top right edge" (windowWidth - popupWidth + 5) (-5) popupWidth popupHeight
     .topRight .topRight topRightEdge,
   adjustmentTest (1 ||| 2) "off bottom left edge" (-5) (windowHeight - popupHeight + 5) popupWidth popupHeight
     .bottomLeft .bottomLeft bottomLeftEdge,
   adjustmentTest (1 ||| 2) "off bottom right edge" (windowWidth - popupWidth + 5) (windowHeight - popupHeight + 5)
     popupWidth popupHeight .bottomRight .bottomRight bottomRightEdge]

/-- `FLIP_X | FLIP_Y` -/
def flipTests : List PositionerTestParams :=
  [adjustmentTest (4 ||| 8) "middle of screen" (-popupWidth) (-popupHeight) popupWidth popupHeight .topLeft .topLeft
     middleOfScreen,
   adjustmentTest (4 ||| 8) "off top left edge" windowWidth windowHeight popupWidth popupHeight .topLeft .topLeft
     topLeftEdge,
   adjustmentTest (4 ||| 8) "off top right edge" (-popupWidth) windowHeight popupWidth popupHeight .topRight .topRight
     topRightEdge,
   adjustmentTest (4 ||| 8) "off bottom left edge" windowWidth (-popupHeight) popupWidth popupHeight
     .bottomLeft .bottomLeft bottomLeftEdge,
   adjustmentTest (4 ||| 8) "off bottom right edge" (-popupWidth) (-popupHeight) popupWidth popupHeight
     .bottomRight .bottomRight bottomRightEdge]

/-- `RESIZE_X | RESIZE_Y` -/
def resizeTests : List PositionerTestParams :=
  [adjustmentTest (16 ||| 32) "middle of screen" (-popupWidth) (-popupHeight) popupWidth popupHeight .topLeft .topLeft
     middleOfScreen,
   adjustmentTest (16 ||| 32) "off top left edge" (-5) (-5) 5 5 .topLeft .topLeft topLeftEdge,
   adjustmentTest (16 ||| 32) "off top right edge" windowWidth (-5) 5 5 .topRight .topRight topRightEdge,
   adjustmentTest (16 ||| 32) "off bottom left edge" (-5) windowHeight 5 5 .bottomLeft .bottomLeft bottomLeftEdge,
   adjustmentTest (16 ||| 32) "off bottom right edge" windowWidth windowHeight 5 5 .bottomRight .bottomRight
     bottomRightEdge]

/-- The tests that leave the parent where it is. -/
def fixedTests : List PositionerTestParams := defaultTests ++ anchorTests ++ gravityTests ++ anchorRectTests

def adjustmentTests : List PositionerTestParams := noneTests ++ slideTests ++ flipTests ++ resizeTests

/-- The table of `XdgPopupPositionerTest`. -/
def positionerTests : List PositionerTestParams := fixedTests ++ adjustmentTests

/-! ## One axis of a test -/

/-- Along one axis: the popup is placed as expected, and the point where the pointer looks for it is on the output and on
the popup. -/
structure Found (rules : Rules) (output : Bounds) (parent : Int) (expected : Span) : Prop where
  placed : rules.place ⟨output.lo - parent, output.hi - parent⟩ = expected
  lo : output.lo ≤ parent + expected.start + probeOffset (parent + expected.start)
  hi : parent + expected.start + probeOffset (parent + expected.start) < output.hi
  inside : probeOffset (parent + expected.start) < expected.length

/-- The pointer is put beside the corner, or beside the edge of the screen. -/
theorem probeOffset_cases (location : Int) :
    location < 0 ∧ probeOffset location = 1 - location ∨ 0 ≤ location ∧ probeOffset location = 1 := by
  unfold probeOffset
  split <;> omega

theorem probeOffset_pos (location : Int) : 0 < probeOffset location := by
  have := probeOffset_cases location
  omega

/-- None of the managers gives up on parameters that are neither reactive nor refused. -/
theorem placement_eq {param : PositionerParams} (hreactive : param.reactive = false) (haccepted : ¬ param.Refused .v6)
    (version : Nat) (parent : Int × Int) (region : Rectangle) (manager : Manager) :
    placement version param parent region manager = .ok (some (param.configured parent region)) := by
  have hstable : ¬ param.Refused .stable := fun h => haccepted ((refused_v6_iff param).mpr (Or.inl h))
  cases manager with
  | stable => rw [placement_stable, if_neg (by simp [hreactive]), placement_layer, if_neg hstable]
  | v6 => rw [placement_v6, if_neg haccepted]
  | layer => rw [placement_layer, if_neg hstable]

section Probe
variable {output : Rectangle} {x y width height : Int}

/-- The pointer gets to a point that is on the output and on the surface. -/
theorem surfaceActuallyAtLocation_of (hx : output.left ≤ x + probeOffset x) (hx' : x + probeOffset x < output.right)
    (hwidth : probeOffset x < width) (hy : output.top ≤ y + probeOffset y) (hy' : y + probeOffset y < output.bottom)
    (hheight : probeOffset y < height) :
    surfaceActuallyAtLocation output ⟨⟨x, y⟩, ⟨width, height⟩⟩ (x, y) = true := by
  have hpointer : confine output (x + probeOffset x) (y + probeOffset y) = ⟨x + probeOffset x, y + probeOffset y⟩ := by
    rw [confine, max_eq_left hx, max_eq_left hy, min_eq_left (by omega), min_eq_left (by omega)]
  have := probeOffset_pos x
  have := probeOffset_pos y
  simp only [surfaceActuallyAtLocation, hpointer, Rectangle.containsPoint, Rectangle.left, Rectangle.top,
    Rectangle.bottomRight, add_sub_cancel_left, decide_true, Bool.and_true]
  rw [if_neg (by simp; omega)]
  simp only [Bool.and_eq_true, decide_eq_true_eq]
  omega

/-- It does not get beyond the output. -/
theorem reaches_of_surfaceActuallyAtLocation
    (h : surfaceActuallyAtLocation output ⟨⟨x, y⟩, ⟨width, height⟩⟩ (x, y) = true) :
    x < output.right - 1 ∧ y < output.bottom - 1 := by
  simp only [surfaceActuallyAtLocation, confine, Rectangle.left, Rectangle.top, Bool.and_eq_true, decide_eq_true_eq,
    Prod.mk.injEq] at h
  obtain ⟨-, hx, hy⟩ := h
  have hx' := min_le_right (max (x + probeOffset x) output.topLeft.x) (output.right - 1)
  have hy' := min_le_right (max (y + probeOffset y) output.topLeft.y) (output.bottom - 1)
  have := probeOffset_pos x
  have := probeOffset_pos y
  omega

end Probe

section Tests
variable {t : PositionerTestParams} {manager : Manager} {version : Nat} {output : OutputState} {modeSize : Int × Int}
  {region : Rectangle}

theorem passes_of_found (hreactive : t.positioner.reactive = false) (haccepted : ¬ t.positioner.Refused .v6)
    (hmode : output.modeSize = some modeSize) (hregion : outputRect output = some region)
    (hx : Found t.positioner.rulesX ⟨region.left, region.right⟩ (t.parentPosition modeSize).1
      ⟨t.expectedPosition.1, t.expectedSize.1⟩)
    (hy : Found t.positioner.rulesY ⟨region.top, region.bottom⟩ (t.parentPosition modeSize).2
      ⟨t.expectedPosition.2, t.expectedSize.2⟩) : t.Passes manager version output := by
  refine ⟨modeSize, region, ⟨t.expectedPosition.1, t.expectedPosition.2, t.expectedSize.1, t.expectedSize.2⟩,
    hmode, hregion, ?_, rfl, rfl, ?_⟩
  · rw [placement_eq hreactive haccepted, PositionerParams.configured, hx.placed, hy.placed]
  · exact surfaceActuallyAtLocation_of hx.lo hx.hi hx.inside hy.lo hy.hi hy.inside

theorem placed_of_passes (hreactive : t.positioner.reactive = false) (haccepted : ¬ t.positioner.Refused .v6)
    (hmode : output.modeSize = some modeSize) (hregion : outputRect output = some region)
    (h : t.Passes manager version output) :
    (t.positioner.rulesX.place
        ⟨region.left - (t.parentPosition modeSize).1, region.right - (t.parentPosition modeSize).1⟩ =
          ⟨t.expectedPosition.1, t.expectedSize.1⟩ ∧
      t.positioner.rulesY.place
        ⟨region.top - (t.parentPosition modeSize).2, region.bottom - (t.parentPosition modeSize).2⟩ =
          ⟨t.expectedPosition.2, t.expectedSize.2⟩) ∧
    (t.parentPosition modeSize).1 + t.expectedPosition.1 < region.right - 1 ∧
      (t.parentPosition modeSize).2 + t.expectedPosition.2 < region.bottom - 1 := by
  obtain ⟨modeSize', region', state, hmode', hregion', hplacement, hposition, hsize, hfound⟩ := h
  obtain rfl : modeSize = modeSize' := Option.some.inj (hmode.symm.trans hmode')
  obtain rfl : region = region' := Option.some.inj (hregion.symm.trans hregion')
  rw [placement_eq hreactive haccepted, Except.ok.injEq, Option.some.injEq] at hplacement
  subst hplacement
  rw [← hposition, ← hsize]
  rw [← hposition] at hfound
  exact ⟨⟨rfl, rfl⟩, reaches_of_surfaceActuallyAtLocation hfound⟩

end Tests

/-! ## The tests that do not move the parent -/

/-- The popup may not be adjusted, and the pointer looks for it within `[0, limit)`. -/
def Settled (rules : Rules) (parent : Int) (expected : Span) (limit : Int) : Prop :=
  rules.adjustment = {} ∧ rules.start = expected.start ∧ rules.size = expected.length ∧
    0 ≤ parent + expected.start + probeOffset (parent + expected.start) ∧
    parent + expected.start + probeOffset (parent + expected.start) < limit ∧
    probeOffset (parent + expected.start) < expected.length

instance (rules : Rules) (parent : Int) (expected : Span) (limit : Int) :
    Decidable (Settled rules parent expected limit) :=
  inferInstanceAs (Decidable (_ ∧ _ ∧ _ ∧ _ ∧ _ ∧ _))

theorem Settled.found {rules : Rules} {parent : Int} {expected : Span} {limit extent : Int}
    (h : Settled rules parent expected limit) (hextent : limit ≤ extent) :
    Found rules ⟨0, extent⟩ parent expected := by
  obtain ⟨hfixed, hstart, hsize, hlo, hhi, hinside⟩ := h
  refine ⟨?_, hlo, lt_of_lt_of_le hhi hextent, hinside⟩
  rw [Rules.place_of_fixed hfixed, hstart, hsize]

/-- The last test of the anchors has the pointer furthest to the right and to the bottom. -/
theorem fixedTests_settled : ∀ t ∈ fixedTests, t.positioner.reactive = false ∧ ¬ t.positioner.Refused .v6 ∧
    t.parentPositionFunc.isNone ∧
    Settled t.positioner.rulesX windowPosition.1 ⟨t.expectedPosition.1, t.expectedSize.1⟩ 872 ∧
    Settled t.positioner.rulesY windowPosition.2 ⟨t.expectedPosition.2, t.expectedSize.2⟩ 982 := by
  decide

/-! ## The tests of the adjustments -/

/-- Where the parent is along one axis: in the middle, or close to one of the edges of the output. -/
inductive Edge
  | middle
  | near
  | far

/-- The side of the parent that the popup is on. -/
def Edge.side : Edge → Side
  | .middle | .near => .near
  | .far => .far

def Edge.parent (length extent : Int) : Edge → Int
  | .middle => (extent - length).tdiv 2
  | .near => 5
  | .far => extent - length - 5

inductive Kind
  | none
  | slide
  | flip
  | resize

def Kind.adjustment : Kind → Adjustment
  | .none => {}
  | .slide => { slide := true }
  | .flip => { flip := true }
  | .resize => { resize := true }

/-- What the tests of a kind expect of a popup of the given size beside a window of the given length. -/
def Kind.expected (size length : Int) : Kind → Edge → Span
  | _, .middle => ⟨-size, size⟩
  | .none, .near => ⟨-size, size⟩
  | .none, .far => ⟨length, size⟩
  | .slide, .near => ⟨-5, size⟩
  | .slide, .far => ⟨length - size + 5, size⟩
  | .flip, .near => ⟨length, size⟩
  | .flip, .far => ⟨-size, size⟩
  | .resize, .near => ⟨-5, 5⟩
  | .resize, .far => ⟨length, 5⟩

def Edge.rules (size length : Int) (kind : Kind) (edge : Edge) : Rules :=
  ⟨size, ⟨0, length⟩, edge.side, edge.side, 0, kind.adjustment⟩

section Rules
variable {size length : Int} (kind : Kind)

theorem size_rules (edge : Edge) : (edge.rules size length kind).size = size := rfl

theorem start_middle : (Edge.rules size length kind .middle).start = -size := by
  show (0 : Int) - size + 0 = -size
  omega

theorem start_near : (Edge.rules size length kind .near).start = -size := by
  show (0 : Int) - size + 0 = -size
  omega

theorem start_far : (Edge.rules size length kind .far).start = length := by
  show (0 : Int) + length + 0 = length
  omega

theorem start_opposite_near : (Edge.rules size length kind .near).opposite.start = length := by
  show (0 : Int) + length + 0 = length
  omega

theorem start_opposite_far : (Edge.rules size length kind .far).opposite.start = -size := by
  show (0 : Int) - size + 0 = -size
  omega

end Rules

section Edges
variable {size length extent : Int} (hsize : 5 < size) (hextent : length + 2 * size ≤ extent)
include hsize hextent

/-- In the middle there is room on both sides of the parent. -/
theorem parent_middle : size ≤ Edge.parent length extent .middle ∧ Edge.parent length extent .middle ≤ extent - length := by
  have heq : Edge.parent length extent .middle = (extent - length) / 2 := Int.tdiv_eq_ediv_of_nonneg (by omega)
  omega

theorem middle_placed (kind : Kind) (hlength : 0 ≤ length) :
    (Edge.rules size length kind .middle).place
      ⟨0 - Edge.parent length extent .middle, extent - Edge.parent length extent .middle⟩ = ⟨-size, size⟩ := by
  obtain ⟨hlo, hhi⟩ := parent_middle hsize hextent
  rw [Rules.place_of_inside, start_middle, size_rules]
  · rw [start_middle]
    omega
  · rw [start_middle, size_rules]
    omega

theorem near_placed (kind : Kind) (hlength : 0 ≤ length) :
    (Edge.rules size length kind .near).place ⟨0 - 5, extent - 5⟩ = kind.expected size length .near := by
  cases kind with
  | none => rw [Rules.place_of_fixed rfl, start_near]; rfl
  | slide =>
      rw [Rules.place_of_slide rfl (by rw [size_rules]; omega), start_near, size_rules, min_eq_left (by omega),
        max_eq_left (by omega)]
      rfl
  | flip =>
      rw [Rules.place_of_flip rfl (Or.inl (by rw [start_near]; omega)), start_opposite_near]
      · rfl
      · rw [start_opposite_near]
        omega
      · rw [start_opposite_near, size_rules]
        omega
  | resize =>
      rw [Rules.place_of_resize rfl, start_near, size_rules, max_eq_right (by omega), min_eq_left (by omega)]
      · show (⟨0 - 5, -size + size - (0 - 5)⟩ : Span) = ⟨-5, 5⟩
        congr 1
        omega
      · rw [start_near, size_rules]
        omega

theorem far_placed (kind : Kind) (hlength : 0 ≤ length) :
    (Edge.rules size length kind .far).place ⟨0 - (extent - length - 5), extent - (extent - length - 5)⟩ =
      kind.expected size length .far := by
  cases kind with
  | none => rw [Rules.place_of_fixed rfl, start_far]; rfl
  | slide =>
      rw [Rules.place_of_slide rfl (by rw [size_rules]; omega), start_far, size_rules, min_eq_right (by omega),
        max_eq_right (by omega)]
      show (⟨_, _⟩ : Span) = ⟨length - size + 5, size⟩
      congr 1
      omega
  | flip =>
      rw [Rules.place_of_flip rfl (Or.inr (by rw [start_far, size_rules]; omega)), start_opposite_far]
      · rfl
      · rw [start_opposite_far]
        omega
      · rw [start_opposite_far, size_rules]
        omega
  | resize =>
      rw [Rules.place_of_resize rfl, start_far, size_rules, max_eq_left (by omega), min_eq_right (by omega)]
      · show (⟨length, _⟩ : Span) = ⟨length, 5⟩
        congr 1
        omega
      · rw [start_far, size_rules]
        omega

/-- The popup is placed as expected and found there. -/
theorem edge_found (kind : Kind) (edge : Edge) (hlength : 0 ≤ length) :
    Found (edge.rules size length kind) ⟨0, extent⟩ (edge.parent length extent) (kind.expected size length edge) := by
  have hplaced : (edge.rules size length kind).place
      ⟨0 - edge.parent length extent, extent - edge.parent length extent⟩ = kind.expected size length edge := by
    cases edge with
    | middle => cases kind with
      | _ => exact middle_placed hsize hextent _ hlength
    | near => exact near_placed hsize hextent kind hlength
    | far => exact far_placed hsize hextent kind hlength
  have hmiddle := parent_middle hsize hextent
  have hnear : Edge.parent length extent .near = 5 := rfl
  have hfar : Edge.parent length extent .far = extent - length - 5 := rfl
  have hprobe := probeOffset_cases (edge.parent length extent + (kind.expected size length edge).start)
  refine ⟨hplaced, ?_, ?_, ?_⟩
  all_goals
    cases edge with
    | _ => cases kind with
      | _ =>
          simp only [Kind.expected] at hprobe ⊢
          omega

end Edges

/-- The test puts the parent to the given edges of the output and is of the given kind. -/
structure OnEdges (kind : Kind) (x y : Edge) (t : PositionerTestParams) : Prop where
  reactive : t.positioner.reactive = false
  accepted : ¬ t.positioner.Refused .v6
  rulesX : t.positioner.rulesX = x.rules popupWidth windowWidth kind
  rulesY : t.positioner.rulesY = y.rules popupHeight windowHeight kind
  parent : ∀ size, t.parentPosition size = (x.parent windowWidth size.1, y.parent windowHeight size.2)
  expectedX : ⟨t.expectedPosition.1, t.expectedSize.1⟩ = kind.expected popupWidth windowWidth x
  expectedY : ⟨t.expectedPosition.2, t.expectedSize.2⟩ = kind.expected popupHeight windowHeight y

/-- The order in which the tests of each kind take the edges. -/
def corners : List (Edge × Edge) := [(.middle, .middle), (.near, .near), (.far, .near), (.near, .far), (.far, .far)]

def Corners (kind : Kind) (tests : List PositionerTestParams) : Prop :=
  List.Forall₂ (fun e t => OnEdges kind e.1 e.2 t) corners tests

theorem adjustmentTests_corners :
    Corners .none noneTests ∧ Corners .slide slideTests ∧ Corners .flip flipTests ∧ Corners .resize resizeTests := by
  refine ⟨?_, ?_, ?_, ?_⟩
  all_goals
    repeat' first
      | exact .nil
      | refine .cons ⟨rfl, by decide, rfl, rfl, fun _ => rfl, rfl, rfl⟩ ?_

theorem Corners.exists_onEdges {kind : Kind} {tests : List PositionerTestParams} (h : Corners kind tests) :
    ∀ t ∈ tests, ∃ x y, OnEdges kind x y t := by
  unfold Corners at h
  intro t ht
  generalize corners = edges at h
  induction h with
  | nil => exact absurd ht List.not_mem_nil
  | cons hhead _ ih =>
      rcases List.mem_cons.mp ht with rfl | ht
      · exact ⟨_, _, hhead⟩
      · exact ih ht

/-- Every test of the adjustments is of one kind and puts its parent to an edge on each axis. -/
theorem adjustmentTests_onEdges : ∀ t ∈ adjustmentTests, ∃ kind x y, OnEdges kind x y t := by
  obtain ⟨hnone, hslide, hflip, hresize⟩ := adjustmentTests_corners
  intro t ht
  simp only [adjustmentTests, List.mem_append] at ht
  rcases ht with ((ht | ht) | ht) | ht
  · exact ⟨_, hnone.exists_onEdges t ht⟩
  · exact ⟨_, hslide.exists_onEdges t ht⟩
  · exact ⟨_, hflip.exists_onEdges t ht⟩
  · exact ⟨_, hresize.exists_onEdges t ht⟩

/-! ## The suite -/

/-- What the output covers along one axis, of a mode that the scale divides. -/
def covered (scale : Option Int) (size : Int) : Int := scale.elim size fun scale => size.tdiv scale

/-- An output that has told where it is and which mode it has. -/
def described (proxy : ProxyPtr) (position modeSize : Int × Int) (scale : Option Int) : OutputState where
  output := proxy
  geometryPosition := some position
  modeSize := some modeSize
  scale := scale

section Suite
variable {proxy : ProxyPtr} {position modeSize : Int × Int} {scale : Option Int} {manager : Manager} {version : Nat}

theorem outputRect_described :
    outputRect (described proxy position modeSize scale) =
      some ⟨⟨position.1, position.2⟩, ⟨covered scale modeSize.1, covered scale modeSize.2⟩⟩ := by
  cases scale with
  | _ => rfl

/-- An output of the size that the pointer needs, at the origin and without a scale, will do. -/
theorem tests_pass (hscale : scale.getD 1 = 1) (hwidth : 872 ≤ modeSize.1) (hheight : 982 ≤ modeSize.2) :
    ∀ t ∈ positionerTests, t.Passes manager version (described proxy (0, 0) modeSize scale) := by
  have hregion : outputRect (described proxy (0, 0) modeSize scale) = some ⟨⟨0, 0⟩, ⟨modeSize.1, modeSize.2⟩⟩ := by
    rw [outputRect_described]
    cases scale with
    | none => rfl
    | some scale =>
        obtain rfl : scale = 1 := hscale
        simp only [covered, Option.elim_some, Int.tdiv_one]
  have hright : Rectangle.right ⟨⟨0, 0⟩, ⟨modeSize.1, modeSize.2⟩⟩ = modeSize.1 := zero_add _
  have hbottom : Rectangle.bottom ⟨⟨0, 0⟩, ⟨modeSize.1, modeSize.2⟩⟩ = modeSize.2 := zero_add _
  intro t ht
  rcases List.mem_append.mp ht with ht | ht
  · obtain ⟨hreactive, haccepted, hparent, hx, hy⟩ := fixedTests_settled t ht
    have hposition : t.parentPosition modeSize = windowPosition := by
      rw [PositionerTestParams.parentPosition, Option.isNone_iff_eq_none.mp hparent]
      rfl
    refine passes_of_found hreactive haccepted rfl hregion ?_ ?_
    · rw [hposition, hright]
      exact hx.found hwidth
    · rw [hposition, hbottom]
      exact hy.found hheight
  · obtain ⟨kind, x, y, h⟩ := adjustmentTests_onEdges t ht
    refine passes_of_found h.reactive h.accepted rfl hregion ?_ ?_
    · rw [h.rulesX, h.parent, h.expectedX, hright]
      exact edge_found (by decide) (le_trans (by decide) hwidth) kind x (by decide)
    · rw [h.rulesY, h.parent, h.expectedY, hbottom]
      exact edge_found (by decide) (le_trans (by decide) hheight) kind y (by decide)

/-- Three of the tests together find out where the output begins and ends. -/
theorem bounds_of_placed {size length extent lo hi : Int} (hsize : 5 < size) (hlength : 0 ≤ length)
    (hslide : (Edge.rules size length .slide .near).place ⟨lo - 5, hi - 5⟩ = Kind.expected size length .slide .near)
    (hflip : (Edge.rules size length .flip .near).place ⟨lo - 5, hi - 5⟩ = Kind.expected size length .flip .near)
    (hfar : (Edge.rules size length .slide .far).place ⟨lo - (extent - length - 5), hi - (extent - length - 5)⟩ =
      Kind.expected size length .slide .far) : lo = 0 ∧ hi = extent := by
  obtain ⟨hroom, hroom'⟩ := Rules.room_of_place_ne rfl (by
    rw [hflip, start_near]
    intro heq
    have : length = -size := congrArg Span.start heq
    omega)
  rw [start_opposite_near] at hroom hroom'
  rw [size_rules] at hroom'
  rw [Rules.place_of_slide rfl (by rw [size_rules]; omega), start_near, size_rules] at hslide
  have hlo : max (lo - 5) (min (-size) (hi - 5 - size)) = -5 := congrArg Span.start hslide
  have hlo : lo = 0 := by omega
  rw [Rules.place_of_slide rfl (by rw [size_rules]; omega), start_far, size_rules] at hfar
  have hhi : max (lo - (extent - length - 5)) (min length (hi - (extent - length - 5) - size)) = length - size + 5 :=
    congrArg Span.start hfar
  omega

/-- A mode that its scale leaves as it is has none. -/
theorem scale_of_covered {size : Int} (hsize : 0 < size) (h : covered scale size = size) : scale.getD 1 = 1 := by
  cases scale with
  | none => rfl
  | some scale =>
      have hdiv : size.tdiv scale = size := h
      have habs : size.natAbs / scale.natAbs = size.natAbs := by
        have := Int.natAbs_tdiv size scale
        rw [hdiv] at this
        exact this.symm
      rcases Nat.div_eq_self.mp habs with hzero | hone
      · omega
      · rcases Int.natAbs_eq_iff.mp hone with rfl | rfl
        · rfl
        · have hneg : size.tdiv (-1) = -size := by
            rw [Int.tdiv_neg, Int.tdiv_one]
          have hdiv : size.tdiv (-1) = size := hdiv
          omega

/-- What a test of the adjustments that passes says of the output. -/
theorem OnEdges.placed {kind : Kind} {x y : Edge} {t : PositionerTestParams} (h : OnEdges kind x y t)
    (hpasses : t.Passes manager version (described proxy position modeSize scale)) :
    (x.rules popupWidth windowWidth kind).place
        ⟨position.1 - x.parent windowWidth modeSize.1,
          position.1 + covered scale modeSize.1 - x.parent windowWidth modeSize.1⟩ =
        kind.expected popupWidth windowWidth x ∧
      (y.rules popupHeight windowHeight kind).place
        ⟨position.2 - y.parent windowHeight modeSize.2,
          position.2 + covered scale modeSize.2 - y.parent windowHeight modeSize.2⟩ =
        kind.expected popupHeight windowHeight y := by
  obtain ⟨⟨hx, hy⟩, -⟩ := placed_of_passes h.reactive h.accepted rfl outputRect_described hpasses
  rw [h.rulesX, h.parent, h.expectedX] at hx
  rw [h.rulesY, h.parent, h.expectedY] at hy
  exact ⟨hx, hy⟩

/-- **The suite passes** with a compositor that follows the protocols, and keeps popups and the pointer on its output, if
and only if the output is at the origin, has no scale, and has at least 872 × 982 pixels. -/
theorem suite_passes_iff (manager : Manager) (version : Nat) (proxy : ProxyPtr) (position modeSize : Int × Int)
    (scale : Option Int) :
    (∀ t ∈ positionerTests, t.Passes manager version (described proxy position modeSize scale)) ↔
      position = (0, 0) ∧ scale.getD 1 = 1 ∧ 872 ≤ modeSize.1 ∧ 982 ≤ modeSize.2 := by
  constructor
  · intro h
    have hadjustment : ∀ t ∈ adjustmentTests, t.Passes manager version (described proxy position modeSize scale) :=
      fun t ht => h t (List.mem_append_right _ ht)
    obtain ⟨-, hslide, hflip, -⟩ := adjustmentTests_corners
    -- the parent at the top left and at the bottom right edge
    have hslideNear := (hslide.get (i := 1) (by decide) (by decide)).placed
      (hadjustment _ (by simp [adjustmentTests]))
    have hslideFar := (hslide.get (i := 4) (by decide) (by decide)).placed
      (hadjustment _ (by simp [adjustmentTests]))
    have hflipNear := (hflip.get (i := 1) (by decide) (by decide)).placed
      (hadjustment _ (by simp [adjustmentTests]))
    obtain ⟨hleft, hright⟩ := bounds_of_placed (by decide) (by decide) hslideNear.1 hflipNear.1 hslideFar.1
    obtain ⟨htop, hbottom⟩ := bounds_of_placed (by decide) (by decide) hslideNear.2 hflipNear.2 hslideFar.2
    -- the pointer at a popup on the bottom right corner of a parent that is not moved
    obtain ⟨-, hreachX, hreachY⟩ := placed_of_passes (t := anchorTests.get ⟨7, by decide⟩) rfl (by decide) rfl
      outputRect_described (h _ (List.mem_append_left _ (by simp [fixedTests])))
    have hreachX : 870 < position.1 + covered scale modeSize.1 - 1 := hreachX
    have hreachY : 980 < position.2 + covered scale modeSize.2 - 1 := hreachY
    have hcovered : covered scale modeSize.1 = modeSize.1 := by omega
    exact ⟨Prod.ext hleft htop, scale_of_covered (by omega) hcovered, by omega, by omega⟩
  · rintro ⟨rfl, hscale, hwidth, hheight⟩
    exact tests_pass hscale hwidth hheight

end Suite

end Wlcs.Popup
