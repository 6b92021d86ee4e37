import Wlcs.Geometry.Rectangle

/-!
# Where a layer surface is expected

`LayerSurfaceLayout` of the layer shell tests computes from the anchors and margins of a surface the place that the
compositor should give it on an output. It treats the two axes alike.

* `Axis` : the anchors and margins along one axis, and what follows for the size and the position;
* `Axis.Fits` : the output has room for the surface and its margins;
* `LayerSurfaceLayout.placementRect` : the two axes put together;
* `placement_rect_is_placed` : the result lies inside the output, at the margins of its anchored edges.
-/

namespace Wlcs.Geometry

/-! ## One axis -/

/-- Along one axis: whether the surface is anchored to the near (left or top) and to the far edge, the margins there, and
the size it has if it is not stretched. -/
structure Axis where
  near : Bool
  far : Bool
  nearMargin : Int
  farMargin : Int
  defaultSize : Int

namespace Axis

def expand (axis : Axis) : Bool := axis.near && axis.far

/-- What the compositor tells the client; 0 leaves the choice to the client. -/
def configureSize (axis : Axis) (extent : Int) : Int :=
  if axis.expand then extent - axis.nearMargin - axis.farMargin else 0

def requestSize (axis : Axis) : Int := if axis.expand then 0 else axis.defaultSize

def placedSize (axis : Axis) (extent : Int) : Int :=
  if axis.configureSize extent ≠ 0 then axis.configureSize extent else axis.defaultSize

def position (axis : Axis) (start extent : Int) : Int :=
  if axis.near then
    start + axis.nearMargin
  else if axis.far then
    start + extent - axis.placedSize extent - axis.farMargin
  else
    start + (extent - axis.placedSize extent).tdiv 2

/-- The output leaves room between the margins, and enough of it for the default size where that is used. -/
structure Fits (axis : Axis) (extent : Int) : Prop where
  near : 0 ≤ axis.nearMargin
  far : 0 ≤ axis.farMargin
  margins : axis.nearMargin + axis.farMargin < extent
  default : axis.expand = false → axis.defaultSize + axis.nearMargin + axis.farMargin ≤ extent

theorem placedSize_of_expand {axis : Axis} {extent : Int} (h : axis.Fits extent) (hexpand : axis.expand = true) :
    axis.placedSize extent = extent - axis.nearMargin - axis.farMargin := by
  have hconfigure : axis.configureSize extent = extent - axis.nearMargin - axis.farMargin := if_pos hexpand
  have := h.margins
  rw [placedSize, if_pos (by omega), hconfigure]

theorem placedSize_of_not_expand {axis : Axis} (extent : Int) (hexpand : axis.expand = false) :
    axis.placedSize extent = axis.defaultSize := by
  have hconfigure : axis.configureSize extent = 0 := by
    rw [configureSize, hexpand]
    rfl
  rw [placedSize, if_neg (fun hne => hne hconfigure)]

/-- The size leaves room for both margins, whether it is stretched to them or not. -/
theorem placedSize_le {axis : Axis} {extent : Int} (h : axis.Fits extent) :
    axis.placedSize extent + axis.nearMargin + axis.farMargin ≤ extent := by
  by_cases hexpand : axis.expand = true
  · rw [placedSize_of_expand h hexpand]
    omega
  · have hfalse := Bool.eq_false_iff.mpr hexpand
    rw [placedSize_of_not_expand extent hfalse]
    exact h.default hfalse

theorem requestSize_of_configureSize_eq_zero {axis : Axis} {extent : Int} (h : axis.Fits extent)
    (hzero : axis.configureSize extent = 0) : axis.defaultSize = axis.requestSize := by
  have hexpand : ¬ axis.expand = true := by
    intro hexpand
    have := h.margins
    rw [configureSize, if_pos hexpand] at hzero
    omega
  rw [requestSize, if_neg hexpand]

theorem position_near (axis : Axis) (start extent : Int) (h : axis.near = true) :
    axis.position start extent = start + axis.nearMargin := if_pos h

theorem position_far {axis : Axis} {extent : Int} (start : Int) (hfits : axis.Fits extent) (h : axis.far = true) :
    axis.position start extent + axis.placedSize extent = start + extent - axis.farMargin := by
  by_cases hnear : axis.near = true
  · -- anchored to both edges: the size makes up for the position
    have hexpand : axis.expand = true := by rw [expand, hnear, h]; rfl
    rw [position_near axis start extent hnear, placedSize_of_expand hfits hexpand]
    omega
  · rw [position, if_neg hnear, if_pos h]
    omega

theorem position_center {axis : Axis} (start extent : Int) (hnear : axis.near = false) (hfar : axis.far = false) :
    axis.position start extent = start + (extent - axis.placedSize extent).tdiv 2 := by
  rw [position, if_neg (Bool.eq_false_iff.mp hnear), if_neg (Bool.eq_false_iff.mp hfar)]

theorem position_mem {axis : Axis} {extent : Int} (start : Int) (h : axis.Fits extent) :
    start ≤ axis.position start extent ∧ axis.position start extent + axis.placedSize extent ≤ start + extent := by
  have hsize := placedSize_le h
  have := h.near
  have := h.far
  by_cases hnear : axis.near = true
  · rw [position_near axis start extent hnear]
    omega
  · by_cases hfar : axis.far = true
    · have := position_far start h hfar
      omega
    · rw [position_center start extent (Bool.eq_false_iff.mpr hnear) (Bool.eq_false_iff.mpr hfar),
        Int.tdiv_eq_ediv_of_nonneg (by omega)]
      omega

/-- Without an anchor the gaps on the two sides differ by the remainder of the halving. -/
theorem position_gaps {axis : Axis} {extent : Int} (start : Int) (h : axis.Fits extent) (hnear : axis.near = false)
    (hfar : axis.far = false) :
    ((axis.position start extent - start) -
      (start + extent - (axis.position start extent + axis.placedSize extent))).natAbs ≤ 1 := by
  have hsize := placedSize_le h
  have := h.near
  have := h.far
  rw [position_center start extent hnear hfar, Int.tdiv_eq_ediv_of_nonneg (by omega)]
  omega

theorem position_add (axis : Axis) (start extent d : Int) :
    axis.position (start + d) extent = axis.position start extent + d := by
  unfold position
  split
  · omega
  · split <;> omega

end Axis

/-! ## The layout -/

structure Anchor where
  left : Bool
  right : Bool
  top : Bool
  bottom : Bool
deriving DecidableEq, Repr

structure Margin where
  left : Int
  right : Int
  top : Int
  bottom : Int
deriving DecidableEq, Repr

structure LayerSurfaceLayout where
  anchor : Anchor
  margin : Margin := ⟨0, 0, 0, 0⟩
deriving DecidableEq, Repr

/-- `LayerSurfaceTest::default_size` -/
def defaultSize : Size := ⟨200, 300⟩

namespace LayerSurfaceLayout

def horizontal (layout : LayerSurfaceLayout) : Axis :=
  ⟨layout.anchor.left, layout.anchor.right, layout.margin.left, layout.margin.right, defaultSize.width⟩

def vertical (layout : LayerSurfaceLayout) : Axis :=
  ⟨layout.anchor.top, layout.anchor.bottom, layout.margin.top, layout.margin.bottom, defaultSize.height⟩

def hExpand (layout : LayerSurfaceLayout) : Bool := layout.horizontal.expand

def vExpand (layout : LayerSurfaceLayout) : Bool := layout.vertical.expand

def requestSize (layout : LayerSurfaceLayout) : Size :=
  ⟨layout.horizontal.requestSize, layout.vertical.requestSize⟩

def configureSize (layout : LayerSurfaceLayout) (output : Rectangle) : Size :=
  ⟨layout.horizontal.configureSize output.size.width, layout.vertical.configureSize output.size.height⟩

def placementRect (layout : LayerSurfaceLayout) (output : Rectangle) : Rectangle where
  topLeft :=
    ⟨layout.horizontal.position output.topLeft.x output.size.width,
      layout.vertical.position output.topLeft.y output.size.height⟩
  size := ⟨layout.horizontal.placedSize output.size.width, layout.vertical.placedSize output.size.height⟩

/-- The margins are not negative, and on each axis the output is larger than the two margins and, unless the surface is
stretched, has room for the default size between them. -/
structure Fits (layout : LayerSurfaceLayout) (output : Rectangle) : Prop where
  left : 0 ≤ layout.margin.left
  right : 0 ≤ layout.margin.right
  top : 0 ≤ layout.margin.top
  bottom : 0 ≤ layout.margin.bottom
  width : layout.margin.left + layout.margin.right < output.size.width
  height : layout.margin.top + layout.margin.bottom < output.size.height
  defaultWidth : layout.hExpand = false →
    defaultSize.width + layout.margin.left + layout.margin.right ≤ output.size.width
  defaultHeight : layout.vExpand = false →
    defaultSize.height + layout.margin.top + layout.margin.bottom ≤ output.size.height

theorem Fits.horizontal {layout : LayerSurfaceLayout} {output : Rectangle} (h : layout.Fits output) :
    layout.horizontal.Fits output.size.width := ⟨h.left, h.right, h.width, h.defaultWidth⟩

theorem Fits.vertical {layout : LayerSurfaceLayout} {output : Rectangle} (h : layout.Fits output) :
    layout.vertical.Fits output.size.height := ⟨h.top, h.bottom, h.height, h.defaultHeight⟩

end LayerSurfaceLayout

/-- The rectangle moved by a displacement. -/
def Rectangle.translate (r : Rectangle) (dx dy : Int) : Rectangle := ⟨⟨r.topLeft.x + dx, r.topLeft.y + dy⟩, r.size⟩

/-- The rectangle lies inside the output with its anchored edges at their margins, is centred on an axis without anchors,
has the configured or else the default size, and moves with the output. -/
theorem placement_rect_is_placed (layout : LayerSurfaceLayout) (output : Rectangle) (h : layout.Fits output) :
    output.contains (layout.placementRect output) ∧
    ((layout.anchor.left = true → (layout.placementRect output).left = output.left + layout.margin.left) ∧
      (layout.anchor.right = true → (layout.placementRect output).right = output.right - layout.margin.right) ∧
      (layout.anchor.top = true → (layout.placementRect output).top = output.top + layout.margin.top) ∧
      (layout.anchor.bottom = true → (layout.placementRect output).bottom = output.bottom - layout.margin.bottom)) ∧
    ((layout.anchor.left = false → layout.anchor.right = false →
        (((layout.placementRect output).left - output.left) -
          (output.right - (layout.placementRect output).right)).natAbs ≤ 1) ∧
      (layout.anchor.top = false → layout.anchor.bottom = false →
        (((layout.placementRect output).top - output.top) -
          (output.bottom - (layout.placementRect output).bottom)).natAbs ≤ 1)) ∧
    ((layout.placementRect output).size.width =
        (if (layout.configureSize output).width ≠ 0 then (layout.configureSize output).width else defaultSize.width) ∧
      ((layout.configureSize output).width = 0 → defaultSize.width = layout.requestSize.width) ∧
      (layout.placementRect output).size.height =
        (if (layout.configureSize output).height ≠ 0 then (layout.configureSize output).height
          else defaultSize.height) ∧
      ((layout.configureSize output).height = 0 → defaultSize.height = layout.requestSize.height)) ∧
    (∀ dx dy, layout.placementRect (output.translate dx dy) = (layout.placementRect output).translate dx dy) := by
  have hx := Axis.position_mem output.topLeft.x h.horizontal
  have hy := Axis.position_mem output.topLeft.y h.vertical
  refine ⟨?_, ⟨?_, ?_, ?_, ?_⟩, ⟨?_, ?_⟩, ⟨rfl, ?_, rfl, ?_⟩, ?_⟩
  · exact (Rectangle.contains_iff _ _).mpr ⟨hx.1, hx.2, hy.1, hy.2⟩
  · exact Axis.position_near layout.horizontal output.topLeft.x output.size.width
  · exact Axis.position_far output.topLeft.x h.horizontal
  · exact Axis.position_near layout.vertical output.topLeft.y output.size.height
  · exact Axis.position_far output.topLeft.y h.vertical
  · exact Axis.position_gaps output.topLeft.x h.horizontal
  · exact Axis.position_gaps output.topLeft.y h.vertical
  · exact Axis.requestSize_of_configureSize_eq_zero h.horizontal
  · exact Axis.requestSize_of_configureSize_eq_zero h.vertical
  · intro dx dy
    unfold LayerSurfaceLayout.placementRect Rectangle.translate
    simp only [Axis.position_add]

/-- Stretched from left to right and centred from top to bottom, on an output of odd height. -/
theorem placement_rect_is_placed_stretched :
    LayerSurfaceLayout.Fits ⟨⟨true, true, false, false⟩, ⟨6, 9, 12, 15⟩⟩ ⟨⟨-100, 50⟩, ⟨640, 481⟩⟩ ∧
      (LayerSurfaceLayout.placementRect ⟨⟨true, true, false, false⟩, ⟨6, 9, 12, 15⟩⟩ ⟨⟨-100, 50⟩, ⟨640, 481⟩⟩).right =
        540 - 9 :=
  let hfits : LayerSurfaceLayout.Fits ⟨⟨true, true, false, false⟩, ⟨6, 9, 12, 15⟩⟩ ⟨⟨-100, 50⟩, ⟨640, 481⟩⟩ :=
    ⟨by decide, by decide, by decide, by decide, by decide, by decide, by decide, by decide⟩
  ⟨hfits, (placement_rect_is_placed _ _ hfits).2.1.2.1 rfl⟩

end Wlcs.Geometry
