import Wlcs.Geometry.Rectangle
import Wlcs.Lib.Placement

/-!
# Popup positioners

The popup tests describe where a popup should go once, by `PositionerParams` in the terms of the stable xdg-shell, and run
with three managers: `XdgPopupStableManager`, `XdgPopupV6Manager` and `LayerV1PopupManager`. The second one translates the
parameters for the unstable protocol, which names edges by a bit mask and not by an enumeration.

* `Protocol`, `Positioner` : what the two protocols make of the requests on a positioner;
* `Manager.setup` : the requests of the managers;
* `placements_agree_iff` : when the popup is placed alike, whichever manager is used.
-/

namespace Wlcs.Popup
open Placement Wlcs.Geometry

/-! ## The parameters -/

/-- `xdg_positioner_anchor` -/
inductive Anchor
  | none
  | top
  | bottom
  | left
  | right
  | topLeft
  | bottomLeft
  | topRight
  | bottomRight
deriving DecidableEq, Repr

/-- `xdg_positioner_gravity` -/
inductive Gravity
  | none
  | top
  | bottom
  | left
  | right
  | topLeft
  | bottomLeft
  | topRight
  | bottomRight
deriving DecidableEq, Repr

/-- The values of xdg-shell.xml. -/
def Anchor.value : Anchor → BitVec 32
  | .none => 0
  | .top => 1
  | .bottom => 2
  | .left => 3
  | .right => 4
  | .topLeft => 5
  | .bottomLeft => 6
  | .topRight => 7
  | .bottomRight => 8

def Gravity.value : Gravity → BitVec 32
  | .none => 0
  | .top => 1
  | .bottom => 2
  | .left => 3
  | .right => 4
  | .topLeft => 5
  | .bottomLeft => 6
  | .topRight => 7
  | .bottomRight => 8

def windowWidth : Int := 400

def windowHeight : Int := 500

def popupWidth : Int := 60

def popupHeight : Int := 40

structure PositionerParams where
  popupSize : Int × Int := (popupWidth, popupHeight)
  anchorRect : (Int × Int) × (Int × Int) := ((0, 0), (windowWidth, windowHeight))
  anchorStable : Option Anchor := none
  gravityStable : Option Gravity := none
  constraintAdjustmentStable : Option (BitVec 32) := none
  offset : Option (Int × Int) := none
  reactive : Bool := false
deriving DecidableEq, Repr

/-! ## The translation -/

namespace V6

/-- The bits of `zxdg_positioner_v6_anchor`. -/
def anchorNone : BitVec 32 := 0
def anchorTop : BitVec 32 := 1
def anchorBottom : BitVec 32 := 2
def anchorLeft : BitVec 32 := 4
def anchorRight : BitVec 32 := 8

/-- The bits of `zxdg_positioner_v6_gravity`. -/
def gravityNone : BitVec 32 := 0
def gravityTop : BitVec 32 := 1
def gravityBottom : BitVec 32 := 2
def gravityLeft : BitVec 32 := 4
def gravityRight : BitVec 32 := 8

end V6

def anchorStableToV6 : Anchor → BitVec 32
  | .none => V6.anchorNone
  | .top => V6.anchorTop
  | .bottom => V6.anchorBottom
  | .left => V6.anchorLeft
  | .right => V6.anchorRight
  | .topLeft => V6.anchorTop ||| V6.anchorLeft
  | .bottomLeft => V6.anchorBottom ||| V6.anchorLeft
  | .topRight => V6.anchorTop ||| V6.anchorRight
  | .bottomRight => V6.anchorBottom ||| V6.anchorRight

def gravityStableToV6 : Gravity → BitVec 32
  | .none => V6.gravityNone
  | .top => V6.gravityTop
  | .bottom => V6.gravityBottom
  | .left => V6.gravityLeft
  | .right => V6.gravityRight
  | .topLeft => V6.gravityTop ||| V6.gravityLeft
  | .bottomLeft => V6.gravityBottom ||| V6.gravityLeft
  -- the source has the anchors here, whose values are the same
  | .topRight => V6.anchorTop ||| V6.anchorRight
  | .bottomRight => V6.gravityBottom ||| V6.gravityRight

def constraintAdjustmentStableToV6 (ca : BitVec 32) : BitVec 32 := ca

/-! ## The requests -/

/-- The requests of `xdg_positioner` that the managers make; those of `zxdg_positioner_v6` have the same names. -/
inductive Request
  | setSize (width height : Int)
  | setAnchorRect (x y width height : Int)
  | setAnchor (anchor : BitVec 32)
  | setGravity (gravity : BitVec 32)
  | setConstraintAdjustment (adjustment : BitVec 32)
  | setOffset (x y : Int)
  | setReactive
deriving DecidableEq, Repr

/-- What every manager requests, with its own words for edges and adjustments. -/
def PositionerParams.requests (param : PositionerParams) (anchor : Anchor → BitVec 32) (gravity : Gravity → BitVec 32)
    (adjustment : BitVec 32 → BitVec 32) : List Request :=
  [.setSize param.popupSize.1 param.popupSize.2,
    .setAnchorRect param.anchorRect.1.1 param.anchorRect.1.2 param.anchorRect.2.1 param.anchorRect.2.2] ++
  (param.anchorStable.map fun a => Request.setAnchor (anchor a)).toList ++
  (param.gravityStable.map fun g => Request.setGravity (gravity g)).toList ++
  (param.constraintAdjustmentStable.map fun c => Request.setConstraintAdjustment (adjustment c)).toList ++
  (param.offset.map fun o => Request.setOffset o.1 o.2).toList

/-- `XDG_POSITIONER_SET_REACTIVE_SINCE_VERSION` is 3. -/
def setupPositioner (version : Nat) (param : PositionerParams) : Except String (List Request) :=
  let requests := param.requests Anchor.value Gravity.value id
  if param.reactive then
    if version < 3 then
      .error "XDG shell version does not support reactive popups"
    else
      .ok (requests ++ [.setReactive])
  else
    .ok requests

inductive Manager
  | stable
  | v6
  | layer
deriving DecidableEq, Repr

/-- What `setup_popup` of a manager requests of the positioner; `version` is that of the `xdg_positioner`. -/
def Manager.setup (version : Nat) (param : PositionerParams) : Manager → Except String (List Request)
  | .stable => setupPositioner version param
  | .v6 => .ok (param.requests anchorStableToV6 gravityStableToV6 constraintAdjustmentStableToV6)
  -- `LayerV1PopupManager` does not look at `reactive`
  | .layer => .ok (param.requests Anchor.value Gravity.value id)

/-! ## What the protocols make of them -/

/-- A point of a rectangle, or a direction, along both axes. -/
structure Edges where
  x : Side := .middle
  y : Side := .middle
deriving DecidableEq, Repr

/-- Where the protocols differ: the words for edges, and whether an anchor rectangle may have a size of 0, as it has in the
test `zero_size_anchor_rect_stable`. -/
structure Protocol where
  edges : BitVec 32 → Option Edges
  emptyRect : Bool

/-- xdg-shell.xml: the edge or corner of an enumeration. -/
def Protocol.stable : Protocol where
  edges value :=
    match value.toNat with
    | 0 => some ⟨.middle, .middle⟩
    | 1 => some ⟨.middle, .near⟩
    | 2 => some ⟨.middle, .far⟩
    | 3 => some ⟨.near, .middle⟩
    | 4 => some ⟨.far, .middle⟩
    | 5 => some ⟨.near, .near⟩
    | 6 => some ⟨.near, .far⟩
    | 7 => some ⟨.far, .near⟩
    | 8 => some ⟨.far, .far⟩
    | _ => none
  emptyRect := true

/-- Two edges of one axis; both of them is the error `invalid_input`. -/
def side (near far : Bool) : Option Side :=
  match near, far with
  | false, false => some .middle
  | true, false => some .near
  | false, true => some .far
  | true, true => none

/-- xdg-shell-unstable-v6.xml: a bit for each edge. -/
def Protocol.v6 : Protocol where
  edges value :=
    (side (value &&& V6.anchorLeft ≠ 0) (value &&& V6.anchorRight ≠ 0)).bind fun x =>
      (side (value &&& V6.anchorTop ≠ 0) (value &&& V6.anchorBottom ≠ 0)).map fun y => ⟨x, y⟩
  emptyRect := false

def Manager.protocol : Manager → Protocol
  | .stable | .layer => .stable
  | .v6 => .v6

/-- The state of a positioner. -/
structure Positioner where
  size : Option (Int × Int) := none
  anchorRect : Option ((Int × Int) × (Int × Int)) := none
  anchor : Edges := {}
  gravity : Edges := {}
  adjustment : BitVec 32 := 0
  offset : Int × Int := (0, 0)
  reactive : Bool := false
deriving DecidableEq, Repr

/-- A request on a positioner; none is the error `invalid_input`. -/
def Positioner.handle (protocol : Protocol) (p : Positioner) : Request → Option Positioner
  | .setSize width height => if 0 < width ∧ 0 < height then some { p with size := some (width, height) } else none
  | .setAnchorRect x y width height =>
      if 0 ≤ width ∧ 0 ≤ height ∧ (protocol.emptyRect ∨ width ≠ 0 ∧ height ≠ 0) then
        some { p with anchorRect := some ((x, y), (width, height)) }
      else
        none
  | .setAnchor anchor => (protocol.edges anchor).map fun e => { p with anchor := e }
  | .setGravity gravity => (protocol.edges gravity).map fun e => { p with gravity := e }
  | .setConstraintAdjustment adjustment => some { p with adjustment := adjustment }
  | .setOffset x y => some { p with offset := (x, y) }
  | .setReactive => some { p with reactive := true }

/-- The arguments of `xdg_popup.configure`, as `XdgPopupManagerBase::State` keeps them. -/
structure State where
  x : Int
  y : Int
  width : Int
  height : Int
deriving DecidableEq, Repr

/-- The rules of a positioner along the x axis. -/
def Positioner.rulesX (p : Positioner) (size : Int × Int) (rect : (Int × Int) × (Int × Int)) : Rules where
  size := size.1
  anchorRect := ⟨rect.1.1, rect.2.1⟩
  anchor := p.anchor.x
  gravity := p.gravity.x
  offset := p.offset.1
  adjustment :=
    { flip := p.adjustment &&& 4 ≠ 0, slide := p.adjustment &&& 1 ≠ 0, resize := p.adjustment &&& 16 ≠ 0 }

def Positioner.rulesY (p : Positioner) (size : Int × Int) (rect : (Int × Int) × (Int × Int)) : Rules where
  size := size.2
  anchorRect := ⟨rect.1.2, rect.2.2⟩
  anchor := p.anchor.y
  gravity := p.gravity.y
  offset := p.offset.2
  adjustment :=
    { flip := p.adjustment &&& 8 ≠ 0, slide := p.adjustment &&& 2 ≠ 0, resize := p.adjustment &&& 32 ≠ 0 }

/-- Where the popup of a parent at the given position is placed, relative to its parent. `region` is what the compositor
constrains popups to. A positioner without a size or without an anchor rectangle is the error `invalid_positioner`. -/
def Positioner.configure (p : Positioner) (parent : Int × Int) (region : Rectangle) : Option State :=
  match p.size, p.anchorRect with
  | some size, some rect =>
      let x := (p.rulesX size rect).place ⟨region.left - parent.1, region.right - parent.1⟩
      let y := (p.rulesY size rect).place ⟨region.top - parent.2, region.bottom - parent.2⟩
      some ⟨x.start, y.start, x.length, y.length⟩
  | _, _ => none

/-- What a compositor that follows the protocol answers to the requests; none is a protocol error. -/
def answer (protocol : Protocol) (requests : List Request) (parent : Int × Int) (region : Rectangle) : Option State :=
  (requests.foldlM (Positioner.handle protocol) {}).bind (·.configure parent region)

/-- What the test of a manager should be told of its popup, unless the manager gives up. -/
def placement (version : Nat) (param : PositionerParams) (parent : Int × Int) (region : Rectangle) (manager : Manager) :
    Except String (Option State) :=
  (manager.setup version param).map fun requests => answer manager.protocol requests parent region

/-! ## The meaning of the parameters -/

/-- The edges that an anchor names. -/
def Anchor.edges : Anchor → Edges
  | .none => ⟨.middle, .middle⟩
  | .top => ⟨.middle, .near⟩
  | .bottom => ⟨.middle, .far⟩
  | .left => ⟨.near, .middle⟩
  | .right => ⟨.far, .middle⟩
  | .topLeft => ⟨.near, .near⟩
  | .bottomLeft => ⟨.near, .far⟩
  | .topRight => ⟨.far, .near⟩
  | .bottomRight => ⟨.far, .far⟩

def Gravity.edges : Gravity → Edges
  | .none => ⟨.middle, .middle⟩
  | .top => ⟨.middle, .near⟩
  | .bottom => ⟨.middle, .far⟩
  | .left => ⟨.near, .middle⟩
  | .right => ⟨.far, .middle⟩
  | .topLeft => ⟨.near, .near⟩
  | .bottomLeft => ⟨.near, .far⟩
  | .topRight => ⟨.far, .near⟩
  | .bottomRight => ⟨.far, .far⟩

/-- The positioner that the parameters describe. -/
def PositionerParams.positioner (param : PositionerParams) : Positioner where
  size := some param.popupSize
  anchorRect := some param.anchorRect
  anchor := (param.anchorStable.map Anchor.edges).getD {}
  gravity := (param.gravityStable.map Gravity.edges).getD {}
  adjustment := param.constraintAdjustmentStable.getD 0
  offset := param.offset.getD (0, 0)

/-- The protocol has no rule for the sizes. -/
def PositionerParams.Refused (param : PositionerParams) (protocol : Protocol) : Prop :=
  param.popupSize.1 ≤ 0 ∨ param.popupSize.2 ≤ 0 ∨ param.anchorRect.2.1 < 0 ∨ param.anchorRect.2.2 < 0 ∨
    protocol.emptyRect = false ∧ (param.anchorRect.2.1 = 0 ∨ param.anchorRect.2.2 = 0)

instance (param : PositionerParams) (protocol : Protocol) : Decidable (param.Refused protocol) :=
  inferInstanceAs (Decidable (_ ∨ _ ∨ _ ∨ _ ∨ _))

theorem refused_iff_of_emptyRect {protocol : Protocol} (h : protocol.emptyRect = true) (param : PositionerParams) :
    param.Refused protocol ↔
      param.popupSize.1 ≤ 0 ∨ param.popupSize.2 ≤ 0 ∨ param.anchorRect.2.1 < 0 ∨ param.anchorRect.2.2 < 0 := by
  simp only [PositionerParams.Refused, h, Bool.true_eq_false, false_and, or_false]

theorem refused_iff_of_not_emptyRect {protocol : Protocol} (h : protocol.emptyRect = false) (param : PositionerParams) :
    param.Refused protocol ↔
      param.popupSize.1 ≤ 0 ∨ param.popupSize.2 ≤ 0 ∨ param.anchorRect.2.1 ≤ 0 ∨ param.anchorRect.2.2 ≤ 0 := by
  simp only [PositionerParams.Refused, h, true_and]
  omega

/-- The sizes are in order but for an anchor rectangle that is empty. -/
def PositionerParams.Degenerate (param : PositionerParams) : Prop :=
  (0 < param.popupSize.1 ∧ 0 < param.popupSize.2) ∧ (0 ≤ param.anchorRect.2.1 ∧ 0 ≤ param.anchorRect.2.2) ∧
    (param.anchorRect.2.1 = 0 ∨ param.anchorRect.2.2 = 0)

/-- The words stand for the edges in the protocol. -/
structure Protocol.Names (protocol : Protocol) (anchor : Anchor → BitVec 32) (gravity : Gravity → BitVec 32) : Prop where
  anchor : ∀ a, protocol.edges (anchor a) = some a.edges
  gravity : ∀ g, protocol.edges (gravity g) = some g.edges

theorem stable_names : Protocol.stable.Names Anchor.value Gravity.value where
  anchor a := by cases a <;> rfl
  gravity g := by cases g <;> rfl

theorem v6_names : Protocol.v6.Names anchorStableToV6 gravityStableToV6 where
  anchor a := by cases a <;> rfl
  gravity g := by cases g <;> rfl

section Meaning
variable {protocol : Protocol} {anchor : Anchor → BitVec 32} {gravity : Gravity → BitVec 32}

theorem foldlM_anchor (h : protocol.Names anchor gravity) (p : Positioner) (o : Option Anchor) :
    (o.map fun a => Request.setAnchor (anchor a)).toList.foldlM (Positioner.handle protocol) p =
      some { p with anchor := (o.map Anchor.edges).getD p.anchor } := by
  cases o with
  | none => rfl
  | some a => simp [Positioner.handle, h.anchor]

theorem foldlM_gravity (h : protocol.Names anchor gravity) (p : Positioner) (o : Option Gravity) :
    (o.map fun g => Request.setGravity (gravity g)).toList.foldlM (Positioner.handle protocol) p =
      some { p with gravity := (o.map Gravity.edges).getD p.gravity } := by
  cases o with
  | none => rfl
  | some g => simp [Positioner.handle, h.gravity]

theorem foldlM_adjustment (p : Positioner) (o : Option (BitVec 32)) :
    (o.map fun c => Request.setConstraintAdjustment (id c)).toList.foldlM (Positioner.handle protocol) p =
      some { p with adjustment := o.getD p.adjustment } := by
  cases o with
  | _ => rfl

theorem foldlM_offset (p : Positioner) (o : Option (Int × Int)) :
    (o.map fun o => Request.setOffset o.1 o.2).toList.foldlM (Positioner.handle protocol) p =
      some { p with offset := o.getD p.offset } := by
  cases o with
  | _ => rfl

/-- The requests lead to the positioner that the parameters describe, unless the first two of them are refused. -/
theorem foldlM_requests (h : protocol.Names anchor gravity) (param : PositionerParams) :
    (param.requests anchor gravity id).foldlM (Positioner.handle protocol) {} =
      if param.Refused protocol then none else some param.positioner := by
  have hrest (p : Positioner) :
      ((((param.anchorStable.map fun a => Request.setAnchor (anchor a)).toList ++
        (param.gravityStable.map fun g => Request.setGravity (gravity g)).toList) ++
        (param.constraintAdjustmentStable.map fun c => Request.setConstraintAdjustment (id c)).toList) ++
        (param.offset.map fun o => Request.setOffset o.1 o.2).toList).foldlM (Positioner.handle protocol) p =
      some { p with
        anchor := (param.anchorStable.map Anchor.edges).getD p.anchor
        gravity := (param.gravityStable.map Gravity.edges).getD p.gravity
        adjustment := param.constraintAdjustmentStable.getD p.adjustment
        offset := param.offset.getD p.offset } := by
    simp only [List.foldlM_append, foldlM_anchor h, foldlM_gravity h, foldlM_adjustment, foldlM_offset,
      Option.bind_eq_bind, Option.bind_some]
  rw [PositionerParams.requests, List.append_assoc, List.append_assoc, List.append_assoc, List.foldlM_append,
    ← List.append_assoc, ← List.append_assoc]
  have hrefused : param.Refused protocol ↔ ¬ ((0 < param.popupSize.1 ∧ 0 < param.popupSize.2) ∧
      0 ≤ param.anchorRect.2.1 ∧ 0 ≤ param.anchorRect.2.2 ∧
        (protocol.emptyRect ∨ param.anchorRect.2.1 ≠ 0 ∧ param.anchorRect.2.2 ≠ 0)) := by
    cases hempty : protocol.emptyRect with
    | true =>
        rw [refused_iff_of_emptyRect hempty]
        simp only [true_or, and_true]
        omega
    | false =>
        rw [refused_iff_of_not_emptyRect hempty]
        simp only [Bool.false_eq_true, false_or]
        omega
  simp only [hrefused]
  by_cases hsize : 0 < param.popupSize.1 ∧ 0 < param.popupSize.2
  · by_cases hrect : 0 ≤ param.anchorRect.2.1 ∧ 0 ≤ param.anchorRect.2.2 ∧
        (protocol.emptyRect ∨ param.anchorRect.2.1 ≠ 0 ∧ param.anchorRect.2.2 ≠ 0)
    · rw [if_neg (not_not.mpr ⟨hsize, hrect⟩)]
      simp only [List.foldlM_cons, List.foldlM_nil, Positioner.handle, if_pos hsize, if_pos hrect,
        Option.bind_eq_bind, Option.bind_some, Option.pure_def, hrest]
      rfl
    · rw [if_pos (fun hboth => hrect hboth.2)]
      simp only [List.foldlM_cons, Positioner.handle, if_pos hsize, if_neg hrect, Option.bind_eq_bind,
        Option.bind_some, Option.bind_none]
  · rw [if_pos (fun hboth => hsize hboth.1)]
    simp only [List.foldlM_cons, Positioner.handle, if_neg hsize, Option.bind_eq_bind, Option.bind_none]

def PositionerParams.rulesX (param : PositionerParams) : Rules := param.positioner.rulesX param.popupSize param.anchorRect

def PositionerParams.rulesY (param : PositionerParams) : Rules := param.positioner.rulesY param.popupSize param.anchorRect

/-- What becomes of the popup that the parameters describe. -/
def PositionerParams.configured (param : PositionerParams) (parent : Int × Int) (region : Rectangle) : State :=
  let x := param.rulesX.place ⟨region.left - parent.1, region.right - parent.1⟩
  let y := param.rulesY.place ⟨region.top - parent.2, region.bottom - parent.2⟩
  ⟨x.start, y.start, x.length, y.length⟩

/-- A protocol that has the words makes of the requests what the parameters describe. -/
theorem answer_requests (h : protocol.Names anchor gravity) (param : PositionerParams) (parent : Int × Int)
    (region : Rectangle) :
    answer protocol (param.requests anchor gravity id) parent region =
      if param.Refused protocol then none else some (param.configured parent region) := by
  rw [answer, foldlM_requests h]
  split
  · rfl
  · rfl

end Meaning

/-- That a popup is reactive does not matter to where it is placed first. -/
theorem answer_setReactive (protocol : Protocol) (requests : List Request) (parent : Int × Int) (region : Rectangle) :
    answer protocol (requests ++ [.setReactive]) parent region = answer protocol requests parent region := by
  rw [answer, answer, List.foldlM_append]
  cases requests.foldlM (Positioner.handle protocol) {} with
  | _ => rfl

section Placement
variable (version : Nat) (param : PositionerParams) (parent : Int × Int) (region : Rectangle)

theorem placement_layer :
    placement version param parent region .layer =
      .ok (if param.Refused .stable then none else some (param.configured parent region)) :=
  congrArg Except.ok (answer_requests stable_names param parent region)

theorem placement_v6 :
    placement version param parent region .v6 =
      .ok (if param.Refused .v6 then none else some (param.configured parent region)) :=
  congrArg Except.ok (answer_requests v6_names param parent region)

theorem placement_stable :
    placement version param parent region .stable =
      if param.reactive ∧ version < 3 then .error "XDG shell version does not support reactive popups"
      else placement version param parent region .layer := by
  rw [placement_layer, ← answer_requests stable_names, placement, Manager.setup, setupPositioner]
  by_cases hreactive : param.reactive = true
  · rw [if_pos hreactive]
    by_cases hversion : version < 3
    · rw [if_pos hversion, if_pos ⟨hreactive, hversion⟩]
      rfl
    · rw [if_neg hversion, if_neg (fun h => hversion h.2), ← answer_setReactive]
      rfl
  · rw [if_neg hreactive, if_neg (fun h => hreactive h.1)]
    rfl

/-- The unstable protocol refuses more only because of empty rectangles. -/
theorem refused_v6_iff : param.Refused .v6 ↔ param.Refused .stable ∨ param.Degenerate := by
  rw [refused_iff_of_not_emptyRect rfl, refused_iff_of_emptyRect rfl]
  unfold PositionerParams.Degenerate
  omega

theorem not_refused_of_degenerate (h : param.Degenerate) : ¬ param.Refused .stable := by
  rw [refused_iff_of_emptyRect rfl]
  unfold PositionerParams.Degenerate at h
  omega

/-- **The managers agree** unless the anchor rectangle is empty: wherever the parent is and whatever the compositor keeps
popups in, the translated requests get the popup the same place as those of the stable protocol, or are refused where
they are. A popup beside an empty rectangle is refused by the unstable protocol alone. Of the two managers that use the
stable protocol one gives up on a reactive popup that its protocol is too old for. -/
theorem placements_agree_iff :
    (placement version param parent region .v6 = placement version param parent region .layer ↔ ¬ param.Degenerate) ∧
      placement version param parent region .stable =
        if param.reactive ∧ version < 3 then .error "XDG shell version does not support reactive popups"
        else placement version param parent region .layer := by
  refine ⟨?_, placement_stable version param parent region⟩
  rw [placement_v6, placement_layer, Except.ok.injEq]
  by_cases hdegenerate : param.Degenerate
  · rw [if_pos ((refused_v6_iff param).mpr (Or.inr hdegenerate)), if_neg (not_refused_of_degenerate param hdegenerate)]
    simp [hdegenerate]
  · have hsame : param.Refused .v6 ↔ param.Refused .stable := by
      rw [refused_v6_iff]
      exact or_iff_left hdegenerate
    simp only [hsame, hdegenerate, not_false_eq_true]

end Placement

end Wlcs.Popup
