import Wlcs.Client.State
import Wlcs.Lib.OrdMap

/-!
# The `wl_touch` listener

`touch_down`, `touch_up`, `touch_motion` and `touch_frame` of `Client::Impl`.
-/

namespace Wlcs.Impl

def touchDown (me : Impl) (serial _time : Nat) (surface : SurfacePtr) (id : Int) (x y : WlFixed) : Impl × Report :=
  let me := { me with latestSerial := some serial }
  match me.currentTouches[id]? with
  | some _ => (me, .fail (.downTwice id))
  | none => ({ me with pendingTouches := me.pendingTouches.insert id ⟨surface, (x, y)⟩ }, {})

def touchUp (me : Impl) (serial _time : Nat) (id : Int) : Impl × Report :=
  let me := { me with latestSerial := some serial }
  match me.currentTouches[id]? with
  | none => (me, .fail (.upUnknown id))
  | some _ => ({ me with pendingUpTouches := me.pendingUpTouches.insert id }, {})

def touchMotion (me : Impl) (_time : Nat) (id : Int) (x y : WlFixed) : Impl × Report :=
  match me.currentTouches[id]? with
  | none => (me, .fail (.motionUnknown id))
  | some touch => ({ me with pendingTouches := me.pendingTouches.insert id ⟨touch.surface, (x, y)⟩ }, {})

/-- The ups are applied first, whatever the order in which the events arrived. -/
def touchFrame (me : Impl) : Impl × Report :=
  ({ me with
      currentTouches := OrdMap.assignAll (OrdMap.eraseAll me.currentTouches me.pendingUpTouches) me.pendingTouches
      pendingUpTouches := {}
      pendingTouches := {} }, {})

end Wlcs.Impl
