import Wlcs.Lib.History
import Wlcs.Lib.Machine
import Wlcs.Lib.Session

/-!
# The outputs that a surface is on

`Surface::Impl` keeps the outputs that its surface has entered and not left. `on_enter` and `on_leave` throw if the event
does not fit what is kept, after the set has been changed or found to need no change.

* `surfaceListener` : the listener, which answers an event with what it throws;
* `surface_outputs_iff` : the set is right after every stream of events, and the listener throws exactly if the events of
  some output are out of order.
-/

namespace Wlcs.SurfaceOutputs
open EventMachine History Session

/-- A `wl_output*`. -/
abbrev OutputPtr := Nat

inductive SurfaceEvent
  | enter (output : OutputPtr)
  | leave (output : OutputPtr)
  | preferredBufferScale (factor : Int)
  | preferredBufferTransform (transform : Nat)
deriving DecidableEq, Repr

/-- The member of `Surface::Impl` that the listener writes. -/
structure Impl where
  outputs : Std.TreeSet OutputPtr := {}

section Listener
variable (proxyId : OutputPtr → Nat)

/-- The text of what `on_enter` and `on_leave` throw. -/
def unexpected (event : String) (output : OutputPtr) (state : String) : String :=
  "Got wl_surface." ++ event ++ "(wl_output@" ++ toString (proxyId output) ++ ") for an output the surface is " ++ state

def Impl.onEnter (self : Impl) (output : OutputPtr) : Impl × Option String :=
  let inserted := !self.outputs.contains output
  ({ self with outputs := self.outputs.insert output },
    if !inserted then some (unexpected proxyId "enter" output "already on") else none)

def Impl.onLeave (self : Impl) (output : OutputPtr) : Impl × Option String :=
  let erased := self.outputs.contains output
  ({ self with outputs := self.outputs.erase output },
    if !erased then some (unexpected proxyId "leave" output "not on") else none)

def surfaceListener : Transducer Impl SurfaceEvent (Option String) where
  step self
    | .enter output => self.onEnter proxyId output
    | .leave output => self.onLeave proxyId output
    | .preferredBufferScale _ => (self, none)
    | .preferredBufferTransform _ => (self, none)

/-- The outputs of a surface that has received the events. -/
def currentOutputs (es : List SurfaceEvent) : Std.TreeSet OutputPtr := ((surfaceListener proxyId).run {} es).outputs

end Listener

/-! ## The events of one output -/

/-- What an event says of an output: whether the surface is on it from now on. -/
def SurfaceEvent.change (output : OutputPtr) : SurfaceEvent → Option Bool
  | .enter o => if o = output then some true else none
  | .leave o => if o = output then some false else none
  | _ => none

/-- The latest enter or leave of the output is an enter. -/
def isOn (es : List SurfaceEvent) (output : OutputPtr) : Bool := (lastSome (SurfaceEvent.change output) es).getD false

theorem isOn_concat (es : List SurfaceEvent) (e : SurfaceEvent) (output : OutputPtr) :
    isOn (es ++ [e]) output = (e.change output).getD (isOn es output) := by
  unfold isOn
  rw [lastSome_concat]
  cases e.change output <;> rfl

/-- An output is entered, and then left. -/
def SurfaceEvent.letter (output : OutputPtr) (e : SurfaceEvent) : Option (Letter Unit Unit) :=
  (e.change output).map fun on => if on then .opens () else .closes ()

/-- The event does not change what it says. -/
def repeats (output : OutputPtr) (es : List SurfaceEvent) (e : SurfaceEvent) : Prop := e.change output = some (isOn es output)

/-- The events of the output alternate, beginning with an enter. -/
def Alternates (output : OutputPtr) (es : List SurfaceEvent) : Prop :=
  Orderly (fun _ _ => True) (es.filterMap (SurfaceEvent.letter output))

theorem reads_output (output : OutputPtr) :
    Reads (fun (_ _ : Unit) => True) (SurfaceEvent.letter output)
      (fun es => if isOn es output then some () else none) (repeats output) where
  closable _ := ⟨(), trivial⟩
  nil := rfl
  skips es e h := by
    have hnone : e.change output = none := by simpa [SurfaceEvent.letter] using h
    rw [isOn_concat, repeats, hnone]
    exact ⟨rfl, nofun⟩
  reads es e l h := by
    obtain ⟨on, hon, rfl⟩ := Option.map_eq_some_iff.mp h
    rw [isOn_concat, repeats, hon]
    cases on <;> cases isOn es output <;> simp [next]

theorem alternates_concat {output : OutputPtr} {es : List SurfaceEvent} {e : SurfaceEvent} :
    Alternates output (es ++ [e]) ↔ Alternates output es ∧ ¬ repeats output es e :=
  (reads_output output).orderly_concat

/-! ## The listener -/

section Runs
variable (proxyId : OutputPtr → Nat)

theorem contains_currentOutputs (es : List SurfaceEvent) (output : OutputPtr) :
    (currentOutputs proxyId es).contains output = isOn es output := by
  induction es using List.reverseRecOn with
  | nil => rfl
  | append_singleton es e ih =>
      rw [isOn_concat, ← ih, currentOutputs, Transducer.run_concat]
      cases e with
      | enter o =>
          show ((currentOutputs proxyId es).insert o).contains output = _
          rw [Std.TreeSet.contains_insert]
          by_cases ho : o = output
          · simp [SurfaceEvent.change, ho]
          · simp [SurfaceEvent.change, ho]
      | leave o =>
          show ((currentOutputs proxyId es).erase o).contains output = _
          rw [Std.TreeSet.contains_erase]
          by_cases ho : o = output
          · simp [SurfaceEvent.change, ho]
          · simp [SurfaceEvent.change, ho]
      | preferredBufferScale factor => rfl
      | preferredBufferTransform transform => rfl

/-- What the listener throws on an event, if it throws. -/
def complaint (es : List SurfaceEvent) (output : OutputPtr) : String :=
  if isOn es output then unexpected proxyId "enter" output "already on" else unexpected proxyId "leave" output "not on"

theorem thrown_iff (es : List SurfaceEvent) (e : SurfaceEvent) (message : String) :
    ((surfaceListener proxyId).step ((surfaceListener proxyId).run {} es) e).2 = some message ↔
      ∃ output, repeats output es e ∧ message = complaint proxyId es output := by
  have hcontains : ∀ o, ((surfaceListener proxyId).run {} es).outputs.contains o = isOn es o :=
    contains_currentOutputs proxyId es
  cases e with
  | enter o =>
      have hrepeats : ∀ output, repeats output es (.enter o) ↔ o = output ∧ true = isOn es output := by
        simp [repeats, SurfaceEvent.change]
      show (if !!((surfaceListener proxyId).run {} es).outputs.contains o then _ else none) = some message ↔ _
      rw [hcontains, Bool.not_not]
      constructor
      · intro h
        obtain ⟨hon, rfl⟩ : isOn es o = true ∧ unexpected proxyId "enter" o "already on" = message := by simpa using h
        exact ⟨o, (hrepeats o).mpr ⟨rfl, hon.symm⟩, by rw [complaint, if_pos hon]⟩
      · rintro ⟨output, h, rfl⟩
        obtain ⟨rfl, hon⟩ := (hrepeats output).mp h
        rw [complaint, ← hon]
        rfl
  | leave o =>
      have hrepeats : ∀ output, repeats output es (.leave o) ↔ o = output ∧ false = isOn es output := by
        simp [repeats, SurfaceEvent.change]
      show (if !((surfaceListener proxyId).run {} es).outputs.contains o then _ else none) = some message ↔ _
      rw [hcontains]
      constructor
      · intro h
        obtain ⟨hon, rfl⟩ : isOn es o = false ∧ unexpected proxyId "leave" o "not on" = message := by simpa using h
        exact ⟨o, (hrepeats o).mpr ⟨rfl, hon.symm⟩, by rw [complaint, hon]; rfl⟩
      · rintro ⟨output, h, rfl⟩
        obtain ⟨rfl, hon⟩ := (hrepeats output).mp h
        rw [complaint, ← hon]
        rfl
  | preferredBufferScale factor => simp [repeats, SurfaceEvent.change, surfaceListener]
  | preferredBufferTransform transform => simp [repeats, SurfaceEvent.change, surfaceListener]

/-- **The outputs of a surface.** After every stream of events, also one on which the listener has thrown, the surface is
on the outputs whose latest event is an enter. The listener throws nothing exactly if the events of each output alternate,
beginning with an enter; what it throws on the next event names the output and what is wrong with the event. -/
theorem surface_outputs_iff (es : List SurfaceEvent) :
    (∀ output, (currentOutputs proxyId es).contains output = isOn es output) ∧
      ((surfaceListener proxyId).Clean (·.isSome = true) {} es ↔ ∀ output, Alternates output es) ∧
      (∀ e message, ((surfaceListener proxyId).step ((surfaceListener proxyId).run {} es) e).2 = some message ↔
        ∃ output, repeats output es e ∧ message = complaint proxyId es output) := by
  refine ⟨contains_currentOutputs proxyId es, ?_, thrown_iff proxyId es⟩
  induction es using List.reverseRecOn with
  | nil => exact ⟨fun _ output => ⟨[], .nil, List.prefix_refl _⟩, fun _ => Transducer.clean_nil⟩
  | append_singleton es e ih =>
      rw [Transducer.clean_concat, ih]
      have hthrown : ((surfaceListener proxyId).step ((surfaceListener proxyId).run {} es) e).2.isSome = true ↔
          ∃ output, repeats output es e := by
        rw [Option.isSome_iff_exists]
        constructor
        · rintro ⟨message, hmessage⟩
          obtain ⟨output, hrepeats, -⟩ := (thrown_iff proxyId es e message).mp hmessage
          exact ⟨output, hrepeats⟩
        · rintro ⟨output, hrepeats⟩
          exact ⟨_, (thrown_iff proxyId es e _).mpr ⟨output, hrepeats, rfl⟩⟩
      rw [hthrown, not_exists, ← forall_and]
      exact forall_congr' fun output => alternates_concat.symm

end Runs

end Wlcs.SurfaceOutputs
