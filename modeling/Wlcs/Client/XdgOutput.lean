import Wlcs.Client.Output
import Wlcs.Lib.History
import Wlcs.Lib.Machine

/-!
# `XdgOutputV1`

An `XdgOutputV1` takes over each property as it is announced and is dirty until a `done` ends the batch: that of the
`zxdg_output_v1` itself before version 3, and that of its `wl_output` from version 3 on. The latter reaches the object
through the done notifiers of the output, which hold it weakly.

* `XdgClient` : the outputs of a client, and the objects made for them;
* `Gated` : what the history of a run says of an object;
* `xdg_output_gate` : `state()` returns exactly between batches, and then the last word on each property.
-/

namespace Wlcs.XdgOutput
open EventMachine History

inductive XdgOutputEvent
  | logicalPosition (x y : Int)
  | logicalSize (width height : Int)
  | done
  | name (name : String)
  | description (description : String)
deriving DecidableEq, Repr

/-- `XdgOutputV1::State` -/
structure State where
  logicalPosition : Option (Int × Int) := none
  logicalSize : Option (Int × Int) := none
  name : Option String := none
  description : Option String := none
deriving DecidableEq, Repr

/-- `XdgOutputV1::Impl`; `alive` says whether a weak pointer to it can still be locked. -/
structure XdgOutputV1 where
  outputIndex : Nat
  version : Nat
  dirty : Bool := false
  state_ : State := {}
  alive : Bool := true
deriving DecidableEq, Repr

namespace XdgOutputV1

/-- `Impl::listener` -/
def handle (me : XdgOutputV1) : XdgOutputEvent → XdgOutputV1
  | .logicalPosition x y => { me with state_ := { me.state_ with logicalPosition := some (x, y) }, dirty := true }
  | .logicalSize width height =>
    { me with state_ := { me.state_ with logicalSize := some (width, height) }, dirty := true }
  | .done => if me.version < 3 then { me with dirty := false } else me
  | .name name => { me with state_ := { me.state_ with name := some name }, dirty := true }
  | .description description =>
    { me with state_ := { me.state_ with description := some description }, dirty := true }

/-- The done notifier that the constructor registers. -/
def outputDone (me : XdgOutputV1) : XdgOutputV1 := if me.alive then { me with dirty := false } else me

def state (me : XdgOutputV1) : Except String State :=
  if me.dirty then
    let doneEvent := if me.version ≥ 3 then "wl_output.done" else "zxdg_output_v1.done"
    .error ("State change was not finished with a " ++ doneEvent ++ " event")
  else
    .ok me.state_

end XdgOutputV1

/-! ## The client -/

/-- The outputs of a client, in the order of `output_index`, and the objects made for them. The done notifiers of an
output are the numbers of the objects that they hold weakly. -/
structure XdgClient where
  outputs : List Output := []
  objects : List XdgOutputV1 := []
deriving DecidableEq, Repr

inductive Action
  | bindOutput (proxy : ProxyPtr)
  /-- the version is that of the `zxdg_output_v1` that the manager makes -/
  | construct (outputIndex version : Nat)
  | destroy (object : Nat)
  | xdgOutput (object : Nat) (e : XdgOutputEvent)
  | output (outputIndex : Nat) (e : OutputEvent)
deriving DecidableEq, Repr

namespace XdgClient

/-- `Client::add_output_done_notifier` -/
def addOutputDoneNotifier (s : XdgClient) (index notifier : Nat) : XdgClient :=
  { s with outputs := s.outputs.modify index fun o => { o with doneNotifiers := o.doneNotifiers ++ [notifier] } }

/-- The constructor, for an output that exists. -/
def construct (s : XdgClient) (outputIndex version : Nat) : XdgClient :=
  let made := { s with objects := s.objects ++ [⟨outputIndex, version, false, {}, true⟩] }
  if version ≥ 3 then made.addOutputDoneNotifier outputIndex s.objects.length else made

/-- `done_notifiers`, one after the other -/
def notify (objects : List XdgOutputV1) (notifiers : List Nat) : List XdgOutputV1 :=
  notifiers.foldl (fun objects notifier => objects.modify notifier XdgOutputV1.outputDone) objects

def step (s : XdgClient) : Action → Option XdgClient
  | .bindOutput proxy => some { s with outputs := s.outputs ++ [Output.new proxy] }
  | .construct outputIndex version =>
    if outputIndex < s.outputs.length then some (s.construct outputIndex version) else none
  | .destroy object =>
    (s.objects[object]?.filter (·.alive)).map fun _ =>
      { s with objects := s.objects.modify object fun x => { x with alive := false } }
  -- a proxy that has been destroyed is sent no events
  | .xdgOutput object e =>
    (s.objects[object]?.filter (·.alive)).map fun _ =>
      { s with objects := s.objects.modify object fun x => x.handle e }
  | .output outputIndex e =>
    s.outputs[outputIndex]?.map fun o =>
      { outputs := s.outputs.modify outputIndex fun o => o.handle e
        objects := notify s.objects (o.notified e) }

end XdgClient

def xdgClient : Guarded XdgClient Action where
  step := XdgClient.step

/-! ## What the history says of an object -/

namespace XdgOutputEvent

def logicalPosition? : XdgOutputEvent → Option (Int × Int)
  | .logicalPosition x y => some (x, y)
  | _ => none

def logicalSize? : XdgOutputEvent → Option (Int × Int)
  | .logicalSize width height => some (width, height)
  | _ => none

def name? : XdgOutputEvent → Option String
  | .name text => some text
  | _ => none

def description? : XdgOutputEvent → Option String
  | .description text => some text
  | _ => none

end XdgOutputEvent

/-- The event that an action brings to an object. -/
def Action.eventFor? (object : Nat) : Action → Option XdgOutputEvent
  | .xdgOutput sender e => if sender = object then some e else none
  | _ => none

/-- The action announces a property of the object. -/
def Action.isProperty (object : Nat) : Action → Bool
  | .xdgOutput sender e => decide (sender = object ∧ e ≠ .done)
  | _ => false

/-- The action is the `done` that ends a batch of the object. -/
def Action.terminates (x : XdgOutputV1) (object : Nat) : Action → Bool
  | .xdgOutput sender e => decide (x.version < 3 ∧ sender = object ∧ e = .done)
  | .output index e => decide (x.version ≥ 3 ∧ index = x.outputIndex ∧ e = .done)
  | _ => false

/-- The last word of the events of an object on each of its properties. -/
def describe (object : Nat) (as : List Action) : State where
  logicalPosition := lastSome XdgOutputEvent.logicalPosition? (as.filterMap (Action.eventFor? object))
  logicalSize := lastSome XdgOutputEvent.logicalSize? (as.filterMap (Action.eventFor? object))
  name := lastSome XdgOutputEvent.name? (as.filterMap (Action.eventFor? object))
  description := lastSome XdgOutputEvent.description? (as.filterMap (Action.eventFor? object))

/-- A property of the object has been announced since the last `done` that ends its batches. -/
def Unfinished (x : XdgOutputV1) (object : Nat) (as : List Action) : Bool :=
  (openGroup (Action.terminates x object) as).any (Action.isProperty object)

/-- What a run says of a client. -/
structure Gated (as : List Action) (s : XdgClient) : Prop where
  known : ∀ object e, .xdgOutput object e ∈ as → object < s.objects.length
  attached : ∀ (object : Nat) (x : XdgOutputV1), s.objects[object]? = some x → x.outputIndex < s.outputs.length
  notifies : ∀ (index : Nat) (o : Output) (object : Nat), s.outputs[index]? = some o →
    (object ∈ o.doneNotifiers ↔
      ∃ x : XdgOutputV1, s.objects[object]? = some x ∧ x.version ≥ 3 ∧ x.outputIndex = index)
  dirty : ∀ (object : Nat) (x : XdgOutputV1), s.objects[object]? = some x → x.alive = true →
    x.dirty = Unfinished x object as
  state : ∀ (object : Nat) (x : XdgOutputV1), s.objects[object]? = some x → x.alive = true →
    x.state_ = describe object as

/-! ## One step -/

section Steps
variable {s t : XdgClient} {as : List Action} {a : Action} {object : Nat} {x y : XdgOutputV1}

theorem notify_get (objects : List XdgOutputV1) (notifiers : List Nat) (object : Nat) :
    (XdgClient.notify objects notifiers)[object]? =
      objects[object]?.map fun x => if object ∈ notifiers then x.outputDone else x := by
  induction notifiers generalizing objects with
  | nil => simp [XdgClient.notify]
  | cons notifier notifiers ih =>
      have hdone : ∀ x : XdgOutputV1, x.outputDone.outputDone = x.outputDone := by
        intro x
        unfold XdgOutputV1.outputDone
        cases h : x.alive <;> simp [h]
      show (XdgClient.notify (objects.modify notifier XdgOutputV1.outputDone) notifiers)[object]? = _
      rw [ih, List.getElem?_modify]
      cases objects[object]? with
      | none => rfl
      | some x =>
          by_cases hn : notifier = object
          · simp [hn, hdone]
          · simp [hn, Ne.symm hn]

/-- What an action does to an object that exists. -/
def effect (s : XdgClient) (a : Action) (object : Nat) (x : XdgOutputV1) : XdgOutputV1 :=
  match a with
  | .destroy n => if n = object then { x with alive := false } else x
  | .xdgOutput n e => if n = object then x.handle e else x
  | .output index e =>
    if ∃ o ∈ s.outputs[index]?, object ∈ o.notified e then x.outputDone else x
  | _ => x

theorem construct_objects (s : XdgClient) (index version : Nat) :
    (s.construct index version).objects = s.objects ++ [⟨index, version, false, {}, true⟩] := by
  unfold XdgClient.construct
  dsimp only
  split <;> rfl

theorem construct_outputs (s : XdgClient) (index version : Nat) :
    (s.construct index version).outputs = s.outputs.modify index fun o =>
      { o with doneNotifiers := o.doneNotifiers ++ if version ≥ 3 then [s.objects.length] else [] } := by
  unfold XdgClient.construct
  dsimp only
  split
  · rfl
  · simp only [List.append_nil]
    exact (List.modify_id _ _).symm

/-- Objects are made by constructions only, and are otherwise where they were. -/
theorem objects_step (hstep : s.step a = some t) (object : Nat) :
    t.objects[object]? = s.objects[object]?.map (effect s a object) ∨
      ∃ index version, a = .construct index version ∧ object = s.objects.length ∧ s.objects[object]? = none ∧
        t.objects[object]? = some ⟨index, version, false, {}, true⟩ := by
  cases a with
  | bindOutput proxy =>
      obtain rfl := Option.some.inj hstep
      exact Or.inl Option.map_id_apply.symm
  | construct index version =>
      obtain ⟨-, heq⟩ := Option.ite_none_right_eq_some.mp hstep
      obtain rfl := Option.some.inj heq
      rw [construct_objects]
      rcases Nat.lt_trichotomy object s.objects.length with hlt | rfl | hgt
      · left
        rw [List.getElem?_append_left hlt]
        exact Option.map_id_apply.symm
      · right
        exact ⟨index, version, rfl, rfl, by simp, by simp⟩
      · left
        rw [List.getElem?_eq_none (by simp; omega), List.getElem?_eq_none (by omega)]
        rfl
  | destroy n =>
      obtain ⟨-, -, rfl⟩ := Option.map_eq_some_iff.mp hstep
      left
      show (s.objects.modify n _)[object]? = _
      rw [List.getElem?_modify]
      rfl
  | xdgOutput n e =>
      obtain ⟨-, -, rfl⟩ := Option.map_eq_some_iff.mp hstep
      left
      show (s.objects.modify n _)[object]? = _
      rw [List.getElem?_modify]
      rfl
  | output index e =>
      obtain ⟨o, ho, rfl⟩ := Option.map_eq_some_iff.mp hstep
      left
      show (XdgClient.notify s.objects (o.notified e))[object]? = _
      rw [notify_get]
      congr 1
      funext x
      simp [effect, ho]

theorem unfinished_concat (x : XdgOutputV1) (object : Nat) (as : List Action) (a : Action) :
    Unfinished x object (as ++ [a]) =
      (!a.terminates x object && (Unfinished x object as || a.isProperty object)) := by
  unfold Unfinished
  rw [openGroup_concat]
  cases h : a.terminates x object <;> simp

/-- The batches of an object depend on its version and its output, which never change. -/
theorem unfinished_congr (hversion : y.version = x.version) (hindex : y.outputIndex = x.outputIndex) :
    Unfinished y object as = Unfinished x object as := by
  have : Action.terminates y object = Action.terminates x object := by
    funext a
    cases a <;> simp [Action.terminates, hversion, hindex]
  unfold Unfinished
  rw [this]

theorem describe_concat (object : Nat) (as : List Action) {a : Action} (h : a.eventFor? object = none) :
    describe object (as ++ [a]) = describe object as := by
  unfold describe
  rw [List.filterMap_append]
  simp [h]

theorem effect_frame (s : XdgClient) (a : Action) (object : Nat) (x : XdgOutputV1) :
    (effect s a object x).version = x.version ∧ (effect s a object x).outputIndex = x.outputIndex := by
  cases a with
  | bindOutput proxy => exact ⟨rfl, rfl⟩
  | construct index version => exact ⟨rfl, rfl⟩
  | destroy n =>
      unfold effect
      dsimp only
      split <;> exact ⟨rfl, rfl⟩
  | xdgOutput n e =>
      unfold effect
      dsimp only
      split
      · cases e with
        | done =>
            unfold XdgOutputV1.handle
            dsimp only
            split <;> exact ⟨rfl, rfl⟩
        | _ => exact ⟨rfl, rfl⟩
      · exact ⟨rfl, rfl⟩
  | output index e =>
      unfold effect
      dsimp only
      split
      · unfold XdgOutputV1.outputDone
        split <;> exact ⟨rfl, rfl⟩
      · exact ⟨rfl, rfl⟩

/-- An event of its own. -/
theorem handle_gated (x : XdgOutputV1) (object : Nat) (as : List Action) (e : XdgOutputEvent) :
    (x.handle e).alive = x.alive ∧
      (x.handle e).dirty = (!(Action.xdgOutput object e).terminates x object &&
        (x.dirty || (Action.xdgOutput object e).isProperty object)) ∧
      (x.state_ = describe object as → (x.handle e).state_ = describe object (as ++ [.xdgOutput object e])) := by
  have hdescribe : x.state_ = describe object as → describe object (as ++ [.xdgOutput object e]) =
      { logicalPosition := e.logicalPosition?.or x.state_.logicalPosition
        logicalSize := e.logicalSize?.or x.state_.logicalSize
        name := e.name?.or x.state_.name
        description := e.description?.or x.state_.description } := by
    intro hs
    rw [hs]
    unfold describe
    rw [List.filterMap_append]
    simp [Action.eventFor?]
  cases e with
  | done =>
      by_cases hversion : x.version < 3
      · simp only [XdgOutputV1.handle, if_pos hversion]
        exact ⟨trivial, by simp [Action.terminates, hversion], fun hs => (hdescribe hs).symm⟩
      · simp only [XdgOutputV1.handle, if_neg hversion]
        exact ⟨trivial, by simp [Action.terminates, Action.isProperty, hversion], fun hs => (hdescribe hs).symm⟩
  | _ => exact ⟨rfl, by simp [XdgOutputV1.handle, Action.terminates, Action.isProperty], fun hs => (hdescribe hs).symm⟩

/-- What an action does to a living object, as the history of the run records it. -/
theorem effect_gated (h : Gated as s) (hstep : s.step a = some t) (hx : s.objects[object]? = some x)
    (halive : (effect s a object x).alive = true) :
    x.alive = true ∧ (effect s a object x).dirty = (!a.terminates x object && (x.dirty || a.isProperty object)) ∧
      (x.state_ = describe object as → (effect s a object x).state_ = describe object (as ++ [a])) := by
  -- an action that does not concern the object
  have hother : effect s a object x = x → a.terminates x object = false → a.isProperty object = false →
      a.eventFor? object = none → x.alive = true ∧
        (effect s a object x).dirty = (!a.terminates x object && (x.dirty || a.isProperty object)) ∧
        (x.state_ = describe object as → (effect s a object x).state_ = describe object (as ++ [a])) := by
    intro heffect hterminates hproperty hevent
    rw [heffect] at halive ⊢
    rw [hterminates, hproperty]
    exact ⟨halive, by simp, fun hs => hs.trans (describe_concat object as hevent).symm⟩
  cases a with
  | bindOutput proxy => exact hother rfl rfl rfl rfl
  | construct index version => exact hother rfl rfl rfl rfl
  | destroy n =>
      by_cases hn : n = object
      · simp [effect, hn] at halive
      · exact hother (by simp [effect, hn]) rfl rfl rfl
  | xdgOutput n e =>
      by_cases hn : n = object
      · subst hn
        have heffect : effect s (.xdgOutput n e) n x = x.handle e := by simp [effect]
        rw [heffect] at halive ⊢
        obtain ⟨halive', hdirty, hstate⟩ := handle_gated x n as e
        exact ⟨halive' ▸ halive, hdirty, hstate⟩
      · apply hother
        · simp [effect, hn]
        · simp [Action.terminates, hn]
        · simp [Action.isProperty, hn]
        · simp [Action.eventFor?, hn]
  | output index e =>
      obtain ⟨o, ho, -⟩ := Option.map_eq_some_iff.mp hstep
      have hnotified : object ∈ o.notified e ↔ x.version ≥ 3 ∧ index = x.outputIndex ∧ e = .done := by
        rw [Output.mem_notified, h.notifies index o object ho]
        constructor
        · rintro ⟨rfl, y, hy, hversion, rfl⟩
          obtain rfl := Option.some.inj (hx.symm.trans hy)
          exact ⟨hversion, rfl, rfl⟩
        · rintro ⟨hversion, rfl, rfl⟩
          exact ⟨rfl, x, hx, hversion, rfl⟩
      by_cases hn : object ∈ o.notified e
      · have heffect : effect s (.output index e) object x = x.outputDone := by simp [effect, ho, hn]
        have halive' : x.alive = true := by
          rw [heffect] at halive
          unfold XdgOutputV1.outputDone at halive
          split at halive <;> exact halive
        rw [heffect]
        unfold XdgOutputV1.outputDone
        rw [if_pos halive']
        refine ⟨halive', ?_, fun hs => hs.trans (describe_concat object as rfl).symm⟩
        simp [Action.terminates, hnotified.mp hn]
      · apply hother
        · simp [effect, ho, hn]
        · rw [hnotified] at hn
          simpa [Action.terminates] using hn
        · rfl
        · rfl

/-- The action makes a notifier of the output with that index, for that object. -/
def Registers (s : XdgClient) (a : Action) (index object : Nat) : Prop :=
  ∃ version, version ≥ 3 ∧ a = .construct index version ∧ object = s.objects.length

theorem outputs_length_le (hstep : s.step a = some t) : s.outputs.length ≤ t.outputs.length := by
  cases a with
  | bindOutput proxy =>
      obtain rfl := Option.some.inj hstep
      simp
  | construct index version =>
      obtain ⟨-, heq⟩ := Option.ite_none_right_eq_some.mp hstep
      obtain rfl := Option.some.inj heq
      simp [construct_outputs]
  | destroy n =>
      obtain ⟨-, -, rfl⟩ := Option.map_eq_some_iff.mp hstep
      exact Nat.le_refl _
  | xdgOutput n e =>
      obtain ⟨-, -, rfl⟩ := Option.map_eq_some_iff.mp hstep
      exact Nat.le_refl _
  | output index e =>
      obtain ⟨o, ho, rfl⟩ := Option.map_eq_some_iff.mp hstep
      simp

theorem mem_notifiers_step (hstep : s.step a = some t) {index : Nat} {o : Output} (ho : t.outputs[index]? = some o) :
    object ∈ o.doneNotifiers ↔
      (∃ o' ∈ s.outputs[index]?, object ∈ o'.doneNotifiers) ∨ Registers s a index object := by
  cases a with
  | bindOutput proxy =>
      obtain rfl := Option.some.inj hstep
      have hnot : ¬ Registers s (.bindOutput proxy) index object := by simp [Registers]
      rcases Nat.lt_or_ge index s.outputs.length with hlt | hge
      · rw [List.getElem?_append_left hlt] at ho
        simp [ho, hnot]
      · have hnew : o = Output.new proxy := by
          rw [List.getElem?_append_right hge] at ho
          exact List.mem_singleton.mp (List.mem_of_getElem? ho)
        simp [hnew, Output.new, List.getElem?_eq_none hge, hnot]
  | construct n version =>
      obtain ⟨-, heq⟩ := Option.ite_none_right_eq_some.mp hstep
      obtain rfl := Option.some.inj heq
      rw [construct_outputs, List.getElem?_modify] at ho
      obtain ⟨o', ho', rfl⟩ := Option.map_eq_some_iff.mp ho
      by_cases hn : n = index
      · by_cases hversion : version ≥ 3
        · simp [ho', hn, hversion, Registers]
        · simp [ho', hn, hversion, Registers]
      · simp [ho', hn, Registers]
  | destroy n =>
      obtain ⟨-, -, rfl⟩ := Option.map_eq_some_iff.mp hstep
      simp [show s.outputs[index]? = some o from ho, Registers]
  | xdgOutput n e =>
      obtain ⟨-, -, rfl⟩ := Option.map_eq_some_iff.mp hstep
      simp [show s.outputs[index]? = some o from ho, Registers]
  | output n e =>
      obtain ⟨was, -, rfl⟩ := Option.map_eq_some_iff.mp hstep
      rw [List.getElem?_modify] at ho
      obtain ⟨o', ho', rfl⟩ := Option.map_eq_some_iff.mp ho
      by_cases hn : n = index
      · simp [ho', hn, Registers]
      · simp [ho', hn, Registers]

theorem waiting_step (hstep : s.step a = some t) (index : Nat) :
    (∃ x : XdgOutputV1, t.objects[object]? = some x ∧ x.version ≥ 3 ∧ x.outputIndex = index) ↔
      (∃ x : XdgOutputV1, s.objects[object]? = some x ∧ x.version ≥ 3 ∧ x.outputIndex = index) ∨
        Registers s a index object := by
  rcases objects_step hstep object with heq | ⟨n, version, rfl, rfl, hnone, hnew⟩
  · have hnot : ¬ Registers s a index object := by
      rintro ⟨version, -, rfl, rfl⟩
      obtain ⟨-, hmade⟩ := Option.ite_none_right_eq_some.mp hstep
      obtain rfl := Option.some.inj hmade
      rw [construct_objects] at heq
      simp at heq
    rw [heq]
    cases hx : s.objects[object]? with
    | none => simp [hnot]
    | some x =>
        obtain ⟨hversion, hindex⟩ := effect_frame s a object x
        simp [hnot, hversion, hindex]
  · rw [hnone, hnew]
    simp [Registers, and_comm]

theorem objects_length_le (hstep : s.step a = some t) (h : object < s.objects.length) :
    object < t.objects.length := by
  rcases objects_step hstep object with heq | ⟨-, -, -, -, hnone, -⟩
  · rw [List.getElem?_eq_getElem h] at heq
    exact (List.getElem?_eq_some_iff.mp heq).1
  · rw [List.getElem?_eq_getElem h] at hnone
    exact absurd hnone (by simp)

/-- Nothing has been said of an object that does not exist yet. -/
theorem Gated.silent (h : Gated as s) (hobject : s.objects.length ≤ object) :
    Unfinished x object as = false ∧ describe object as = {} := by
  have hevent : ∀ a ∈ as, a.isProperty object = false ∧ a.eventFor? object = none := by
    intro a ha
    cases a with
    | xdgOutput n e =>
        have hlt := h.known n e ha
        have hne : n ≠ object := by omega
        simp [Action.isProperty, Action.eventFor?, hne]
    | _ => exact ⟨rfl, rfl⟩
  constructor
  · unfold Unfinished
    rw [List.any_eq_false]
    intro a ha
    have hmem : a ∈ as := by
      rw [← closedPart_append_openGroup (Action.terminates x object) as]
      exact List.mem_append_right _ ha
    simp [(hevent a hmem).1]
  · have hnil : as.filterMap (Action.eventFor? object) = [] := by
      rw [List.filterMap_eq_nil_iff]
      exact fun a ha => (hevent a ha).2
    unfold describe
    rw [hnil]
    rfl

theorem Gated.step (h : Gated as s) (hstep : s.step a = some t) : Gated (as ++ [a]) t where
  known := by
    intro object e hmem
    rcases List.mem_append.mp hmem with hmem | hmem
    · exact objects_length_le hstep (h.known object e hmem)
    · obtain rfl := List.mem_singleton.mp hmem
      obtain ⟨x, hx, -⟩ := Option.map_eq_some_iff.mp hstep
      have hx := (Option.filter_eq_some_iff.mp hx).1
      exact objects_length_le hstep (List.getElem?_eq_some_iff.mp hx).1
  attached := by
    intro object y hy
    have hle := outputs_length_le hstep
    rcases objects_step hstep object with heq | ⟨n, version, rfl, -, -, hnew⟩
    · rw [hy] at heq
      obtain ⟨x, hx, rfl⟩ := Option.map_eq_some_iff.mp heq.symm
      have hlt := h.attached object x hx
      rw [(effect_frame s a object x).2]
      omega
    · obtain rfl := Option.some.inj (hy.symm.trans hnew)
      obtain ⟨hlt, -⟩ := Option.ite_none_right_eq_some.mp hstep
      show n < t.outputs.length
      omega
  notifies := by
    intro index o object ho
    rw [mem_notifiers_step hstep ho, waiting_step hstep]
    apply or_congr_left
    cases ho' : s.outputs[index]? with
    | some o' => simpa using h.notifies index o' object ho'
    | none =>
        -- an output that is bound now has no objects yet
        simp only [Option.mem_def, reduceCtorEq, false_and, exists_false, false_iff]
        rintro ⟨x, hx, -, rfl⟩
        have hlt := h.attached object x hx
        have hge := List.getElem?_eq_none_iff.mp ho'
        omega
  dirty := by
    intro object y hy halive
    rcases objects_step hstep object with heq | ⟨n, version, rfl, rfl, -, hnew⟩
    · rw [hy] at heq
      obtain ⟨x, hx, rfl⟩ := Option.map_eq_some_iff.mp heq.symm
      obtain ⟨hversion, hindex⟩ := effect_frame s a object x
      obtain ⟨halive, hdirty, -⟩ := effect_gated h hstep hx halive
      rw [hdirty, unfinished_congr hversion hindex, unfinished_concat, h.dirty object x hx halive]
    · obtain rfl := Option.some.inj (hy.symm.trans hnew)
      rw [unfinished_concat, (h.silent (Nat.le_refl _)).1]
      rfl
  state := by
    intro object y hy halive
    rcases objects_step hstep object with heq | ⟨n, version, rfl, rfl, -, hnew⟩
    · rw [hy] at heq
      obtain ⟨x, hx, rfl⟩ := Option.map_eq_some_iff.mp heq.symm
      obtain ⟨halive, -, hstate⟩ := effect_gated h hstep hx halive
      exact hstate (h.state object x hx halive)
    · obtain rfl := Option.some.inj (hy.symm.trans hnew)
      rw [describe_concat _ _ rfl, (h.silent (x := ⟨0, 0, false, {}, true⟩) (Nat.le_refl _)).2]

theorem ne_of_alive {n : Nat} (hy : s.objects[n]?.filter (·.alive) = some y) (hx : s.objects[object]? = some x)
    (hdead : x.alive = false) : n ≠ object := by
  rintro rfl
  obtain ⟨hy, halive⟩ := Option.filter_eq_some_iff.mp hy
  obtain rfl := Option.some.inj (hx.symm.trans hy)
  rw [hdead] at halive
  cases halive

/-- A destroyed object is where it was and as it was. -/
theorem destroyed_step (hstep : s.step a = some t) (hx : s.objects[object]? = some x) (hdead : x.alive = false) :
    t.objects[object]? = some x := by
  rcases objects_step hstep object with heq | ⟨-, -, -, -, hnone, -⟩
  · rw [heq, hx]
    apply congrArg some
    cases a with
    | bindOutput proxy => rfl
    | construct index version => rfl
    | destroy n =>
        obtain ⟨y, hy, -⟩ := Option.map_eq_some_iff.mp hstep
        simp [effect, ne_of_alive hy hx hdead]
    | xdgOutput n e =>
        obtain ⟨y, hy, -⟩ := Option.map_eq_some_iff.mp hstep
        simp [effect, ne_of_alive hy hx hdead]
    | output index e => simp [effect, XdgOutputV1.outputDone, hdead]
  · rw [hnone] at hx
    cases hx

end Steps

/-! ## Runs -/

section Runs
variable {s t : XdgClient} {as bs : List Action} {object : Nat} {x : XdgOutputV1}

theorem gated_nil : Gated [] {} where
  known := by simp
  attached := by simp
  notifies := by simp
  dirty := by simp
  state := by simp

theorem run_gated (h : xdgClient.exec {} as = some s) : Gated as s :=
  xdgClient.exec_induction gated_nil (fun _ _ _ _ _ hg hstep => Gated.step hg hstep) as s h

theorem destroyed_run (h : xdgClient.exec s bs = some t) (hx : s.objects[object]? = some x)
    (hdead : x.alive = false) : t.objects[object]? = some x :=
  xdgClient.exec_induction (P := fun _ t => t.objects[object]? = some x) hx
    (fun _ _ _ _ _ hx hstep => destroyed_step hstep hx hdead) bs t h

theorem state_ok_iff (x : XdgOutputV1) (st : State) : x.state = .ok st ↔ x.dirty = false ∧ x.state_ = st := by
  unfold XdgOutputV1.state
  cases h : x.dirty <;> simp

/-- At every moment, `state()` of a living object returns exactly if nothing was announced for the object since the
last `done` that counts for it, and then returns the last word on every property. What is destroyed stays as it is. -/
theorem xdg_output_gate (h : xdgClient.exec {} as = some s) (hx : s.objects[object]? = some x) :
    (x.alive = true →
      ((∃ st, x.state = .ok st) ↔ Unfinished x object as = false) ∧
        ∀ st, x.state = .ok st → st = describe object as) ∧
    (x.alive = false → ∀ bs t, xdgClient.exec s bs = some t → t.objects[object]? = some x) := by
  have hg := run_gated h
  constructor
  · intro halive
    rw [← hg.dirty object x hx halive, ← hg.state object x hx halive]
    simp only [state_ok_iff]
    constructor
    · constructor
      · rintro ⟨st, hdirty, -⟩
        exact hdirty
      · intro hdirty
        exact ⟨x.state_, hdirty, rfl⟩
    · rintro st ⟨-, hst⟩
      exact hst.symm
  · intro hdead bs t hrun
    exact destroyed_run hrun hx hdead

end Runs

/-- A version 2 and two version 3 objects of one output, the last of them destroyed: the `done` of the output ends the
batch of the second object, and not that of the first. -/
def siblings : List Action :=
  [.bindOutput 5, .construct 0 2, .construct 0 3, .construct 0 3, .xdgOutput 0 (.logicalSize 640 480),
    .xdgOutput 1 (.logicalPosition 0 10), .xdgOutput 2 (.logicalSize 1 1), .destroy 2, .xdgOutput 1 .done,
    .output 0 .done]

theorem xdg_output_gate_siblings :
    ∃ s x, xdgClient.exec {} siblings = some s ∧ s.objects[1]? = some x ∧ x.alive = true ∧
      x.state = .ok { logicalPosition := some (0, 10) } ∧ Unfinished x 1 siblings = false := by
  obtain ⟨s, hs⟩ : ∃ s, xdgClient.exec {} siblings = some s := Option.isSome_iff_exists.mp (by decide)
  obtain ⟨x, hx⟩ : ∃ x, s.objects[1]? = some x := by
    obtain rfl := Option.some.inj hs
    exact ⟨_, rfl⟩
  have halive : x.alive = true ∧ x.state = .ok { logicalPosition := some (0, 10) } := by
    obtain rfl := Option.some.inj hs
    obtain rfl := Option.some.inj hx
    exact ⟨rfl, rfl⟩
  exact ⟨s, x, hs, hx, halive.1, halive.2, ((xdg_output_gate hs hx).1 halive.1).1.mp ⟨_, halive.2⟩⟩

end Wlcs.XdgOutput
