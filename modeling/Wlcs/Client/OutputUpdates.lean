import Wlcs.Client.Globals
import Wlcs.Lib.History
import Wlcs.Lib.Machine

/-!
# Updates of an output

A `wl_output` describes itself in batches that end with a `done`. `describe` is what a stream of events says of an output,
the last word on each of its properties; the client makes that current at each `done` and keeps what has come since
apart (`Output.Heard.handle`).

The done notifiers run inside `done_thunk`. A notifier may dispatch further events of the output before it returns, so
`outputUpdates` has a stack of the calls that have not returned. `output_updates_atomic` says what the notifiers see and
how often they run, and `current_mode_iff` when the size reported is that of the current mode.
-/

namespace Wlcs
open EventMachine History

/-! ## What the events say -/

namespace OutputEvent

def geometry? : OutputEvent → Option (Int × Int)
  | .geometry x y => some (x, y)
  | _ => none

def mode? : OutputEvent → Option (Int × Int)
  | .mode _ width height => some (width, height)
  | _ => none

def scale? : OutputEvent → Option Int
  | .scale factor => some factor
  | _ => none

def isDone : OutputEvent → Bool
  | .done => true
  | _ => false

end OutputEvent

/-- The last word of the events on each property of an output. -/
def describe (output : ProxyPtr) (es : List OutputEvent) : OutputState where
  output := output
  geometryPosition := lastSome OutputEvent.geometry? es
  modeSize := lastSome OutputEvent.mode? es
  scale := lastSome OutputEvent.scale? es

/-- What `Client::output_state` is to say after the events: what they said up to the last `done`. -/
def reported (output : ProxyPtr) (es : List OutputEvent) : OutputState :=
  describe output (closedPart OutputEvent.isDone es)

/-- What the events have said since. -/
def unreported (output : ProxyPtr) (es : List OutputEvent) : OutputState :=
  describe output (openGroup OutputEvent.isDone es)

theorem reported_done (output : ProxyPtr) (es : List OutputEvent) :
    reported output (es ++ [.done]) = describe output es := by
  unfold reported describe
  rw [closedPart_concat_mark OutputEvent.isDone rfl]
  simp [OutputEvent.geometry?, OutputEvent.mode?, OutputEvent.scale?]

theorem reported_of_not_done {e : OutputEvent} (h : e.isDone = false) (output : ProxyPtr) (es : List OutputEvent) :
    reported output (es ++ [e]) = reported output es := by
  unfold reported
  rw [closedPart_concat_of_not OutputEvent.isDone h]

/-- The last word is what is unreported, and else what was reported. -/
theorem describe_eq (output : ProxyPtr) (es : List OutputEvent) :
    describe output es =
      { output := output
        geometryPosition := (unreported output es).geometryPosition.or (reported output es).geometryPosition
        modeSize := (unreported output es).modeSize.or (reported output es).modeSize
        scale := (unreported output es).scale.or (reported output es).scale } := by
  have hsplit : ∀ {α : Type} (f : OutputEvent → Option α), lastSome f es =
      (lastSome f (openGroup OutputEvent.isDone es)).or (lastSome f (closedPart OutputEvent.isDone es)) := by
    intro α f
    rw [← lastSome_append, closedPart_append_openGroup]
  unfold unreported reported describe
  rw [hsplit OutputEvent.geometry?, hsplit OutputEvent.mode?, hsplit OutputEvent.scale?]

/-- The members of an `Output` that has received the events. -/
structure Output.Heard (me : Output) (output : ProxyPtr) (es : List OutputEvent) : Prop where
  current : me.current = reported output es
  pending : me.pending = unreported output es

theorem Output.Heard.handle {me : Output} {output : ProxyPtr} {es : List OutputEvent} (h : me.Heard output es)
    (e : OutputEvent) : (me.handle e).Heard output (es ++ [e]) := by
  cases he : e.isDone with
  | false =>
      have hopen : unreported output (es ++ [e]) = describe output (openGroup OutputEvent.isDone es ++ [e]) := by
        unfold unreported
        rw [openGroup_concat, he]
        rfl
      refine ⟨?_, ?_⟩
      · rw [reported_of_not_done he, ← h.current]
        cases e with
        | done => cases he
        | _ => rfl
      · rw [hopen]
        cases e with
        | done => cases he
        | _ =>
            simp [Output.handle, Output.geometryThunk, Output.modeThunk, Output.scaleThunk, h.pending, unreported,
              describe, OutputEvent.geometry?, OutputEvent.mode?, OutputEvent.scale?]
  | true =>
      obtain rfl : e = .done := by
        cases e <;> first | rfl | cases he
      refine ⟨?_, ?_⟩
      · rw [reported_done, describe_eq]
        simp only [Output.handle, Output.doneThunk, h.current, h.pending]
        rfl
      · unfold unreported
        rw [openGroup_concat]
        simp [Output.handle, Output.doneThunk, h.current, reported, describe, OutputEvent.isDone]

theorem received_heard (output : ProxyPtr) (es : List OutputEvent) : (Output.received output es).Heard output es := by
  induction es using List.reverseRecOn with
  | nil => exact ⟨rfl, rfl⟩
  | append_singleton es e ih =>
      rw [Output.received_concat]
      exact ih.handle e

/-- What `Client::output_state` returns for an output that the client has bound. -/
theorem outputState_reported (interfaceVersion : String → Nat) (supportedExtensions : Option (Std.TreeMap String Nat))
    {events : List RegistryEvent} (hfresh : FreshProxies events) {index : Nat} {output : ProxyPtr}
    (hbound : (boundOutputs events)[index]? = some output) :
    (announced interfaceVersion supportedExtensions events).outputState index =
      .ok (some (reported output (outputEvents output events))) := by
  have hlt : index < (boundOutputs events).length := (List.getElem?_eq_some_iff.mp hbound).1
  unfold Bindings.outputState Bindings.outputCount
  rw [announced_outputs _ _ hfresh, List.length_map, if_neg (by omega), List.getElem?_map, hbound]
  simp [(received_heard output _).current]

/-! ## The done notifiers -/

/-- A call of a done notifier. -/
structure DoneCall where
  /-- the events up to the `done` that it is told of -/
  upTo : List OutputEvent
  notifier : Nat
  /-- the events received when it is called -/
  received : List OutputEvent
  /-- what `Client::output_state` returns to it -/
  observed : OutputState
deriving DecidableEq, Repr

/-- A loop of `done_thunk` whose notifier has not returned yet. -/
structure DoneLoop where
  upTo : List OutputEvent
  remaining : List Nat
deriving DecidableEq, Repr

structure Updating where
  output : Output
  received : List OutputEvent := []
  stack : List DoneLoop := []
  calls : List DoneCall := []
deriving DecidableEq, Repr

inductive UpdateAction
  /-- an event is dispatched, by the client or by the notifier that runs -/
  | event (e : OutputEvent)
  /-- the notifier that runs returns -/
  | ret
deriving DecidableEq, Repr

def UpdateAction.event? : UpdateAction → Option OutputEvent
  | .event e => some e
  | .ret => none

namespace Updating

/-- `for (auto const& notifier : me->done_notifiers) notifier();`, up to the next call -/
def loop (s : Updating) (upTo : List OutputEvent) : List Nat → Updating
  | [] => s
  | notifier :: remaining =>
    { s with
      stack := ⟨upTo, remaining⟩ :: s.stack
      calls := s.calls ++ [⟨upTo, notifier, s.received, s.output.current⟩] }

def step (s : Updating) : UpdateAction → Option Updating
  | .event e =>
    let handled := { s with output := s.output.handle e, received := s.received ++ [e] }
    some (handled.loop handled.received (s.output.notified e))
  | .ret =>
    match s.stack with
    | [] => none
    | top :: stack => some ({ s with stack := stack }.loop top.upTo top.remaining)

/-- An output with its done notifiers, which has received nothing. -/
def start (output : ProxyPtr) (doneNotifiers : List Nat) : Updating where
  output := { Output.new output with doneNotifiers := doneNotifiers }

/-- The notifiers called for a `done`, in order. -/
def calledFor (s : Updating) (upTo : List OutputEvent) : List Nat :=
  (s.calls.filter (·.upTo = upTo)).map DoneCall.notifier

/-- The notifiers that a loop has still to call for a `done`. -/
def awaiting (s : Updating) (upTo : List OutputEvent) : List Nat :=
  (s.stack.filter (·.upTo = upTo)).flatMap DoneLoop.remaining

end Updating

def outputUpdates : Guarded Updating UpdateAction where
  step := Updating.step

/-- The events up to some `done` of the stream. -/
def IsBatch (es upTo : List OutputEvent) : Prop := upTo <+: es ∧ upTo.getLast? = some .done

instance (es upTo : List OutputEvent) : Decidable (IsBatch es upTo) :=
  inferInstanceAs (Decidable (_ ∧ _))

theorem isBatch_concat {es upTo : List OutputEvent} {e : OutputEvent} :
    IsBatch (es ++ [e]) upTo ↔ IsBatch es upTo ∨ upTo = es ++ [e] ∧ e = .done := by
  unfold IsBatch
  rw [List.prefix_concat_iff]
  constructor
  · rintro ⟨rfl | hpre, hlast⟩
    · rw [List.getLast?_concat, Option.some.injEq] at hlast
      exact Or.inr ⟨rfl, hlast⟩
    · exact Or.inl ⟨hpre, hlast⟩
  · rintro (⟨hpre, hlast⟩ | ⟨rfl, rfl⟩)
    · exact ⟨Or.inr hpre, hlast⟩
    · exact ⟨Or.inl rfl, List.getLast?_concat⟩

theorem not_isBatch_self (es : List OutputEvent) (e : OutputEvent) : ¬ IsBatch es (es ++ [e]) := by
  rintro ⟨hpre, -⟩
  have := hpre.length_le
  rw [List.length_append, List.length_singleton] at this
  omega

/-- What holds of an output between any two steps of a run. -/
structure Updating.Consistent (s : Updating) (output : ProxyPtr) (doneNotifiers : List Nat) : Prop where
  heard : s.output.Heard output s.received
  notifiers : s.output.doneNotifiers = doneNotifiers
  seen : ∀ c ∈ s.calls, c.upTo <+: c.received ∧ c.received <+: s.received ∧ c.observed = reported output c.received
  due : ∀ upTo, s.calledFor upTo ++ s.awaiting upTo = if IsBatch s.received upTo then doneNotifiers else []

section Steps
variable {s t : Updating} {output : ProxyPtr} {doneNotifiers : List Nat}

/-- What a loop does to the notifiers called and those still due. -/
theorem loop_due (s : Updating) (upTo : List OutputEvent) (ns : List Nat) (d : List OutputEvent) :
    (s.loop upTo ns).calledFor d ++ (s.loop upTo ns).awaiting d =
      s.calledFor d ++ ((if upTo = d then ns else []) ++ s.awaiting d) := by
  unfold Updating.calledFor Updating.awaiting
  cases ns with
  | nil => simp [Updating.loop]
  | cons n ns => by_cases h : upTo = d <;> simp [Updating.loop, h]

theorem loop_frame (s : Updating) (upTo : List OutputEvent) (ns : List Nat) :
    (s.loop upTo ns).output = s.output ∧ (s.loop upTo ns).received = s.received := by
  cases ns with
  | nil => exact ⟨rfl, rfl⟩
  | cons n ns => exact ⟨rfl, rfl⟩

theorem loop_seen (hheard : s.output.Heard output s.received)
    (hseen : ∀ c ∈ s.calls, c.upTo <+: c.received ∧ c.received <+: s.received ∧ c.observed = reported output c.received)
    {upTo : List OutputEvent} (hupTo : upTo <+: s.received) (ns : List Nat) :
    ∀ c ∈ (s.loop upTo ns).calls,
      c.upTo <+: c.received ∧ c.received <+: s.received ∧ c.observed = reported output c.received := by
  cases ns with
  | nil => exact hseen
  | cons n ns =>
      intro c hc
      rcases List.mem_append.mp hc with hc | hc
      · exact hseen c hc
      · obtain rfl := List.mem_singleton.mp hc
        exact ⟨hupTo, List.prefix_refl _, hheard.current⟩

theorem start_consistent (output : ProxyPtr) (doneNotifiers : List Nat) :
    (Updating.start output doneNotifiers).Consistent output doneNotifiers where
  heard := ⟨rfl, rfl⟩
  notifiers := rfl
  seen c hc := by cases hc
  due upTo := by
    rw [if_neg]
    · rfl
    · rintro ⟨hpre, hlast⟩
      rw [List.prefix_nil.mp hpre] at hlast
      cases hlast

theorem notified_eq (o : Output) (e : OutputEvent) : o.notified e = if e.isDone then o.doneNotifiers else [] := by
  cases e <;> rfl

theorem Updating.Consistent.event (h : s.Consistent output doneNotifiers) (e : OutputEvent)
    (hstep : s.step (.event e) = some t) : t.Consistent output doneNotifiers := by
  obtain rfl := Option.some.inj hstep
  have hheard := h.heard.handle e
  have hseen : ∀ c ∈ s.calls, c.upTo <+: c.received ∧ c.received <+: s.received ++ [e] ∧
      c.observed = reported output c.received := by
    intro c hc
    obtain ⟨hupTo, hreceived, hobserved⟩ := h.seen c hc
    exact ⟨hupTo, hreceived.trans (List.prefix_append _ _), hobserved⟩
  obtain ⟨hframe, hreceived⟩ := loop_frame { s with output := s.output.handle e, received := s.received ++ [e] }
    (s.received ++ [e]) (s.output.notified e)
  refine ⟨?_, ?_, ?_, fun upTo => ?_⟩
  · rw [hframe, hreceived]
    exact hheard
  · rw [hframe]
    exact (s.output.handle_doneNotifiers e).trans h.notifiers
  · rw [hreceived]
    exact loop_seen hheard hseen (List.prefix_refl _) _
  · rw [loop_due, hreceived]
    show s.calledFor upTo ++ (_ ++ s.awaiting upTo) = _
    have hdue := h.due upTo
    rw [notified_eq, h.notifiers]
    by_cases hupTo : s.received ++ [e] = upTo
    · -- a new batch, for which nobody has been called yet
      subst hupTo
      rw [if_neg (not_isBatch_self _ _), List.append_eq_nil_iff] at hdue
      rw [if_pos rfl, hdue.1, hdue.2, List.nil_append, List.append_nil]
      cases e with
      | done => simp [OutputEvent.isDone, isBatch_concat]
      | _ => simp [OutputEvent.isDone, isBatch_concat, not_isBatch_self]
    · rw [if_neg hupTo, List.nil_append, hdue]
      simp [isBatch_concat, Ne.symm hupTo]

theorem awaiting_cons {top : DoneLoop} {stack : List DoneLoop} (hstack : s.stack = top :: stack)
    (d : List OutputEvent) :
    s.awaiting d = (if top.upTo = d then top.remaining else []) ++ { s with stack := stack }.awaiting d := by
  unfold Updating.awaiting
  rw [hstack]
  by_cases h : top.upTo = d <;> simp [h]

theorem Updating.Consistent.ret (h : s.Consistent output doneNotifiers) (hstep : s.step .ret = some t) :
    t.Consistent output doneNotifiers := by
  unfold Updating.step at hstep
  dsimp only at hstep
  split at hstep
  · cases hstep
  · rename_i top stack hstack
    obtain rfl := Option.some.inj hstep
    obtain ⟨hframe, hreceived⟩ := loop_frame { s with stack := stack } top.upTo top.remaining
    refine ⟨?_, ?_, ?_, fun upTo => ?_⟩
    · rw [hframe, hreceived]
      exact h.heard
    · rw [hframe]
      exact h.notifiers
    · rw [hreceived]
      cases hremaining : top.remaining with
      | nil => exact h.seen
      | cons n ns =>
          -- a notifier is due, so that the loop belongs to a batch
          have hdue := h.due top.upTo
          rw [awaiting_cons hstack, if_pos rfl, hremaining] at hdue
          have hbatch : IsBatch s.received top.upTo := by
            by_contra hnot
            simp [hnot] at hdue
          exact loop_seen (s := { s with stack := stack }) h.heard h.seen hbatch.1 _
    · rw [loop_due, hreceived, ← awaiting_cons hstack]
      exact h.due upTo

end Steps

theorem received_step {s t : Updating} {a : UpdateAction} (hstep : s.step a = some t) :
    t.received = s.received ++ a.event?.toList := by
  cases a with
  | event e =>
      obtain rfl := Option.some.inj hstep
      exact (loop_frame _ _ _).2
  | ret =>
      unfold Updating.step at hstep
      dsimp only at hstep
      split at hstep
      · cases hstep
      · obtain rfl := Option.some.inj hstep
        simpa [UpdateAction.event?] using (loop_frame _ _ _).2

/-- The events of a run. -/
def eventsOf (as : List UpdateAction) : List OutputEvent := as.filterMap UpdateAction.event?

theorem run_consistent {output : ProxyPtr} {doneNotifiers : List Nat} {as : List UpdateAction} {t : Updating}
    (hrun : outputUpdates.exec (.start output doneNotifiers) as = some t) :
    t.Consistent output doneNotifiers ∧ t.received = eventsOf as := by
  refine outputUpdates.exec_induction (P := fun as t => t.Consistent output doneNotifiers ∧ t.received = eventsOf as)
    ⟨start_consistent output doneNotifiers, rfl⟩ ?_ as t hrun
  rintro as u a t - ⟨hu, hreceived⟩ hstep
  refine ⟨?_, ?_⟩
  · cases a with
    | event e => exact hu.event e hstep
    | ret => exact hu.ret hstep
  · rw [received_step hstep, hreceived]
    unfold eventsOf
    rw [List.filterMap_append]
    cases a <;> rfl

/-- **Outputs are updated atomically**, in every run, whatever the notifiers dispatch before they return: what is reported
is what the events have said up to the last `done`, an event that is no `done` does not change it, each call of a
notifier comes after its `done` and finds what has been said up to the last one, and each notifier is called once for
each `done`, unless the loop for that is still running. -/
theorem output_updates_atomic {output : ProxyPtr} {doneNotifiers : List Nat} {as : List UpdateAction} {t : Updating}
    (hrun : outputUpdates.exec (.start output doneNotifiers) as = some t) :
    t.output.current = reported output (eventsOf as) ∧
      (∀ e u, e ≠ .done → t.step (.event e) = some u → u.output.current = t.output.current) ∧
      (∀ c ∈ t.calls, c.upTo <+: c.received ∧ c.received <+: eventsOf as ∧
        c.observed = reported output c.received) ∧
      ∀ es, es ++ [.done] <+: eventsOf as → (∀ l ∈ t.stack, l.upTo ≠ es ++ [.done]) →
        t.calledFor (es ++ [.done]) = doneNotifiers := by
  obtain ⟨h, hreceived⟩ := run_consistent hrun
  refine ⟨hreceived ▸ h.heard.current, fun e u he hstep => ?_, hreceived ▸ h.seen, fun es hes hstack => ?_⟩
  · have hnot : e.isDone = false := by
      cases e <;> first | rfl | exact absurd rfl he
    rw [(h.event e hstep).heard.current, received_step hstep, h.heard.current]
    exact reported_of_not_done hnot output t.received
  · have hdue := h.due (es ++ [.done])
    have hnone : t.awaiting (es ++ [.done]) = [] := by
      unfold Updating.awaiting
      rw [List.filter_eq_nil_iff.mpr fun l hl => by simpa using hstack l hl]
      rfl
    rw [hnone, List.append_nil, if_pos ⟨hreceived ▸ hes, List.getLast?_concat⟩] at hdue
    exact hdue

/-- A notifier that waits for the next batch before it returns. -/
theorem output_updates_atomic_nested :
    ∃ t, outputUpdates.exec (.start 11 [0, 1])
        [.event (.geometry 5 6), .event (.mode 1 640 480), .event .done, .event (.scale 2), .event .done, .ret, .ret,
          .ret, .ret] = some t ∧
      t.output.current = ⟨11, some (5, 6), some (640, 480), some 2⟩ ∧
      t.calledFor [.geometry 5 6, .mode 1 640 480, .done] = [0, 1] := by
  obtain ⟨t, ht⟩ : ∃ t, outputUpdates.exec (.start 11 [0, 1])
      [.event (.geometry 5 6), .event (.mode 1 640 480), .event .done, .event (.scale 2), .event .done, .ret, .ret, .ret,
        .ret] = some t := ⟨_, rfl⟩
  obtain ⟨hcurrent, -, -, hcalled⟩ := output_updates_atomic ht
  refine ⟨t, ht, hcurrent.trans (by decide), hcalled [.geometry 5 6, .mode 1 640 480] (by decide) ?_⟩
  obtain rfl := Option.some.inj ht
  decide

/-! ## The current mode -/

/-- `WL_OUTPUT_MODE_CURRENT` -/
def outputModeCurrent : Nat := 1

/-- The size of a mode event that has the current flag. -/
def OutputEvent.currentMode? : OutputEvent → Option (Int × Int)
  | .mode flags width height => if flags &&& outputModeCurrent ≠ 0 then some (width, height) else none
  | _ => none

/-- The flags and the size of a mode event. -/
def OutputEvent.flaggedMode? : OutputEvent → Option (Nat × Int × Int)
  | .mode flags width height => some (flags, width, height)
  | _ => none

/-- The last mode that was announced is the current one, or has its size. -/
def EndsOnCurrent (es : List OutputEvent) : Prop :=
  ∀ flags width height, lastSome OutputEvent.flaggedMode? es = some (flags, width, height) →
    flags &&& outputModeCurrent ≠ 0 ∨ lastSome OutputEvent.currentMode? es = some (width, height)

theorem lastSome_mode (es : List OutputEvent) :
    lastSome OutputEvent.mode? es = (lastSome OutputEvent.flaggedMode? es).map Prod.snd := by
  apply lastSome_map
  intro e _
  cases e <;> rfl

theorem lastSome_currentMode {es : List OutputEvent} {flags : Nat} {width height : Int}
    (h : lastSome OutputEvent.flaggedMode? es = some (flags, width, height)) (hcurrent : flags &&& outputModeCurrent ≠ 0) :
    lastSome OutputEvent.currentMode? es = some (width, height) := by
  induction es using List.reverseRecOn with
  | nil => cases h
  | append_singleton es e ih =>
      rw [lastSome_concat] at h ⊢
      cases e with
      | mode flags' width' height' =>
          obtain ⟨rfl, rfl, rfl⟩ : flags' = flags ∧ width' = width ∧ height' = height := by
            simpa [OutputEvent.flaggedMode?] using h
          simp [OutputEvent.currentMode?, hcurrent]
      | _ => exact ih h

theorem lastSome_currentMode_none {es : List OutputEvent} (h : lastSome OutputEvent.flaggedMode? es = none) :
    lastSome OutputEvent.currentMode? es = none := by
  rw [lastSome_eq_none] at h ⊢
  intro e he
  have := h e he
  cases e with
  | mode flags width height => cases this
  | _ => rfl

theorem lastSome_mode_eq_iff (es : List OutputEvent) :
    lastSome OutputEvent.mode? es = lastSome OutputEvent.currentMode? es ↔ EndsOnCurrent es := by
  unfold EndsOnCurrent
  rw [lastSome_mode]
  cases h : lastSome OutputEvent.flaggedMode? es with
  | none => simp [lastSome_currentMode_none h]
  | some mode =>
      obtain ⟨flags, width, height⟩ := mode
      constructor
      · rintro heq flags' width' height' ⟨⟩
        exact Or.inr heq.symm
      · intro hends
        rcases hends flags width height rfl with hcurrent | hsame
        · exact (lastSome_currentMode h hcurrent).symm
        · exact hsame.symm

/-- **The mode reported is the current mode** after every `done` of a stream, exactly when at every `done` the last mode
announced, whatever its flags, is the current one or has its size. -/
theorem current_mode_iff (output : ProxyPtr) (es : List OutputEvent) :
    (∀ pre, pre ++ [.done] <+: es →
      (Output.received output (pre ++ [.done])).current.modeSize = lastSome OutputEvent.currentMode? pre) ↔
    ∀ pre, pre ++ [.done] <+: es → EndsOnCurrent pre := by
  have hmode : ∀ pre, (Output.received output (pre ++ [.done])).current.modeSize = lastSome OutputEvent.mode? pre := by
    intro pre
    rw [(received_heard output _).current, reported_done]
    rfl
  constructor
  · intro h pre hpre
    rw [← lastSome_mode_eq_iff, ← hmode]
    exact h pre hpre
  · intro h pre hpre
    rw [hmode, lastSome_mode_eq_iff]
    exact h pre hpre

/-- An output says what its current mode is, and then which other one it has. -/
theorem other_mode_reported :
    (Output.received 11 [.mode 1 1920 1080, .mode 0 640 480, .done]).current.modeSize = some (640, 480) ∧
      lastSome OutputEvent.currentMode? [.mode 1 1920 1080, .mode 0 640 480] = some (1920, 1080) := by
  decide

end Wlcs
