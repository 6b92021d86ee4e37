import Wlcs.Client.Output
import Wlcs.Lib.History
import Wlcs.Lib.Machine
import Mathlib.Data.List.Basic

/-!
# `zwlr_foreign_toplevel_manager_v1`

The manager of the foreign toplevel tests keeps a handle for each toplevel that was announced. A handle takes over what
its events say; the manager drops the handles that were closed when it is next asked for the toplevels.

* `ForeignToplevelHandle.received` : the handle that a list of events leads to;
* `Mirrors` : the handles of the manager that are not closed are those of the history;
* `foreign_toplevel_mirror` : what `toplevels()` and `toplevel(app_id)` return after every run.
-/

namespace Wlcs.ForeignToplevel
open EventMachine History

inductive HandleEvent
  | title (title : String)
  | appId (appId : String)
  | outputEnter (output : ProxyPtr)
  | outputLeave (output : ProxyPtr)
  | state (state : List Nat)
  | done
  | closed
deriving DecidableEq, Repr

/-- `handle` is the number of the announcement, which stands for the proxy. -/
structure ForeignToplevelHandle where
  handle : Nat
  dirty : Bool := false
  title : Option String := none
  appId : Option String := none
  outputs : List ProxyPtr := []
  maximized : Bool := false
  minimized : Bool := false
  activated : Bool := false
  fullscreen : Bool := false
  destroyed : Bool := false
deriving DecidableEq, Repr

namespace ForeignToplevelHandle

/-- The `switch` over `zwlr_foreign_toplevel_handle_v1_state`; other values have no case. -/
def setState (self : ForeignToplevelHandle) : Nat → ForeignToplevelHandle
  | 0 => { self with maximized := true }
  | 1 => { self with minimized := true }
  | 2 => { self with activated := true }
  | 3 => { self with fullscreen := true }
  | _ => self

/-- The listener. -/
def receive (self : ForeignToplevelHandle) : HandleEvent → ForeignToplevelHandle
  | .title title => { self with title := some title, dirty := true }
  | .appId appId => { self with appId := some appId, dirty := true }
  | .outputEnter output => { self with outputs := self.outputs ++ [output], dirty := true }
  | .outputLeave output => { self with outputs := self.outputs.filter (· ≠ output), dirty := true }
  | .state state =>
    let reset := { self with maximized := false, minimized := false, activated := false, fullscreen := false }
    { state.foldl setState reset with dirty := true }
  | .done => { self with dirty := false }
  | .closed => { self with destroyed := true, dirty := false }

end ForeignToplevelHandle

/-! ## The manager -/

/-- `announced` counts the handles that were made. -/
structure ForeignToplevelManager where
  announced : Nat := 0
  toplevels_ : List ForeignToplevelHandle := []
deriving DecidableEq, Repr

namespace ForeignToplevelManager

/-- The `toplevel` event. -/
def announce (self : ForeignToplevelManager) : ForeignToplevelManager where
  announced := self.announced + 1
  toplevels_ := self.toplevels_ ++ [{ handle := self.announced }]

/-- `toplevels()`: the manager without the handles that were closed, and what it returns. -/
def toplevels (self : ForeignToplevelManager) : ForeignToplevelManager × List ForeignToplevelHandle :=
  let kept := self.toplevels_.filter fun toplevel => !toplevel.destroyed
  ({ self with toplevels_ := kept }, kept)

/-- `ForeignToplevelHandleTest::toplevel()` -/
def toplevel (self : ForeignToplevelManager) : ForeignToplevelManager × Except String ForeignToplevelHandle :=
  (self.toplevels.1,
    match self.toplevels.2 with
    | [] => .error "Manager does not know about any toplevels"
    | [match_] => if match_.dirty then .error "Toplevel has pending updates" else .ok match_
    | toplevels => .error ("Manager knows about " ++ toString toplevels.length ++ " toplevels"))

/-- One turn of the loop of `toplevel(app_id)`. -/
def matchNext (appId : String) (match_ : Option ForeignToplevelHandle) (i : ForeignToplevelHandle) :
    Except String (Option ForeignToplevelHandle) :=
  if i.appId = some appId then
    if match_.isSome then .error ("Multiple toplevels have the same app ID " ++ appId) else .ok (some i)
  else
    .ok match_

/-- `ForeignToplevelHandleTest::toplevel(app_id)` -/
def toplevelWith (self : ForeignToplevelManager) (appId : String) :
    ForeignToplevelManager × Except String ForeignToplevelHandle :=
  (self.toplevels.1,
    match self.toplevels.2.foldlM (matchNext appId) none with
    | .error message => .error message
    | .ok none => .error ("No toplevels have the app ID " ++ appId)
    | .ok (some match_) => if match_.dirty then .error "Toplevel has pending updates" else .ok match_)

end ForeignToplevelManager

inductive Action
  | announce
  | event (handle : Nat) (e : HandleEvent)
  | toplevels
  | toplevel
  | toplevelWith (appId : String)
deriving DecidableEq, Repr

/-- Events go to the handles that the manager still has: the proxy of a handle is destroyed with it. -/
def ForeignToplevelManager.step (self : ForeignToplevelManager) : Action → Option ForeignToplevelManager
  | .announce => some self.announce
  | .event handle e =>
    if self.toplevels_.any fun toplevel => toplevel.handle = handle then
      some { self with
        toplevels_ := self.toplevels_.map fun toplevel =>
          if toplevel.handle = handle then toplevel.receive e else toplevel }
    else
      none
  | .toplevels => some self.toplevels.1
  | .toplevel => some self.toplevel.1
  | .toplevelWith appId => some (self.toplevelWith appId).1

def manager : Guarded ForeignToplevelManager Action where
  step := ForeignToplevelManager.step

/-! ## One handle -/

namespace HandleEvent

def title? : HandleEvent → Option String
  | .title text => some text
  | _ => none

def appId? : HandleEvent → Option String
  | .appId text => some text
  | _ => none

def state? : HandleEvent → Option (List Nat)
  | .state items => some items
  | _ => none

/-- Whether the event puts the toplevel on the output or takes it from there. -/
def entered? (output : ProxyPtr) : HandleEvent → Option Bool
  | .outputEnter o => if o = output then some true else none
  | .outputLeave o => if o = output then some false else none
  | _ => none

/-- The event changes what the handle says of the toplevel. -/
def isChange (e : HandleEvent) : Bool := decide (e ≠ .done ∧ e ≠ .closed)

end HandleEvent

/-- The last `state` event has the flag. -/
def flagged (flag : Nat) (es : List HandleEvent) : Bool :=
  (lastSome HandleEvent.state? es).any fun items => decide (flag ∈ items)

def closed (es : List HandleEvent) : Bool := es.any (· = .closed)

/-- The handle has been changed since its last `done`. -/
def changed (es : List HandleEvent) : Bool := (openGroup (· = .done) es).any HandleEvent.isChange

/-- What the events of a handle say of it. -/
structure Describes (es : List HandleEvent) (x : ForeignToplevelHandle) : Prop where
  title : x.title = lastSome HandleEvent.title? es
  appId : x.appId = lastSome HandleEvent.appId? es
  outputs : ∀ output, output ∈ x.outputs ↔ lastSome (HandleEvent.entered? output) es = some true
  maximized : x.maximized = flagged 0 es
  minimized : x.minimized = flagged 1 es
  activated : x.activated = flagged 2 es
  fullscreen : x.fullscreen = flagged 3 es
  destroyed : x.destroyed = closed es
  dirty : x.destroyed = false → x.dirty = changed es

namespace ForeignToplevelHandle

/-- The handle that its events lead to. -/
def received (handle : Nat) (es : List HandleEvent) : ForeignToplevelHandle := es.foldl receive { handle := handle }

theorem received_concat (handle : Nat) (es : List HandleEvent) (e : HandleEvent) :
    received handle (es ++ [e]) = (received handle es).receive e := by
  rw [received, List.foldl_append]
  rfl

theorem foldl_setState (state : List Nat) (self : ForeignToplevelHandle) :
    state.foldl setState self =
      { self with
        maximized := self.maximized || decide (0 ∈ state)
        minimized := self.minimized || decide (1 ∈ state)
        activated := self.activated || decide (2 ∈ state)
        fullscreen := self.fullscreen || decide (3 ∈ state) } := by
  induction state generalizing self with
  | nil => simp
  | cons item state ih =>
      rw [List.foldl_cons, ih]
      match item with
      | 0 => simp [setState]
      | 1 => simp [setState]
      | 2 => simp [setState]
      | 3 => simp [setState]
      | item + 4 => simp [setState]

theorem receive_state (self : ForeignToplevelHandle) (state : List Nat) :
    self.receive (.state state) =
      { self with
        maximized := decide (0 ∈ state)
        minimized := decide (1 ∈ state)
        activated := decide (2 ∈ state)
        fullscreen := decide (3 ∈ state)
        dirty := true } := by
  unfold receive
  simp only [foldl_setState, Bool.false_or]

/-- What an event does to the texts and the flags of a handle. -/
theorem receive_fields (self : ForeignToplevelHandle) (e : HandleEvent) :
    (self.receive e).title = e.title?.or self.title ∧
    (self.receive e).appId = e.appId?.or self.appId ∧
    (self.receive e).maximized = (e.state?.map fun items => decide (0 ∈ items)).getD self.maximized ∧
    (self.receive e).minimized = (e.state?.map fun items => decide (1 ∈ items)).getD self.minimized ∧
    (self.receive e).activated = (e.state?.map fun items => decide (2 ∈ items)).getD self.activated ∧
    (self.receive e).fullscreen = (e.state?.map fun items => decide (3 ∈ items)).getD self.fullscreen := by
  cases e with
  | state state =>
      rw [receive_state]
      exact ⟨rfl, rfl, rfl, rfl, rfl, rfl⟩
  | _ => exact ⟨rfl, rfl, rfl, rfl, rfl, rfl⟩

@[simp] theorem receive_handle (self : ForeignToplevelHandle) (e : HandleEvent) :
    (self.receive e).handle = self.handle := by
  cases e with
  | state state => rw [receive_state]
  | _ => rfl

theorem receive_destroyed (self : ForeignToplevelHandle) (e : HandleEvent) :
    (self.receive e).destroyed = (self.destroyed || decide (e = .closed)) := by
  cases e with
  | state state => simp [receive_state]
  | _ => simp [receive]

theorem received_handle (handle : Nat) (es : List HandleEvent) : (received handle es).handle = handle := by
  induction es using List.reverseRecOn with
  | nil => rfl
  | append_singleton es e ih => rw [received_concat, receive_handle, ih]

end ForeignToplevelHandle

theorem changed_concat (es : List HandleEvent) (e : HandleEvent) :
    changed (es ++ [e]) = if e = .done then false else changed es || e.isChange := by
  unfold changed
  rw [openGroup_concat]
  by_cases h : e = .done
  · simp [h]
  · simp [h]

theorem flagged_concat (flag : Nat) (es : List HandleEvent) (e : HandleEvent) :
    flagged flag (es ++ [e]) = (e.state?.map fun items => decide (flag ∈ items)).getD (flagged flag es) := by
  unfold flagged
  rw [lastSome_concat]
  cases e.state? <;> simp

theorem Describes.receive {es : List HandleEvent} {x : ForeignToplevelHandle} (h : Describes es x) (e : HandleEvent) :
    Describes (es ++ [e]) (x.receive e) := by
  obtain ⟨htitle, happId, hmaximized, hminimized, hactivated, hfullscreen⟩ := x.receive_fields e
  constructor
  case title => rw [htitle, lastSome_concat, h.title]
  case appId => rw [happId, lastSome_concat, h.appId]
  case outputs =>
    intro output
    have ih := h.outputs output
    rw [lastSome_concat]
    cases e with
    | outputEnter o =>
        by_cases ho : o = output
        · simp [ForeignToplevelHandle.receive, HandleEvent.entered?, ho]
        · simpa [ForeignToplevelHandle.receive, HandleEvent.entered?, ho, Ne.symm ho] using ih
    | outputLeave o =>
        by_cases ho : o = output
        · simp [ForeignToplevelHandle.receive, HandleEvent.entered?, ho]
        · simpa [ForeignToplevelHandle.receive, HandleEvent.entered?, ho, Ne.symm ho] using ih
    | state state =>
        rw [ForeignToplevelHandle.receive_state]
        exact ih
    | _ => exact ih
  case maximized => rw [hmaximized, flagged_concat, h.maximized]
  case minimized => rw [hminimized, flagged_concat, h.minimized]
  case activated => rw [hactivated, flagged_concat, h.activated]
  case fullscreen => rw [hfullscreen, flagged_concat, h.fullscreen]
  case destroyed =>
    rw [ForeignToplevelHandle.receive_destroyed, h.destroyed]
    simp [closed]
  case dirty =>
    intro hdestroyed
    rw [ForeignToplevelHandle.receive_destroyed, Bool.or_eq_false_iff] at hdestroyed
    rw [changed_concat, ← h.dirty hdestroyed.1]
    cases e with
    | closed => simp at hdestroyed
    | done => rfl
    | _ => simp [ForeignToplevelHandle.receive, HandleEvent.isChange]

theorem describes_received (handle : Nat) (es : List HandleEvent) :
    Describes es (ForeignToplevelHandle.received handle es) := by
  induction es using List.reverseRecOn with
  | nil =>
      constructor
      all_goals simp [ForeignToplevelHandle.received, flagged, closed, changed]
  | append_singleton es e ih =>
      rw [ForeignToplevelHandle.received_concat]
      exact ih.receive e

/-! ## The manager mirrors the history -/

def announced (as : List Action) : Nat := as.count .announce

/-- The event that an action brings to a handle. -/
def Action.eventFor? (handle : Nat) : Action → Option HandleEvent
  | .event n e => if n = handle then some e else none
  | _ => none

def eventsOf (handle : Nat) (as : List Action) : List HandleEvent := as.filterMap (Action.eventFor? handle)

/-- The handle that a history leads to. -/
def mirrored (as : List Action) (handle : Nat) : ForeignToplevelHandle :=
  ForeignToplevelHandle.received handle (eventsOf handle as)

/-- The handles that were announced and not closed, in the order of their announcements. -/
def live (as : List Action) : List Nat := (List.range (announced as)).filter fun n => !closed (eventsOf n as)

structure Mirrors (as : List Action) (m : ForeignToplevelManager) : Prop where
  count : m.announced = announced as
  known : ∀ x ∈ m.toplevels_, x.handle < m.announced
  named : ∀ n e, .event n e ∈ as → n < m.announced
  mirror : m.toplevels.2 = (live as).map (mirrored as)

section Steps
variable {as : List Action} {a : Action} {m m' : ForeignToplevelManager}

theorem eventsOf_concat (handle : Nat) (as : List Action) (a : Action) :
    eventsOf handle (as ++ [a]) = eventsOf handle as ++ (a.eventFor? handle).toList := by
  unfold eventsOf
  rw [List.filterMap_append]
  cases h : a.eventFor? handle <;> simp [h]

theorem toplevels_eq (m : ForeignToplevelManager) : m.toplevels.2 = m.toplevels_.filter fun x => !x.destroyed := rfl

theorem live_eq (as : List Action) :
    (live as).map (mirrored as) =
      ((List.range (announced as)).map (mirrored as)).filter fun x => !x.destroyed := by
  unfold live
  rw [List.filter_map]
  congr 2
  funext n
  exact congrArg not (describes_received n _).destroyed.symm

/-- A query drops closed handles, and what is asked for next is the same. -/
theorem Mirrors.query (h : Mirrors as m) (hnone : ∀ n, a.eventFor? n = none) (hne : a ≠ .announce) :
    Mirrors (as ++ [a]) m.toplevels.1 := by
  have hannounced : announced (as ++ [a]) = announced as := by
    unfold announced
    rw [List.count_append, List.count_singleton, if_neg (by simpa using hne)]
    rfl
  have hevents : ∀ n, eventsOf n (as ++ [a]) = eventsOf n as := by
    intro n
    simp [eventsOf_concat, hnone]
  constructor
  · rw [hannounced]
    exact h.count
  · intro x hx
    exact h.known x (List.mem_filter.mp hx).1
  · intro n e hmem
    rcases List.mem_append.mp hmem with hmem | hmem
    · exact h.named n e hmem
    · have := hnone n
      simp [← List.mem_singleton.mp hmem, Action.eventFor?] at this
  · have hmirror : mirrored (as ++ [a]) = mirrored as := by
      funext n
      unfold mirrored
      rw [hevents]
    have hlive : live (as ++ [a]) = live as := by
      unfold live
      rw [hannounced]
      simp only [hevents]
    rw [hmirror, hlive, ← h.mirror]
    simp [ForeignToplevelManager.toplevels]

theorem Mirrors.announce (h : Mirrors as m) : Mirrors (as ++ [.announce]) m.announce := by
  have hannounced : announced (as ++ [.announce]) = announced as + 1 := by
    simp [announced]
  have hmirror : mirrored (as ++ [.announce]) = mirrored as := by
    funext n
    unfold mirrored
    rw [eventsOf_concat]
    simp [Action.eventFor?]
  -- no event names the new handle
  have hnew : eventsOf m.announced as = [] := by
    unfold eventsOf
    rw [List.filterMap_eq_nil_iff]
    intro a ha
    cases a with
    | event n e =>
        have hlt := h.named n e ha
        have hne : n ≠ m.announced := by omega
        simp [Action.eventFor?, hne]
    | _ => rfl
  constructor
  · rw [hannounced, ← h.count]
    rfl
  · intro x hx
    show x.handle < m.announced + 1
    rcases List.mem_append.mp hx with hx | hx
    · have := h.known x hx
      omega
    · rw [List.mem_singleton.mp hx]
      exact Nat.lt_succ_self _
  · intro n e hmem
    show n < m.announced + 1
    have := h.named n e (by simpa using hmem)
    omega
  · have ih := h.mirror
    rw [live_eq, toplevels_eq] at ih ⊢
    rw [hmirror, hannounced, List.range_succ, List.map_append, List.filter_append, ← ih]
    show (m.toplevels_ ++ [_]).filter _ = _
    rw [List.filter_append, ← h.count, List.map_singleton, mirrored, hnew]
    rfl

/-- What a change that revives nothing leaves of a list. -/
theorem filter_map_filter {α : Type*} {f : α → α} {p : α → Bool} (hf : ∀ x, p (f x) = true → p x = true) (l : List α) :
    ((l.filter p).map f).filter p = (l.map f).filter p := by
  rw [List.filter_map, List.filter_map, List.filter_filter]
  congr 1
  apply List.filter_congr
  intro x _
  have := hf x
  simp only [Function.comp_apply, Bool.and_eq_left_iff_imp]
  exact this

/-- An event at the handles, of which it changes the one that it names. -/
def deliver (n : Nat) (e : HandleEvent) (x : ForeignToplevelHandle) : ForeignToplevelHandle :=
  if x.handle = n then x.receive e else x

theorem deliver_handle (n : Nat) (e : HandleEvent) (x : ForeignToplevelHandle) : (deliver n e x).handle = x.handle := by
  unfold deliver
  split
  · exact ForeignToplevelHandle.receive_handle x e
  · rfl

theorem destroyed_of_deliver (n : Nat) (e : HandleEvent) (x : ForeignToplevelHandle)
    (h : (!(deliver n e x).destroyed) = true) : (!x.destroyed) = true := by
  unfold deliver at h
  split at h
  · rw [ForeignToplevelHandle.receive_destroyed, Bool.not_or, Bool.and_eq_true] at h
    exact h.1
  · exact h

theorem mirrored_event (as : List Action) (n : Nat) (e : HandleEvent) :
    mirrored (as ++ [.event n e]) = deliver n e ∘ mirrored as := by
  funext k
  have hk : (mirrored as k).handle = k := ForeignToplevelHandle.received_handle k _
  show mirrored _ k = deliver n e (mirrored as k)
  unfold deliver
  rw [hk]
  unfold mirrored
  rw [eventsOf_concat]
  by_cases hkn : k = n
  · simp [Action.eventFor?, hkn, ForeignToplevelHandle.received_concat]
  · simp [Action.eventFor?, hkn, Ne.symm hkn]

theorem Mirrors.event (h : Mirrors as m) {n : Nat} {e : HandleEvent}
    (hstep : m.step (.event n e) = some m') : Mirrors (as ++ [.event n e]) m' := by
  obtain ⟨hany, heq⟩ := Option.ite_none_right_eq_some.mp hstep
  obtain rfl := Option.some.inj heq
  have hannounced : announced (as ++ [.event n e]) = announced as := by
    simp [announced, List.count_append]
  constructor
  · rw [hannounced]
    exact h.count
  · intro x hx
    obtain ⟨y, hy, rfl⟩ := List.mem_map.mp hx
    show (deliver n e y).handle < m.announced
    rw [deliver_handle]
    exact h.known y hy
  · intro k e' hmem
    rcases List.mem_append.mp hmem with hmem | hmem
    · exact h.named k e' hmem
    · obtain ⟨x, hx, hxn⟩ := List.any_eq_true.mp hany
      obtain ⟨rfl, rfl⟩ : k = n ∧ e' = e := by simpa using hmem
      have := h.known x hx
      rwa [of_decide_eq_true hxn] at this
  · have ih := h.mirror
    rw [live_eq, toplevels_eq] at ih ⊢
    show (m.toplevels_.map (deliver n e)).filter _ = _
    rw [mirrored_event, hannounced, ← List.map_map, ← filter_map_filter (destroyed_of_deliver n e), ih,
      filter_map_filter (destroyed_of_deliver n e)]

theorem Mirrors.step (h : Mirrors as m) (hstep : m.step a = some m') : Mirrors (as ++ [a]) m' := by
  cases a with
  | announce =>
      obtain rfl := Option.some.inj hstep
      exact h.announce
  | event n e => exact h.event hstep
  | toplevels =>
      obtain rfl := Option.some.inj hstep
      exact h.query (fun _ => rfl) nofun
  | toplevel =>
      obtain rfl := Option.some.inj hstep
      exact h.query (fun _ => rfl) nofun
  | toplevelWith appId =>
      obtain rfl := Option.some.inj hstep
      exact h.query (fun _ => rfl) nofun

end Steps

theorem mirrors_nil : Mirrors [] {} where
  count := rfl
  known := by simp
  named := by simp
  mirror := rfl

theorem run_mirrors {as : List Action} {m : ForeignToplevelManager} (h : manager.exec {} as = some m) : Mirrors as m :=
  manager.exec_induction mirrors_nil (fun _ _ _ _ _ hm hstep => Mirrors.step hm hstep) as m h

/-! ## What the queries return -/

section Queries
variable {as : List Action} {m : ForeignToplevelManager} {appId : String} {x : ForeignToplevelHandle}

theorem foldlM_matchNext_some (appId : String) (x : ForeignToplevelHandle) (l : List ForeignToplevelHandle) :
    l.foldlM (ForeignToplevelManager.matchNext appId) (some x) =
      if l.filter (fun i => i.appId = some appId) = [] then .ok (some x)
      else .error ("Multiple toplevels have the same app ID " ++ appId) := by
  induction l with
  | nil => rfl
  | cons i l ih =>
      rw [List.foldlM_cons]
      unfold ForeignToplevelManager.matchNext
      by_cases hi : i.appId = some appId
      · simp only [hi, if_true, Option.isSome_some, decide_true, List.filter_cons_of_pos, reduceCtorEq, if_false]
        rfl
      · simp only [hi, if_false, decide_false, Bool.false_eq_true, not_false_iff, List.filter_cons_of_neg]
        exact ih

/-- The loop ends with a match exactly if there is one and no other. -/
theorem foldlM_matchNext_ok (l : List ForeignToplevelHandle) :
    l.foldlM (ForeignToplevelManager.matchNext appId) none = .ok (some x) ↔
      l.filter (fun i => i.appId = some appId) = [x] := by
  induction l with
  | nil => simp [pure, Except.pure]
  | cons i l ih =>
      rw [List.foldlM_cons]
      by_cases hi : i.appId = some appId
      · have hnext : ForeignToplevelManager.matchNext appId none i = .ok (some i) := by
          simp [ForeignToplevelManager.matchNext, hi]
        rw [hnext, List.filter_cons_of_pos (by simpa using hi)]
        show l.foldlM _ (some i) = _ ↔ _
        rw [foldlM_matchNext_some]
        split
        · rename_i hnil
          simp [hnil]
        · rename_i hne
          simp [hne]
      · have hnext : ForeignToplevelManager.matchNext appId none i = .ok none := by
          simp [ForeignToplevelManager.matchNext, hi]
        rw [hnext, List.filter_cons_of_neg (by simpa using hi)]
        exact ih

theorem toplevelWith_ok :
    (m.toplevelWith appId).2 = .ok x ↔
      m.toplevels.2.filter (fun i => i.appId = some appId) = [x] ∧ x.dirty = false := by
  rw [← foldlM_matchNext_ok]
  unfold ForeignToplevelManager.toplevelWith
  dsimp only
  split
  · rename_i message hm
    simp [hm]
  · rename_i hm
    simp [hm]
  · rename_i y hm
    rw [hm]
    cases hy : y.dirty with
    | true =>
        simp only [if_true, reduceCtorEq, Except.ok.injEq, Option.some.injEq, false_iff, not_and]
        rintro rfl
        simp [hy]
    | false =>
        simp only [Bool.false_eq_true, if_false, Except.ok.injEq, Option.some.injEq, iff_self_and]
        rintro rfl
        exact hy

theorem toplevel_ok : m.toplevel.2 = .ok x ↔ m.toplevels.2 = [x] ∧ x.dirty = false := by
  unfold ForeignToplevelManager.toplevel
  dsimp only
  split
  · rename_i hm
    simp [hm]
  · rename_i y hm
    rw [hm]
    cases hy : y.dirty with
    | true =>
        simp only [if_true, reduceCtorEq, List.cons.injEq, and_true, false_iff, not_and]
        rintro rfl
        simp [hy]
    | false =>
        simp only [Bool.false_eq_true, if_false, Except.ok.injEq, List.cons.injEq, and_true, iff_self_and]
        rintro rfl
        exact hy
  · rename_i l hnil hone
    simp only [reduceCtorEq, false_iff, not_and]
    intro hx
    exact absurd hx (hone x)

theorem mirrored_handle (as : List Action) (n : Nat) : (mirrored as n).handle = n :=
  ForeignToplevelHandle.received_handle n _

theorem mirrored_dirty {n : Nat} (hn : n ∈ live as) : (mirrored as n).dirty = changed (eventsOf n as) := by
  have hdescribes := describes_received n (eventsOf n as)
  apply hdescribes.dirty
  rw [hdescribes.destroyed]
  simpa using (List.mem_filter.mp hn).2

/-- A query that finds one handle and finds it unchanged. -/
theorem found_iff {l : List Nat} (hl : ∀ k ∈ l, k ∈ live as) (n : Nat) :
    (∃ x : ForeignToplevelHandle, (l.map (mirrored as) = [x] ∧ x.dirty = false) ∧ x.handle = n) ↔
      l = [n] ∧ changed (eventsOf n as) = false := by
  constructor
  · rintro ⟨x, ⟨hx, hdirty⟩, rfl⟩
    obtain ⟨k, rfl, rfl⟩ := List.map_eq_singleton_iff.mp hx
    rw [mirrored_handle, ← mirrored_dirty (hl k (List.mem_singleton_self k))]
    exact ⟨rfl, hdirty⟩
  · rintro ⟨rfl, hchanged⟩
    refine ⟨mirrored as n, ⟨rfl, ?_⟩, mirrored_handle as n⟩
    rw [mirrored_dirty (hl n (List.mem_singleton_self n)), hchanged]

/-- `toplevel(app_id)` in terms of the history. -/
theorem Mirrors.toplevelWith (h : Mirrors as m) (n : Nat) :
    (∃ x, (m.toplevelWith appId).2 = .ok x ∧ x.handle = n) ↔
      (∀ k, k ∈ live as ∧ lastSome HandleEvent.appId? (eventsOf k as) = some appId ↔ k = n) ∧
        changed (eventsOf n as) = false := by
  let named := (live as).filter fun k => lastSome HandleEvent.appId? (eventsOf k as) = some appId
  have hfilter : m.toplevels.2.filter (fun i => i.appId = some appId) = named.map (mirrored as) := by
    rw [h.mirror, List.filter_map]
    apply congrArg (List.map (mirrored as))
    apply List.filter_congr
    intro k _
    have : (mirrored as k).appId = lastSome HandleEvent.appId? (eventsOf k as) := (describes_received k _).appId
    simp [this]
  have hnodup : named.Nodup := (List.nodup_range.filter _).filter _
  -- a list without duplicates that has exactly one member
  have hsingle : named = [n] ↔ ∀ k, k ∈ live as ∧ lastSome HandleEvent.appId? (eventsOf k as) = some appId ↔ k = n := by
    rw [← List.perm_singleton, List.perm_ext_iff_of_nodup hnodup (by simp)]
    simp only [named, List.mem_filter, decide_eq_true_eq, List.mem_singleton]
  simp only [toplevelWith_ok, hfilter]
  rw [← hsingle]
  exact found_iff (fun k hk => (List.mem_filter.mp hk).1) n

/-- After every run, the toplevels are the handles announced and not closed, in the order of announcement, as their last
events describe them; and `toplevel(app_id)` returns the one of them that has that app ID, provided it is the only one
and nothing has changed it since its last `done`. -/
theorem foreign_toplevel_mirror (h : manager.exec {} as = some m) :
    m.toplevels.2.map (·.handle) = live as ∧
      (∀ x ∈ m.toplevels.2, Describes (eventsOf x.handle as) x) ∧
      ∀ appId n, (∃ x, (m.toplevelWith appId).2 = .ok x ∧ x.handle = n) ↔
        (∀ k, k ∈ live as ∧ lastSome HandleEvent.appId? (eventsOf k as) = some appId ↔ k = n) ∧
          changed (eventsOf n as) = false := by
  have hm := run_mirrors h
  refine ⟨?_, ?_, fun appId n => hm.toplevelWith n⟩
  · rw [hm.mirror, List.map_map]
    exact List.map_id'' (mirrored_handle as) _
  · intro x hx
    rw [hm.mirror] at hx
    obtain ⟨n, -, rfl⟩ := List.mem_map.mp hx
    rw [mirrored_handle]
    exact describes_received n _

/-- `toplevel()` returns the only toplevel there is, once nothing has changed it since its last `done`. -/
theorem only_toplevel (h : manager.exec {} as = some m) (n : Nat) :
    (∃ x, m.toplevel.2 = .ok x ∧ x.handle = n) ↔ live as = [n] ∧ changed (eventsOf n as) = false := by
  simp only [toplevel_ok, (run_mirrors h).mirror]
  exact found_iff (fun _ hk => hk) n

end Queries

/-- Two toplevels with one app ID, of which the first is closed between two queries. -/
def sameAppId : List Action :=
  [.announce, .event 0 (.appId "app"), .event 0 .done, .announce, .event 1 (.appId "app"), .event 1 (.outputEnter 9),
    .event 1 .done, .toplevels, .event 0 .closed, .event 0 (.title "late"), .toplevelWith "app", .announce]

theorem foreign_toplevel_mirror_sameAppId :
    ∃ m x, manager.exec {} sameAppId = some m ∧ live sameAppId = [1, 2] ∧ (m.toplevelWith "app").2 = .ok x ∧
      x.handle = 1 := by
  obtain ⟨m, hm⟩ : ∃ m, manager.exec {} sameAppId = some m := Option.isSome_iff_exists.mp (by decide)
  have hlive : live sameAppId = [1, 2] := by decide
  have honly : ∀ k, k ∈ live sameAppId ∧ lastSome HandleEvent.appId? (eventsOf k sameAppId) = some "app" ↔ k = 1 := by
    intro k
    rw [hlive]
    constructor
    · rintro ⟨hk, happ⟩
      rcases List.mem_cons.mp hk with rfl | hk
      · rfl
      · obtain rfl := List.mem_singleton.mp hk
        exact absurd happ (by decide)
    · rintro rfl
      decide
  obtain ⟨x, hx, hn⟩ := ((foreign_toplevel_mirror hm).2.2 "app" 1).mpr ⟨honly, by decide⟩
  exact ⟨m, x, hm, hlive, hx, hn⟩

end Wlcs.ForeignToplevel
