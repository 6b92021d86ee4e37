import Wlcs.Integration.ResourceMapper

/-!
# Moving a window

Which window `wlcs_server_position_window_absolute` moves. An address may be that of one `wl_surface` after another, and
`surface_map` keeps what it was told last of each.

* `Sound` : what the maps say about the windows;
* `moves_named_window` : when the window that is moved is the one that the test means;
* `own_client_of_oneByOne` : while sockets are opened one after another, the descriptors are right;
* `throws_before_window` : what the listener throws at Mir.
-/

namespace Wlcs.Mapping
open EventMachine History

/-! ## Which window an address stands for -/

/-- Of the windows whose `wl_surface` was at the address, the one that was made last. -/
def Screen.Newest (me : Screen) (resource surface : Nat) : Prop :=
  me.placeOf surface = some resource ∧ ∀ later, surface < later → me.placeOf later ≠ some resource

structure Sound (me : Screen) : Prop where
  numbered : Store.Numbered Object.number me.made me.objects
  stream : ∀ r o, me.objects r = some o → o.interface = wlSurface → me.streamMap o.number = some r
  window : ∀ r o s, me.objects r = some o → me.windowOf o.number = some s → me.surfaceMap r = some s
  unmade : ∀ k, me.made ≤ k → me.windowOf k = none
  newest : ∀ r s, me.surfaceMap r = some s ↔ me.Newest r s
  unplaced : ∀ s, me.windows ≤ s → me.placeOf s = none

/-- The steps of the screen, from states in which every `wl_surface` has its stream. -/
inductive ScreenStep (me : Screen) : ScreenAction → Screen → Prop
  | wlSurfaceCreated {resource client id : Nat} (hfree : me.objects resource = none) :
      ScreenStep me (.wlSurfaceCreated resource client id) { me.add resource client id wlSurface with
        streamMap := Function.update me.streamMap me.made (some resource), lastWlSurface := none }
  | resourceCreated {resource client id : Nat} {interface : String} (hfree : me.objects resource = none)
      (hclass : interface ≠ wlSurface) :
      ScreenStep me (.resourceCreated resource client id interface)
        ((me.add resource client id interface).resourceCreated resource interface)
  | wlSurfaceDestroyed {resource : Nat} {object : Object} (hobject : me.objects resource = some object) :
      ScreenStep me (.resourceDestroyed resource) ((me.remove resource object).bufferStreamDestroyed object.number)
  | resourceDestroyed {resource : Nat} {object : Object} (hobject : me.objects resource = some object) :
      ScreenStep me (.resourceDestroyed resource) (me.remove resource object)
  | surfaceCreated {resource : Nat} {object : Object} (hobject : me.objects resource = some object)
      (hwindow : me.lastWlWindow.isSome) :
      ScreenStep me (.surfaceCreated resource)
        ({ me with surfaceMap := Function.update me.surfaceMap resource (some me.windows) }.addWindow resource object)
  | refused {resource : Nat} (hwindow : me.lastWlWindow = none) :
      ScreenStep me (.surfaceCreated resource) (me.throw noShellSurface)
  | surfaceDestroyed {surface : Nat} :
      ScreenStep me (.surfaceDestroyed surface) { me with alive := Function.update me.alive surface false }

section Screen
variable {me next : Screen}

/-- The stream of a `wl_surface` is found. -/
theorem surfaceCreated_eq_ok (h : Sound me) {resource surface w : Nat} {object : Object}
    (hobject : me.objects resource = some object) (hclass : object.interface = wlSurface)
    (hwindow : me.lastWlWindow = some w) :
    me.surfaceCreated surface object.number =
      .ok { me with surfaceMap := Function.update me.surfaceMap resource (some surface) } := by
  simp only [Screen.surfaceCreated, hwindow, h.stream resource object hobject hclass]

theorem screenStep_of_step {a : ScreenAction} (hsound : Sound me) (h : me.step a = some next) :
    ScreenStep me a next := by
  cases a with
  | wlSurfaceCreated resource client id =>
      obtain ⟨hguard, hnext⟩ := Option.ite_none_right_eq_some.mp h
      -- the listener has just noted the resource
      simp only [Screen.resourceCreated, if_true, Screen.bufferStreamCreated, Option.some.injEq] at hnext
      subst hnext
      exact .wlSurfaceCreated hguard.1
  | resourceCreated resource client id interface =>
      obtain ⟨hguard, hnext⟩ := Option.ite_none_right_eq_some.mp h
      obtain rfl := Option.some.inj hnext
      exact .resourceCreated hguard.1.1 hguard.2
  | resourceDestroyed resource =>
      simp only [Screen.step] at h
      split at h
      case h_1 => cases h
      case h_2 object hobject =>
        split at h
        · obtain rfl := Option.some.inj h
          exact .wlSurfaceDestroyed hobject
        · obtain rfl := Option.some.inj h
          exact .resourceDestroyed hobject
  | surfaceCreated resource =>
      simp only [Screen.step] at h
      split at h
      case h_1 => cases h
      case h_2 object hobject =>
        obtain ⟨hclass, hnext⟩ := Option.ite_none_right_eq_some.mp h
        cases hwindow : me.lastWlWindow with
        | none =>
            simp only [Screen.surfaceCreated, hwindow, Option.some.injEq] at hnext
            subst hnext
            exact .refused hwindow
        | some w =>
            simp only [surfaceCreated_eq_ok hsound hobject hclass hwindow, Option.some.injEq] at hnext
            subst hnext
            exact .surfaceCreated hobject (by rw [hwindow]; rfl)
  | surfaceDestroyed surface =>
      obtain ⟨hguard, hnext⟩ := Option.ite_none_right_eq_some.mp h
      obtain rfl := Option.some.inj hnext
      exact .surfaceDestroyed

/-- Nothing that is recorded of the windows has to do with an object that is new. -/
theorem Sound.add (h : Sound me) {resource : Nat} (client id : Nat) {interface : String} {streamMap : Nat → Option Nat}
    (hfree : me.objects resource = none) (hnew : interface = wlSurface → streamMap me.made = some resource)
    (hold : ∀ k < me.made, streamMap k = me.streamMap k) :
    Sound { me.add resource client id interface with streamMap } where
  numbered := h.numbered.put rfl
  stream r o hr hclass := by
    rcases Store.put_eq_some_iff.mp hr with ⟨rfl, rfl⟩ | ⟨-, hr⟩
    · exact hnew hclass
    · exact (hold _ (h.numbered.lt r o hr)).trans (h.stream r o hr hclass)
  window r o s hr hs := by
    rcases Store.put_eq_some_iff.mp hr with ⟨rfl, rfl⟩ | ⟨-, hr⟩
    · exact absurd ((h.unmade me.made (Nat.le_refl _)).symm.trans hs) nofun
    · exact h.window r o s hr hs
  unmade k hk := h.unmade k (Nat.le_of_succ_le hk)
  newest := h.newest
  unplaced := h.unplaced

theorem Sound.remove (h : Sound me) {resource : Nat} {object : Object} {streamMap : Nat → Option Nat}
    (hobject : me.objects resource = some object)
    (hrest : ∀ k, k ≠ object.number → streamMap k = me.streamMap k) :
    Sound { me.remove resource object with streamMap } where
  numbered := h.numbered.take resource
  stream r o hr hclass := by
    obtain ⟨hne, hr⟩ := Store.take_eq_some_iff.mp hr
    exact (hrest _ fun heq => hne (h.numbered.inj r resource o object hr hobject heq)).trans (h.stream r o hr hclass)
  window r o s hr hs := h.window r o s (Store.take_eq_some_iff.mp hr).2 hs
  unmade := h.unmade
  newest := h.newest
  unplaced := h.unplaced

/-- A window that is made at an address is the newest there, and the others stay the newest at theirs. -/
theorem newest_addWindow (h : Sound me) {resource : Nat} (object : Object) {r s : Nat} :
    (me.addWindow resource object).Newest r s ↔ if r = resource then s = me.windows else me.Newest r s := by
  have hplace : ∀ s, (me.addWindow resource object).placeOf s = some r ↔
      if s = me.windows then r = resource else me.placeOf s = some r := by
    intro s
    simp only [Screen.addWindow, Function.update_apply]
    split
    · simp [eq_comm]
    · rfl
  have hnone : ∀ s, me.windows ≤ s → me.placeOf s ≠ some r := by
    intro s hs hr
    rw [h.unplaced s hs] at hr
    cases hr
  unfold Screen.Newest
  simp only [ne_eq, hplace]
  by_cases hr : r = resource
  · simp only [hr, if_true]
    constructor
    · rintro ⟨hs, hlast⟩
      by_contra hne
      rw [if_neg hne] at hs
      rcases Nat.lt_or_ge s me.windows with hlt | hge
      · exact hlast me.windows hlt (by simp)
      · exact hnone s hge (hr ▸ hs)
    · rintro rfl
      refine ⟨by simp, fun later hlater => ?_⟩
      rw [if_neg (Nat.ne_of_gt hlater)]
      exact hr ▸ hnone later (Nat.le_of_lt hlater)
  · simp only [hr, if_false]
    have hsame : ∀ s, (if s = me.windows then False else me.placeOf s = some r) ↔ me.placeOf s = some r := by
      intro s
      split
      case isTrue heq => simp [hnone s (Nat.le_of_eq heq.symm)]
      case isFalse => rfl
    simp only [hsame]

theorem Sound.addWindow (h : Sound me) {resource : Nat} {object : Object}
    (hobject : me.objects resource = some object) :
    Sound ({ me with surfaceMap := Function.update me.surfaceMap resource (some me.windows) }.addWindow
      resource object) where
  numbered := h.numbered
  stream := h.stream
  window r o s hr hs := by
    rcases Store.put_eq_some_iff.mp hs with ⟨heq, rfl⟩ | ⟨hne, hs⟩
    · obtain rfl := h.numbered.inj r resource o object hr hobject heq
      exact Function.update_self ..
    · have hr' : r ≠ resource := by
        rintro rfl
        exact hne (congrArg Object.number (Option.some.inj (hr.symm.trans hobject)))
      exact (Function.update_of_ne hr' ..).trans (h.window r o s hr hs)
  unmade k hk := by
    have hne : k ≠ object.number := Nat.ne_of_gt (Nat.lt_of_lt_of_le (h.numbered.lt resource object hobject) hk)
    exact (Function.update_of_ne hne ..).trans (h.unmade k hk)
  newest r s := by
    refine Iff.trans ?_ (newest_addWindow h object).symm
    simp only [Screen.addWindow, Function.update_apply]
    split
    · simp [eq_comm]
    · exact h.newest r s
  unplaced s hs := (Function.update_of_ne (Nat.ne_of_gt hs) ..).trans (h.unplaced s (Nat.le_of_succ_le hs))

theorem sound_step {a : ScreenAction} (h : Sound me) (hstep : ScreenStep me a next) : Sound next := by
  cases hstep with
  | @wlSurfaceCreated resource client id hfree =>
      have hadd : Sound { me.add resource client id wlSurface with
          streamMap := Function.update me.streamMap me.made (some resource) } :=
        h.add client id hfree (fun _ => Function.update_self ..) (fun k hk => Function.update_of_ne (Nat.ne_of_lt hk) ..)
      exact { hadd with }
  | @resourceCreated resource client id interface hfree hclass =>
      have hadd : Sound (me.add resource client id interface) :=
        h.add client id hfree (fun heq => absurd heq hclass) (fun _ _ => rfl)
      unfold Screen.resourceCreated
      split
      · exact { hadd with }
      · split
        · exact { hadd with }
        · exact hadd
  | wlSurfaceDestroyed hobject => exact h.remove hobject (fun k hk => Function.update_of_ne hk ..)
  | resourceDestroyed hobject => exact h.remove hobject (fun _ _ => rfl)
  | surfaceCreated hobject _ => exact h.addWindow hobject
  | refused _ => exact { h with }
  | surfaceDestroyed => exact { h with }

theorem sound_init : Sound {} where
  numbered := ⟨fun _ _ h => (nomatch h), fun _ _ _ _ h => (nomatch h)⟩
  stream _ _ h := nomatch h
  window _ _ _ h := nomatch h
  unmade _ _ := rfl
  newest _ _ := ⟨fun h => (nomatch h), fun h => (nomatch h.1)⟩
  unplaced _ _ := rfl

end Screen

/-- The object is a `wl_surface` that has no window, and the latest one at its address, of an earlier `wl_surface`, lives. -/
def Screen.Haunted (me : Screen) (client : Option Nat) (id : Nat) : Prop :=
  ∃ c ∈ client, ∃ resource object surface, me.object? c id = some (resource, object) ∧ object.interface = wlSurface ∧
    me.windowOf object.number = none ∧ me.Newest resource surface ∧ me.alive surface = true

theorem objects_of_object? {me : Screen} {client id resource : Nat} {object : Object}
    (h : me.object? client id = some (resource, object)) : me.objects resource = some object := by
  obtain ⟨r, -, hr⟩ := Option.bind_eq_some_iff.mp h
  obtain ⟨o, ho, heq⟩ := Option.map_eq_some_iff.mp hr
  cases heq
  exact ho

/-- The window that lives is the one that `surface_map` has at the address. -/
theorem haunted_iff {me : Screen} (h : Sound me) {c id r : Nat} {o : Object} (hobject : me.object? c id = some (r, o)) :
    me.Haunted (some c) id ↔
      o.interface = wlSurface ∧ me.windowOf o.number = none ∧ ∃ s, me.surfaceMap r = some s ∧ me.alive s = true := by
  constructor
  · rintro ⟨_, ⟨⟩, r', o', s, ho, hclass, hnone, hnewest, halive⟩
    cases hobject.symm.trans ho
    exact ⟨hclass, hnone, s, (h.newest r s).mpr hnewest, halive⟩
  · rintro ⟨hclass, hnone, s, hs, halive⟩
    exact ⟨c, rfl, r, o, s, hobject, hclass, hnone, (h.newest r s).mp hs, halive⟩

theorem outcome_eq_iff {me : Screen} (h : Sound me) (client : Option Nat) (id : Nat) :
    me.outcome client (fun object => me.surfaceMap object.1) id =
      me.outcome client (fun object => me.windowOf object.2.number) id ↔ ¬ me.Haunted client id := by
  cases client with
  | none =>
      refine iff_of_true rfl ?_
      rintro ⟨c, hc, -⟩
      cases hc
  | some c =>
      cases hobject : me.object? c id with
      | none =>
          simp only [Screen.outcome, hobject, true_iff]
          rintro ⟨_, ⟨⟩, r, o, s, ho, -⟩
          rw [hobject] at ho
          cases ho
      | some ro =>
          obtain ⟨r, o⟩ := ro
          rw [haunted_iff h hobject]
          simp only [Screen.outcome, hobject]
          by_cases hclass : o.interface = wlSurface
          · simp only [hclass, ne_eq, not_true_eq_false, if_false, true_and]
            cases hwindow : me.windowOf o.number with
            | some s => simp [h.window r o s (objects_of_object? hobject) hwindow]
            | none =>
                cases hsurface : me.surfaceMap r with
                | none => simp
                | some s => cases halive : me.alive s <;> simp [halive]
          · simp [hclass]

/-! ## Runs -/

def MirAction.socket? : MirAction → Option SocketAction
  | .sockets a => some a
  | .screen _ => none

def MirAction.screen? : MirAction → Option ScreenAction
  | .sockets _ => none
  | .screen a => some a

/-- An object is made that `resource_created` takes for a window. -/
def isWindow : ScreenAction → Bool
  | .resourceCreated _ _ _ interface => interface = "wl_shell_surface" ∨ interface = "zxdg_surface_v6"
  | _ => false

/-- What a window is refused with. -/
def refusal (before : List ScreenAction) : ScreenAction → Option String
  | .surfaceCreated _ => if before.any isWindow then none else some noShellSurface
  | _ => none

structure Told (as : List ScreenAction) (me : Screen) : Prop where
  window : me.lastWlWindow.isSome = as.any isWindow
  thrown : me.thrown = collect refusal as

theorem told_step {as : List ScreenAction} {me next : Screen} {a : ScreenAction} (h : Told as me)
    (hstep : ScreenStep me a next) : Told (as ++ [a]) next := by
  constructor
  · rw [List.any_append, ← h.window]
    cases hstep with
    | @resourceCreated resource client id interface hfree hclass =>
        simp only [Screen.resourceCreated, hclass, if_false, List.any_cons, List.any_nil, Bool.or_false, isWindow]
        split
        case isTrue hwindow => simp [hwindow]
        case isFalse hwindow => simp [hwindow, Screen.add]
    | _ => simp [isWindow, Screen.add, Screen.remove, Screen.bufferStreamDestroyed, Screen.addWindow, Screen.throw]
  · rw [collect_concat, ← h.thrown]
    cases hstep with
    | @resourceCreated resource client id interface hfree hclass =>
        simp only [Screen.resourceCreated, hclass, if_false, refusal, Option.toList_none, List.append_nil]
        split <;> rfl
    | surfaceCreated hobject hwindow =>
        rw [h.window] at hwindow
        simp [refusal, hwindow, Screen.addWindow]
    | refused hwindow =>
        have hnone := h.window
        rw [hwindow] at hnone
        simp [refusal, ← hnone, Screen.throw]
    | _ => simp [refusal, Screen.add, Screen.remove, Screen.bufferStreamDestroyed]

structure Kept (as : List MirAction) (t : MirServer) : Prop where
  connected : Connected (as.filterMap MirAction.socket?) t.sockets
  sound : Sound t.screen
  told : Told (as.filterMap MirAction.screen?) t.screen

theorem kept_step {as : List MirAction} {s t : MirServer} {a : MirAction} (h : Kept as s)
    (hstep : mirServer.step s a = some t) : Kept (as ++ [a]) t := by
  cases a with
  | sockets a =>
      obtain ⟨u, hu, rfl⟩ := Option.map_eq_some_iff.mp hstep
      constructor
      · rw [List.filterMap_append]
        exact connected_step h.connected (socketStep_of_step hu)
      · exact h.sound
      · rw [List.filterMap_append, show [MirAction.sockets a].filterMap MirAction.screen? = [] from rfl, List.append_nil]
        exact h.told
  | screen a =>
      obtain ⟨u, hu, rfl⟩ := Option.map_eq_some_iff.mp hstep
      have hu := screenStep_of_step h.sound hu
      constructor
      · rw [List.filterMap_append, show [MirAction.screen a].filterMap MirAction.socket? = [] from rfl, List.append_nil]
        exact h.connected
      · exact sound_step h.sound hu
      · rw [List.filterMap_append]
        exact told_step h.told hu

theorem kept_of_exec {as : List MirAction} {t : MirServer} (h : mirServer.exec {} as = some t) : Kept as t := by
  refine mirServer.exec_induction ?_ ?_ as t h
  · exact ⟨connected_init, sound_init, ⟨rfl, rfl⟩⟩
  · intro as u a t _ hu hstep
    exact kept_step hu hstep

theorem position_eq_intended_iff {as : List MirAction} {t : MirServer} (h : Kept as t) {i fd : Nat}
    (hclient : t.sockets.clientForFd fd = t.sockets.clientOf i) (id : Nat) :
    t.positionWindowAbsolute fd id = t.intended i id ↔ ¬ t.screen.Haunted (t.sockets.clientOf i) id := by
  rw [MirServer.positionWindowAbsolute, MirServer.intended, hclient]
  exact outcome_eq_iff h.sound _ id

/-- **The descriptor of a call stands for the client of its socket if, when the call took the latest client, that was the
last one that had been made and was its own; the window that is then moved is that of the surface, unless the surface has
none and its memory has been that of one whose window still lives.** -/
theorem moves_named_window {as : List MirAction} {t : MirServer} (h : mirServer.exec {} as = some t) {i fd : Nat}
    (hreturned : t.sockets.calls i = .returned fd) (hopen : t.sockets.opened fd = some i) :
    (t.sockets.clientForFd fd = t.sockets.clientOf i ↔ Own (as.filterMap MirAction.socket?) i) ∧
      (Own (as.filterMap MirAction.socket?) i → ∀ id,
        (t.positionWindowAbsolute fd id = t.intended i id ↔ ¬ t.screen.Haunted (t.sockets.clientOf i) id)) := by
  have hkept := kept_of_exec h
  obtain ⟨c, -, hsession, howner⟩ := hkept.connected.session i fd hreturned hopen
  have hclient : t.sockets.clientForFd fd = t.sockets.clientOf i ↔ Own (as.filterMap MirAction.socket?) i := by
    rw [← howner, Sockets.clientForFd, hsession]
    exact eq_comm
  exact ⟨hclient, fun hown id => position_eq_intended_iff hkept (hclient.mpr hown) id⟩

/-- The socket of a client, and a `wl_surface` with a window, in whose place there is another one later. -/
def reusedMemory : List MirAction :=
  [.sockets (.open 0 3), .sockets (.clientCreated (some 0)), .sockets (.associate 0),
    .screen (.wlSurfaceCreated 7 0 5), .screen (.resourceCreated 8 0 6 "wl_shell_surface"),
    .screen (.surfaceCreated 7), .screen (.resourceDestroyed 8), .screen (.resourceDestroyed 7),
    .screen (.wlSurfaceCreated 7 0 5)]

/-- A window is moved that is not the window of the surface, which has none. -/
theorem moves_named_window_reusedMemory : ∃ t, mirServer.exec {} reusedMemory = some t ∧
    t.positionWindowAbsolute 3 5 = .moved 0 ∧ t.intended 0 5 = .aborted ∧
    t.screen.Haunted (t.sockets.clientOf 0) 5 := by
  refine ⟨_, rfl, by decide, by decide, ?_⟩
  have hown : Own (reusedMemory.filterMap MirAction.socket?) 0 :=
    ⟨[.open 0 3, .clientCreated (some 0)], by decide, rfl⟩
  have hiff := (moves_named_window (i := 0) (show mirServer.exec {} reusedMemory = some _ from rfl) rfl rfl).2 hown 5
  by_contra hnot
  exact absurd (hiff.mpr hnot) (by decide)

/-! ### One socket after another -/

/-- A socket is opened when no call is under way, a client is made only for a call that is, and no call gives up. -/
def OneByOne (s : MirServer) : MirAction → Prop
  | .sockets (.open _ _) => ∀ i fd, s.sockets.calls i ≠ .waiting fd
  | .sockets (.clientCreated call) => ∃ i fd, call = some i ∧ s.sockets.calls i = .waiting fd
  | .sockets (.timeout _) => False
  | _ => True

structure Turns (me : Sockets) : Prop where
  alone : ∀ i j fd fd', me.calls i = .waiting fd → me.calls j = .waiting fd' → i = j
  latest : ∀ c, me.latestClient = some c → ∃ i fd, me.calls i = .waiting fd ∧ me.clientOf i = some c
  session : ∀ i fd, me.calls i = .returned fd → me.opened fd = some i → me.clientSessionMap fd = me.clientOf i

section Turns
variable {me : Sockets}

theorem Turns.open (h : Turns me) {i fd : Nat} (hnone : ∀ j fd', me.calls j ≠ .waiting fd') :
    Turns ({ me with opened := Function.update me.opened fd (some i) }.goTo i (.waiting fd)) where
  alone j k fd₁ fd₂ hj hk := by
    have honly : ∀ l fd', Function.update me.calls i (.waiting fd) l = .waiting fd' → l = i := by
      intro l fd' hl
      by_contra hne
      exact hnone l fd' ((Function.update_of_ne hne ..).symm.trans hl)
    rw [honly j fd₁ hj, honly k fd₂ hk]
  latest c hc := by
    obtain ⟨j, fd', hj, -⟩ := h.latest c hc
    exact absurd hj (hnone j fd')
  session j fd' hj hfd' := by
    obtain ⟨hj, hfd'⟩ := returned_of_open hj hfd'
    exact h.session j fd' hj hfd'

theorem Turns.clientCreated (h : Turns me) {i fd : Nat} (hpc : me.calls i = .waiting fd) :
    Turns (me.clientCreated (some i)) where
  alone := h.alone
  latest := by
    rintro c ⟨⟩
    exact ⟨i, fd, hpc, by simp [Sockets.clientCreated]⟩
  session j fd' hj hfd' := by
    have hne : i ≠ j := by
      rintro rfl
      cases hpc.symm.trans hj
    simpa [Sockets.clientCreated, hne] using h.session j fd' hj hfd'

theorem Turns.associate (h : Turns me) {i fd client : Nat} (hpc : me.calls i = .waiting fd)
    (hopened : me.opened fd = some i) (hclient : me.latestClient = some client) :
    Turns (Sockets.goTo { me with
      clientSessionMap := Function.update me.clientSessionMap fd (some client), latestClient := none } i
        (.returned fd)) where
  alone j k fd₁ fd₂ hj hk := h.alone j k fd₁ fd₂ (waiting_of_goTo hj nofun) (waiting_of_goTo hk nofun)
  latest := by rintro c ⟨⟩
  session j fd' hj hfd' := by
    simp only [Sockets.goTo, Function.update_apply] at hj hfd' ⊢
    by_cases hji : j = i
    · subst hji
      rw [if_pos rfl] at hj
      obtain rfl := SocketPc.returned.inj hj
      obtain ⟨k, fd', hk, howner⟩ := h.latest client hclient
      rw [if_pos rfl, h.alone j k fd fd' hpc hk, howner]
    · rw [if_neg hji] at hj
      have hne : fd' ≠ fd := by
        rintro rfl
        exact hji (Option.some.inj (hopened.symm.trans hfd')).symm
      rw [if_neg hne]
      exact h.session j fd' hj hfd'

theorem turns_step {as : List MirAction} {s t : MirServer} {a : MirAction} (hkept : Kept as s) (h : Turns s.sockets)
    (hone : OneByOne s a) (hstep : mirServer.step s a = some t) : Turns t.sockets := by
  cases a with
  | sockets a =>
      obtain ⟨u, hu, rfl⟩ := Option.map_eq_some_iff.mp hstep
      cases socketStep_of_step hu with
      | «open» hidle hfree => exact h.open hone
      | clientCreated hcall =>
          obtain ⟨i, fd, rfl, hpc⟩ := hone
          exact h.clientCreated hpc
      | associate hpc hclient => exact h.associate hpc (hkept.connected.waiting _ _ hpc) hclient
      | timeout hpc hclient => exact hone.elim
      | close hopened hpc =>
          refine ⟨h.alone, h.latest, fun j fd' hj hfd' => ?_⟩
          exact h.session j fd' hj (Store.take_eq_some_iff.mp hfd').2
  | screen a =>
      obtain ⟨u, hu, rfl⟩ := Option.map_eq_some_iff.mp hstep
      exact h

end Turns

theorem turns_of_exec {as : List MirAction} {t : MirServer} (hone : mirServer.Along OneByOne {} as)
    (h : mirServer.exec {} as = some t) : Turns t.sockets := by
  refine mirServer.exec_induction (P := fun as t => mirServer.Along OneByOne {} as → Turns t.sockets) ?_ ?_ as t h hone
  · intro _
    exact ⟨fun _ _ _ _ h => (nomatch h), fun _ h => (nomatch h), fun _ _ h => (nomatch h)⟩
  · intro as u a t hu ih hstep hone
    obtain ⟨has, ha⟩ := mirServer.along_concat.mp hone
    exact turns_step (kept_of_exec hu) (ih has) (ha u hu) hstep

/-- **While sockets are opened one after another, by nobody else, and none of them in vain, every open descriptor stands
for its own client.** -/
theorem own_client_of_oneByOne {as : List MirAction} {t : MirServer} (hone : mirServer.Along OneByOne {} as)
    (h : mirServer.exec {} as = some t) {i fd : Nat} (hreturned : t.sockets.calls i = .returned fd)
    (hopen : t.sockets.opened fd = some i) :
    t.sockets.clientForFd fd = t.sockets.clientOf i ∧
      ∀ id, (t.positionWindowAbsolute fd id = t.intended i id ↔ ¬ t.screen.Haunted (t.sockets.clientOf i) id) := by
  have hclient : t.sockets.clientForFd fd = t.sockets.clientOf i :=
    (turns_of_exec hone h).session i fd hreturned hopen
  exact ⟨hclient, position_eq_intended_iff (kept_of_exec h) hclient⟩

/-- A client, and its window. -/
def oneWindow : List MirAction :=
  [.sockets (.open 0 3), .sockets (.clientCreated (some 0)), .sockets (.associate 0),
    .screen (.wlSurfaceCreated 7 0 5), .screen (.resourceCreated 8 0 6 "wl_shell_surface"),
    .screen (.surfaceCreated 7)]

theorem own_client_of_oneByOne_oneWindow : ∃ t, mirServer.exec {} oneWindow = some t ∧
    t.sockets.clientForFd 3 = t.sockets.clientOf 0 ∧ t.positionWindowAbsolute 3 5 = .moved 0 := by
  have hone : mirServer.Along OneByOne {} oneWindow := by
    refine (mirServer.along_step rfl).mpr ⟨nofun, ?_⟩
    refine (mirServer.along_step rfl).mpr ⟨⟨0, 3, rfl, rfl⟩, ?_⟩
    refine (mirServer.along_step rfl).mpr ⟨trivial, ?_⟩
    refine (mirServer.along_step rfl).mpr ⟨trivial, ?_⟩
    refine (mirServer.along_step rfl).mpr ⟨trivial, ?_⟩
    exact (mirServer.along_step rfl).mpr ⟨trivial, mirServer.along_nil⟩
  exact ⟨_, rfl, (own_client_of_oneByOne (i := 0) hone rfl rfl rfl).1, by decide⟩

/-- **The listener throws at Mir for the windows that are made before there is an object of a class that it takes for a
window, and it throws nothing else.** -/
theorem throws_before_window {as : List MirAction} {t : MirServer} (h : mirServer.exec {} as = some t) :
    t.screen.thrown = collect refusal (as.filterMap MirAction.screen?) := (kept_of_exec h).told.thrown

/-- A window of the stable xdg-shell. -/
def stableWindow : List MirAction :=
  [.screen (.wlSurfaceCreated 7 0 5), .screen (.resourceCreated 8 0 6 "xdg_surface"), .screen (.surfaceCreated 7)]

/-- The first window of a server cannot be one of the stable xdg-shell. -/
theorem throws_before_window_stableWindow :
    ∃ t, mirServer.exec {} stableWindow = some t ∧ t.screen.thrown = [noShellSurface] :=
  ⟨_, rfl, throws_before_window (show mirServer.exec {} stableWindow = some _ from rfl)⟩

end Wlcs.Mapping
