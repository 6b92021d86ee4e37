import Wlcs.Surface.ShellSurface

/-!
# What the protocols make of the shell surfaces

* `Shaped` : what the client holds of a surface is known from its function and the wait that it is in, so that the objects
  of a role always go in the same order (`Shaped.unwind_eq`), also when the function throws;
* `Agrees` : the stage that the rules have a surface at;
* `conforms_iff` : which functions keep to the rules;
* `configure_answered` : which `configure` events are acknowledged.
-/

namespace Wlcs.Shell
open EventMachine

/-! ## What the client holds -/

def held : Maker → Wait → Uses × List Shared × List Callback
  | .createWlShellSurface, _ => (fun _ => 0, [], [.destroyShellSurface])
  | _, .returned => (fun _ => 1, [], [.reset [.xdgToplevel, .xdgSurface]])
  | .xdgStableBuilder, _ => (fun _ => 1, [.xdgSurface, .xdgToplevel], [])
  | _, _ => (fun _ => 2, [.xdgSurface, .xdgToplevel], [.reset [.xdgToplevel, .xdgSurface]])

def mock : Maker → Wait → Bool → OnConfigure
  | .createXdgShellStableSurface, .configure, received => if received then .saturated else .once
  | .createXdgShellStableSurface, _, _ => .byDefault
  | _, _, _ => .anyNumber

structure Shaped (x : Surf) : Prop where
  held : (x.uses, x.locals, x.destructionCallbacks) = held x.maker x.wait
  mock : x.onConfigure = mock x.maker x.wait x.initialConfigureReceived
  /-- only one function waits for a `configure` event, and it does not go on without one -/
  wait : x.wait = .configure → x.maker = .createXdgShellStableSurface
  received : x.maker = .createXdgShellStableSurface → x.wait ≠ .configure → x.initialConfigureReceived = true

/-- The last messages of a surface. -/
def Maker.teardown : Maker → List Message
  | .createWlShellSurface => [.destroyShellSurface, .destroySurface]
  | _ => [.destroyToplevel, .destroyXdgSurface, .destroySurface]

theorem uses_ext {u v : Uses} (hsurface : u .xdgSurface = v .xdgSurface) (htoplevel : u .xdgToplevel = v .xdgToplevel) :
    u = v := by
  funext pointer
  cases pointer with
  | xdgSurface => exact hsurface
  | xdgToplevel => exact htoplevel

namespace Shaped
variable {x : Surf}

theorem unwind_eq (h : Shaped x) : x.unwind = x.maker.teardown := by
  obtain ⟨maker, wait, onConfigure, received, rendered, uses, locals, callbacks⟩ := x
  have hheld := h.held
  simp only [Shell.held] at hheld
  cases maker with
  | createWlShellSurface =>
      obtain ⟨rfl, rfl, rfl⟩ := by simpa using hheld
      rfl
  | createXdgShellV6Surface | createXdgShellStableSurface | xdgStableBuilder =>
      cases wait with
      | configure | frame | returned =>
          obtain ⟨rfl, rfl, rfl⟩ := by simpa using hheld
          rfl

theorem make (maker : Maker) : Shaped (make maker).1 := by
  cases maker with
  | createWlShellSurface => exact ⟨rfl, rfl, fun h => (by cases h), fun h => (by cases h)⟩
  | createXdgShellV6Surface =>
      refine ⟨?_, rfl, fun h => (by cases h), fun h => by cases h⟩
      exact Prod.ext (uses_ext rfl rfl) rfl
  | createXdgShellStableSurface =>
      refine ⟨?_, rfl, fun _ => rfl, fun _ h => absurd rfl h⟩
      exact Prod.ext (uses_ext rfl rfl) rfl
  | xdgStableBuilder => exact ⟨rfl, rfl, fun h => (by cases h), fun h => (by cases h)⟩

/-- A function that returns releases nothing, and leaves the objects to the destruction callback. -/
theorem finish (h : Shaped x) (hwait : x.wait = .frame) :
    Shaped (finish x).1 ∧ (Shell.finish x).1.maker = x.maker ∧ (Shell.finish x).1.wait = .returned ∧
      (Shell.finish x).1.initialConfigureReceived = x.initialConfigureReceived ∧ (Shell.finish x).2 = [] := by
  obtain ⟨maker, wait, onConfigure, received, rendered, uses, locals, callbacks⟩ := x
  obtain rfl := hwait
  have hheld := h.held
  have hmock := h.mock
  have hreceived := h.received
  simp only [Shell.held, Shell.mock] at hheld hmock hreceived
  cases maker with
  | createWlShellSurface =>
      obtain ⟨rfl, rfl, rfl⟩ := by simpa using hheld
      exact ⟨⟨rfl, hmock, fun h => (by cases h), fun h => by cases h⟩, rfl, rfl, rfl, rfl⟩
  | createXdgShellV6Surface | createXdgShellStableSurface | xdgStableBuilder =>
      obtain ⟨rfl, rfl, rfl⟩ := by simpa using hheld
      refine ⟨⟨?_, hmock, fun h => (by cases h), fun h _ => hreceived h (by decide)⟩, rfl, rfl, rfl, rfl⟩
      exact Prod.ext (uses_ext rfl rfl) rfl

theorem configure (h : Shaped x) (serial : Serial) : Shaped (configure x serial).1 := by
  unfold Shell.configure
  cases honce : x.onConfigure with
  | anyNumber | saturated | byDefault => exact h
  | once =>
      have hmock := h.mock
      rw [honce] at hmock
      have hwait : x.wait = .configure := by
        cases hmaker : x.maker with
        | createWlShellSurface | createXdgShellV6Surface | xdgStableBuilder =>
            rw [hmaker] at hmock
            cases hmock
        | createXdgShellStableSurface =>
            rw [hmaker] at hmock
            cases hw : x.wait with
            | configure => rfl
            | frame | returned =>
                rw [hw] at hmock
                cases hmock
      refine ⟨h.held, ?_, h.wait, fun _ _ => rfl⟩
      rw [h.wait hwait, hwait]
      rfl

/-- When the first `configure` event has come, the buffer is attached. -/
theorem proceed (h : Shaped x) (hwait : x.wait = .configure) (hreceived : x.initialConfigureReceived = true) :
    Shaped { x with wait := .frame, onConfigure := .byDefault } := by
  have hmaker := h.wait hwait
  refine ⟨?_, ?_, fun hframe => (by cases hframe), fun _ _ => hreceived⟩
  · have hheld := h.held
    rw [hmaker, hwait] at hheld
    rw [hmaker]
    exact hheld
  · rw [hmaker]
    rfl

end Shaped

/-! ## The stage of a surface -/

/-- The messages of one surface. -/
def own (id : Nat) (entry : Nat × Message) : Option Message := if entry.1 = id then some entry.2 else none

/-- The stage that the rules have a surface at, unless its messages have broken one. -/
def Client.stage (me : Client) (id : Nat) : Option Stage := rules.watch (own id) me.trace

/-- More messages of a surface at some stage. -/
def follow (l : Stage) (messages : List Message) : Option Stage := messages.foldlM Stage.next l

section Stages
variable {me : Client} {id j : Nat} {status : Status} {messages : List Message}

theorem foldlM_own (l : Stage) (messages : List Message) :
    (messages.map fun message => (id, message)).foldlM (rules.advance (own id)) l = follow l messages := by
  induction messages generalizing l with
  | nil => rfl
  | cons message messages ih =>
      have hfirst : rules.advance (own id) l (id, message) = l.next message := by
        rw [Monitor.advance, own, if_pos rfl]
        rfl
      rw [List.map_cons, List.foldlM_cons, hfirst, follow, List.foldlM_cons]
      congr 1
      funext l'
      exact ih l'

theorem foldlM_other (h : id ≠ j) (l : Stage) (messages : List Message) :
    (messages.map fun message => (j, message)).foldlM (rules.advance (own id)) l = some l := by
  induction messages with
  | nil => rfl
  | cons message messages ih =>
      have hfirst : rules.advance (own id) l (j, message) = some l := by
        rw [Monitor.advance, own, if_neg (Ne.symm h)]
        rfl
      rw [List.map_cons, List.foldlM_cons, hfirst]
      exact ih

theorem stage_put (me : Client) (id : Nat) (status : Status) (messages : List Message) :
    (me.put id status messages).stage id = (me.stage id).bind (follow · messages) := by
  rw [Client.stage, Client.put, Monitor.watch_append]
  congr 1
  funext l
  exact foldlM_own l messages

theorem stage_put_other (h : id ≠ j) : (me.put j status messages).stage id = me.stage id := by
  rw [Client.stage, Client.put, Monitor.watch_append]
  have hsame : (fun l => (messages.map fun message => (j, message)).foldlM (rules.advance (own id)) l) = some := by
    funext l
    exact foldlM_other h l messages
  rw [hsame, Option.bind_fun_some]
  rfl

@[simp] theorem stage_report (me : Client) (id j : Nat) (failures : List Failure) :
    (me.report j failures).stage id = me.stage id := rfl

end Stages

/-- The functions that attach a buffer without waiting for a `configure` event that they should wait for. -/
def Maker.hasty : Maker → Bool
  | .createXdgShellV6Surface | .xdgStableBuilder => true
  | .createWlShellSurface | .createXdgShellStableSurface => false

/-- The stage of a surface that the client holds. -/
def Agrees (x : Surf) (l : Option Stage) : Prop :=
  match x.maker with
  | .createWlShellSurface => l = some .shellSurface
  | .createXdgShellStableSurface =>
      ∃ outstanding, l = some (.toplevel .xdgStable outstanding x.initialConfigureReceived)
  | .createXdgShellV6Surface | .xdgStableBuilder => l = none

theorem agrees_make (maker : Maker) : Agrees (make maker).1 (follow .unborn (make maker).2) := by
  cases maker with
  | createXdgShellStableSurface => exact ⟨[], rfl⟩
  | createWlShellSurface | createXdgShellV6Surface | xdgStableBuilder => rfl

theorem follow_configure (outstanding : List Serial) (configured : Bool) (serial : Serial) :
    follow (.toplevel .xdgStable outstanding configured) [.configure serial] =
      some (.toplevel .xdgStable (outstanding ++ [serial]) configured) := by
  simp [follow, Stage.next]

theorem follow_acknowledged (outstanding : List Serial) (configured : Bool) (serial : Serial) :
    follow (.toplevel .xdgStable outstanding configured) [.configure serial, .ackConfigure serial] =
      some (.toplevel .xdgStable (Stage.consume serial (outstanding ++ [serial])) true) := by
  simp [follow, Stage.next]

@[simp] theorem configure_maker (x : Surf) (serial : Serial) : (configure x serial).1.maker = x.maker := by
  unfold configure
  cases x.onConfigure with
  | anyNumber | once | saturated | byDefault => rfl

/-- What the mock of `create_xdg_shell_stable_surface` does. -/
theorem Shaped.onConfigure {x : Surf} (h : Shaped x) (hmaker : x.maker = .createXdgShellStableSurface) :
    (x.wait = .configure ∧ x.initialConfigureReceived = false ∧ x.onConfigure = .once) ∨
      (x.wait = .configure ∧ x.initialConfigureReceived = true ∧ x.onConfigure = .saturated) ∨
      (x.wait ≠ .configure ∧ x.initialConfigureReceived = true ∧ x.onConfigure = .byDefault) := by
  have hmock := h.mock
  rw [hmaker] at hmock
  cases hwait : x.wait with
  | configure =>
      rw [hwait] at hmock
      cases hreceived : x.initialConfigureReceived with
      | false =>
          rw [hreceived] at hmock
          exact Or.inl ⟨rfl, rfl, hmock⟩
      | true =>
          rw [hreceived] at hmock
          exact Or.inr (Or.inl ⟨rfl, rfl, hmock⟩)
  | frame | returned =>
      rw [hwait] at hmock
      refine Or.inr (Or.inr ⟨(by decide), h.received hmaker ?_, hmock⟩)
      rw [hwait]
      decide

theorem agrees_hasty {x : Surf} (hhasty : x.maker.hasty = true) {l : Option Stage} : Agrees x l ↔ l = none := by
  unfold Agrees
  cases hmaker : x.maker with
  | createWlShellSurface | createXdgShellStableSurface =>
      rw [hmaker] at hhasty
      cases hhasty
  | createXdgShellV6Surface | xdgStableBuilder => exact Iff.rfl

theorem agrees_shell {x : Surf} (hmaker : x.maker = .createWlShellSurface) {l : Option Stage} :
    Agrees x l ↔ l = some .shellSurface := by
  rw [Agrees, hmaker]

theorem agrees_stable {x : Surf} (hmaker : x.maker = .createXdgShellStableSurface) {l : Option Stage} :
    Agrees x l ↔ ∃ outstanding, l = some (.toplevel .xdgStable outstanding x.initialConfigureReceived) := by
  rw [Agrees, hmaker]

/-- A function either keeps to the rules, in one of two ways, or has broken one. -/
theorem Maker.sort (maker : Maker) :
    maker.hasty = true ∨ maker = .createWlShellSurface ∨ maker = .createXdgShellStableSurface := by
  cases maker with
  | createWlShellSurface => exact Or.inr (Or.inl rfl)
  | createXdgShellStableSurface => exact Or.inr (Or.inr rfl)
  | createXdgShellV6Surface | xdgStableBuilder => exact Or.inl rfl

theorem Agrees.configure {x : Surf} {l : Option Stage} (h : Agrees x l) (hshaped : Shaped x)
    (hprotocol : x.maker.protocol ≠ .wlShell) (serial : Serial) :
    Agrees (configure x serial).1 (l.bind (follow · (.configure serial :: (Shell.configure x serial).2.1))) := by
  rcases x.maker.sort with hhasty | hmaker | hmaker
  · rw [agrees_hasty hhasty] at h
    rw [agrees_hasty (by rw [configure_maker, hhasty]), h]
    rfl
  · rw [hmaker] at hprotocol
    exact absurd rfl hprotocol
  · obtain ⟨outstanding, rfl⟩ := (agrees_stable hmaker).mp h
    rw [agrees_stable (by rw [configure_maker, hmaker]), Option.bind_some]
    obtain ⟨-, -, honce⟩ | ⟨-, hreceived, honce⟩ | ⟨-, hreceived, honce⟩ := hshaped.onConfigure hmaker
    · simp only [Shell.configure, honce]
      exact ⟨_, follow_acknowledged outstanding _ serial⟩
    · simp only [Shell.configure, honce]
      exact ⟨_, follow_configure outstanding _ serial⟩
    · simp only [Shell.configure, honce, hreceived]
      exact ⟨_, follow_acknowledged outstanding _ serial⟩

/-- The client may attach and commit as long as it has the surface. -/
theorem Agrees.request {x : Surf} {l : Option Stage} (h : Agrees x l) (hshaped : Shaped x) (hwait : x.wait ≠ .configure)
    {message : Message} (hmessage : message = .attach ∨ message = .frame ∨ message = .commit) :
    Agrees x (l.bind (follow · [message])) := by
  rcases x.maker.sort with hhasty | hmaker | hmaker
  · rw [agrees_hasty hhasty] at h ⊢
    rw [h]
    rfl
  · rw [agrees_shell hmaker] at h ⊢
    rw [h]
    obtain rfl | rfl | rfl := hmessage
    · rfl
    · rfl
    · rfl
  · rw [agrees_stable hmaker] at h ⊢
    rw [hshaped.received hmaker hwait] at h ⊢
    obtain ⟨outstanding, rfl⟩ := h
    refine ⟨outstanding, ?_⟩
    obtain rfl | rfl | rfl := hmessage
    · rfl
    · rfl
    · rfl

/-- The objects of a role go in the order that the rules ask for. -/
theorem Agrees.teardown {x : Surf} {l : Option Stage} (h : Agrees x l) :
    l.bind (follow · x.maker.teardown) = if x.maker.hasty then none else some .destroyed := by
  rcases x.maker.sort with hhasty | hmaker | hmaker
  · rw [agrees_hasty hhasty] at h
    rw [h, if_pos hhasty]
    rfl
  · rw [agrees_shell hmaker] at h
    rw [h, hmaker]
    rfl
  · obtain ⟨outstanding, rfl⟩ := (agrees_stable hmaker).mp h
    rw [hmaker]
    rfl

/-! ## Every run -/

/-- What is known of a surface in any state of the client. -/
def Known (bound : Protocol → Bool) (me : Client) (id : Nat) : Prop :=
  match me.surfaces id with
  | .unborn => me.stage id = some .unborn
  | .alive x => bound x.maker.protocol = true ∧ Shaped x ∧ Agrees x (me.stage id)
  | .gone maker =>
      me.stage id = if maker.hasty = true ∧ bound maker.protocol = true then none else some .destroyed

section Runs
variable {bound : Protocol → Bool} {me you : Client} {id j : Nat} {x : Surf} {messages : List Message}

theorem known_put_other {status : Status} (h : Known bound me id) (hid : id ≠ j) :
    Known bound (me.put j status messages) id := by
  rw [Known, stage_put_other hid]
  simp only [Client.put, Function.update_of_ne hid]
  exact h

theorem known_put_alive (hbound : bound x.maker.protocol = true) (hshaped : Shaped x)
    (hagrees : Agrees x ((me.stage id).bind (follow · messages))) :
    Known bound (me.put id (.alive x) messages) id := by
  rw [Known, stage_put]
  simp only [Client.put, Function.update_self]
  exact ⟨hbound, hshaped, hagrees⟩

theorem known_put_gone {maker : Maker} (h : (me.stage id).bind (follow · messages) =
    if maker.hasty = true ∧ bound maker.protocol = true then none else some .destroyed) :
    Known bound (me.put id (.gone maker) messages) id := by
  rw [Known, stage_put]
  simp only [Client.put, Function.update_self]
  exact h

theorem known_report {failures : List Failure} (h : Known bound me id) : Known bound (me.report j failures) id := h

/-- What a step does to the surface that it is about. -/
theorem step_cases {a : Action} (h : (shells bound).step me a = some you) :
    (∃ maker, a = .create a.id maker ∧ me.surfaces a.id = .unborn ∧ you = me.create bound a.id maker) ∨
      (∃ x, me.surfaces a.id = .alive x ∧ me.act a.id x a = some you) := by
  simp only [shells] at h
  split at h
  case h_1 id maker hsurface => exact Or.inl ⟨maker, rfl, hsurface, (Option.some.inj h).symm⟩
  case h_2 x hsurface => exact Or.inr ⟨x, hsurface, h⟩
  case h_3 => cases h

theorem known_create {maker : Maker} (h : me.stage id = some .unborn) :
    Known bound (me.create bound id maker) id := by
  unfold Client.create
  split
  case isTrue hbound =>
    have hmaker : (make maker).1.maker = maker := by cases maker <;> rfl
    refine known_put_alive ?_ (Shaped.make maker) ?_
    · rw [hmaker, hbound]
    · rw [h]
      exact agrees_make maker
  case isFalse hbound =>
    refine known_put_gone ?_
    rw [h, if_neg fun hboth => hbound hboth.2]
    rfl

theorem known_gone (hbound : bound x.maker.protocol = true) (hshaped : Shaped x) (hagrees : Agrees x (me.stage id)) :
    Known bound (me.put id (.gone x.maker) x.unwind) id := by
  refine known_put_gone ?_
  rw [hshaped.unwind_eq, hagrees.teardown]
  refine if_congr ?_ rfl rfl
  rw [hbound, eq_self, and_true]

theorem follow_cons (l : Option Stage) (message : Message) (messages : List Message) :
    l.bind (follow · (message :: messages)) = (l.bind (follow · [message])).bind (follow · messages) := by
  cases l with
  | none => rfl
  | some l =>
      simp only [Option.bind_some, follow, List.foldlM_cons, List.foldlM_nil]
      cases l.next message with
      | none => rfl
      | some l' => rfl

/-- A buffer is attached after the wait for a `configure` event. -/
theorem Agrees.attachVisibleBuffer {l : Option Stage} (h : Agrees x l) (hshaped : Shaped x) (hwait : x.wait ≠ .configure) :
    Agrees x (l.bind (follow · attachVisibleBuffer)) := by
  rw [Shell.attachVisibleBuffer, follow_cons, follow_cons]
  have hattach := h.request hshaped hwait (Or.inl rfl)
  have hframe := hattach.request hshaped hwait (Or.inr (Or.inl rfl))
  exact hframe.request hshaped hwait (Or.inr (Or.inr rfl))

/-- `Agrees` does not depend on the wait. -/
theorem agrees_congr {y : Surf} {l : Option Stage} (hmaker : y.maker = x.maker)
    (hreceived : y.initialConfigureReceived = x.initialConfigureReceived) : Agrees y l ↔ Agrees x l := by
  rw [Agrees, Agrees, hmaker, hreceived]

theorem bind_follow_nil (l : Option Stage) : l.bind (follow · []) = l := by
  cases l with
  | none => rfl
  | some l => rfl

theorem known_act {a : Action} (hbound : bound x.maker.protocol = true) (hshaped : Shaped x)
    (hagrees : Agrees x (me.stage id)) (h : me.act id x a = some you) : Known bound you id := by
  cases a with
  | create i maker => cases h
  | configure i serial =>
      simp only [Client.act] at h
      split at h
      case isTrue => cases h
      case isFalse hprotocol =>
        obtain rfl := Option.some.inj h
        refine known_report (known_put_alive ?_ (hshaped.configure serial) (hagrees.configure hshaped hprotocol serial))
        rw [configure_maker, hbound]
  | done i =>
      simp only [Client.act] at h
      split at h
      case isTrue hwait =>
        obtain rfl := Option.some.inj h
        refine known_put_alive hbound ⟨hshaped.held, hshaped.mock, hshaped.wait, hshaped.received⟩ ?_
        rw [bind_follow_nil]
        exact hagrees
      case isFalse => cases h
  | proceed i =>
      simp only [Client.act] at h
      split at h
      case h_1 hwait =>
        split at h
        case isTrue hreceived =>
          obtain rfl := Option.some.inj h
          have hnext := hshaped.proceed hwait hreceived
          refine known_put_alive hbound hnext ?_
          refine Agrees.attachVisibleBuffer ?_ hnext (show Wait.frame ≠ .configure by decide)
          exact (agrees_congr rfl rfl).mpr hagrees
        case isFalse => cases h
      case h_2 hwait =>
        split at h
        case isTrue =>
          obtain rfl := Option.some.inj h
          obtain ⟨hfinish, hmaker, -, hreceived, hmessages⟩ := hshaped.finish hwait
          refine known_put_alive ?_ hfinish ?_
          · rw [hmaker, hbound]
          · rw [hmessages, bind_follow_nil, agrees_congr hmaker hreceived]
            exact hagrees
        case isFalse => cases h
      case h_3 => cases h
  | throws i =>
      simp only [Client.act] at h
      split at h
      case isTrue => cases h
      case isFalse =>
        obtain rfl := Option.some.inj h
        exact known_report (known_gone hbound hshaped hagrees)
  | attach i =>
      simp only [Client.act] at h
      split at h
      case isTrue hwait =>
        obtain rfl := Option.some.inj h
        refine known_put_alive hbound hshaped (hagrees.request hshaped ?_ (Or.inl rfl))
        rw [hwait]
        decide
      case isFalse => cases h
  | commit i =>
      simp only [Client.act] at h
      split at h
      case isTrue hwait =>
        obtain rfl := Option.some.inj h
        refine known_put_alive hbound hshaped (hagrees.request hshaped ?_ (Or.inr (Or.inr rfl)))
        rw [hwait]
        decide
      case isFalse => cases h
  | destroy i =>
      simp only [Client.act] at h
      split at h
      case isTrue =>
        obtain rfl := Option.some.inj h
        exact known_gone hbound hshaped hagrees
      case isFalse => cases h

theorem report_nil (me : Client) (id : Nat) : me.report id [] = me := by
  rw [Client.report, List.map_nil, List.append_nil]

/-- An action leaves the other surfaces as they are. -/
theorem act_frame {a : Action} (h : me.act id x a = some you) :
    ∃ status messages failures, you = (me.put id status messages).report id failures := by
  cases a with
  | create i maker => cases h
  | configure i serial =>
      simp only [Client.act] at h
      split at h
      · cases h
      · exact ⟨_, _, _, (Option.some.inj h).symm⟩
  | proceed i =>
      simp only [Client.act] at h
      split at h
      case h_3 => cases h
      case h_1 | h_2 =>
        split at h
        · exact ⟨_, _, [], by rw [report_nil, Option.some.inj h]⟩
        · cases h
  | throws i =>
      simp only [Client.act] at h
      split at h
      · cases h
      · exact ⟨_, _, _, (Option.some.inj h).symm⟩
  | done i | attach i | commit i | destroy i =>
      simp only [Client.act] at h
      split at h
      · exact ⟨_, _, [], by rw [report_nil, Option.some.inj h]⟩
      · cases h

theorem known_step {a : Action} (h : (shells bound).step me a = some you) (hknown : ∀ id, Known bound me id) (id : Nat) :
    Known bound you id := by
  have hself := hknown a.id
  obtain ⟨maker, -, hunborn, rfl⟩ | ⟨x, halive, hact⟩ := step_cases h
  · by_cases hid : id = a.id
    · rw [hid]
      rw [Known, hunborn] at hself
      exact known_create hself
    · unfold Client.create
      split
      · exact known_put_other (hknown id) hid
      · exact known_put_other (hknown id) hid
  · by_cases hid : id = a.id
    · rw [hid]
      rw [Known, halive] at hself
      obtain ⟨hbound, hshaped, hagrees⟩ := hself
      exact known_act hbound hshaped hagrees hact
    · obtain ⟨status, messages, failures, rfl⟩ := act_frame hact
      exact known_report (known_put_other (hknown id) hid)

theorem known_run {actions : List Action} (h : (shells bound).exec {} actions = some me) (id : Nat) :
    Known bound me id := by
  refine (shells bound).exec_induction (P := fun _ me => ∀ id, Known bound me id) ?_ ?_ actions me h id
  · intro id
    rfl
  · intro _ u a t _ hu ht
    exact known_step ht hu

/-- The function that made, or failed to make, a surface. -/
def Client.maker? (me : Client) (id : Nat) : Option Maker :=
  match me.surfaces id with
  | .unborn => none
  | .alive x => some x.maker
  | .gone maker => some maker

theorem hasty_eq_false (maker : Maker) :
    maker.hasty = false ↔ maker = .createWlShellSurface ∨ maker = .createXdgShellStableSurface := by
  cases maker with
  | createWlShellSurface | createXdgShellV6Surface | createXdgShellStableSurface | xdgStableBuilder => decide

theorem stage_ne_none {maker : Maker} (hknown : Known bound me id) (hmaker : me.maker? id = some maker) :
    me.stage id ≠ none ↔ maker.hasty = false ∨ bound maker.protocol = false := by
  unfold Known at hknown
  unfold Client.maker? at hmaker
  split at hknown
  case h_1 hunborn =>
    rw [hunborn] at hmaker
    cases hmaker
  case h_2 x halive =>
    rw [halive] at hmaker
    obtain rfl := Option.some.inj hmaker
    obtain ⟨hbound, -, hagrees⟩ := hknown
    rw [hbound]
    rcases x.maker.sort with hhasty | hshell | hstable
    · rw [agrees_hasty hhasty] at hagrees
      rw [hagrees, hhasty]
      decide
    · rw [agrees_shell hshell] at hagrees
      rw [hagrees, hshell]
      decide
    · obtain ⟨outstanding, hstage⟩ := (agrees_stable hstable).mp hagrees
      rw [hstage, hstable]
      simp [Maker.hasty]
  case h_3 m hgone =>
    rw [hgone] at hmaker
    obtain rfl := Option.some.inj hmaker
    rw [hknown]
    cases hhasty : m.hasty with
    | false => simp
    | true =>
        cases hbound : bound m.protocol with
        | false => simp
        | true => simp

/-- However the events of all surfaces interleave, and whichever waits throw, the messages of a surface keep to the rules
if and only if its function waits for the first `configure` event or need not; `create_visible_surface` picks such a
function unless it only has the unstable shell. What keeps to the rules is gone without a trace when the surface is. -/
theorem conforms_iff (bound : Protocol → Bool) (actions : List Action) {maker : Maker}
    (h : (shells bound).exec {} actions = some me) (hmaker : me.maker? id = some maker) :
    (me.stage id ≠ none ↔
        maker = .createWlShellSurface ∨ maker = .createXdgShellStableSurface ∨ bound maker.protocol = false) ∧
      (createVisibleSurface bound = some maker →
        (me.stage id ≠ none ↔ bound .wlShell = true ∨ bound .xdgStable = true)) ∧
      (me.surfaces id = .gone maker → me.stage id ≠ none → me.stage id = some .destroyed) := by
  have hknown := known_run h id
  have hiff := stage_ne_none hknown hmaker
  refine ⟨?_, fun hvisible => ?_, fun hgone hstage => ?_⟩
  · rw [hiff, hasty_eq_false, or_assoc]
  · rw [hiff]
    unfold createVisibleSurface at hvisible
    split at hvisible
    case isTrue hshell =>
      obtain rfl := Option.some.inj hvisible
      simp [Maker.hasty, hshell]
    case isFalse hshell =>
      split at hvisible
      case isTrue hstable =>
        obtain rfl := Option.some.inj hvisible
        simp [Maker.hasty, hstable]
      case isFalse hstable =>
        split at hvisible
        case isTrue hv6 =>
          obtain rfl := Option.some.inj hvisible
          simp [Maker.hasty, Maker.protocol, hshell, hstable, hv6]
        case isFalse => cases hvisible
  · rw [Known, hgone] at hknown
    simp only at hknown
    split at hknown
    · exact absurd hknown hstage
    · exact hknown

/-- Two surfaces at once; the second `configure` event of one comes too early, and the other one never gets a buffer. -/
def overlapping : List Action :=
  [.create 0 .createXdgShellStableSurface, .create 1 .createXdgShellStableSurface, .configure 0 7, .configure 0 8,
    .proceed 0, .configure 0 9, .done 0, .throws 1, .proceed 0, .commit 0, .destroy 0]

theorem conforms_iff_overlapping :
    ∃ me, (shells fun _ => true).exec {} overlapping = some me ∧ me.stage 0 ≠ none ∧ me.stage 1 = some .destroyed := by
  refine ⟨_, rfl, ?_, ?_⟩
  · exact (conforms_iff (fun _ => true) overlapping rfl rfl).1.mpr (Or.inr (Or.inl rfl))
  · refine (conforms_iff (fun _ => true) overlapping rfl rfl).2.2 rfl ?_
    exact (conforms_iff (fun _ => true) overlapping rfl rfl).1.mpr (Or.inr (Or.inl rfl))

end Runs

/-! ## Acknowledgements -/

/-- The `configure` events of a surface, before and after its function first goes on. -/
structure Hearing where
  proceeded : Bool := false
  early : List Serial := []
  later : List Serial := []
deriving DecidableEq, Repr

def Hearing.hear (id : Nat) (hearing : Hearing) : Action → Hearing
  | .configure i serial =>
      if i = id then
        if hearing.proceeded then { hearing with later := hearing.later ++ [serial] }
        else { hearing with early := hearing.early ++ [serial] }
      else hearing
  | .proceed i => if i = id then { hearing with proceeded := true } else hearing
  | _ => hearing

def hearing (id : Nat) (actions : List Action) : Hearing := actions.foldl (Hearing.hear id) {}

/-- The serials that a surface has acknowledged. -/
def Client.acknowledged (me : Client) (id : Nat) : List Serial :=
  me.trace.filterMap fun
    | (i, .ackConfigure serial) => if i = id then some serial else none
    | _ => none

/-- The serials of the calls that the test framework has reported. -/
def Client.reported (me : Client) (id : Nat) : List Serial :=
  me.failures.filterMap fun
    | (i, .calledTwice serial) => if i = id then some serial else none
    | _ => none

section Acknowledgements
variable {bound : Protocol → Bool} {me you : Client} {id j : Nat} {x : Surf} {messages : List Message} {status : Status}
  {failures : List Failure}

def acks (messages : List Message) : List Serial :=
  messages.filterMap fun
    | .ackConfigure serial => some serial
    | _ => none

def calledTwice (failures : List Failure) : List Serial :=
  failures.filterMap fun
    | .calledTwice serial => some serial
    | .neverCalled => none

theorem acknowledged_put (me : Client) (id : Nat) (status : Status) (messages : List Message) :
    (me.put id status messages).acknowledged id = me.acknowledged id ++ acks messages := by
  rw [Client.acknowledged, Client.put, List.filterMap_append, List.filterMap_map, Client.acknowledged, acks]
  congr 2
  funext message
  cases message with
  | ackConfigure serial => exact if_pos rfl
  | _ => rfl

theorem acknowledged_put_other (h : id ≠ j) : (me.put j status messages).acknowledged id = me.acknowledged id := by
  have hnone : (messages.map fun message => (j, message)).filterMap (fun
      | (i, .ackConfigure serial) => if i = id then some serial else none
      | _ => none) = ([] : List Serial) := by
    rw [List.filterMap_eq_nil_iff]
    intro entry hentry
    obtain ⟨message, -, rfl⟩ := List.mem_map.mp hentry
    cases message with
    | ackConfigure serial => exact if_neg (Ne.symm h)
    | _ => rfl
  rw [Client.acknowledged, Client.put, List.filterMap_append, hnone, List.append_nil, Client.acknowledged]

theorem reported_report (me : Client) (id : Nat) (failures : List Failure) :
    (me.report id failures).reported id = me.reported id ++ calledTwice failures := by
  rw [Client.reported, Client.report, List.filterMap_append, List.filterMap_map, Client.reported, calledTwice]
  congr 2
  funext failure
  cases failure with
  | calledTwice serial => exact if_pos rfl
  | neverCalled => rfl

theorem reported_report_other (h : id ≠ j) : (me.report j failures).reported id = me.reported id := by
  have hnone : (failures.map fun failure => (j, failure)).filterMap (fun
      | (i, .calledTwice serial) => if i = id then some serial else none
      | _ => none) = ([] : List Serial) := by
    rw [List.filterMap_eq_nil_iff]
    intro entry hentry
    obtain ⟨failure, -, rfl⟩ := List.mem_map.mp hentry
    cases failure with
    | calledTwice serial => exact if_neg (Ne.symm h)
    | neverCalled => rfl
  rw [Client.reported, Client.report, List.filterMap_append, hnone, List.append_nil, Client.reported]

/-- How the `configure` events of a surface have been answered. -/
def Answered (maker : Maker) (heard : Hearing) (acknowledged reported : List Serial) : Prop :=
  if maker = .createXdgShellStableSurface then
    acknowledged = heard.early.take 1 ++ heard.later ∧ reported = heard.early.drop 1
  else acknowledged = [] ∧ reported = []

/-- The point that the function is at is known from what it has heard. -/
structure Following (x : Surf) (heard : Hearing) : Prop where
  proceeded : x.maker = .createXdgShellStableSurface → (heard.proceeded = true ↔ x.wait ≠ .configure)
  received : x.wait = .configure → (x.initialConfigureReceived = true ↔ heard.early ≠ [])
  later : heard.proceeded = false → heard.later = []

def Told (me : Client) (id : Nat) (heard : Hearing) : Prop :=
  match me.surfaces id with
  | .unborn => me.acknowledged id = [] ∧ me.reported id = [] ∧ heard = {}
  | .alive x => Answered x.maker heard (me.acknowledged id) (me.reported id) ∧ Following x heard
  | .gone maker => Answered maker heard (me.acknowledged id) (me.reported id)

theorem hear_other {a : Action} (h : a.id ≠ id) (heard : Hearing) : heard.hear id a = heard := by
  cases a with
  | configure i serial => exact if_neg h
  | proceed i => exact if_neg h
  | _ => rfl

@[simp] theorem acknowledged_report (me : Client) (id j : Nat) (failures : List Failure) :
    (me.report j failures).acknowledged id = me.acknowledged id := rfl

@[simp] theorem reported_put (me : Client) (id j : Nat) (status : Status) (messages : List Message) :
    (me.put j status messages).reported id = me.reported id := rfl

theorem told_alive {heard : Hearing}
    (hanswered : Answered x.maker heard (me.acknowledged id ++ acks messages) (me.reported id ++ calledTwice failures))
    (hfollowing : Following x heard) : Told ((me.put id (.alive x) messages).report id failures) id heard := by
  have hsurface : ((me.put id (.alive x) messages).report id failures).surfaces id = .alive x :=
    Function.update_self id _ _
  rw [Told, hsurface, acknowledged_report, acknowledged_put, reported_report, reported_put]
  exact ⟨hanswered, hfollowing⟩

theorem told_gone {heard : Hearing} {maker : Maker}
    (hanswered : Answered maker heard (me.acknowledged id ++ acks messages) (me.reported id ++ calledTwice failures)) :
    Told ((me.put id (.gone maker) messages).report id failures) id heard := by
  have hsurface : ((me.put id (.gone maker) messages).report id failures).surfaces id = .gone maker :=
    Function.update_self id _ _
  rw [Told, hsurface, acknowledged_report, acknowledged_put, reported_report, reported_put]
  exact hanswered

theorem told_other {heard : Hearing} (h : Told me id heard) (hid : id ≠ j) :
    Told ((me.put j status messages).report j failures) id heard := by
  have hsurface : ((me.put j status messages).report j failures).surfaces id = me.surfaces id :=
    Function.update_of_ne hid _ _
  rw [Told, hsurface, acknowledged_report, acknowledged_put_other hid, reported_report_other hid, reported_put]
  exact h

theorem answered_stable {heard : Hearing} {acknowledged reported : List Serial} :
    Answered .createXdgShellStableSurface heard acknowledged reported ↔
      acknowledged = heard.early.take 1 ++ heard.later ∧ reported = heard.early.drop 1 := by
  rw [Answered, if_pos rfl]

theorem answered_other {maker : Maker} (h : maker ≠ .createXdgShellStableSurface) {heard : Hearing}
    {acknowledged reported : List Serial} :
    Answered maker heard acknowledged reported ↔ acknowledged = [] ∧ reported = [] := by
  rw [Answered, if_neg h]

theorem acks_teardown (maker : Maker) : acks maker.teardown = [] := by
  cases maker with
  | _ => rfl

/-- One `configure` event. -/
theorem told_configure {heard : Hearing} (hshaped : Shaped x) (hfollowing : Following x heard) (serial : Serial)
    (hanswered : Answered x.maker heard (me.acknowledged id) (me.reported id)) :
    Answered (configure x serial).1.maker (heard.hear id (.configure id serial))
        (me.acknowledged id ++ acks (.configure serial :: (configure x serial).2.1))
        (me.reported id ++ calledTwice (configure x serial).2.2) ∧
      Following (configure x serial).1 (heard.hear id (.configure id serial)) := by
  have hhear : heard.hear id (.configure id serial) =
      if heard.proceeded then { heard with later := heard.later ++ [serial] }
      else { heard with early := heard.early ++ [serial] } := if_pos rfl
  rw [configure_maker, hhear]
  by_cases hmaker : x.maker = .createXdgShellStableSurface
  · rw [hmaker, answered_stable] at hanswered ⊢
    obtain ⟨hacknowledged, hreported⟩ := hanswered
    have hproceeded := hfollowing.proceeded hmaker
    obtain ⟨hwait, hreceived, honce⟩ | ⟨hwait, hreceived, honce⟩ | ⟨hwait, hreceived, honce⟩ := hshaped.onConfigure hmaker
    · -- the first one is acknowledged
      have hnot : heard.proceeded = false := by
        rw [Bool.eq_false_iff, ne_eq, hproceeded]
        exact not_not.mpr hwait
      have hearly : heard.early = [] := by
        by_contra hne
        rw [(hfollowing.received hwait).mpr hne] at hreceived
        cases hreceived
      rw [hnot, if_neg Bool.false_ne_true]
      simp only [configure, honce, hacknowledged, hreported, hearly, hfollowing.later hnot, acks, calledTwice]
      refine ⟨⟨rfl, rfl⟩, fun _ => ?_, fun _ => ?_, fun _ => rfl⟩
      · exact iff_of_false Bool.false_ne_true (not_not.mpr hwait)
      · exact iff_of_true rfl (List.cons_ne_nil _ _)
    · -- the others are too early
      have hnot : heard.proceeded = false := by
        rw [Bool.eq_false_iff, ne_eq, hproceeded]
        exact not_not.mpr hwait
      obtain ⟨first, rest, hearly⟩ := List.exists_cons_of_ne_nil ((hfollowing.received hwait).mp hreceived)
      rw [hnot, if_neg Bool.false_ne_true]
      simp only [configure, honce, hacknowledged, hreported, hearly, hfollowing.later hnot, acks, calledTwice]
      refine ⟨⟨rfl, rfl⟩, fun _ => ?_, fun _ => ?_, fun _ => rfl⟩
      · exact iff_of_false Bool.false_ne_true (not_not.mpr hwait)
      · exact iff_of_true hreceived (List.cons_ne_nil _ _)
    · have hdone : heard.proceeded = true := hproceeded.mpr hwait
      rw [hdone, if_pos rfl]
      simp only [configure, honce, hacknowledged, hreported, acks, calledTwice]
      refine ⟨⟨?_, ?_⟩, fun _ => ?_, fun h => absurd h hwait, fun h => ?_⟩
      · exact List.append_assoc _ _ _
      · exact List.append_nil _
      · exact iff_of_true rfl hwait
      · cases h
  · rw [answered_other hmaker] at hanswered ⊢
    have hany : x.onConfigure = .anyNumber := by
      have hmock := hshaped.mock
      cases hm : x.maker with
      | createXdgShellStableSurface => exact absurd hm hmaker
      | createWlShellSurface | createXdgShellV6Surface | xdgStableBuilder =>
          rw [hm] at hmock
          exact hmock
    simp only [configure, hany, hanswered.1, hanswered.2]
    refine ⟨⟨rfl, rfl⟩, fun h => absurd h hmaker, fun h => absurd (hshaped.wait h) hmaker, fun h => ?_⟩
    split at h
    case isTrue hproceeded =>
      rw [if_pos hproceeded]
      rw [hproceeded] at h
      cases h
    case isFalse hnot =>
      rw [if_neg hnot]
      exact hfollowing.later h

theorem told_act {a : Action} {heard : Hearing} (hid : a.id = id) (hshaped : Shaped x) (hfollowing : Following x heard)
    (hanswered : Answered x.maker heard (me.acknowledged id) (me.reported id)) (h : me.act id x a = some you) :
    Told you id (heard.hear id a) := by
  have hquiet : ∀ {messages}, acks messages = [] →
      Answered x.maker heard (me.acknowledged id ++ acks messages) (me.reported id ++ calledTwice []) := by
    intro messages hacks
    rw [hacks, calledTwice, List.filterMap_nil, List.append_nil, List.append_nil]
    exact hanswered
  cases a with
  | create i maker => cases h
  | configure i serial =>
      obtain rfl : i = id := hid
      simp only [Client.act] at h
      split at h
      case isTrue => cases h
      case isFalse =>
        obtain rfl := Option.some.inj h
        obtain ⟨hnext, hfollow⟩ := told_configure hshaped hfollowing serial hanswered
        exact told_alive hnext hfollow
  | done i =>
      simp only [Client.act] at h
      split at h
      case isTrue hwait =>
        obtain rfl := Option.some.inj h
        rw [← report_nil (Client.put _ _ _ _) id]
        exact told_alive (hquiet rfl) ⟨hfollowing.proceeded, hfollowing.received, hfollowing.later⟩
      case isFalse => cases h
  | proceed i =>
      obtain rfl : i = id := hid
      have hhear : heard.hear i (.proceed i) = { heard with proceeded := true } := if_pos rfl
      rw [hhear]
      simp only [Client.act] at h
      split at h
      case h_1 hwait =>
        split at h
        case isTrue hreceived =>
          obtain rfl := Option.some.inj h
          rw [← report_nil (Client.put _ _ _ _) i]
          refine told_alive (hquiet rfl) ⟨fun _ => ?_, fun hw => (by cases hw), fun hf => (by cases hf)⟩
          exact iff_of_true rfl (show Wait.frame ≠ .configure by decide)
        case isFalse => cases h
      case h_2 hwait =>
        split at h
        case isTrue =>
          obtain rfl := Option.some.inj h
          obtain ⟨-, hmaker, hreturned, -, hmessages⟩ := hshaped.finish hwait
          rw [← report_nil (Client.put _ _ _ _) i]
          refine told_alive ?_ ⟨fun _ => ?_, fun hw => ?_, fun hf => (by cases hf)⟩
          · rw [hmaker, hmessages]
            exact hquiet rfl
          · rw [hreturned]
            exact iff_of_true rfl (by decide)
          · rw [hreturned] at hw
            cases hw
        case isFalse => cases h
      case h_3 => cases h
  | throws i =>
      simp only [Client.act] at h
      split at h
      case isTrue => cases h
      case isFalse =>
        obtain rfl := Option.some.inj h
        refine told_gone ?_
        rw [hshaped.unwind_eq]
        split
        · exact hquiet (acks_teardown x.maker)
        · exact hquiet (acks_teardown x.maker)
  | attach i =>
      simp only [Client.act] at h
      split at h
      case isTrue =>
        obtain rfl := Option.some.inj h
        rw [← report_nil (Client.put _ _ _ _) id]
        exact told_alive (hquiet rfl) hfollowing
      case isFalse => cases h
  | commit i =>
      simp only [Client.act] at h
      split at h
      case isTrue =>
        obtain rfl := Option.some.inj h
        rw [← report_nil (Client.put _ _ _ _) id]
        exact told_alive (hquiet rfl) hfollowing
      case isFalse => cases h
  | destroy i =>
      simp only [Client.act] at h
      split at h
      case isTrue =>
        obtain rfl := Option.some.inj h
        rw [← report_nil (Client.put _ _ _ _) id, hshaped.unwind_eq]
        exact told_gone (hquiet (acks_teardown _))
      case isFalse => cases h

theorem told_create {maker : Maker} (hacknowledged : me.acknowledged id = []) (hreported : me.reported id = []) :
    Told (me.create bound id maker) id {} := by
  unfold Client.create
  split
  · rw [← report_nil (Client.put _ _ _ _) id]
    refine told_alive ?_ ?_
    · rw [hacknowledged, hreported]
      cases maker with
      | _ => exact ⟨rfl, rfl⟩
    · cases maker with
      | _ => exact ⟨by decide, by decide, fun _ => rfl⟩
  · rw [← report_nil (Client.put _ _ _ _) id]
    refine told_gone ?_
    rw [hacknowledged, hreported]
    cases maker with
    | _ => exact ⟨rfl, rfl⟩

theorem told_run {actions : List Action} (h : (shells bound).exec {} actions = some me) (id : Nat) :
    Told me id (hearing id actions) := by
  refine (shells bound).exec_induction (P := fun actions me => ∀ id, Told me id (hearing id actions)) ?_ ?_ actions me h id
  · intro id
    exact ⟨rfl, rfl, rfl⟩
  · intro actions u a t hu ih ht id
    have hconcat : hearing id (actions ++ [a]) = (hearing id actions).hear id a := by
      rw [hearing, List.foldl_append]
      rfl
    have htold := ih id
    have hknown := known_run hu id
    rw [hconcat]
    by_cases hid : a.id = id
    · subst hid
      obtain ⟨maker, ha, hunborn, rfl⟩ | ⟨x, halive, hact⟩ := step_cases ht
      · rw [Told, hunborn] at htold
        obtain ⟨hacknowledged, hreported, hheard⟩ := htold
        rw [hheard, ha]
        exact told_create hacknowledged hreported
      · rw [Told, halive] at htold
        rw [Known, halive] at hknown
        exact told_act rfl hknown.2.1 htold.2 htold.1 hact
    · rw [hear_other hid]
      obtain ⟨maker, -, -, rfl⟩ | ⟨x, -, hact⟩ := step_cases ht
      · unfold Client.create
        split
        · rw [← report_nil (Client.put _ _ _ _) a.id]
          exact told_other htold (Ne.symm hid)
        · rw [← report_nil (Client.put _ _ _ _) a.id]
          exact told_other htold (Ne.symm hid)
      · obtain ⟨status, messages, failures, rfl⟩ := act_frame hact
        exact told_other htold (Ne.symm hid)

/-- `create_xdg_shell_stable_surface` has every `configure` event acknowledged as it comes, except for those that come
after the first and before the function goes on, and each of these fails the test. The surfaces of the other functions
acknowledge none. -/
theorem configure_answered (bound : Protocol → Bool) (actions : List Action) {maker : Maker}
    (h : (shells bound).exec {} actions = some me) (hmaker : me.maker? id = some maker) :
    (maker = .createXdgShellStableSurface →
        me.acknowledged id = (hearing id actions).early.take 1 ++ (hearing id actions).later ∧
          me.reported id = (hearing id actions).early.drop 1) ∧
      (maker ≠ .createXdgShellStableSurface → me.acknowledged id = [] ∧ me.reported id = []) := by
  have htold := told_run h id
  have hanswered : Answered maker (hearing id actions) (me.acknowledged id) (me.reported id) := by
    unfold Told at htold
    unfold Client.maker? at hmaker
    split at htold
    case h_1 hunborn =>
      rw [hunborn] at hmaker
      cases hmaker
    case h_2 x halive =>
      rw [halive] at hmaker
      obtain rfl := Option.some.inj hmaker
      exact htold.1
    case h_3 m hgone =>
      rw [hgone] at hmaker
      obtain rfl := Option.some.inj hmaker
      exact htold
  refine ⟨fun hstable => ?_, fun hother => (answered_other hother).mp hanswered⟩
  rw [hstable] at hanswered
  exact answered_stable.mp hanswered

theorem configure_answered_overlapping :
    ∃ me, (shells fun _ => true).exec {} overlapping = some me ∧ me.acknowledged 0 = [7, 9] ∧ me.reported 0 = [8] :=
  ⟨_, rfl, (configure_answered (fun _ => true) overlapping rfl rfl).1 rfl⟩

end Acknowledgements

end Wlcs.Shell
