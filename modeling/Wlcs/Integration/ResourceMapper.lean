import Wlcs.Lib.History
import Wlcs.Lib.Machine
import Wlcs.Lib.Store

/-!
# Windows by their surfaces

To move a window, a test hands the integration its connection and a surface. `ResourceMapper` finds the window of Mir: it
notes which client has been made when a socket is opened, which `wl_surface` a buffer stream is made for, and which window
a stream belongs to. The maps are filled from callbacks on the Wayland thread, while any number of tests open sockets.

* `Sockets`, `Screen` : the mapper, with what libwayland and Mir do around it;
* `Screen.outcome` : `wlcs_server_position_window_absolute`;
* `Own`, `Connected` : whose client a call takes, in every run of the sockets.
-/

namespace Wlcs.Mapping
open EventMachine History

/-! ## Clients -/

/-- Where a call of `wlcs_server_create_client_socket` is. -/
inductive SocketPc
  | idle
  /-- in `associate_client_socket` -/
  | waiting (fd : Nat)
  | returned (fd : Nat)
  /-- it has waited too long, and returned -1 -/
  | failed
deriving DecidableEq, Repr

/-- The members of `State` that have to do with clients, the calls, and the clients of libwayland, which are numbered. -/
structure Sockets where
  latestClient : Option Nat := none
  clientSessionMap : Nat → Option Nat := fun _ => none
  calls : Nat → SocketPc := fun _ => .idle
  /-- the call that an open descriptor comes from -/
  opened : Nat → Option Nat := fun _ => none
  /-- the client at the other end of the socket of a call -/
  clientOf : Nat → Option Nat := fun _ => none
  clients : Nat := 0

inductive SocketAction
  | open (i fd : Nat)
  /-- a client is made, for the socket of a call or by someone else -/
  | clientCreated (call : Option Nat)
  | associate (i : Nat)
  | timeout (i : Nat)
  | close (fd : Nat)
deriving DecidableEq, Repr

namespace Sockets

/-- `client_created` -/
def clientCreated (me : Sockets) (call : Option Nat) : Sockets :=
  { me with
    latestClient := some me.clients
    clientOf := fun i => if call = some i then some me.clients else me.clientOf i
    clients := me.clients + 1 }

/-- `associate_client_socket` waits until there is a latest client. -/
def associateClientSocket (me : Sockets) (clientSocket : Nat) : Option Sockets :=
  me.latestClient.map fun client =>
    { me with
      clientSessionMap := Function.update me.clientSessionMap clientSocket (some client)
      latestClient := none }

/-- `client_for_fd` -/
def clientForFd (me : Sockets) (fd : Nat) : Option Nat := me.clientSessionMap fd

def goTo (me : Sockets) (i : Nat) (pc : SocketPc) : Sockets := { me with calls := Function.update me.calls i pc }

def step (me : Sockets) : SocketAction → Option Sockets
  | .open i fd =>
    if me.calls i = .idle ∧ me.opened fd = none then
      some ({ me with opened := Function.update me.opened fd (some i) }.goTo i (.waiting fd))
    else none
  | .clientCreated call =>
    if ∀ i ∈ call, me.calls i ≠ .idle ∧ me.clientOf i = none then some (me.clientCreated call) else none
  | .associate i =>
    match me.calls i with
    | .waiting fd => (me.associateClientSocket fd).map (·.goTo i (.returned fd))
    | _ => none
  | .timeout i =>
    match me.calls i with
    | .waiting _ => if me.latestClient = none then some (me.goTo i .failed) else none
    | _ => none
  | .close fd =>
    match me.opened fd with
    | some i => if me.calls i = .returned fd then some { me with opened := Function.update me.opened fd none } else none
    | none => none

end Sockets

/-! ## Surfaces -/

/-- A `wl_resource`, with its number among all that have been made. -/
structure Object where
  client : Nat
  id : Nat
  interface : String
  number : Nat
deriving DecidableEq, Repr

/-- The members of `State` and `Listeners` that have to do with surfaces, the objects of libwayland, by their addresses,
and the windows of Mir, which are numbered. A `wl_surface` has one buffer stream, known by its number. -/
structure Screen where
  surfaceMap : Nat → Option Nat := fun _ => none
  streamMap : Nat → Option Nat := fun _ => none
  lastWlSurface : Option Nat := none
  lastWlWindow : Option Nat := none
  objects : Nat → Option Object := fun _ => none
  /-- the addresses of the objects of a client -/
  table : Nat × Nat → Option Nat := fun _ => none
  made : Nat := 0
  /-- the latest window of a `wl_surface` -/
  windowOf : Nat → Option Nat := fun _ => none
  /-- where the `wl_surface` of a window was -/
  placeOf : Nat → Option Nat := fun _ => none
  windows : Nat := 0
  alive : Nat → Bool := fun _ => false
  /-- the exceptions that the listener has thrown at Mir -/
  thrown : List String := []

inductive ScreenAction
  /-- Mir makes a `wl_surface`, and its buffer stream with it -/
  | wlSurfaceCreated (resource client id : Nat)
  | resourceCreated (resource client id : Nat) (interface : String)
  | resourceDestroyed (resource : Nat)
  /-- a window is made for a `wl_surface` -/
  | surfaceCreated (resource : Nat)
  | surfaceDestroyed (surface : Nat)
deriving DecidableEq, Repr

def wlSurface : String := "wl_surface"

/-- What `surface_created` throws while there has been no window of a class that it knows. -/
def noShellSurface : String := "Called Shell::create_surface() without first creating a wl_shell_surface?"

namespace Screen

/-- `resource_created` -/
def resourceCreated (me : Screen) (resource : Nat) (interface : String) : Screen :=
  if interface = wlSurface then { me with lastWlSurface := some resource }
  else if interface = "wl_shell_surface" ∨ interface = "zxdg_surface_v6" then { me with lastWlWindow := some resource }
  else me

/-- `buffer_stream_created`, on the Wayland thread -/
def bufferStreamCreated (me : Screen) (stream : Nat) : Except String Screen :=
  match me.lastWlSurface with
  | none => .error "BufferStream created without first constructing a wl_surface?"
  | some resource =>
    .ok { me with streamMap := Function.update me.streamMap stream (some resource), lastWlSurface := none }

def bufferStreamDestroyed (me : Screen) (stream : Nat) : Screen :=
  { me with streamMap := Function.update me.streamMap stream none }

/-- `surface_created`, on the Wayland thread -/
def surfaceCreated (me : Screen) (surface stream : Nat) : Except String Screen :=
  match me.lastWlWindow with
  | none => .error noShellSurface
  | some _ =>
    match me.streamMap stream with
    | none => .error "out_of_range"
    | some resource => .ok { me with surfaceMap := Function.update me.surfaceMap resource (some surface) }

def throw (me : Screen) (what : String) : Screen := { me with thrown := me.thrown ++ [what] }

/-- libwayland makes an object. -/
def add (me : Screen) (resource client id : Nat) (interface : String) : Screen :=
  { me with
    objects := Function.update me.objects resource (some ⟨client, id, interface, me.made⟩)
    table := Function.update me.table (client, id) (some resource)
    made := me.made + 1 }

def remove (me : Screen) (resource : Nat) (object : Object) : Screen :=
  { me with
    objects := Function.update me.objects resource none
    table := Function.update me.table (object.client, object.id) none }

/-- Mir has made a window for the `wl_surface`. -/
def addWindow (me : Screen) (resource : Nat) (object : Object) : Screen :=
  { me with
    windowOf := Function.update me.windowOf object.number (some me.windows)
    placeOf := Function.update me.placeOf me.windows (some resource)
    alive := Function.update me.alive me.windows true
    windows := me.windows + 1 }

def step (me : Screen) : ScreenAction → Option Screen
  | .wlSurfaceCreated resource client id =>
    if me.objects resource = none ∧ me.table (client, id) = none then
      match ((me.add resource client id wlSurface).resourceCreated resource wlSurface).bufferStreamCreated me.made with
      | .ok next => some next
      | .error what => some (me.throw what)
    else none
  | .resourceCreated resource client id interface =>
    if (me.objects resource = none ∧ me.table (client, id) = none) ∧ interface ≠ wlSurface then
      some ((me.add resource client id interface).resourceCreated resource interface)
    else none
  | .resourceDestroyed resource =>
    match me.objects resource with
    | none => none
    | some object =>
      if object.interface = wlSurface then some ((me.remove resource object).bufferStreamDestroyed object.number)
      else some (me.remove resource object)
  | .surfaceCreated resource =>
    match me.objects resource with
    | none => none
    | some object =>
      if object.interface = wlSurface then
        match me.surfaceCreated me.windows object.number with
        | .ok next => some (next.addWindow resource object)
        | .error what => some (me.throw what)
      else none
  | .surfaceDestroyed surface =>
    if me.alive surface = true then some { me with alive := Function.update me.alive surface false } else none

end Screen

/-! ## Moving a window -/

inductive Outcome
  | moved (surface : Nat)
  | aborted
  /-- an exception that the function does not catch -/
  | threw (what : String)
  /-- the class of a null pointer is read -/
  | crashed
deriving DecidableEq, Repr

/-- The object of a client with the id, and where it is. -/
def Screen.object? (me : Screen) (client id : Nat) : Option (Nat × Object) :=
  (me.table (client, id)).bind fun resource => (me.objects resource).map (resource, ·)

/-- `wlcs_server_position_window_absolute` with a client, and the window of a `wl_surface`. -/
def Screen.outcome (me : Screen) (client : Option Nat) (window : Nat × Object → Option Nat) (id : Nat) : Outcome :=
  match client with
  | none => .aborted
  | some client =>
    match me.object? client id with
    | none => .crashed
    | some object =>
      if object.2.interface ≠ wlSurface then .threw ("Expected a wl_surface, got: " ++ object.2.interface)
      else
        match window object with
        | none => .aborted
        | some surface => if me.alive surface = true then .moved surface else .aborted

structure MirServer where
  sockets : Sockets := {}
  screen : Screen := {}

inductive MirAction
  | sockets (a : SocketAction)
  | screen (a : ScreenAction)
deriving DecidableEq, Repr

def mirServer : Guarded MirServer MirAction where
  step s
    | .sockets a => (s.sockets.step a).map fun sockets => { s with sockets }
    | .screen a => (s.screen.step a).map fun screen => { s with screen }

/-- `surface_for_resource` looks the address up. -/
def MirServer.positionWindowAbsolute (me : MirServer) (fd id : Nat) : Outcome :=
  me.screen.outcome (me.sockets.clientForFd fd) (fun object => me.screen.surfaceMap object.1) id

/-- What the test means: the object of its own client, and the window of that object. -/
def MirServer.intended (me : MirServer) (i id : Nat) : Outcome :=
  me.screen.outcome (me.sockets.clientOf i) (fun object => me.screen.windowOf object.2.number) id

/-! ## Which client a descriptor stands for -/

/-- A client is made, or the latest one is taken. -/
def mark : SocketAction → Option (Option (Option Nat))
  | .clientCreated call => some (some call)
  | .associate _ => some none
  | _ => none

/-- When the call took the latest client, that was its own. -/
def Own (as : List SocketAction) (i : Nat) : Prop :=
  ∃ pre, pre ++ [.associate i] <+: as ∧ lastSome mark pre = some (some (some i))

theorem own_concat {as : List SocketAction} {a : SocketAction} {i : Nat} :
    Own (as ++ [a]) i ↔ Own as i ∨ a = .associate i ∧ lastSome mark as = some (some (some i)) := by
  unfold Own
  constructor
  · rintro ⟨pre, hpre, hlast⟩
    rcases concat_prefix_concat.mp hpre with ⟨rfl, rfl⟩ | hpre
    · exact Or.inr ⟨rfl, hlast⟩
    · exact Or.inl ⟨pre, hpre, hlast⟩
  · rintro (⟨pre, hpre, hlast⟩ | ⟨rfl, hlast⟩)
    · exact ⟨pre, hpre.trans (List.prefix_append _ _), hlast⟩
    · exact ⟨as, List.prefix_refl _, hlast⟩

theorem mem_of_own {as : List SocketAction} {i : Nat} (h : Own as i) : .associate i ∈ as := by
  obtain ⟨pre, hpre, -⟩ := h
  exact hpre.subset (List.mem_append_right _ (List.mem_singleton_self _))

structure Connected (as : List SocketAction) (me : Sockets) : Prop where
  latest : ∀ c, me.latestClient = some c → c < me.clients ∧
    ∃ call, lastSome mark as = some (some call) ∧ ∀ i, me.clientOf i = some c ↔ call = some i
  session : ∀ i fd, me.calls i = .returned fd → me.opened fd = some i →
    ∃ c < me.clients, me.clientSessionMap fd = some c ∧ (me.clientOf i = some c ↔ Own as i)
  waiting : ∀ i fd, me.calls i = .waiting fd → me.opened fd = some i
  associated : ∀ i, .associate i ∈ as → ∃ fd, me.calls i = .returned fd
  created : ∀ i c, me.clientOf i = some c → c < me.clients

section Sockets
variable {as : List SocketAction} {me next : Sockets}

/-- The steps of the sockets, with their guards. -/
inductive SocketStep (me : Sockets) : SocketAction → Sockets → Prop
  | open {i fd : Nat} (hidle : me.calls i = .idle) (hfree : me.opened fd = none) :
      SocketStep me (.open i fd) ({ me with opened := Function.update me.opened fd (some i) }.goTo i (.waiting fd))
  | clientCreated {call : Option Nat} (hcall : ∀ i ∈ call, me.calls i ≠ .idle ∧ me.clientOf i = none) :
      SocketStep me (.clientCreated call) (me.clientCreated call)
  | associate {i fd client : Nat} (hpc : me.calls i = .waiting fd) (hclient : me.latestClient = some client) :
      SocketStep me (.associate i) (Sockets.goTo { me with
        clientSessionMap := Function.update me.clientSessionMap fd (some client), latestClient := none } i (.returned fd))
  | timeout {i fd : Nat} (hpc : me.calls i = .waiting fd) (hclient : me.latestClient = none) :
      SocketStep me (.timeout i) (me.goTo i .failed)
  | close {i fd : Nat} (hopened : me.opened fd = some i) (hpc : me.calls i = .returned fd) :
      SocketStep me (.close fd) { me with opened := Function.update me.opened fd none }

theorem socketStep_of_step {a : SocketAction} (h : me.step a = some next) : SocketStep me a next := by
  cases a with
  | «open» i fd =>
      obtain ⟨hguard, hnext⟩ := Option.ite_none_right_eq_some.mp h
      obtain rfl := Option.some.inj hnext
      exact .open hguard.1 hguard.2
  | clientCreated call =>
      obtain ⟨hguard, hnext⟩ := Option.ite_none_right_eq_some.mp h
      obtain rfl := Option.some.inj hnext
      exact .clientCreated hguard
  | associate i =>
      simp only [Sockets.step] at h
      split at h
      case h_1 fd hpc =>
        obtain ⟨u, hu, rfl⟩ := Option.map_eq_some_iff.mp h
        obtain ⟨client, hclient, rfl⟩ := Option.map_eq_some_iff.mp hu
        exact .associate hpc hclient
      case h_2 => cases h
  | timeout i =>
      simp only [Sockets.step] at h
      split at h
      case h_1 fd hpc =>
        obtain ⟨hguard, hnext⟩ := Option.ite_none_right_eq_some.mp h
        obtain rfl := Option.some.inj hnext
        exact .timeout hpc hguard
      case h_2 => cases h
  | close fd =>
      simp only [Sockets.step] at h
      split at h
      case h_1 i hopened =>
        obtain ⟨hguard, hnext⟩ := Option.ite_none_right_eq_some.mp h
        obtain rfl := Option.some.inj hnext
        exact .close hopened hguard
      case h_2 => cases h

theorem own_concat_of_ne {a : SocketAction} {i : Nat} (ha : a ≠ .associate i) : Own (as ++ [a]) i ↔ Own as i := by
  rw [own_concat]
  simp [ha]

theorem mem_of_concat {a : SocketAction} {i : Nat} (ha : a ≠ .associate i) (hi : .associate i ∈ as ++ [a]) :
    .associate i ∈ as := by
  rcases List.mem_append.mp hi with hi | hi
  · exact hi
  · exact absurd (List.mem_singleton.mp hi).symm ha

/-- An action that neither makes a client nor takes one changes nothing about whose clients have been taken. -/
theorem Connected.unmarked (h : Connected as me) {a : SocketAction} (ha : mark a = none) : Connected (as ++ [a]) me := by
  have hne : ∀ i, a ≠ .associate i := by
    rintro i rfl
    cases ha
  constructor
  · intro c hc
    obtain ⟨hlt, call, hlast, howner⟩ := h.latest c hc
    refine ⟨hlt, call, ?_, howner⟩
    rw [lastSome_concat, ha]
    exact hlast
  · intro i fd hi hfd
    rw [own_concat_of_ne (hne i)]
    exact h.session i fd hi hfd
  · exact h.waiting
  · intro i hi
    exact h.associated i (mem_of_concat (hne i) hi)
  · exact h.created

/-- A call that waits is not one that has just gone on. -/
theorem waiting_of_goTo {i j fd : Nat} {pc : SocketPc} (hj : (me.goTo i pc).calls j = .waiting fd)
    (hpc : ∀ fd, pc ≠ .waiting fd) : me.calls j = .waiting fd := by
  simp only [Sockets.goTo, Function.update_apply] at hj
  split at hj
  · exact absurd hj (hpc fd)
  · exact hj

/-- The descriptors of the calls that have returned are not the one that is opened. -/
theorem returned_of_open {i j fd fd' : Nat}
    (hj : ({ me with opened := Function.update me.opened fd (some i) }.goTo i (.waiting fd)).calls j = .returned fd')
    (hfd' : Function.update me.opened fd (some i) fd' = some j) :
    me.calls j = .returned fd' ∧ me.opened fd' = some j := by
  simp only [Sockets.goTo, Function.update_apply] at hj
  have hne : j ≠ i := by rintro rfl; simp at hj
  rw [if_neg hne] at hj
  rcases Store.put_eq_some_iff.mp hfd' with ⟨-, heq⟩ | ⟨-, hfd'⟩
  · exact absurd heq.symm hne
  · exact ⟨hj, hfd'⟩

theorem Connected.open (h : Connected as me) {i fd : Nat} (hidle : me.calls i = .idle) (hfree : me.opened fd = none) :
    Connected as ({ me with opened := Function.update me.opened fd (some i) }.goTo i (.waiting fd)) where
  latest := h.latest
  session j fd' hj hfd' := by
    obtain ⟨hj, hfd'⟩ := returned_of_open hj hfd'
    exact h.session j fd' hj hfd'
  waiting j fd' hj := by
    simp only [Sockets.goTo, Function.update_apply] at hj
    split at hj
    case isTrue heq =>
      obtain rfl := SocketPc.waiting.inj hj
      rw [heq]
      exact Function.update_self ..
    case isFalse => exact Store.put_of_free hfree (h.waiting j fd' hj)
  associated j hj := by
    obtain ⟨fd', hfd'⟩ := h.associated j hj
    have hne : j ≠ i := by rintro rfl; rw [hidle] at hfd'; cases hfd'
    exact ⟨fd', by simpa [Sockets.goTo, hne] using hfd'⟩
  created := h.created

theorem Connected.clientCreated (h : Connected as me) {call : Option Nat}
    (hcall : ∀ i ∈ call, me.calls i ≠ .idle ∧ me.clientOf i = none) :
    Connected (as ++ [.clientCreated call]) (me.clientCreated call) where
  latest := by
    rintro c ⟨⟩
    refine ⟨Nat.lt_succ_self _, call, by simp [mark], fun i => ?_⟩
    simp only [Sockets.clientCreated]
    split
    case isTrue hi => simp [hi]
    case isFalse hi =>
      simp only [hi, iff_false]
      exact fun hc => Nat.lt_irrefl _ (h.created i _ hc)
  session i fd hi hfd := by
    obtain ⟨c, hlt, hc, hiff⟩ := h.session i fd hi hfd
    refine ⟨c, Nat.lt_succ_of_lt hlt, hc, Iff.trans ?_ (hiff.trans (own_concat_of_ne (by simp)).symm)⟩
    simp only [Sockets.clientCreated]
    split
    case isTrue hcalled =>
      rw [(hcall i hcalled).2]
      simp [Nat.ne_of_gt hlt]
    case isFalse => rfl
  waiting := h.waiting
  associated i hi := h.associated i (mem_of_concat (by simp) hi)
  created i c hc := by
    simp only [Sockets.clientCreated] at hc
    split at hc
    · cases hc
      exact Nat.lt_succ_self _
    · exact Nat.lt_succ_of_lt (h.created i c hc)

/-- The call takes the latest client, which is its own if the last one made was. -/
theorem Connected.associate (h : Connected as me) {i fd client : Nat} (hpc : me.calls i = .waiting fd)
    (hclient : me.latestClient = some client) :
    Connected (as ++ [.associate i]) (Sockets.goTo { me with
      clientSessionMap := Function.update me.clientSessionMap fd (some client), latestClient := none } i
        (.returned fd)) where
  latest := by rintro c ⟨⟩
  session j fd' hj hfd' := by
    simp only [Sockets.goTo, Function.update_apply] at hj hfd' ⊢
    by_cases hji : j = i
    · subst hji
      rw [if_pos rfl] at hj
      obtain rfl := SocketPc.returned.inj hj
      obtain ⟨hlt, call, hlast, howner⟩ := h.latest client hclient
      refine ⟨client, hlt, if_pos rfl, ?_⟩
      -- its first association, since it has been waiting until now
      have hnot : ¬ Own as j := by
        intro hown
        obtain ⟨fd', hfd'⟩ := h.associated j (mem_of_own hown)
        rw [hpc] at hfd'
        cases hfd'
      rw [howner j, own_concat, hlast]
      simp [hnot]
    · rw [if_neg hji] at hj
      have hne : fd' ≠ fd := by
        rintro rfl
        rw [h.waiting i fd' hpc] at hfd'
        exact hji (Option.some.inj hfd').symm
      rw [if_neg hne, own_concat_of_ne (by simpa using Ne.symm hji)]
      exact h.session j fd' hj hfd'
  waiting j fd' hj := h.waiting j fd' (waiting_of_goTo hj nofun)
  associated j hj := by
    simp only [Sockets.goTo, Function.update_apply]
    split
    case isTrue => exact ⟨fd, rfl⟩
    case isFalse hne => exact h.associated j (mem_of_concat (by simpa using Ne.symm hne) hj)
  created := h.created

theorem Connected.timeout (h : Connected as me) {i fd : Nat} (hpc : me.calls i = .waiting fd) :
    Connected as (me.goTo i .failed) where
  latest := h.latest
  session j fd' hj hfd' := by
    simp only [Sockets.goTo, Function.update_apply] at hj
    split at hj
    · cases hj
    · exact h.session j fd' hj hfd'
  waiting j fd' hj := h.waiting j fd' (waiting_of_goTo hj nofun)
  associated j hj := by
    obtain ⟨fd', hfd'⟩ := h.associated j hj
    have hne : j ≠ i := by rintro rfl; rw [hpc] at hfd'; cases hfd'
    exact ⟨fd', by simpa [Sockets.goTo, hne] using hfd'⟩
  created := h.created

theorem Connected.close (h : Connected as me) {i fd : Nat} (hopened : me.opened fd = some i)
    (hpc : me.calls i = .returned fd) :
    Connected as { me with opened := Function.update me.opened fd none } where
  latest := h.latest
  session j fd' hj hfd' := h.session j fd' hj (Store.take_eq_some_iff.mp hfd').2
  waiting j fd' hj := by
    refine Store.take_eq_some_iff.mpr ⟨?_, h.waiting j fd' hj⟩
    rintro rfl
    have hij := (h.waiting j fd' hj).symm.trans hopened
    rw [Option.some.inj hij, hpc] at hj
    cases hj
  associated := h.associated
  created := h.created

theorem connected_step {a : SocketAction} (h : Connected as me) (hstep : SocketStep me a next) :
    Connected (as ++ [a]) next := by
  cases hstep with
  | «open» hidle hfree => exact (h.open hidle hfree).unmarked rfl
  | clientCreated hcall => exact h.clientCreated hcall
  | associate hpc hclient => exact h.associate hpc hclient
  | timeout hpc hclient => exact (h.timeout hpc).unmarked rfl
  | close hopened hpc => exact (h.close hopened hpc).unmarked rfl

theorem connected_init : Connected [] {} where
  latest _ h := nomatch h
  session _ _ h := nomatch h
  waiting _ _ h := nomatch h
  associated _ h := nomatch h
  created _ _ h := nomatch h

end Sockets

end Wlcs.Mapping
