import Wlcs.Client.Globals
import Wlcs.Lib.Barrier

/-!
# Connecting to the server

The constructor of `Client` asks for the registry and makes a roundtrip. `global_handler` makes another one for each seat
and each output that it binds, so that the roundtrips nest: the inner one also dispatches what the outer ones wait for.
The server answers in the order of the requests and may send other events at any time.

* `connection` : the client and the server, with all that can happen in either of them in any order;
* `Flat` : the events are handled in the order in which they arrive, whichever roundtrip dispatches them;
* `constructed` : when the outermost roundtrip has returned, all initial events have been handled.
-/

namespace Wlcs.Connecting
open EventMachine Barrier

/-- What the client sends, as far as it matters here. -/
inductive Request (Y : Type)
  | getRegistry
  | bind (request : BindRequest)
  | other (y : Y)
deriving DecidableEq, Repr

inductive Event (X : Type)
  | registry (e : RegistryEvent)
  | other (x : X)
deriving DecidableEq, Repr

def Event.registry? {X : Type} : Reply (Event X) → Option RegistryEvent
  | .event (.registry e) => some e
  | _ => none

structure Connection (X Y : Type) where
  link : Link (Request Y) (Event X) := {}
  bindings : Bindings := {}
  connected : Bool := false
  /-- the roundtrips that have not returned, the innermost first, by what they wait for -/
  roundtrips : List Nat := []

inductive Action (X Y : Type)
  /-- the constructor of `Client::Impl` -/
  | connect
  /-- `Client::roundtrip` -/
  | roundtrip
  | request (y : Y)
  /-- the innermost roundtrip dispatches an event -/
  | dispatch
  | leave
  /-- the server answers a request, or sends an event of its own -/
  | serve (es : List (Event X))
  | emit (e : Event X)
deriving DecidableEq, Repr

/-- The interfaces for which `global_handler` ends with a roundtrip. -/
def waits (interface : String) : Bool := "wl_seat" = interface || "wl_output" = interface

section Code
variable {X Y : Type} (interfaceVersion : String → Nat)

/-- The request that `global_handler` sends for an interface that it binds. -/
def bindRequest (id : Nat) (interface : String) (version : Nat) : BindRequest :=
  ⟨id, ⟨interface, interfaceVersion interface⟩, min version (interfaceVersion interface)⟩

namespace Connection

/-- `wl_display_roundtrip` sends a `sync` before it dispatches anything. -/
def serverRoundtrip (me : Connection X Y) : Connection X Y :=
  { me with link := me.link.sync, roundtrips := me.link.syncs :: me.roundtrips }

/-- The requests of a handler are its calls of `wl_registry_bind`. -/
def sendBinds (me : Connection X Y) (bindings : Bindings) : Connection X Y :=
  { me with
    bindings
    link := (bindings.bound.drop me.bindings.bound.length).foldl (fun link b => link.send (.bind b)) me.link }

def handle (me : Connection X Y) : Reply (Event X) → Connection X Y
  | .event (.registry e) =>
      let bound := me.sendBinds ((registryListener interfaceVersion).step me.bindings e).1
      match e with
      | .global _ interface _ _ => if waits interface then bound.serverRoundtrip else bound
      | _ => bound
  | .event (.other _) | .done _ => me

def step [DecidableEq X] (replies : Request Y → List (Event X) → Bool) (me : Connection X Y) :
    Action X Y → Option (Connection X Y)
  | .connect =>
      if me.connected then none
      else some { me with link := me.link.send .getRegistry, connected := true }.serverRoundtrip
  | .roundtrip => if me.connected then some me.serverRoundtrip else none
  | .request y => some { me with link := me.link.send (.other y) }
  | .dispatch =>
      match me.roundtrips, me.link.receive with
      | _ :: _, some (reply, link) => some ({ me with link }.handle interfaceVersion reply)
      | _, _ => none
  | .leave =>
      match me.roundtrips with
      | n :: rest => if .done n ∈ me.link.received then some { me with roundtrips := rest } else none
      | [] => none
  | .serve es => (me.link.serve replies es).map fun link => { me with link }
  | .emit e => some { me with link := me.link.emit e }

end Connection

def connection [DecidableEq X] (replies : Request Y → List (Event X) → Bool) : Guarded (Connection X Y) (Action X Y) where
  step := Connection.step interfaceVersion replies

end Code

section Runs
variable {X Y : Type} {interfaceVersion : String → Nat} {supportedExtensions : Option (Std.TreeMap String Nat)}
  {replies : Request Y → List (Event X) → Bool}
  {s t : Connection X Y}

/-- The registry listener has handled what has been received, in order. -/
def Flat (interfaceVersion : String → Nat) (supportedExtensions : Option (Std.TreeMap String Nat)) (s : Connection X Y) :
    Prop :=
  s.bindings = announced interfaceVersion supportedExtensions (s.link.received.filterMap Event.registry?)

/-- A request that is not answered yet has a roundtrip that waits for it. -/
def Awaited (s : Connection X Y) (r : Request Y) : Prop :=
  ∃ n pre, pre ++ [.sync n] <+: s.link.requests.sent ∧ .request r ∈ pre ∧ (n ∈ s.roundtrips ∨ .done n ∈ s.link.received)

/-- The requests whose answers the client waits for. -/
structure Waiting (interfaceVersion : String → Nat) (supportedExtensions : Option (Std.TreeMap String Nat))
    (replies : Request Y → List (Event X) → Bool) (s : Connection X Y) : Prop where
  barred : Barred replies s.link
  flat : Flat interfaceVersion supportedExtensions s
  synced : ∀ n ∈ s.roundtrips, .sync n ∈ s.link.requests.sent
  registry : s.connected = true → Awaited s .getRegistry
  bound : ∀ id interface version proxy,
    .event (.registry (.global id interface version proxy)) ∈ s.link.received → waits interface = true →
      Awaited s (.bind (bindRequest interfaceVersion id interface version))

/-- Only a roundtrip that has its `done` returns. -/
theorem Awaited.mono {r : Request Y} (h : Awaited s r) (hrequests : s.link.requests.sent <+: t.link.requests.sent)
    (hreceived : s.link.received <+: t.link.received)
    (hroundtrips : ∀ n ∈ s.roundtrips, n ∈ t.roundtrips ∨ .done n ∈ t.link.received) : Awaited t r := by
  obtain ⟨n, pre, hpre, hr, hn⟩ := h
  refine ⟨n, pre, hpre.trans hrequests, hr, ?_⟩
  rcases hn with hn | hn
  · exact hroundtrips n hn
  · exact Or.inr (hreceived.subset hn)

/-- A roundtrip waits for everything that has been sent. -/
theorem awaited_serverRoundtrip {r : Request Y} (hr : .request r ∈ s.link.requests.sent) : Awaited s.serverRoundtrip r :=
  ⟨s.link.syncs, s.link.requests.sent, List.prefix_refl _, hr, Or.inl List.mem_cons_self⟩

variable (replies) in
theorem foldl_send (l : Link (Request Y) (Event X)) (bs : List BindRequest) :
    let sent := bs.foldl (fun link b => link.send (.bind b)) l
    sent.requests.sent = l.requests.sent ++ bs.map (fun b => .request (.bind b)) ∧ sent.events = l.events ∧
      (Barred replies l → Barred replies sent) := by
  induction bs generalizing l with
  | nil => exact ⟨(List.append_nil _).symm, rfl, id⟩
  | cons b bs ih =>
      obtain ⟨hsent, hevents, hbarred⟩ := ih (l.send (.bind b))
      refine ⟨?_, hevents, fun h => hbarred (h.send _)⟩
      rw [List.foldl_cons, hsent, Link.send, Fifo.sent_push, List.append_assoc]
      rfl

/-- What a step of the client may change. -/
structure Extends (replies : Request Y → List (Event X) → Bool) (s t : Connection X Y) : Prop where
  requests : s.link.requests.sent <+: t.link.requests.sent
  received : t.link.received = s.link.received
  roundtrips : ∀ n ∈ s.roundtrips, n ∈ t.roundtrips
  synced : ∀ n ∈ t.roundtrips, n ∈ s.roundtrips ∨ .sync n ∈ t.link.requests.sent
  connected : t.connected = s.connected
  barred : Barred replies s.link → Barred replies t.link

theorem Extends.trans {u : Connection X Y} (h : Extends replies s t) (h' : Extends replies t u) : Extends replies s u where
  requests := h.requests.trans h'.requests
  received := h'.received.trans h.received
  roundtrips := fun n hn => h'.roundtrips n (h.roundtrips n hn)
  synced := by
    intro n hn
    rcases h'.synced n hn with hn | hn
    · exact (h.synced n hn).imp_right fun hmem => h'.requests.subset hmem
    · exact Or.inr hn
  connected := h'.connected.trans h.connected
  barred := fun hbarred => h'.barred (h.barred hbarred)

theorem Extends.awaited (h : Extends replies s t) {r : Request Y} (hr : Awaited s r) : Awaited t r := by
  refine hr.mono h.requests ?_ fun n hn => Or.inl (h.roundtrips n hn)
  rw [h.received]

variable (replies) in
theorem extends_sendBinds (s : Connection X Y) (bindings : Bindings) : Extends replies s (s.sendBinds bindings) := by
  obtain ⟨hsent, hevents, hbarred⟩ :=
    foldl_send replies s.link (bindings.bound.drop s.bindings.bound.length)
  refine ⟨?_, ?_, fun n hn => hn, fun n hn => Or.inl hn, rfl, hbarred⟩
  · rw [Connection.sendBinds, hsent]
    exact List.prefix_append _ _
  · rw [Link.received, Connection.sendBinds, hevents]
    rfl

theorem extends_serverRoundtrip (s : Connection X Y) : Extends replies s s.serverRoundtrip where
  requests := List.prefix_append _ _
  received := rfl
  roundtrips := fun _ hn => List.mem_cons_of_mem _ hn
  synced := by
    intro n hn
    rcases List.mem_cons.mp hn with rfl | hn
    · exact Or.inr (List.mem_append_right _ (List.mem_singleton_self _))
    · exact Or.inl hn
  connected := rfl
  barred := fun h => h.sync

theorem extends_handle (s : Connection X Y) (reply : Reply (Event X)) :
    Extends replies s (s.handle interfaceVersion reply) := by
  cases reply with
  | done n => exact ⟨List.prefix_refl _, rfl, fun _ hn => hn, fun _ hn => Or.inl hn, rfl, id⟩
  | event e =>
      cases e with
      | other x => exact ⟨List.prefix_refl _, rfl, fun _ hn => hn, fun _ hn => Or.inl hn, rfl, id⟩
      | registry e =>
          have hsend := extends_sendBinds replies s ((registryListener interfaceVersion).step s.bindings e).1
          cases e with
          | globalRemove id => exact hsend
          | output proxy e => exact hsend
          | global id interface version proxy =>
              simp only [Connection.handle]
              split
              · exact hsend.trans (extends_serverRoundtrip _)
              · exact hsend

theorem handle_bindings (s : Connection X Y) (reply : Reply (Event X)) :
    (s.handle interfaceVersion reply).bindings =
      ((Event.registry? reply).elim s.bindings fun e => ((registryListener interfaceVersion).step s.bindings e).1) := by
  cases reply with
  | done n => rfl
  | event e =>
      cases e with
      | other x => rfl
      | registry e =>
          cases e with
          | globalRemove id => rfl
          | output proxy e => rfl
          | global id interface version proxy =>
              simp only [Connection.handle]
              split <;> rfl

/-- A seat or an output is bound. -/
theorem bound_global (me : Bindings) (id : Nat) {interface : String} (version : Nat) (proxy : ProxyPtr)
    (h : waits interface = true) :
    (me.globalHandler interfaceVersion id interface version proxy).bound =
      me.bound ++ [bindRequest interfaceVersion id interface version] := by
  have hcases : "wl_seat" = interface ∨ "wl_output" = interface := by simpa [waits] using h
  rcases hcases with rfl | rfl
  · rfl
  · rfl

/-- The handler of a seat or an output waits for what the server has to say about it. -/
theorem awaited_handle (s : Connection X Y) (id : Nat) {interface : String} (version : Nat) (proxy : ProxyPtr)
    (h : waits interface = true) :
    Awaited (s.handle interfaceVersion (.event (.registry (.global id interface version proxy))))
      (.bind (bindRequest interfaceVersion id interface version)) := by
  simp only [Connection.handle, if_pos h]
  refine awaited_serverRoundtrip ?_
  rw [Connection.sendBinds, (foldl_send (fun _ _ => true) _ _).1]
  refine List.mem_append_right _ (List.mem_map.mpr ⟨_, ?_, rfl⟩)
  simp only [registryListener]
  rw [bound_global _ id version proxy h, List.drop_left]
  exact List.mem_singleton_self _

theorem Extends.synced_of (h : Extends replies s t) (hsynced : ∀ n ∈ s.roundtrips, .sync n ∈ s.link.requests.sent) :
    ∀ n ∈ t.roundtrips, .sync n ∈ t.link.requests.sent := by
  intro n hn
  rcases h.synced n hn with hn | hn
  · exact h.requests.subset (hsynced n hn)
  · exact hn

/-- A step that is not a dispatch. -/
theorem Waiting.extends (h : Waiting interfaceVersion supportedExtensions replies s) (hext : Extends replies s t)
    (hbindings : t.bindings = s.bindings) : Waiting interfaceVersion supportedExtensions replies t := by
  refine ⟨hext.barred h.barred, ?_, hext.synced_of h.synced, fun hconnected => ?_, fun id interface version proxy hmem hwaits => ?_⟩
  · rw [Flat, hbindings, hext.received]
    exact h.flat
  · rw [hext.connected] at hconnected
    exact hext.awaited (h.registry hconnected)
  · rw [hext.received] at hmem
    exact hext.awaited (h.bound id interface version proxy hmem hwaits)

theorem Waiting.dispatch {reply : Reply (Event X)} {link : Link (Request Y) (Event X)}
    (h : Waiting interfaceVersion supportedExtensions replies s) (hreceive : s.link.receive = some (reply, link)) :
    Waiting interfaceVersion supportedExtensions replies ({ s with link }.handle interfaceVersion reply) := by
  obtain ⟨hreceived, hrequests, -⟩ := received_receive hreceive
  have hext : Extends replies { s with link } ({ s with link }.handle interfaceVersion reply) := extends_handle _ reply
  have hawaited : ∀ r, Awaited s r → Awaited ({ s with link }.handle interfaceVersion reply) r := by
    intro r hr
    refine hext.awaited (hr.mono ?_ ?_ fun n hn => Or.inl hn)
    · rw [hrequests]
    · rw [hreceived]
      exact List.prefix_append _ _
  refine ⟨hext.barred (h.barred.receive hreceive), ?_, hext.synced_of fun n hn => ?_, fun hconnected => ?_,
    fun id interface version proxy hmem hwaits => ?_⟩
  · rw [Flat, handle_bindings, hext.received, hreceived, List.filterMap_append]
    cases hreply : Event.registry? reply with
    | none =>
        simp only [List.filterMap_cons, hreply, List.filterMap_nil, List.append_nil, Option.elim_none]
        exact h.flat
    | some e =>
        simp only [List.filterMap_cons, hreply, List.filterMap_nil, Option.elim_some]
        rw [announced_concat, ← h.flat]
  · rw [hrequests]
    exact h.synced n hn
  · rw [hext.connected] at hconnected
    exact hawaited _ (h.registry hconnected)
  · rw [hext.received, hreceived] at hmem
    rcases List.mem_append.mp hmem with hmem | hmem
    · exact hawaited _ (h.bound id interface version proxy hmem hwaits)
    · rw [← List.mem_singleton.mp hmem]
      exact awaited_handle _ id version proxy hwaits

theorem Awaited.answered {r : Request Y} (h : Awaited s r) (hbarred : Barred replies s.link) (hreturned : s.roundtrips = []) :
    Answered replies s.link.answers r s.link.received := by
  obtain ⟨n, pre, hpre, hr, hn⟩ := h
  rw [hreturned] at hn
  exact hbarred.answered hpre (hn.resolve_left List.not_mem_nil) hr

variable [DecidableEq X]

theorem Waiting.step {a : Action X Y} (h : Waiting interfaceVersion supportedExtensions replies s)
    (ht : (connection interfaceVersion replies).step s a = some t) : Waiting interfaceVersion supportedExtensions replies t := by
  cases a with
  | connect =>
      simp only [connection, Connection.step] at ht
      split at ht
      case isTrue => cases ht
      case isFalse =>
        obtain rfl := Option.some.inj ht
        have hold : ∀ r, Awaited s r →
            Awaited ({ s with link := s.link.send .getRegistry, connected := true } : Connection X Y).serverRoundtrip r := by
          intro r hr
          refine hr.mono ?_ (List.prefix_refl _) fun n hn => Or.inl (List.mem_cons_of_mem _ hn)
          exact (List.prefix_append _ _).trans (List.prefix_append _ _)
        refine ⟨(h.barred.send _).sync, h.flat, fun n hn => ?_, fun _ => awaited_serverRoundtrip ?_,
          fun id interface version proxy hmem hwaits => hold _ (h.bound id interface version proxy hmem hwaits)⟩
        · rcases List.mem_cons.mp hn with rfl | hn
          · exact List.mem_append_right _ (List.mem_singleton_self _)
          · exact List.mem_append_left _ (List.mem_append_left _ (h.synced n hn))
        · exact List.mem_append_right _ (List.mem_singleton_self _)
  | roundtrip =>
      simp only [connection, Connection.step] at ht
      split at ht
      case isTrue =>
        obtain rfl := Option.some.inj ht
        exact h.extends (extends_serverRoundtrip s) rfl
      case isFalse => cases ht
  | request y =>
      obtain rfl := Option.some.inj ht
      refine h.extends ⟨List.prefix_append _ _, rfl, fun _ hn => hn, fun _ hn => Or.inl hn, rfl, fun hb => hb.send _⟩ rfl
  | dispatch =>
      simp only [connection, Connection.step] at ht
      split at ht
      case h_1 reply link _ hreceive =>
        obtain rfl := Option.some.inj ht
        exact h.dispatch hreceive
      case h_2 => cases ht
  | leave =>
      simp only [connection, Connection.step] at ht
      split at ht
      case h_1 n rest hroundtrips =>
        split at ht
        case isTrue hdone =>
          obtain rfl := Option.some.inj ht
          have hold : ∀ r, Awaited s r → Awaited { s with roundtrips := rest } r := by
            intro r hr
            refine hr.mono (List.prefix_refl _) (List.prefix_refl _) fun m hm => ?_
            rw [hroundtrips] at hm
            rcases List.mem_cons.mp hm with rfl | hm
            · exact Or.inr hdone
            · exact Or.inl hm
          refine ⟨h.barred, h.flat, fun m hm => h.synced m ?_, fun hconnected => hold _ (h.registry hconnected),
            fun id interface version proxy hmem hwaits => hold _ (h.bound id interface version proxy hmem hwaits)⟩
          rw [hroundtrips]
          exact List.mem_cons_of_mem _ hm
        case isFalse => cases ht
      case h_2 => cases ht
  | serve es =>
      simp only [connection, Connection.step, Option.map_eq_some_iff] at ht
      obtain ⟨link, hserve, rfl⟩ := ht
      obtain ⟨hreceived, hrequests, -⟩ := received_serve hserve
      refine h.extends ⟨?_, hreceived, fun _ hn => hn, fun _ hn => Or.inl hn, rfl, fun hb => hb.serve hserve⟩ rfl
      rw [hrequests]
  | emit e =>
      obtain rfl := Option.some.inj ht
      exact h.extends ⟨List.prefix_refl _, received_emit s.link e, fun _ hn => hn, fun _ hn => Or.inl hn, rfl,
        fun hb => hb.emit e⟩ rfl

theorem waiting_run {as : List (Action X Y)}
    (h : (connection interfaceVersion replies).exec { bindings := { supportedExtensions } } as = some s) :
    Waiting interfaceVersion supportedExtensions replies s := by
  refine (connection interfaceVersion replies).exec_induction
    (P := fun _ s => Waiting interfaceVersion supportedExtensions replies s) ?_ ?_ as s h
  · exact ⟨Barred.init, rfl, nofun, nofun, nofun⟩
  · intro as u a t _ ih ht
    exact ih.step ht

/-- Whenever no roundtrip is under way, so also when the constructor returns, the client has handled the answer that the
server has given to `get_registry` and, for every seat and every output that it has been told of, the one to its bind,
however the roundtrips of the handlers were nested and whatever else the server has sent. It has handled all events in the
order in which they came, as if there had been a single roundtrip. -/
theorem constructed (supportedExtensions : Option (Std.TreeMap String Nat)) (as : List (Action X Y))
    (h : (connection interfaceVersion replies).exec { bindings := { supportedExtensions } } as = some s)
    (hconnected : s.connected = true) (hreturned : s.roundtrips = []) :
    s.bindings = announced interfaceVersion supportedExtensions (s.link.received.filterMap Event.registry?) ∧
      Answered replies s.link.answers .getRegistry s.link.received ∧
      ∀ id interface version proxy, .event (.registry (.global id interface version proxy)) ∈ s.link.received →
        interface = "wl_seat" ∨ interface = "wl_output" →
          Answered replies s.link.answers (.bind (bindRequest interfaceVersion id interface version)) s.link.received := by
  have hs := waiting_run h
  refine ⟨hs.flat, (hs.registry hconnected).answered hs.barred hreturned, fun id interface version proxy hmem hinterface => ?_⟩
  refine (hs.bound id interface version proxy hmem ?_).answered hs.barred hreturned
  rcases hinterface with rfl | rfl
  · rfl
  · rfl

/-- A server with one output. -/
def oneOutput : Request Empty → List (Event Empty) → Bool
  | .getRegistry, es => es = [.registry (.global 1 "wl_output" 4 7)]
  | .bind _, es => es = [.registry (.output 7 .done)]
  | .other _, _ => true

/-- The roundtrip of the handler dispatches what the constructor waits for. -/
def nested : List (Action Empty Empty) :=
  [.connect, .serve [.registry (.global 1 "wl_output" 4 7)], .serve [], .dispatch, .dispatch,
    .serve [.registry (.output 7 .done)], .serve [], .dispatch, .dispatch, .leave, .leave]

theorem constructed_nested :
    ∃ s, (connection (fun _ => 4) oneOutput).exec {} nested = some s ∧
      Answered oneOutput s.link.answers (.bind (bindRequest (fun _ => 4) 1 "wl_output" 4)) s.link.received :=
  ⟨_, rfl, (constructed none nested rfl rfl rfl).2.2 1 "wl_output" 4 7 List.mem_cons_self (Or.inr rfl)⟩

/-- While a roundtrip is under way, it can dispatch an event or return, or the server has a request to answer: the nested
roundtrips do not wait for each other. -/
theorem roundtrip_progress (supportedExtensions : Option (Std.TreeMap String Nat)) (as : List (Action X Y))
    (h : (connection interfaceVersion replies).exec { bindings := { supportedExtensions } } as = some s)
    (hserver : ∀ r, ∃ es, replies r es = true) (hroundtrips : s.roundtrips ≠ []) :
    ∃ a t, (a = .dispatch ∨ a = .leave ∨ ∃ es, a = .serve es) ∧
      (connection interfaceVersion replies).step s a = some t := by
  have hs := waiting_run h
  obtain ⟨n, rest, hstack⟩ := List.exists_cons_of_ne_nil hroundtrips
  have hsync : .sync n ∈ s.link.requests.sent := by
    refine hs.synced n ?_
    rw [hstack]
    exact List.mem_cons_self
  rcases hs.barred.progress hsync hserver with hdone | ⟨es, link, hserve⟩ | ⟨reply, link, hreceive⟩
  · refine ⟨.leave, { s with roundtrips := rest }, Or.inr (Or.inl rfl), ?_⟩
    simp only [connection, Connection.step, hstack]
    exact if_pos hdone
  · refine ⟨.serve es, { s with link }, Or.inr (Or.inr ⟨es, rfl⟩), ?_⟩
    simp only [connection, Connection.step, hserve, Option.map_some]
  · refine ⟨.dispatch, { s with link }.handle interfaceVersion reply, Or.inl rfl, ?_⟩
    simp only [connection, Connection.step, hstack, hreceive]

theorem oneOutput_answers (r : Request Empty) : ∃ es, oneOutput r es = true := by
  cases r with
  | getRegistry => exact ⟨_, decide_eq_true rfl⟩
  | bind b => exact ⟨_, decide_eq_true rfl⟩
  | other y => exact ⟨[], rfl⟩

/-- The `done` of the constructor has come, and its roundtrip is not the innermost. -/
theorem roundtrip_progress_nested :
    ∃ s a t, (connection (fun _ => 4) oneOutput).exec {} (nested.take 5) = some s ∧
      (connection (fun _ => 4) oneOutput).step s a = some t := by
  obtain ⟨s, hs⟩ : ∃ s, (connection (fun _ => 4) oneOutput).exec {} (nested.take 5) = some s ∧ s.roundtrips ≠ [] :=
    ⟨_, rfl, List.cons_ne_nil _ _⟩
  obtain ⟨a, t, -, ht⟩ := roundtrip_progress none (nested.take 5) hs.1 oneOutput_answers hs.2
  exact ⟨s, a, t, hs.1, ht⟩

end Runs

end Wlcs.Connecting
