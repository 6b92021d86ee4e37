import Wlcs.Client.Negotiation
import Wlcs.Client.Output
import Wlcs.Lib.History
import Wlcs.Lib.Machine

/-!
# The registry

`global_handler` and `global_removed` keep what the registry has announced: `globals`, from the name of an interface to a
global of it, and `global_type_names`, from the id of a global to its interface. Outputs go into a list of their own.

Several globals may have one interface. `live` is the globals that have been announced and not removed, and
`registry_mirror_iff` and `output_list_mirror_iff` say when the members agree with them.
-/

namespace Wlcs
open EventMachine

/-! ## The listener -/

inductive RegistryEvent
  /-- `proxy` is what `wl_registry_bind` returns if the handler binds the global -/
  | global (id : Nat) (interface : String) (version : Nat) (proxy : ProxyPtr)
  | globalRemove (id : Nat)
  /-- an event on the `wl_output` bound as `proxy` -/
  | output (proxy : ProxyPtr) (e : OutputEvent)
deriving DecidableEq, Repr

/-- The members of `Client::Impl` that the registry listener writes. -/
structure Bindings extends Registry where
  globalTypeNames : Std.TreeMap Nat String := {}
  shm : Option ProxyPtr := none
  compositor : Option ProxyPtr := none
  subcompositor : Option ProxyPtr := none
  shell : Option ProxyPtr := none
  seat : Option ProxyPtr := none
  xdgShellV6 : Option ProxyPtr := none
  xdgShellStable : Option ProxyPtr := none
  outputs : List Output := []
  /-- the calls of `wl_registry_bind` -/
  bound : List BindRequest := []

section Listener
variable (interfaceVersion : String → Nat)

/-- `interfaceVersion` is the version of the generated `wl_interface` of a name. -/
def Bindings.safeBind (me : Bindings) (id : Nat) (interface : String) (version : Nat) : Bindings :=
  { me with
    bound := me.bound ++ [⟨id, ⟨interface, interfaceVersion interface⟩, min version (interfaceVersion interface)⟩] }

/-- The handler ends with a roundtrip for seats and outputs; the events that it dispatches come next in a run. -/
def Bindings.globalHandler (me : Bindings) (id : Nat) (interface : String) (version : Nat) (proxy : ProxyPtr) :
    Bindings :=
  let me := { me with
    globalTypeNames := me.globalTypeNames.insert id interface
    globals := me.globals.insert interface ⟨id, version⟩ }
  if "wl_shm" = interface then { me.safeBind interfaceVersion id interface version with shm := some proxy }
  else if "wl_compositor" = interface then
    { me.safeBind interfaceVersion id interface version with compositor := some proxy }
  else if "wl_subcompositor" = interface then
    { me.safeBind interfaceVersion id interface version with subcompositor := some proxy }
  else if "wl_shell" = interface then { me.safeBind interfaceVersion id interface version with shell := some proxy }
  else if "wl_seat" = interface then { me.safeBind interfaceVersion id interface version with seat := some proxy }
  else if "wl_output" = interface then
    { me.safeBind interfaceVersion id interface version with outputs := me.outputs ++ [Output.new proxy] }
  else if "zxdg_shell_v6" = interface then
    { me.safeBind interfaceVersion id interface version with xdgShellV6 := some proxy }
  else if "xdg_wm_base" = interface then
    { me.safeBind interfaceVersion id interface version with xdgShellStable := some proxy }
  else me

def Bindings.globalRemoved (me : Bindings) (id : Nat) : Bindings :=
  match me.globalTypeNames[id]? with
  | some name => { me with globals := me.globals.erase name, globalTypeNames := me.globalTypeNames.erase id }
  | none => me

/-- The listener of an output has its `Output` as data. -/
def Bindings.outputEvent (me : Bindings) (proxy : ProxyPtr) (e : OutputEvent) : Bindings :=
  { me with outputs := me.outputs.map fun o => if o.current.output = proxy then o.handle e else o }

def Bindings.outputCount (me : Bindings) : Nat := me.outputs.length

/-- `Client::output_state`; `none` is what `outputs[index]` gives behind the last output. -/
def Bindings.outputState (me : Bindings) (index : Nat) : Except String (Option OutputState) :=
  if index > me.outputCount then .error "Invalid output index" else .ok (me.outputs[index]?.map (·.current))

/-- The client, fed with the events of its registry and its outputs; it answers with the done notifiers it calls. -/
def registryListener : Transducer Bindings RegistryEvent (List Nat) where
  step me
    | .global id interface version proxy => (me.globalHandler interfaceVersion id interface version proxy, [])
    | .globalRemove id => (me.globalRemoved id, [])
    | .output proxy e =>
      (me.outputEvent proxy e, (me.outputs.filter (·.current.output = proxy)).flatMap (·.notified e))

/-- A client that has received the events. -/
def announced (supportedExtensions : Option (Std.TreeMap String Nat)) (events : List RegistryEvent) : Bindings :=
  (registryListener interfaceVersion).run { supportedExtensions := supportedExtensions } events

end Listener

/-! ## Live globals -/

structure LiveGlobal where
  id : Nat
  interface : String
  version : Nat
  proxy : ProxyPtr
deriving DecidableEq, Repr

def updateLive (globals : List LiveGlobal) : RegistryEvent → List LiveGlobal
  | .global id interface version proxy => globals ++ [⟨id, interface, version, proxy⟩]
  | .globalRemove id => globals.filter (·.id ≠ id)
  | .output _ _ => globals

/-- The globals that have been announced and not removed, in the order of their announcement. -/
def live (events : List RegistryEvent) : List LiveGlobal := events.foldl updateLive []

theorem live_concat (events : List RegistryEvent) (e : RegistryEvent) :
    live (events ++ [e]) = updateLive (live events) e := by
  rw [live, List.foldl_append]
  rfl

/-- No two live globals have the same id. -/
def IdsDistinct (events : List RegistryEvent) : Prop :=
  ∀ pre id interface version proxy, pre ++ [.global id interface version proxy] <+: events →
    ∀ g ∈ live pre, g.id ≠ id

theorem IdsDistinct.restrict {events more : List RegistryEvent} (h : IdsDistinct more) (hp : events <+: more) :
    IdsDistinct events :=
  fun pre id interface version proxy hpre => h pre id interface version proxy (hpre.trans hp)

/-- The event does not announce an id that is taken. -/
def idFree (globals : List LiveGlobal) : RegistryEvent → Bool
  | .global id _ _ _ => globals.all (·.id ≠ id)
  | _ => true

instance (events : List RegistryEvent) : Decidable (IdsDistinct events) :=
  decidable_of_iff (∀ i : Fin events.length, idFree (live (events.take i)) (events.get i) = true) <| by
    rw [← History.forall_concat_iff_take (P := fun pre e => idFree (live pre) e = true)]
    constructor
    · intro h pre id interface version proxy hpre g hg
      exact of_decide_eq_true (List.all_eq_true.mp (h pre _ hpre) g hg)
    · intro h pre e hpre
      cases e with
      | global id interface version proxy =>
          exact List.all_eq_true.mpr fun g hg => decide_eq_true (h pre id interface version proxy hpre g hg)
      | globalRemove id => rfl
      | output proxy e => rfl

/-! ## The maps -/

section Maps
variable (interfaceVersion : String → Nat) (supportedExtensions : Option (Std.TreeMap String Nat))

/-- What the handler does to the maps and the outputs does not depend on what else it binds. -/
theorem globalHandler_members (me : Bindings) (id : Nat) (interface : String) (version : Nat) (proxy : ProxyPtr) :
    let me' := me.globalHandler interfaceVersion id interface version proxy
    me'.globals = me.globals.insert interface ⟨id, version⟩ ∧
      me'.globalTypeNames = me.globalTypeNames.insert id interface ∧
      me'.outputs = if "wl_output" = interface then me.outputs ++ [Output.new proxy] else me.outputs := by
  intro me'
  simp only [me', Bindings.globalHandler]
  repeat' split
  all_goals first
    | exact ⟨rfl, rfl, rfl⟩
    | (next houtput hother => exact absurd (hother.trans houtput.symm) (by decide))

theorem announced_concat (events : List RegistryEvent) (e : RegistryEvent) :
    announced interfaceVersion supportedExtensions (events ++ [e]) =
      ((registryListener interfaceVersion).step (announced interfaceVersion supportedExtensions events) e).1 :=
  (registryListener interfaceVersion).run_concat _ events e

theorem globalRemoved_globalTypeNames (me : Bindings) (removed id : Nat) :
    (me.globalRemoved removed).globalTypeNames[id]? = if removed = id then none else me.globalTypeNames[id]? := by
  unfold Bindings.globalRemoved
  split
  · simp only [Std.TreeMap.getElem?_erase, Std.LawfulEqCmp.compare_eq_iff_eq]
  · rename_i hnone
    split
    · rename_i heq
      rw [← heq, hnone]
    · rfl

theorem globalRemoved_globals (me : Bindings) (removed : Nat) (name : String) :
    (me.globalRemoved removed).globals[name]? =
      if me.globalTypeNames[removed]? = some name then none else me.globals[name]? := by
  unfold Bindings.globalRemoved
  split
  · rename_i removedName hname
    simp only [Std.TreeMap.getElem?_erase, Std.LawfulEqCmp.compare_eq_iff_eq, hname, Option.some.injEq]
  · rename_i hnone
    rw [if_neg (by simp [hnone])]

/-- The id of a global leads to its interface as long as it is live. -/
theorem globalTypeNames_iff {events : List RegistryEvent} (h : IdsDistinct events) (id : Nat) (name : String) :
    (announced interfaceVersion supportedExtensions events).globalTypeNames[id]? = some name ↔
      ∃ g ∈ live events, g.id = id ∧ g.interface = name := by
  induction events using List.reverseRecOn generalizing id name with
  | nil => simp [announced, live]
  | append_singleton events e ih =>
      have ih := ih (h.restrict (List.prefix_append _ _))
      rw [announced_concat, live_concat]
      cases e with
      | global newId interface version proxy =>
          have hnew := h events newId interface version proxy (List.prefix_refl _)
          simp only [registryListener, updateLive, (globalHandler_members interfaceVersion _ _ _ _ _).2.1,
            Std.TreeMap.getElem?_insert, Std.LawfulEqCmp.compare_eq_iff_eq]
          by_cases hid : newId = id
          · subst hid
            rw [if_pos rfl, Option.some.injEq]
            constructor
            · intro hname
              exact ⟨_, List.mem_append_right _ (List.mem_singleton_self _), rfl, hname⟩
            · rintro ⟨g, hg, hgid, hname⟩
              rcases List.mem_append.mp hg with hg | hg
              · exact absurd hgid (hnew g hg)
              · rw [List.mem_singleton.mp hg] at hname
                exact hname
          · rw [if_neg hid, ih]
            constructor
            · rintro ⟨g, hg, hmatch⟩
              exact ⟨g, List.mem_append_left _ hg, hmatch⟩
            · rintro ⟨g, hg, hmatch⟩
              rcases List.mem_append.mp hg with hg | hg
              · exact ⟨g, hg, hmatch⟩
              · rw [List.mem_singleton.mp hg] at hmatch
                exact absurd hmatch.1 hid
      | globalRemove removed =>
          simp only [registryListener, updateLive, globalRemoved_globalTypeNames]
          by_cases hid : removed = id
          · rw [if_pos hid]
            refine iff_of_false (by simp) ?_
            rintro ⟨g, hg, hgid, -⟩
            exact of_decide_eq_true (List.mem_filter.mp hg).2 (hgid.trans hid.symm)
          · rw [if_neg hid, ih]
            constructor
            · rintro ⟨g, hg, hgid, hname⟩
              refine ⟨g, List.mem_filter.mpr ⟨hg, decide_eq_true fun heq => hid (heq.symm.trans hgid)⟩, hgid, hname⟩
            · rintro ⟨g, hg, hmatch⟩
              exact ⟨g, (List.mem_filter.mp hg).1, hmatch⟩
      | output proxy e => exact ih id name

/-- An entry is that of a live global of its interface, whatever is removed. -/
theorem entry_live {events : List RegistryEvent} (h : IdsDistinct events) {name : String} {entry : Global}
    (hentry : (announced interfaceVersion supportedExtensions events).globals[name]? = some entry) :
    ∃ g ∈ live events, g.interface = name ∧ g.id = entry.id ∧ g.version = entry.version := by
  induction events using List.reverseRecOn generalizing name entry with
  | nil => simp [announced] at hentry
  | append_singleton events e ih =>
      have hevents : IdsDistinct events := h.restrict (List.prefix_append _ _)
      rw [live_concat]
      rw [announced_concat] at hentry
      cases e with
      | global id interface version proxy =>
          simp only [registryListener, (globalHandler_members interfaceVersion _ _ _ _ _).1,
            Std.TreeMap.getElem?_insert, Std.LawfulEqCmp.compare_eq_iff_eq] at hentry
          simp only [updateLive]
          by_cases hname : interface = name
          · rw [if_pos hname, Option.some.injEq] at hentry
            subst hentry
            exact ⟨_, List.mem_append_right _ (List.mem_singleton_self _), hname, rfl, rfl⟩
          · rw [if_neg hname] at hentry
            obtain ⟨g, hg, hmatch⟩ := ih hevents hentry
            exact ⟨g, List.mem_append_left _ hg, hmatch⟩
      | globalRemove id =>
          simp only [registryListener, globalRemoved_globals, globalTypeNames_iff _ _ hevents] at hentry
          split at hentry
          · cases hentry
          · rename_i hother
            obtain ⟨g, hg, hname, hmatch⟩ := ih hevents hentry
            -- had `g` been removed, the entry would have gone with it
            have hid : g.id ≠ id := fun hid => hother ⟨g, hg, hid, hname⟩
            exact ⟨g, List.mem_filter.mpr ⟨hg, decide_eq_true hid⟩, hname, hmatch⟩
      | output proxy e => exact ih hevents hentry

/-! ## What the maps say -/

/-- The members agree with the globals that are live, and so does what is bound. -/
structure Mirrors (me : Bindings) (globals : List LiveGlobal) : Prop where
  entry_iff : ∀ name, name ∈ me.globals ↔ ∃ g ∈ globals, g.interface = name
  entry_live : ∀ name entry, me.globals[name]? = some entry →
    ∃ g ∈ globals, g.interface = name ∧ g.id = entry.id ∧ g.version = entry.version
  /-- a global that has been removed is never bound -/
  request_live : ∀ (wlRegistryBind : BindRequest → Option ProxyPtr) toBind version,
    ∀ request ∈ (me.bindIfSupported wlRegistryBind toBind version).requests,
      ∃ g ∈ globals, g.interface = toBind.name ∧ g.id = request.id
  /-- an interface is not reported missing while there is a live global of it, and each would do -/
  not_missing : ∀ (wlRegistryBind : BindRequest → Option ProxyPtr) toBind (version : VersionSpecifier),
    version.Known toBind.version → (∃ g ∈ globals, g.interface = toBind.name) →
    (∀ g ∈ globals, g.interface = toBind.name → (version.Admissible g.version toBind.version).Nonempty) →
      (me.bindIfSupported wlRegistryBind toBind version).requests ≠ []

/-- A global is removed only while no other global of its interface is live. -/
def RemovesLast (pre : List RegistryEvent) (e : RegistryEvent) : Prop :=
  ∀ id, e = .globalRemove id → ∀ g ∈ live pre, g.id = id → ∀ other ∈ live pre, other.interface = g.interface →
    other.id = id

/-- As long as the last global of an interface is removed last, the entry stays for it. -/
theorem entry_of_live {events : List RegistryEvent} (h : IdsDistinct events)
    (hlast : ∀ pre e, pre ++ [e] <+: events → RemovesLast pre e) {g : LiveGlobal} (hg : g ∈ live events) :
    g.interface ∈ (announced interfaceVersion supportedExtensions events).globals := by
  induction events using List.reverseRecOn generalizing g with
  | nil => cases hg
  | append_singleton events e ih =>
      have hevents : IdsDistinct events := h.restrict (List.prefix_append _ _)
      have ih := @ih hevents fun pre x hx => hlast pre x (hx.trans (List.prefix_append _ _))
      rw [live_concat] at hg
      rw [announced_concat]
      cases e with
      | global id interface version proxy =>
          simp only [registryListener, (globalHandler_members interfaceVersion _ _ _ _ _).1, Std.TreeMap.mem_insert,
            Std.LawfulEqCmp.compare_eq_iff_eq]
          rcases List.mem_append.mp hg with hg | hg
          · exact Or.inr (ih hg)
          · rw [List.mem_singleton.mp hg]
            exact Or.inl rfl
      | globalRemove id =>
          obtain ⟨hold, hkept⟩ := List.mem_filter.mp hg
          simp only [registryListener, Std.TreeMap.mem_iff_isSome_getElem?, globalRemoved_globals,
            globalTypeNames_iff _ _ hevents]
          rw [if_neg]
          · exact Std.TreeMap.mem_iff_isSome_getElem?.mp (ih hold)
          · rintro ⟨removed, hremoved, hid, hname⟩
            exact of_decide_eq_true hkept
              (hlast events _ (List.prefix_refl _) id rfl removed hremoved hid g hold hname.symm)
      | output proxy e => exact ih hg

/-- What binding does follows from the map. -/
theorem mirrors_of_entries {me : Bindings} {globals : List LiveGlobal}
    (hiff : ∀ name, name ∈ me.globals ↔ ∃ g ∈ globals, g.interface = name)
    (hlive : ∀ name entry, me.globals[name]? = some entry →
      ∃ g ∈ globals, g.interface = name ∧ g.id = entry.id ∧ g.version = entry.version) : Mirrors me globals where
  entry_iff := hiff
  entry_live := hlive
  request_live wlRegistryBind toBind version request hrequest := by
    obtain ⟨entry, hentry, hid⟩ := bindIfSupported_request wlRegistryBind hrequest
    obtain ⟨g, hg, hname, hgid, -⟩ := hlive _ _ hentry
    exact ⟨g, hg, hname, hgid.trans hid.symm⟩
  not_missing wlRegistryBind toBind version hknown hinterface hadmissible := by
    obtain ⟨entry, hentry⟩ := Option.isSome_iff_exists.mp
      (Std.TreeMap.mem_iff_isSome_getElem?.mp ((hiff _).mpr hinterface))
    obtain ⟨g, hg, hname, -, hversion⟩ := hlive _ _ hentry
    have hcan : me.CanBind toBind version := ⟨entry, hentry, hversion ▸ hadmissible g hg hname⟩
    obtain ⟨global, n, -, -, hbinding⟩ := bindIfSupported_of_canBind wlRegistryBind hknown hcan
    rw [hbinding]
    exact List.cons_ne_nil _ _

/-- **The registry**: the entries of `globals`, and what `bind_if_supported` makes of them, agree with the live globals
after every event exactly when no global is removed while another one of its interface is live. -/
theorem registry_mirror_iff (events : List RegistryEvent) (h : IdsDistinct events) :
    (∀ pre, pre <+: events → Mirrors (announced interfaceVersion supportedExtensions pre) (live pre)) ↔
      ∀ pre e, pre ++ [e] <+: events → RemovesLast pre e := by
  constructor
  · rintro hmirrors pre e hpre id rfl g hg hid other hother hname
    by_contra hne
    have hpreIds : IdsDistinct pre := h.restrict ((List.prefix_append _ _).trans hpre)
    have hkept : other ∈ live (pre ++ [.globalRemove id]) := by
      rw [live_concat]
      exact List.mem_filter.mpr ⟨hother, decide_eq_true hne⟩
    have hentry := ((hmirrors _ hpre).entry_iff g.interface).mpr ⟨other, hkept, hname⟩
    simp only [announced_concat, registryListener, Std.TreeMap.mem_iff_isSome_getElem?, globalRemoved_globals,
      globalTypeNames_iff _ _ hpreIds] at hentry
    rw [if_pos ⟨g, hg, hid, rfl⟩] at hentry
    cases hentry
  · intro hlast pre hpre
    have hpreIds := h.restrict hpre
    refine mirrors_of_entries ?_ fun name entry => entry_live interfaceVersion supportedExtensions hpreIds
    intro name
    constructor
    · intro hname
      obtain ⟨entry, hentry⟩ := Option.isSome_iff_exists.mp (Std.TreeMap.mem_iff_isSome_getElem?.mp hname)
      obtain ⟨g, hg, hg', -⟩ := entry_live _ _ hpreIds hentry
      exact ⟨g, hg, hg'⟩
    · rintro ⟨g, hg, rfl⟩
      exact entry_of_live _ _ hpreIds (fun p e hp => hlast p e (hp.trans hpre)) hg

end Maps

/-- Two outputs, the older of which is unplugged. -/
def unplugFirst : List RegistryEvent :=
  [.global 1 "wl_output" 4 11, .global 2 "wl_output" 4 12, .globalRemove 1]

theorem registry_mirror_iff_unplugFirst :
    IdsDistinct unplugFirst ∧
      ((∀ pre, pre <+: unplugFirst → Mirrors (announced (fun _ => 4) none pre) (live pre)) ↔
        ∀ pre e, pre ++ [e] <+: unplugFirst → RemovesLast pre e) :=
  ⟨by decide, registry_mirror_iff (fun _ => 4) none unplugFirst (by decide)⟩

/-- The other output is live and its interface has no entry: binding it fails as if it were missing. -/
theorem live_output_missing :
    IdsDistinct unplugFirst ∧
      ¬ ∀ pre, pre <+: unplugFirst → Mirrors (announced (fun _ => 4) none pre) (live pre) := by
  refine ⟨by decide, fun hmirrors => ?_⟩
  have hentry := ((hmirrors unplugFirst (List.prefix_refl _)).entry_iff "wl_output").mpr
    ⟨⟨2, "wl_output", 4, 12⟩, by decide, rfl⟩
  have hnone : ¬ "wl_output" ∈ (announced (fun _ => 4) none unplugFirst).globals := by decide +kernel
  exact hnone hentry

/-! ## The outputs -/

section Outputs
variable (interfaceVersion : String → Nat) (supportedExtensions : Option (Std.TreeMap String Nat))

/-- The events that an output has sent. -/
def outputEvents (proxy : ProxyPtr) (events : List RegistryEvent) : List OutputEvent :=
  events.filterMap fun
    | .output sender e => if sender = proxy then some e else none
    | _ => none

/-- The outputs that are there, in the order of their announcement. -/
def liveOutputs (events : List RegistryEvent) : List LiveGlobal := (live events).filter (·.interface = "wl_output")

/-- The `wl_output` that the event announces has sent nothing. -/
def Unheard (pre : List RegistryEvent) : RegistryEvent → Prop
  | .global _ interface _ proxy => interface = "wl_output" → outputEvents proxy pre = []
  | _ => True

instance (pre : List RegistryEvent) : DecidablePred (Unheard pre)
  | .global _ interface _ proxy => inferInstanceAs (Decidable (interface = "wl_output" → outputEvents proxy pre = []))
  | .globalRemove _ | .output _ _ => inferInstanceAs (Decidable True)

/-- libwayland makes a new proxy for each `wl_output` that is bound. -/
def FreshProxies (events : List RegistryEvent) : Prop := ∀ pre e, pre ++ [e] <+: events → Unheard pre e

instance (events : List RegistryEvent) : Decidable (FreshProxies events) :=
  decidable_of_iff _ History.forall_concat_iff_take.symm

/-- There is one `Output` for each live output, in order, and each has heard its own `wl_output`. -/
def OutputsMirror (me : Bindings) (events : List RegistryEvent) : Prop :=
  me.outputCount = (liveOutputs events).length ∧
    me.outputs = (liveOutputs events).map fun g => Output.received g.proxy (outputEvents g.proxy events)

/-- The global that the event removes, if any, is not an output. -/
def SparesOutputs (pre : List RegistryEvent) (e : RegistryEvent) : Prop :=
  ∀ id, e = .globalRemove id → ∀ g ∈ live pre, g.id = id → g.interface ≠ "wl_output"

theorem liveOutputs_remove (events : List RegistryEvent) (id : Nat) :
    liveOutputs (events ++ [.globalRemove id]) = (liveOutputs events).filter (·.id ≠ id) := by
  rw [liveOutputs, live_concat, updateLive, liveOutputs, List.filter_filter, List.filter_filter]
  congr 1
  funext g
  exact Bool.and_comm _ _

theorem outputEvents_concat_other {e : RegistryEvent} (h : ∀ proxy x, e ≠ .output proxy x) (proxy : ProxyPtr)
    (events : List RegistryEvent) : outputEvents proxy (events ++ [e]) = outputEvents proxy events := by
  cases e with
  | output sender x => exact absurd rfl (h sender x)
  | _ => simp [outputEvents]

/-- An output hears its own events only. -/
theorem received_outputEvents_concat (proxy sender : ProxyPtr) (events : List RegistryEvent) (e : OutputEvent) :
    Output.received proxy (outputEvents proxy (events ++ [.output sender e])) =
      if (Output.received proxy (outputEvents proxy events)).current.output = sender
      then (Output.received proxy (outputEvents proxy events)).handle e
      else Output.received proxy (outputEvents proxy events) := by
  rw [Output.received_output]
  by_cases hsender : proxy = sender
  · rw [if_pos hsender, ← Output.received_concat]
    simp [outputEvents, hsender]
  · rw [if_neg hsender]
    simp [outputEvents, Ne.symm hsender]

theorem outputs_globalRemoved (me : Bindings) (id : Nat) : (me.globalRemoved id).outputs = me.outputs := by
  unfold Bindings.globalRemoved
  split
  · rfl
  · rfl

/-- The `wl_output` that the event makes the client bind. -/
def RegistryEvent.boundOutput? : RegistryEvent → Option ProxyPtr
  | .global _ interface _ proxy => if "wl_output" = interface then some proxy else none
  | _ => none

/-- The outputs that the client has bound, in order. -/
def boundOutputs (events : List RegistryEvent) : List ProxyPtr := events.filterMap RegistryEvent.boundOutput?

theorem boundOutputs_concat (events : List RegistryEvent) (e : RegistryEvent) :
    boundOutputs (events ++ [e]) = boundOutputs events ++ e.boundOutput?.toList := by
  unfold boundOutputs
  rw [List.filterMap_append]
  cases h : e.boundOutput? <;> simp [h]

/-- There is one `Output` for each output that was ever bound, and each has heard its own `wl_output`. -/
theorem announced_outputs {events : List RegistryEvent} (hfresh : FreshProxies events) :
    (announced interfaceVersion supportedExtensions events).outputs =
      (boundOutputs events).map fun proxy => Output.received proxy (outputEvents proxy events) := by
  induction events using List.reverseRecOn with
  | nil => rfl
  | append_singleton events e ih =>
      have hunheard := hfresh events e (List.prefix_refl _)
      have ih := ih fun pre x hpre => hfresh pre x (hpre.trans (List.prefix_append _ _))
      rw [announced_concat, boundOutputs_concat]
      cases e with
      | global id interface version proxy =>
          have hother : ∀ p x, RegistryEvent.global id interface version proxy ≠ .output p x :=
            fun p x heq => by cases heq
          simp only [registryListener, (globalHandler_members interfaceVersion _ _ _ _ _).2.2,
            outputEvents_concat_other hother, ih, List.map_append]
          by_cases hinterface : "wl_output" = interface
          · subst hinterface
            have hnone : outputEvents proxy events = [] := hunheard rfl
            simp [RegistryEvent.boundOutput?, hnone, Output.received]
          · simp [RegistryEvent.boundOutput?, hinterface]
      | globalRemove id =>
          have hother : ∀ p x, RegistryEvent.globalRemove id ≠ .output p x := fun p x heq => by cases heq
          simp [registryListener, outputs_globalRemoved, outputEvents_concat_other hother, ih,
            RegistryEvent.boundOutput?]
      | output sender e =>
          simp only [registryListener, Bindings.outputEvent, ih, received_outputEvents_concat, List.map_map,
            RegistryEvent.boundOutput?, Option.toList_none, List.append_nil]
          rfl

/-- As long as no output goes, the live ones are those that were bound. -/
theorem liveOutputs_proxies {events : List RegistryEvent} (h : ∀ pre e, pre ++ [e] <+: events → SparesOutputs pre e) :
    (liveOutputs events).map LiveGlobal.proxy = boundOutputs events := by
  induction events using List.reverseRecOn with
  | nil => rfl
  | append_singleton events e ih =>
      have hspares := h events e (List.prefix_refl _)
      rw [boundOutputs_concat, ← ih fun pre x hpre => h pre x (hpre.trans (List.prefix_append _ _))]
      cases e with
      | global id interface version proxy =>
          rw [liveOutputs, live_concat, updateLive, List.filter_append, List.map_append]
          by_cases hinterface : "wl_output" = interface
          · simp [RegistryEvent.boundOutput?, liveOutputs, hinterface]
          · simp [RegistryEvent.boundOutput?, liveOutputs, hinterface, Ne.symm hinterface]
      | globalRemove id =>
          rw [liveOutputs_remove, List.filter_eq_self.mpr]
          · simp [RegistryEvent.boundOutput?]
          · intro g hg
            obtain ⟨hlive, hinterface⟩ := List.mem_filter.mp hg
            exact decide_eq_true fun hid => hspares id rfl g hlive hid (of_decide_eq_true hinterface)
      | output sender e =>
          rw [liveOutputs, live_concat, updateLive]
          simp [RegistryEvent.boundOutput?, liveOutputs]

/-- **The outputs**: after every event there is an `Output` for each live `wl_output`, in order and up to date, exactly
when no live output is ever removed: `global_removed` leaves the list as it is. -/
theorem output_list_mirror_iff (events : List RegistryEvent) (hfresh : FreshProxies events) :
    (∀ pre, pre <+: events → OutputsMirror (announced interfaceVersion supportedExtensions pre) pre) ↔
      ∀ pre e, pre ++ [e] <+: events → SparesOutputs pre e := by
  constructor
  · rintro hmirror pre e hpre id rfl g hg hid hinterface
    have hbefore := (hmirror pre ((List.prefix_append _ _).trans hpre)).1
    have hafter := (hmirror _ hpre).1
    have hkept : (announced interfaceVersion supportedExtensions (pre ++ [.globalRemove id])).outputCount =
        (announced interfaceVersion supportedExtensions pre).outputCount := by
      rw [announced_concat]
      exact congrArg List.length (outputs_globalRemoved _ id)
    have hfewer : (liveOutputs (pre ++ [.globalRemove id])).length < (liveOutputs pre).length := by
      have hmem : g ∈ liveOutputs pre := List.mem_filter.mpr ⟨hg, decide_eq_true hinterface⟩
      rw [liveOutputs_remove, List.length_filter_lt_length_iff_exists]
      exact ⟨g, hmem, by simp [hid]⟩
    omega
  · intro hspares pre hpre
    have houtputs : (announced interfaceVersion supportedExtensions pre).outputs =
        (liveOutputs pre).map fun g => Output.received g.proxy (outputEvents g.proxy pre) := by
      rw [announced_outputs _ _ fun p e hp => hfresh p e (hp.trans hpre),
        ← liveOutputs_proxies fun p e hp => hspares p e (hp.trans hpre), List.map_map]
      rfl
    exact ⟨by rw [Bindings.outputCount, houtputs, List.length_map], houtputs⟩

end Outputs

/-- An output that says its size and is then unplugged. -/
def unplugOutput : List RegistryEvent :=
  [.global 1 "wl_output" 4 11, .output 11 (.mode 1 640 480), .output 11 .done, .globalRemove 1]

theorem output_list_mirror_iff_unplugOutput :
    FreshProxies unplugOutput ∧
      ((∀ pre, pre <+: unplugOutput → OutputsMirror (announced (fun _ => 4) none pre) pre) ↔
        ∀ pre e, pre ++ [e] <+: unplugOutput → SparesOutputs pre e) :=
  ⟨by decide, output_list_mirror_iff (fun _ => 4) none unplugOutput (by decide)⟩

/-- The output is still counted. -/
theorem removed_output_counted :
    IdsDistinct unplugOutput ∧ FreshProxies unplugOutput ∧
      ¬ ∀ pre, pre <+: unplugOutput → OutputsMirror (announced (fun _ => 4) none pre) pre := by
  refine ⟨by decide, by decide, fun hmirror => ?_⟩
  exact absurd (hmirror unplugOutput (List.prefix_refl _)).1 (by decide +kernel)

end Wlcs
