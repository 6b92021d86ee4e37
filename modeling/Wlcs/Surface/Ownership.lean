import Mathlib.Data.List.Nodup
import Wlcs.Lib.Store
import Wlcs.Surface.Lifecycle

/-!
# Ownership of frame callbacks

Every live `wl_callback` has exactly one owner, an entry of `pending_callbacks` or a call of `frame_callback`, and is
released by it once (`frame_callback_ownership`).

* `Placed` : the owners and the live objects correspond, whatever addresses are used again;
* `Recorded` : the trace has each callback at the stage of its life that goes with its owner.

Both have a list of entries that are `doomed`, those that the destructor of a surface has yet to release.
-/

namespace Wlcs.Frames
open EventMachine

/-! ## Owners -/

structure Placed (doomed pending : List (Address × Address)) (s : State) : Prop where
  nodup : ((doomed ++ pending).map Prod.snd).Nodup
  activations : (s.executing.map Activation.callback).Nodup
  ofDoomed : ∀ e ∈ doomed, ∃ p, s.proxies e.2 = some p ∧ p.delivered = false
  ofPending : ∀ e ∈ pending, ∃ p, s.proxies e.2 = some p ∧ p.delivered = false ∧ s.surfaces e.1 = some p.surface
  ofExecuting : ∀ a ∈ s.executing, ∃ p, s.proxies a.callback = some p ∧ p.delivered = true ∧ p.userData = a.ctx
  waiting : ∀ c p, s.proxies c = some p → p.delivered = false → c ∈ (doomed ++ pending).map Prod.snd
  running : ∀ c p, s.proxies c = some p → p.delivered = true → c ∈ s.executing.map Activation.callback
  function : ∀ c p, s.proxies c = some p → s.functions p.userData = some p.id
  numbered : ∀ c p, s.proxies c = some p → p.id < s.callbacksCreated
  distinct : ∀ c d p q, s.proxies c = some p → s.proxies d = some q → p.id = q.id → c = d
  surfaceNumbered : ∀ i x, s.surfaces i = some x → x < s.surfacesCreated
  surfaceDistinct : ∀ i j x, s.surfaces i = some x → s.surfaces j = some x → i = j

namespace Placed
variable {doomed pending : List (Address × Address)} {s : State} {trace : List Event}

/-- A call in progress is for a callback that no entry has. -/
theorem callback_ne {a : Activation} {e : Address × Address} (h : Placed doomed pending s) (ha : a ∈ s.executing)
    (he : e ∈ doomed ++ pending) : a.callback ≠ e.2 := by
  intro heq
  obtain ⟨p, hp, hdelivered, -⟩ := h.ofExecuting a ha
  have hwaiting : ∃ q, s.proxies e.2 = some q ∧ q.delivered = false := by
    rcases List.mem_append.mp he with he | he
    · exact h.ofDoomed e he
    · obtain ⟨q, hq, hwaiting, -⟩ := h.ofPending e he
      exact ⟨q, hq, hwaiting⟩
  obtain ⟨q, hq, hwaiting⟩ := hwaiting
  rw [heq, hq] at hp
  rw [← Option.some.inj hp, hwaiting] at hdelivered
  cases hdelivered

theorem surfaceStore (h : Placed doomed pending s) : Store.Numbered id s.surfacesCreated s.surfaces where
  lt := h.surfaceNumbered
  inj i j x y hi hj heq := by
    obtain rfl : x = y := heq
    exact h.surfaceDistinct i j x hi hj

theorem proxyStore (h : Placed doomed pending s) : Store.Numbered Proxy.id s.callbacksCreated s.proxies where
  lt := h.numbered
  inj := h.distinct

theorem createSurface {impl : Address} (h : Placed doomed pending s) (himpl : s.surfaces impl = none) :
    Placed doomed pending { s with
      surfaces := Function.update s.surfaces impl (some s.surfacesCreated)
      surfacesCreated := s.surfacesCreated + 1 } := by
  have hstore : Store.Numbered id (s.surfacesCreated + 1) (Function.update s.surfaces impl (some s.surfacesCreated)) :=
    h.surfaceStore.put rfl
  refine { __ := h, ofPending := ?_, surfaceNumbered := hstore.lt, surfaceDistinct := ?_ }
  · intro e he
    obtain ⟨p, hp, hdelivered, hsurface⟩ := h.ofPending e he
    exact ⟨p, hp, hdelivered, Store.put_of_free himpl hsurface⟩
  · intro i j x hi hj
    exact hstore.inj i j x x hi hj rfl

theorem addFrameCallback {impl function callback : Address} {surface : Nat} (h : Placed doomed pending s)
    (himpl : s.surfaces impl = some surface) (hfunction : s.functions function = none)
    (hcallback : s.proxies callback = none) :
    Placed doomed (pending ++ [(impl, callback)]) { s with
      functions := Function.update s.functions function (some s.callbacksCreated)
      proxies := Function.update s.proxies callback (some ⟨s.callbacksCreated, surface, function, false⟩)
      callbacksCreated := s.callbacksCreated + 1
      trace := trace
      pendingCallbacks := pending ++ [(impl, callback)] } := by
  have hstore : Store.Numbered Proxy.id (s.callbacksCreated + 1)
      (Function.update s.proxies callback (some ⟨s.callbacksCreated, surface, function, false⟩)) :=
    h.proxyStore.put rfl
  refine
    { nodup := ?_, activations := h.activations, ofDoomed := ?_, ofPending := ?_, ofExecuting := ?_, waiting := ?_,
      running := ?_, function := ?_, numbered := hstore.lt, distinct := hstore.inj,
      surfaceNumbered := h.surfaceNumbered, surfaceDistinct := h.surfaceDistinct }
  · rw [← List.append_assoc, List.map_append, List.nodup_append]
    refine ⟨h.nodup, List.nodup_singleton _, ?_⟩
    rintro c hc d hd rfl
    obtain rfl := List.mem_singleton.mp hd
    obtain ⟨e, he, rfl⟩ := List.mem_map.mp hc
    rcases List.mem_append.mp he with he | he
    · obtain ⟨p, hp, -⟩ := h.ofDoomed e he
      exact Store.ne_of_free hcallback hp rfl
    · obtain ⟨p, hp, -⟩ := h.ofPending e he
      exact Store.ne_of_free hcallback hp rfl
  · intro e he
    obtain ⟨p, hp, hdelivered⟩ := h.ofDoomed e he
    exact ⟨p, Store.put_of_free hcallback hp, hdelivered⟩
  · intro e he
    rcases List.mem_append.mp he with he | he
    · obtain ⟨p, hp, hrest⟩ := h.ofPending e he
      exact ⟨p, Store.put_of_free hcallback hp, hrest⟩
    · obtain rfl := List.mem_singleton.mp he
      exact ⟨_, Function.update_self .., rfl, himpl⟩
  · intro a ha
    obtain ⟨p, hp, hrest⟩ := h.ofExecuting a ha
    exact ⟨p, Store.put_of_free hcallback hp, hrest⟩
  · intro c p hp hdelivered
    rw [← List.append_assoc, List.map_append, List.mem_append]
    rcases Store.put_eq_some_iff.mp hp with ⟨rfl, -⟩ | ⟨-, hp⟩
    · exact Or.inr (List.mem_singleton_self _)
    · exact Or.inl (h.waiting c p hp hdelivered)
  · intro c p hp hdelivered
    rcases Store.put_eq_some_iff.mp hp with ⟨-, rfl⟩ | ⟨-, hp⟩
    · cases hdelivered
    · exact h.running c p hp hdelivered
  · intro c p hp
    rcases Store.put_eq_some_iff.mp hp with ⟨-, rfl⟩ | ⟨-, hp⟩
    · exact Function.update_self ..
    · exact Store.put_of_free hfunction (h.function c p hp)

/-- The callback at `c` is delivered, and passes from the list to a call of `frame_callback`. -/
theorem done {c impl : Address} {p : Proxy} {pre post : List (Address × Address)} (trace : List Event)
    (h : Placed doomed (pre ++ (impl, c) :: post) s) (hp : s.proxies c = some p) :
    Placed doomed (pre ++ post) { s with
      proxies := Function.update s.proxies c (some { p with delivered := true })
      executing := ⟨c, p.userData⟩ :: s.executing
      trace := trace
      pendingCallbacks := pre ++ post } := by
  have hperm : (doomed ++ (pre ++ (impl, c) :: post)).Perm ((impl, c) :: (doomed ++ (pre ++ post))) := by
    rw [← List.append_assoc, ← List.append_assoc]
    exact List.perm_middle
  have hnodup := (hperm.map Prod.snd).nodup_iff.mp h.nodup
  rw [List.map_cons, List.nodup_cons] at hnodup
  have hne {e : Address × Address} (he : e ∈ doomed ++ (pre ++ post)) : e.2 ≠ c := by
    rintro rfl
    exact hnodup.1 (List.mem_map.mpr ⟨e, he, rfl⟩)
  have hidle : c ∉ s.executing.map Activation.callback := fun hmem => by
    obtain ⟨a, ha, heq⟩ := List.mem_map.mp hmem
    exact h.callback_ne (e := (impl, c)) ha (by simp) heq
  have hkept {d : Address} (hd : d ≠ c) :
      Function.update s.proxies c (some { p with delivered := true }) d = s.proxies d := Function.update_of_ne hd _ _
  have hstore : Store.Numbered Proxy.id s.callbacksCreated
      (Function.update s.proxies c (some { p with delivered := true })) := h.proxyStore.replace hp rfl
  refine
    { nodup := hnodup.2, activations := List.nodup_cons.mpr ⟨hidle, h.activations⟩, ofDoomed := ?_, ofPending := ?_,
      ofExecuting := ?_, waiting := ?_, running := ?_, function := ?_, numbered := hstore.lt, distinct := hstore.inj,
      surfaceNumbered := h.surfaceNumbered, surfaceDistinct := h.surfaceDistinct }
  · intro e he
    obtain ⟨q, hq, hrest⟩ := h.ofDoomed e he
    exact ⟨q, (hkept (hne (List.mem_append_left _ he))).trans hq, hrest⟩
  · intro e he
    have hmem : e ∈ pre ++ (impl, c) :: post := ((List.sublist_cons_self _ post).append_left pre).subset he
    obtain ⟨q, hq, hrest⟩ := h.ofPending e hmem
    exact ⟨q, (hkept (hne (List.mem_append_right _ he))).trans hq, hrest⟩
  · intro a ha
    rcases List.mem_cons.mp ha with rfl | ha
    · exact ⟨_, Function.update_self .., rfl, rfl⟩
    · obtain ⟨q, hq, hrest⟩ := h.ofExecuting a ha
      have hd : a.callback ≠ c := fun heq => hidle (heq ▸ List.mem_map_of_mem ha)
      exact ⟨q, (hkept hd).trans hq, hrest⟩
  · intro d q hq hwaiting
    rcases Store.put_eq_some_iff.mp hq with ⟨-, rfl⟩ | ⟨hd, hq⟩
    · cases hwaiting
    · have hmem := (hperm.map Prod.snd).mem_iff.mp (h.waiting d q hq hwaiting)
      exact (List.mem_cons.mp hmem).resolve_left hd
  · intro d q hq hrunning
    rcases Store.put_eq_some_iff.mp hq with ⟨rfl, -⟩ | ⟨-, hq⟩
    · exact List.mem_cons_self
    · exact List.mem_cons_of_mem _ (h.running d q hq hrunning)
  · intro d q hq
    rcases Store.put_eq_some_iff.mp hq with ⟨-, rfl⟩ | ⟨-, hq⟩
    · exact h.function c p hp
    · exact h.function d q hq

/-- An owner goes, with the callback at `c` and its function. -/
theorem forget {c : Address} {p : Proxy} {doomed' : List (Address × Address)} {executing' : List Activation}
    (h : Placed doomed pending s) (hp : s.proxies c = some p) (hdoomed : doomed'.Sublist doomed)
    (hexecuting : executing'.Sublist s.executing) (hgone : c ∉ (doomed' ++ pending).map Prod.snd)
    (hreturned : c ∉ executing'.map Activation.callback)
    (hwaiting : ∀ d ∈ (doomed ++ pending).map Prod.snd, d ≠ c → d ∈ (doomed' ++ pending).map Prod.snd)
    (hrunning : ∀ d ∈ s.executing.map Activation.callback, d ≠ c → d ∈ executing'.map Activation.callback) :
    Placed doomed' pending { s with
      proxies := Function.update s.proxies c none
      functions := Function.update s.functions p.userData none
      executing := executing'
      trace := trace } := by
  have hkept {d : Address} {q : Proxy} (hd : d ≠ c) (hq : s.proxies d = some q) :
      Function.update s.proxies c none d = some q := Store.take_eq_some_iff.mpr ⟨hd, hq⟩
  have hne {e : Address × Address} (he : e ∈ doomed' ++ pending) : e.2 ≠ c := fun heq =>
    hgone (heq ▸ List.mem_map_of_mem he)
  have hstore := h.proxyStore.take c
  refine
    { nodup := h.nodup.sublist ((hdoomed.append_right pending).map _),
      activations := h.activations.sublist (hexecuting.map _), ofDoomed := ?_, ofPending := ?_, ofExecuting := ?_,
      waiting := ?_, running := ?_, function := ?_, numbered := hstore.lt, distinct := hstore.inj,
      surfaceNumbered := h.surfaceNumbered, surfaceDistinct := h.surfaceDistinct }
  · intro e he
    obtain ⟨q, hq, hrest⟩ := h.ofDoomed e (hdoomed.subset he)
    exact ⟨q, hkept (hne (List.mem_append_left _ he)) hq, hrest⟩
  · intro e he
    obtain ⟨q, hq, hrest⟩ := h.ofPending e he
    exact ⟨q, hkept (hne (List.mem_append_right _ he)) hq, hrest⟩
  · intro a ha
    obtain ⟨q, hq, hrest⟩ := h.ofExecuting a (hexecuting.subset ha)
    exact ⟨q, hkept (fun heq => hreturned (heq ▸ List.mem_map_of_mem ha)) hq, hrest⟩
  · intro d q hq hdelivered
    obtain ⟨hd, hq⟩ := Store.take_eq_some_iff.mp hq
    exact hwaiting d (h.waiting d q hq hdelivered) hd
  · intro d q hq hdelivered
    obtain ⟨hd, hq⟩ := Store.take_eq_some_iff.mp hq
    exact hrunning d (h.running d q hq hdelivered) hd
  · intro d q hq
    obtain ⟨hd, hq⟩ := Store.take_eq_some_iff.mp hq
    have hlive := h.function d q hq
    -- two callbacks that shared a function would be the same
    have hother : q.userData ≠ p.userData := fun heq => by
      have hfunction := h.function c p hp
      rw [← heq, hlive] at hfunction
      exact hd (h.distinct d c q p hq hp (Option.some.inj hfunction))
    exact Store.take_eq_some_iff.mpr ⟨hother, hlive⟩

/-- The surface at `impl` starts to go, and its entries wait to be released. -/
theorem doom {impl : Address} (h : Placed [] pending s) :
    Placed (pending.filter fun e => e.1 = impl) (pending.filter fun e => !decide (e.1 = impl)) { s with
      surfaces := Function.update s.surfaces impl none
      trace := trace } := by
  have hperm := List.filter_append_perm (fun e : Address × Address => decide (e.1 = impl)) pending
  have hstore := h.surfaceStore.take impl
  refine
    { nodup := (hperm.map Prod.snd).nodup_iff.mpr h.nodup, activations := h.activations, ofDoomed := ?_,
      ofPending := ?_, ofExecuting := h.ofExecuting, waiting := ?_, running := h.running, function := h.function,
      numbered := h.numbered, distinct := h.distinct, surfaceNumbered := hstore.lt,
      surfaceDistinct := fun i j x hi hj => hstore.inj i j x x hi hj rfl }
  · intro e he
    obtain ⟨p, hp, hdelivered, -⟩ := h.ofPending e (List.mem_of_mem_filter he)
    exact ⟨p, hp, hdelivered⟩
  · intro e he
    obtain ⟨p, hp, hdelivered, hsurface⟩ := h.ofPending e (List.mem_of_mem_filter he)
    have hne : e.1 ≠ impl := by simpa using List.of_mem_filter he
    exact ⟨p, hp, hdelivered, Store.take_eq_some_iff.mpr ⟨hne, hsurface⟩⟩
  · intro c p hp hdelivered
    exact (hperm.map Prod.snd).mem_iff.mpr (h.waiting c p hp hdelivered)

end Placed

/-! ## Stages -/

structure Recorded (doomed pending : List (Address × Address)) (s : State) : Prop where
  ofDoomed : ∀ e ∈ doomed, ∀ p, s.proxies e.2 = some p → life s.trace p.id p.surface = some .doomed
  ofPending : ∀ e ∈ pending, ∀ p, s.proxies e.2 = some p → life s.trace p.id p.surface = some .pending
  ofExecuting : ∀ a ∈ s.executing, ∀ p, s.proxies a.callback = some p →
    ∃ orphan, life s.trace p.id p.surface = some (.running orphan)
  settled : ∀ id x, .created id x ∈ s.trace → (∃ c p, s.proxies c = some p ∧ p.id = id ∧ p.surface = x) ∨
    (∀ c p, s.proxies c = some p → p.id ≠ id) ∧ ∃ l, life s.trace id x = some l ∧ l.ended = true
  fresh : ∀ id x, s.callbacksCreated ≤ id → .surfaceDestroyed x ∉ s.trace → life s.trace id x = some .unborn
  numbered : ∀ id x, .created id x ∈ s.trace → id < s.callbacksCreated
  surfaceAlive : ∀ i x, s.surfaces i = some x → .surfaceDestroyed x ∉ s.trace
  surfaceNumbered : ∀ x, .surfaceDestroyed x ∈ s.trace → x < s.surfacesCreated
  faultless : ∀ f, .fault f ∉ s.trace

namespace Recorded
variable {doomed pending : List (Address × Address)} {s : State}

theorem createSurface {impl : Address} (h : Recorded doomed pending s) :
    Recorded doomed pending { s with
      surfaces := Function.update s.surfaces impl (some s.surfacesCreated)
      surfacesCreated := s.surfacesCreated + 1 } where
  __ := h
  surfaceAlive i x hx hmem := by
    rcases Store.put_eq_some_iff.mp hx with ⟨-, rfl⟩ | ⟨-, hx⟩
    · exact Nat.lt_irrefl _ (h.surfaceNumbered _ hmem)
    · exact h.surfaceAlive i x hx hmem
  surfaceNumbered x hx := Nat.lt_succ_of_lt (h.surfaceNumbered x hx)

theorem addFrameCallback {impl function callback : Address} {surface : Nat} {pending' : List (Address × Address)}
    (hplaced : Placed doomed pending s) (h : Recorded doomed pending s) (himpl : s.surfaces impl = some surface)
    (hcallback : s.proxies callback = none) :
    Recorded doomed (pending ++ [(impl, callback)]) { s with
      functions := Function.update s.functions function (some s.callbacksCreated)
      proxies := Function.update s.proxies callback (some ⟨s.callbacksCreated, surface, function, false⟩)
      callbacksCreated := s.callbacksCreated + 1
      trace := s.trace ++ [.created s.callbacksCreated surface]
      pendingCallbacks := pending' } := by
  have hother {id x : Nat} (hid : id ≠ s.callbacksCreated) :
      life (s.trace ++ [.created s.callbacksCreated surface]) id x = life s.trace id x := by
    apply life_append_other
    simp [observe, Ne.symm hid]
  have hnew : life (s.trace ++ [.created s.callbacksCreated surface]) s.callbacksCreated surface = some .pending :=
    life_concat (k := .created) (h.fresh _ _ (Nat.le_refl _) (h.surfaceAlive impl surface himpl)) rfl
  -- an owner from before finds its callback where it was
  have hold {c : Address} (hc : ∃ p, s.proxies c = some p) {p : Proxy}
      (hp : Function.update s.proxies callback (some ⟨s.callbacksCreated, surface, function, false⟩) c = some p) :
      s.proxies c = some p ∧ life (s.trace ++ [.created s.callbacksCreated surface]) p.id p.surface =
        life s.trace p.id p.surface := by
    obtain ⟨q, hq⟩ := hc
    obtain ⟨-, hp⟩ := (Store.put_eq_some_iff.mp hp).resolve_left fun hnew => Store.ne_of_free hcallback hq hnew.1
    exact ⟨hp, hother (Nat.ne_of_lt (hplaced.numbered c p hp))⟩
  have hsurface {x : Nat} : .surfaceDestroyed x ∈ s.trace ++ [.created s.callbacksCreated surface] ↔
      .surfaceDestroyed x ∈ s.trace := by simp
  refine
    { ofDoomed := ?_, ofPending := ?_, ofExecuting := ?_, settled := ?_, fresh := ?_, numbered := ?_,
      surfaceAlive := fun i x hx hmem => h.surfaceAlive i x hx (hsurface.mp hmem),
      surfaceNumbered := fun x hmem => h.surfaceNumbered x (hsurface.mp hmem),
      faultless := fun f hmem => h.faultless f (by simpa using hmem) }
  · intro e he p hp
    obtain ⟨q, hq, -⟩ := hplaced.ofDoomed e he
    obtain ⟨hp, hlife⟩ := hold ⟨q, hq⟩ hp
    exact hlife.trans (h.ofDoomed e he p hp)
  · intro e he p hp
    rcases List.mem_append.mp he with he | he
    · obtain ⟨q, hq, -⟩ := hplaced.ofPending e he
      obtain ⟨hp, hlife⟩ := hold ⟨q, hq⟩ hp
      exact hlife.trans (h.ofPending e he p hp)
    · obtain rfl := List.mem_singleton.mp he
      change Function.update s.proxies callback _ callback = some p at hp
      rw [Function.update_self] at hp
      obtain rfl := Option.some.inj hp
      exact hnew
  · intro a ha p hp
    obtain ⟨q, hq, -⟩ := hplaced.ofExecuting a ha
    obtain ⟨hp, hlife⟩ := hold ⟨q, hq⟩ hp
    obtain ⟨orphan, hrunning⟩ := h.ofExecuting a ha p hp
    exact ⟨orphan, hlife.trans hrunning⟩
  · intro id x hmem
    rcases List.mem_append.mp hmem with hmem | hmem
    · have hid := h.numbered id x hmem
      rcases h.settled id x hmem with ⟨c, p, hp, hsubject⟩ | ⟨hdead, l, hl, hended⟩
      · exact Or.inl ⟨c, p, Store.put_of_free hcallback hp, hsubject⟩
      · refine Or.inr ⟨fun c p hp => ?_, l, (hother (Nat.ne_of_lt hid)).trans hl, hended⟩
        rcases Store.put_eq_some_iff.mp hp with ⟨-, rfl⟩ | ⟨-, hp⟩
        · exact (Nat.ne_of_lt hid).symm
        · exact hdead c p hp
    · obtain ⟨rfl, rfl⟩ : id = s.callbacksCreated ∧ x = surface := by simpa using hmem
      exact Or.inl ⟨callback, _, Function.update_self .., rfl, rfl⟩
  · intro id x hid hmem
    have hlt : s.callbacksCreated < id := hid
    exact (hother (Nat.ne_of_gt hlt)).trans (h.fresh id x (Nat.le_of_lt hlt) fun hd => hmem (hsurface.mpr hd))
  · intro id x hmem
    rcases List.mem_append.mp hmem with hmem | hmem
    · exact Nat.lt_succ_of_lt (h.numbered id x hmem)
    · obtain ⟨rfl, -⟩ : id = s.callbacksCreated ∧ x = surface := by simpa using hmem
      exact Nat.lt_succ_self _

/-- Events that concern the callback at `c` alone: its owner changes or goes, and the others stay. -/
theorem touch {c : Address} {p : Proxy} {events : List Event} {t : State}
    {doomed' pending' : List (Address × Address)} (hplaced : Placed doomed pending s) (h : Recorded doomed pending s)
    (hp : s.proxies c = some p) (hevents : ∀ e ∈ events, e.Concerns p.id) (htrace : t.trace = s.trace ++ events)
    (hproxies : ∀ d, d ≠ c → t.proxies d = s.proxies d) (hsurfaces : t.surfaces = s.surfaces)
    (hcallbacks : t.callbacksCreated = s.callbacksCreated) (hcount : t.surfacesCreated = s.surfacesCreated)
    (hdoomed : ∀ e ∈ doomed', e ∈ doomed ∧ e.2 ≠ c) (hpending : ∀ e ∈ pending', e ∈ pending ∧ e.2 ≠ c)
    (hexecuting : ∀ a ∈ t.executing, a ∈ s.executing ∧ a.callback ≠ c ∨
      a.callback = c ∧ ∃ orphan, life t.trace p.id p.surface = some (.running orphan))
    (hself : (∃ q, t.proxies c = some q ∧ q.id = p.id ∧ q.surface = p.surface) ∨
      t.proxies c = none ∧ ∃ l, life t.trace p.id p.surface = some l ∧ l.ended = true) :
    Recorded doomed' pending' t := by
  have hother {id x : Nat} (hid : id ≠ p.id) : life t.trace id x = life s.trace id x := by
    rw [htrace]
    exact life_append_other fun e he => observe_of_concerns (hevents e he) hid
  have hmem {e : Event} (he : ∀ id, ¬ e.Concerns id) : e ∈ t.trace ↔ e ∈ s.trace := by
    rw [htrace, List.mem_append, or_iff_left fun hmem => he p.id (hevents e hmem)]
  have hkept {d : Address} {q : Proxy} (hd : d ≠ c) (hq : t.proxies d = some q) :
      s.proxies d = some q ∧ life t.trace q.id q.surface = life s.trace q.id q.surface := by
    rw [hproxies d hd] at hq
    exact ⟨hq, hother fun heq => hd (hplaced.distinct d c q p hq hp heq)⟩
  have hsurface {x : Nat} : .surfaceDestroyed x ∈ t.trace ↔ .surfaceDestroyed x ∈ s.trace := hmem fun _ he => he
  have hborn {id x : Nat} : .created id x ∈ t.trace ↔ .created id x ∈ s.trace := hmem fun _ he => he
  have hfault {f : Fault} : .fault f ∈ t.trace ↔ .fault f ∈ s.trace := hmem fun _ he => he
  refine
    { ofDoomed := ?_, ofPending := ?_, ofExecuting := ?_, settled := ?_, fresh := ?_, numbered := ?_,
      surfaceAlive := ?_, surfaceNumbered := ?_,
      faultless := fun f hf => h.faultless f (hfault.mp hf) }
  · intro e he q hq
    obtain ⟨hold, hd⟩ := hdoomed e he
    obtain ⟨hq, hlife⟩ := hkept hd hq
    exact hlife.trans (h.ofDoomed e hold q hq)
  · intro e he q hq
    obtain ⟨hold, hd⟩ := hpending e he
    obtain ⟨hq, hlife⟩ := hkept hd hq
    exact hlife.trans (h.ofPending e hold q hq)
  · intro a ha q hq
    rcases hexecuting a ha with ⟨hold, hd⟩ | ⟨hc, hrunning⟩
    · obtain ⟨hq, hlife⟩ := hkept hd hq
      obtain ⟨orphan, hrunning⟩ := h.ofExecuting a hold q hq
      exact ⟨orphan, hlife.trans hrunning⟩
    · rw [hc] at hq
      rcases hself with ⟨r, hr, hid, hx⟩ | ⟨hnone, -⟩
      · rw [hq] at hr
        obtain rfl := Option.some.inj hr
        rwa [hid, hx]
      · rw [hq] at hnone
        cases hnone
  · intro id x hcreated
    rcases h.settled id x (hborn.mp hcreated) with ⟨d, q, hq, rfl, rfl⟩ | ⟨hdead, l, hl, hended⟩
    · by_cases hd : d = c
      · subst hd
        rw [hp] at hq
        obtain rfl := Option.some.inj hq
        rcases hself with ⟨r, hr⟩ | ⟨hnone, hended⟩
        · exact Or.inl ⟨d, r, hr⟩
        · refine Or.inr ⟨fun d' r hr heq => ?_, hended⟩
          have hd' : d' ≠ d := fun he => by rw [he, hnone] at hr; cases hr
          rw [hproxies d' hd'] at hr
          exact hd' (hplaced.distinct d' d r p hr hp heq)
      · exact Or.inl ⟨d, q, (hproxies d hd).trans hq, rfl, rfl⟩
    · have hid : id ≠ p.id := fun heq => hdead c p hp heq.symm
      refine Or.inr ⟨fun d r hr heq => ?_, l, (hother hid).trans hl, hended⟩
      by_cases hd : d = c
      · subst hd
        rcases hself with ⟨r', hr', hid', -⟩ | ⟨hnone, -⟩
        · rw [hr] at hr'
          obtain rfl := Option.some.inj hr'
          exact hid (heq.symm.trans hid')
        · rw [hr] at hnone
          cases hnone
      · exact hdead d r ((hproxies d hd).symm.trans hr) heq
  · intro id x hid hx
    rw [hcallbacks] at hid
    have hne : id ≠ p.id := Nat.ne_of_gt (Nat.lt_of_lt_of_le (hplaced.numbered c p hp) hid)
    exact (hother hne).trans (h.fresh id x hid fun hd => hx (hsurface.mpr hd))
  · intro id x hcreated
    rw [hcallbacks]
    exact h.numbered id x (hborn.mp hcreated)
  · intro i x hx hd
    rw [hsurfaces] at hx
    exact h.surfaceAlive i x hx (hsurface.mp hd)
  · intro x hd
    rw [hcount]
    exact h.surfaceNumbered x (hsurface.mp hd)

theorem doom {impl : Address} {surface : Nat} (hplaced : Placed [] pending s) (h : Recorded [] pending s)
    (himpl : s.surfaces impl = some surface) :
    Recorded (pending.filter fun e => e.1 = impl) (pending.filter fun e => !decide (e.1 = impl)) { s with
      surfaces := Function.update s.surfaces impl none
      trace := s.trace ++ [.surfaceDestroyed surface] } := by
  have hother {id x : Nat} (hx : x ≠ surface) :
      life (s.trace ++ [.surfaceDestroyed surface]) id x = life s.trace id x := by
    apply life_append_other
    simp [observe, Ne.symm hx]
  -- the surface goes only once
  have halive {id : Nat} {l : Life} (hl : life s.trace id surface = some l) : .surfaceDestroyed ∉ l.past := fun hmem =>
    h.surfaceAlive impl surface himpl ((mem_trace hl .surfaceDestroyed).mpr hmem)
  refine
    { ofDoomed := ?_, ofPending := ?_, ofExecuting := ?_, settled := ?_, fresh := ?_, numbered := ?_,
      surfaceAlive := ?_, surfaceNumbered := ?_, faultless := fun f hf => h.faultless f (by simpa using hf) }
  · intro e he p hp
    have hmem := List.mem_of_mem_filter he
    obtain ⟨q, hq, -, hsurface⟩ := hplaced.ofPending e hmem
    obtain rfl := Option.some.inj (hp.symm.trans hq)
    have hself : e.1 = impl := by simpa using List.of_mem_filter he
    obtain rfl : surface = p.surface := Option.some.inj (himpl.symm.trans (hself ▸ hsurface))
    exact life_concat (k := .surfaceDestroyed) (h.ofPending e hmem p hp) rfl
  · intro e he p hp
    have hmem := List.mem_of_mem_filter he
    obtain ⟨q, hq, -, hsurface⟩ := hplaced.ofPending e hmem
    obtain rfl := Option.some.inj (hp.symm.trans hq)
    have hself : e.1 ≠ impl := by simpa using List.of_mem_filter he
    have hne : p.surface ≠ surface := fun heq => hself (hplaced.surfaceDistinct e.1 impl _ (heq ▸ hsurface) himpl)
    exact (hother hne).trans (h.ofPending e hmem p hp)
  · intro a ha p hp
    obtain ⟨orphan, hrunning⟩ := h.ofExecuting a ha p hp
    by_cases hx : p.surface = surface
    · subst hx
      cases orphan with
      | false => exact ⟨true, life_concat (k := .surfaceDestroyed) hrunning rfl⟩
      | true => exact absurd (by decide) (halive hrunning)
    · exact ⟨orphan, (hother hx).trans hrunning⟩
  · intro id x hcreated
    have hold : .created id x ∈ s.trace := by simpa using hcreated
    rcases h.settled id x hold with hlive | ⟨hdead, l, hl, hended⟩
    · exact Or.inl hlive
    · refine Or.inr ⟨hdead, ?_⟩
      by_cases hx : x = surface
      · subst hx
        cases l with
        | finished orphan =>
            cases orphan with
            | false => exact ⟨.finished true, life_concat (k := .surfaceDestroyed) hl rfl, rfl⟩
            | true => exact absurd (by decide) (halive hl)
        | dropped => exact absurd (by decide) (halive hl)
        | _ => cases hended
      · exact ⟨l, (hother hx).trans hl, hended⟩
  · intro id x hid hx
    rw [List.mem_append, not_or, List.mem_singleton, Event.surfaceDestroyed.injEq] at hx
    exact (hother hx.2).trans (h.fresh id x hid hx.1)
  · intro id x hcreated
    exact h.numbered id x (by simpa using hcreated)
  · intro i x hx hmem
    obtain ⟨hi, hbefore⟩ := Store.take_eq_some_iff.mp hx
    rcases List.mem_append.mp hmem with hmem | hmem
    · exact h.surfaceAlive i x hbefore hmem
    · obtain rfl : x = surface := by simpa using hmem
      exact hi (hplaced.surfaceDistinct i impl x hbefore himpl)
  · intro x hmem
    rcases List.mem_append.mp hmem with hmem | hmem
    · exact h.surfaceNumbered x hmem
    · obtain rfl : x = surface := by simpa using hmem
      exact hplaced.surfaceNumbered impl x himpl

end Recorded

/-! ## Runs -/

/-- Every live callback has its owner, and its life is at the stage that the owner stands for. -/
structure Owned (doomed pending : List (Address × Address)) (s : State) : Prop where
  placed : Placed doomed pending s
  recorded : Recorded doomed pending s

namespace Owned
variable {doomed pending : List (Address × Address)} {s t : State}

theorem init : Owned [] [] {} where
  placed :=
    { nodup := List.nodup_nil, activations := List.nodup_nil, ofDoomed := fun e he => (by cases he),
      ofPending := fun e he => (by cases he), ofExecuting := fun a ha => (by cases ha),
      waiting := fun c p hp => (by cases hp), running := fun c p hp => (by cases hp),
      function := fun c p hp => (by cases hp), numbered := fun c p hp => (by cases hp),
      distinct := fun c d p q hp => (by cases hp), surfaceNumbered := fun i x hx => (by cases hx),
      surfaceDistinct := fun i j x hx => (by cases hx) }
  recorded :=
    { ofDoomed := fun e he => (by cases he), ofPending := fun e he => (by cases he),
      ofExecuting := fun a ha => (by cases ha), settled := fun id x hmem => (by cases hmem),
      fresh := fun id x _ _ => life_nil, numbered := fun id x hmem => (by cases hmem),
      surfaceAlive := fun i x hx => (by cases hx), surfaceNumbered := fun x hmem => (by cases hmem),
      faultless := fun f hmem => (by cases hmem) }

theorem withPending (h : Owned doomed pending s) (entries : List (Address × Address)) :
    Owned doomed pending { s with pendingCallbacks := entries } where
  placed := { __ := h.placed }
  recorded := { __ := h.recorded }

theorem createSurface {impl : Address} (h : Owned [] s.pendingCallbacks s) (ht : s.createSurface impl = some t) :
    Owned [] t.pendingCallbacks t := by
  simp only [State.createSurface] at ht
  split at ht
  · cases ht
  · next himpl =>
      obtain rfl := Option.some.inj ht
      exact ⟨h.placed.createSurface himpl, h.recorded.createSurface⟩

theorem addFrameCallback {impl function callback : Address} (h : Owned [] s.pendingCallbacks s)
    (ht : s.addFrameCallback impl function callback = some t) : Owned [] t.pendingCallbacks t := by
  simp only [State.addFrameCallback] at ht
  split at ht
  · cases ht
  · next surface himpl =>
      split at ht
      · next hfree =>
          obtain rfl := Option.some.inj ht
          exact ⟨h.placed.addFrameCallback himpl hfree.1 hfree.2,
            Recorded.addFrameCallback h.placed h.recorded himpl hfree.2⟩
      · cases ht

theorem release_eq {e : Address × Address} {p : Proxy} (hp : s.proxies e.2 = some p)
    (hfunction : s.functions p.userData = some p.id) :
    s.release e = { s with
      proxies := Function.update s.proxies e.2 none
      functions := Function.update s.functions p.userData none
      trace := s.trace ++ [.freed p.id, .destroyed p.id] } := by
  simp [State.release, State.deleteFunction, State.wlCallbackDestroy, State.emit, hp, hfunction]

theorem release {e : Address × Address} (h : Owned (e :: doomed) pending s) : Owned doomed pending (s.release e) := by
  obtain ⟨p, hp, -⟩ := h.placed.ofDoomed e List.mem_cons_self
  have hfunction := h.placed.function e.2 p hp
  have hnodup := h.placed.nodup
  rw [List.cons_append, List.map_cons, List.nodup_cons] at hnodup
  have hne {d : Address × Address} (hd : d ∈ doomed ++ pending) : d.2 ≠ e.2 := fun heq =>
    hnodup.1 (heq ▸ List.mem_map_of_mem hd)
  have hidle {a : Activation} (ha : a ∈ s.executing) : a.callback ≠ e.2 := h.placed.callback_ne ha List.mem_cons_self
  rw [release_eq hp hfunction]
  constructor
  · refine h.placed.forget hp (List.sublist_cons_self _ _) (List.Sublist.refl _) hnodup.1 ?_ ?_ fun d hd _ => hd
    · intro hmem
      obtain ⟨a, ha, heq⟩ := List.mem_map.mp hmem
      exact hidle ha heq
    · intro d hd hdne
      rw [List.cons_append, List.map_cons] at hd
      exact (List.mem_cons.mp hd).resolve_left hdne
  · have hended := life_append_two (k := .freed) (j := .destroyed) (h.recorded.ofDoomed e List.mem_cons_self p hp) rfl rfl
    refine Recorded.touch h.placed h.recorded hp ?_ rfl (fun d hd => Function.update_of_ne hd _ _) rfl rfl rfl ?_ ?_ ?_
      (Or.inr ⟨Function.update_self .., .dropped, hended, rfl⟩)
    · simp [Event.Concerns]
    · exact fun d hd => ⟨List.mem_cons_of_mem _ hd, hne (List.mem_append_left _ hd)⟩
    · exact fun d hd => ⟨hd, hne (List.mem_append_right _ hd)⟩
    · exact fun a ha => Or.inl ⟨ha, hidle ha⟩

theorem releaseAll (h : Owned doomed pending s) : Owned [] pending (doomed.foldl State.release s) := by
  induction doomed generalizing s with
  | nil => exact h
  | cons e doomed ih => exact ih h.release

theorem destroySurface_eq {impl : Address} (ht : s.destroySurface impl = some t) :
    ∃ surface, s.surfaces impl = some surface ∧ t = { (s.pendingCallbacks.filter fun e => e.1 = impl).foldl State.release
        { s with
          surfaces := Function.update s.surfaces impl none
          trace := s.trace ++ [.surfaceDestroyed surface] } with
      pendingCallbacks := s.pendingCallbacks.filter fun e => !decide (e.1 = impl) } := by
  simp only [State.destroySurface] at ht
  split at ht
  · cases ht
  · next surface himpl =>
      rw [Sweep.sweep_eq] at ht
      exact ⟨surface, himpl, (Option.some.inj ht).symm⟩

theorem destroySurface {impl : Address} (h : Owned [] s.pendingCallbacks s) (ht : s.destroySurface impl = some t) :
    Owned [] t.pendingCallbacks t := by
  obtain ⟨surface, himpl, rfl⟩ := destroySurface_eq ht
  have hdoom : Owned (s.pendingCallbacks.filter fun e => e.1 = impl)
      (s.pendingCallbacks.filter fun e => !decide (e.1 = impl))
      { s with
        surfaces := Function.update s.surfaces impl none
        trace := s.trace ++ [.surfaceDestroyed surface] } :=
    ⟨h.placed.doom, Recorded.doom h.placed h.recorded himpl⟩
  exact hdoom.releaseAll.withPending _

/-- The callback that is delivered is found in the list, and its function is alive. -/
theorem done_eq {callback : Address} (h : Placed [] s.pendingCallbacks s) (ht : s.done callback = some t) :
    ∃ p impl pre post, s.proxies callback = some p ∧ s.pendingCallbacks = pre ++ (impl, callback) :: post ∧ t = { s with
        proxies := Function.update s.proxies callback (some { p with delivered := true })
        executing := ⟨callback, p.userData⟩ :: s.executing
        trace := s.trace ++ [.delivered p.id, .invoked p.id]
        pendingCallbacks := pre ++ post } := by
  simp only [State.done] at ht
  split at ht
  · cases ht
  · next p hp =>
      split at ht
      · cases ht
      · next hdelivered =>
          have hdelivered : p.delivered = false := by simpa using hdelivered
          have hfunction := h.function callback p hp
          obtain ⟨e, he, heq⟩ := List.mem_map.mp (h.waiting callback p hp hdelivered)
          cases hfind : s.pendingCallbacks.findIdx? (fun elem => elem.2 = callback) with
          | none =>
              rw [List.findIdx?_eq_none_iff] at hfind
              have hnot := hfind e he
              rw [heq] at hnot
              simp at hnot
          | some us =>
              obtain ⟨hlt, hus, -⟩ := List.findIdx?_eq_some_iff_getElem.mp hfind
              have hsplit : s.pendingCallbacks =
                  s.pendingCallbacks.take us ++ s.pendingCallbacks[us] :: s.pendingCallbacks.drop (us + 1) := by
                rw [List.getElem_cons_drop, List.take_append_drop]
              have hcallback : s.pendingCallbacks[us] = (s.pendingCallbacks[us].1, callback) :=
                Prod.ext rfl (by simpa using hus)
              rw [hcallback] at hsplit
              refine ⟨p, _, _, _, hp, hsplit, ?_⟩
              rw [← Option.some.inj ht]
              simp [State.frameCallback, State.emit, hfind, hfunction, List.eraseIdx_eq_take_drop_succ]

theorem done {callback : Address} (h : Owned [] s.pendingCallbacks s) (ht : s.done callback = some t) :
    Owned [] t.pendingCallbacks t := by
  obtain ⟨p, impl, pre, post, hp, hsplit, rfl⟩ := done_eq h.placed ht
  have hplaced := h.placed
  have hrecorded := h.recorded
  rw [hsplit] at hplaced hrecorded
  have hpending := hrecorded.ofPending (impl, callback) (by simp) p hp
  have hrunning := life_append_two (k := .delivered) (j := .invoked) hpending rfl rfl
  have hdone := Placed.done (s.trace ++ [.delivered p.id, .invoked p.id]) hplaced hp
  refine ⟨hdone, ?_⟩
  -- the new call is for none of the entries that stay
  have hne {e : Address × Address} (he : e ∈ pre ++ post) : e.2 ≠ callback :=
    (hdone.callback_ne List.mem_cons_self he).symm
  have hactivations := List.nodup_cons.mp hdone.activations
  refine Recorded.touch hplaced hrecorded hp ?_ rfl (fun d hd => Function.update_of_ne hd _ _) rfl rfl rfl
    (fun e he => (by cases he)) ?_ ?_ (Or.inl ⟨_, Function.update_self .., rfl, rfl⟩)
  · simp [Event.Concerns]
  · exact fun e he => ⟨((List.sublist_cons_self _ post).append_left pre).subset he, hne he⟩
  · intro a ha
    rcases List.mem_cons.mp ha with rfl | ha
    · exact Or.inr ⟨rfl, false, hrunning⟩
    · exact Or.inl ⟨ha, fun heq => hactivations.1 (List.mem_map.mpr ⟨a, ha, heq⟩)⟩

theorem functionReturned_eq {a : Activation} {executing : List Activation} {p : Proxy}
    (hexecuting : s.executing = a :: executing) (hp : s.proxies a.callback = some p)
    (hfunction : s.functions a.ctx = some p.id) :
    s.functionReturned = some { s with
      proxies := Function.update s.proxies a.callback none
      functions := Function.update s.functions a.ctx none
      executing := executing
      trace := s.trace ++ [.destroyed p.id, .freed p.id] } := by
  simp [State.functionReturned, State.deleteFunction, State.wlCallbackDestroy, State.emit, hexecuting, hp, hfunction]

theorem functionReturned (h : Owned [] s.pendingCallbacks s) (ht : s.functionReturned = some t) :
    Owned [] t.pendingCallbacks t := by
  cases hexecuting : s.executing with
  | nil =>
      simp only [State.functionReturned, hexecuting] at ht
      cases ht
  | cons a executing =>
      have ha : a ∈ s.executing := by rw [hexecuting]; exact List.mem_cons_self
      obtain ⟨p, hp, -, huser⟩ := h.placed.ofExecuting a ha
      have hfunction := h.placed.function a.callback p hp
      obtain ⟨orphan, hrunning⟩ := h.recorded.ofExecuting a ha p hp
      rw [functionReturned_eq hexecuting hp (huser ▸ hfunction)] at ht
      obtain rfl := Option.some.inj ht
      have hactivations := h.placed.activations
      rw [hexecuting, List.map_cons, List.nodup_cons] at hactivations
      have hne {e : Address × Address} (he : e ∈ s.pendingCallbacks) : e.2 ≠ a.callback :=
        (h.placed.callback_ne ha he).symm
      constructor
      · rw [← huser]
        refine h.placed.forget hp (List.Sublist.refl _) ?_ ?_ hactivations.1 (fun d hd _ => hd) ?_
        · rw [hexecuting]
          exact List.sublist_cons_self _ _
        · intro hmem
          obtain ⟨e, he, heq⟩ := List.mem_map.mp hmem
          exact hne he heq
        · intro d hd hdne
          rw [hexecuting, List.map_cons] at hd
          exact (List.mem_cons.mp hd).resolve_left hdne
      · have hnext : (Life.running orphan).next .destroyed = some (.closing orphan) := by cases orphan <;> rfl
        have hended := life_append_two (k := .destroyed) (j := .freed) hrunning hnext rfl
        refine Recorded.touch h.placed h.recorded hp ?_ rfl (fun d hd => Function.update_of_ne hd _ _) rfl rfl rfl
          (fun e he => (by cases he)) (fun e he => ⟨he, hne he⟩) ?_
          (Or.inr ⟨Function.update_self .., .finished orphan, hended, rfl⟩)
        · simp [Event.Concerns]
        · intro b hb
          refine Or.inl ⟨?_, fun heq => hactivations.1 (List.mem_map.mpr ⟨b, hb, heq⟩)⟩
          rw [hexecuting]
          exact List.mem_cons_of_mem _ hb

theorem step {a : Action} (h : Owned [] s.pendingCallbacks s) (ht : frames.step s a = some t) :
    Owned [] t.pendingCallbacks t := by
  cases a with
  | createSurface impl => exact h.createSurface ht
  | addFrameCallback impl function callback => exact h.addFrameCallback ht
  | done callback => exact h.done ht
  | functionReturned => exact h.functionReturned ht
  | destroySurface impl => exact h.destroySurface ht

end Owned

theorem run_owned {actions : List Action} {s : State} (h : frames.exec {} actions = some s) :
    Owned [] s.pendingCallbacks s :=
  frames.exec_induction (P := fun _ s => Owned [] s.pendingCallbacks s) Owned.init
    (fun _ _ _ _ _ hu ht => hu.step ht) actions s h

/-- The function of callback `id` has been called and has not returned. -/
def State.Running (s : State) (id : Nat) : Prop :=
  ∃ a ∈ s.executing, ∃ p, s.proxies a.callback = some p ∧ p.id = id

/-- Between the actions of a run, a callback that was created is at a lasting stage, which says whether it is running. -/
theorem Owned.stage {s : State} {id surface : Nat} (h : Owned [] s.pendingCallbacks s)
    (hcreated : .created id surface ∈ s.trace) :
    ∃ l, life s.trace id surface = some l ∧ l.lasting = true ∧ (s.Running id ↔ ∃ orphan, l = .running orphan) := by
  rcases h.recorded.settled id surface hcreated with ⟨c, p, hp, rfl, rfl⟩ | ⟨hdead, l, hl, hended⟩
  · cases hdelivered : p.delivered with
    | false =>
        obtain ⟨e, he, rfl⟩ := List.mem_map.mp (h.placed.waiting c p hp hdelivered)
        refine ⟨.pending, h.recorded.ofPending e he p hp, rfl, iff_of_false ?_ fun ⟨orphan, heq⟩ => by cases heq⟩
        rintro ⟨a, ha, q, hq, hid⟩
        exact h.placed.callback_ne ha he (h.placed.distinct _ _ q p hq hp hid)
    | true =>
        obtain ⟨a, ha, rfl⟩ := List.mem_map.mp (h.placed.running c p hp hdelivered)
        obtain ⟨orphan, hrunning⟩ := h.recorded.ofExecuting a ha p hp
        exact ⟨.running orphan, hrunning, rfl, iff_of_true ⟨a, ha, p, hp, rfl⟩ ⟨orphan, rfl⟩⟩
  · refine ⟨l, hl, ?_, iff_of_false ?_ ?_⟩
    · cases l with
      | dropped | finished orphan => rfl
      | _ => cases hended
    · rintro ⟨a, -, p, hp, hid⟩
      exact hdead a.callback p hp hid
    · rintro ⟨orphan, rfl⟩
      cases hended

/-- **Ownership**: in every run, the callback that is delivered is found in the list and nothing is used after it is
gone; a callback is destroyed once, together with its function, when it has been delivered or its surface has gone,
except that a call in progress is waited for; its function is called at most once and not after its surface has started
to go; and the other entries of the list stay, in order. -/
theorem frame_callback_ownership (actions : List Action) (s : State) (h : frames.exec {} actions = some s) :
    (∀ f, .fault f ∉ s.trace) ∧
    (∀ id surface, .created id surface ∈ s.trace →
      s.trace.count (.destroyed id) ≤ 1 ∧
      (s.trace.count (.destroyed id) = 1 ↔
        (.delivered id ∈ s.trace ∨ .surfaceDestroyed surface ∈ s.trace) ∧ ¬ s.Running id) ∧
      s.trace.count (.freed id) = s.trace.count (.destroyed id) ∧
      s.trace.count (.invoked id) ≤ 1 ∧
      ∀ pre post, s.trace = pre ++ .invoked id :: post → .surfaceDestroyed surface ∉ pre) ∧
    (∀ callback t, frames.step s (.done callback) = some t → ∃ pre impl post,
      s.pendingCallbacks = pre ++ (impl, callback) :: post ∧ t.pendingCallbacks = pre ++ post) ∧
    (∀ impl t, frames.step s (.destroySurface impl) = some t →
      t.pendingCallbacks = s.pendingCallbacks.filter fun e => e.1 ≠ impl) := by
  have howned := run_owned h
  refine ⟨howned.recorded.faultless, ?_, ?_, ?_⟩
  · intro id surface hcreated
    obtain ⟨l, hl, hlasting, hrunning⟩ := howned.stage hcreated
    obtain ⟨hdestroyed, hfreed, hinvoked, honce⟩ := Life.released_once hlasting
    have hcount (k : Kind) := count_trace hl k
    have hmem (k : Kind) := mem_trace hl k
    simp only [← hcount, ← hmem] at hdestroyed hfreed hinvoked honce
    refine ⟨hdestroyed, ?_, hfreed, hinvoked, fun pre post heq => ?_⟩
    · rw [hrunning, not_exists]
      exact honce
    · rw [heq] at hl
      exact alive_of_invoked hl
  · intro callback t ht
    obtain ⟨p, impl, pre, post, -, hsplit, rfl⟩ := Owned.done_eq howned.placed ht
    exact ⟨pre, impl, post, hsplit, rfl⟩
  · intro impl t ht
    obtain ⟨surface, -, rfl⟩ := Owned.destroySurface_eq ht
    simp

/-- A callback that destroys its own surface, and another that is added where one of that surface was. -/
def reentrant : List Action :=
  [.createSurface 1, .createSurface 2, .addFrameCallback 1 10 20, .addFrameCallback 1 11 21, .addFrameCallback 2 12 22,
    .done 20, .destroySurface 1, .createSurface 1, .addFrameCallback 1 11 21, .functionReturned, .done 22,
    .functionReturned]

theorem frame_callback_ownership_reentrant :
    ∃ s, frames.exec {} reentrant = some s ∧ s.pendingCallbacks = [(1, 21)] ∧
      s.trace = [.created 0 0, .created 1 0, .created 2 1, .delivered 0, .invoked 0, .surfaceDestroyed 0, .freed 1,
        .destroyed 1, .created 3 2, .destroyed 0, .freed 0, .delivered 2, .invoked 2, .destroyed 2, .freed 2] ∧
      ∀ f, .fault f ∉ s.trace :=
  ⟨_, rfl, rfl, rfl, (frame_callback_ownership reentrant _ rfl).1⟩

end Wlcs.Frames
