import Mathlib.Data.List.Nodup
import Wlcs.Lib.History
import Wlcs.Lib.Machine

/-!
# `WlHandle`

A `WlHandle` owns a proxy and destroys it with itself. Moving makes a second handle for the same proxy and takes the
ownership from the first; both keep the raw pointer.

* `WlHandle.new`, `WlHandle.move`, `WlHandle.destroyed`, `WlHandle.get` : the members of the class;
* `program` : constructions, moves and destructions over any number of handles;
* `Accounted` : a proxy has an owner or has been destroyed, as long as no handle is moved from twice;
* `unique_ownership_iff` : when the handles own their proxies uniquely.
-/

namespace Wlcs.Handle
open EventMachine History

/-- The constructor throws at a null pointer, so that `proxy` is never null. -/
structure WlHandle (T : Type*) where
  proxy : T
  ownsWlObject : Bool
deriving DecidableEq, Repr

namespace WlHandle
variable {T : Type*}

/-- The constructor from a proxy; `none` is the null pointer. -/
def new : Option T → Except String (WlHandle T)
  | none => .error "Attempt to construct a WlHandle from null Wayland object"
  | some proxy => .ok ⟨proxy, true⟩

/-- The move constructor: it delegates to the constructor from a proxy. The new handle, and what becomes of `source`. -/
def move (source : WlHandle T) : WlHandle T × WlHandle T :=
  (⟨source.proxy, true⟩, { source with ownsWlObject := false })

/-- The proxies that the destructor of a handle destroys. -/
def destroyed (handle : WlHandle T) : List T := if handle.ownsWlObject then [handle.proxy] else []

/-- `operator T*` and `wl_proxy()`; `none` is `std::abort()`. -/
def get (handle : WlHandle T) : Option T := if handle.ownsWlObject then some handle.proxy else none

end WlHandle

/-! ## Programs -/

/-- Handles are numbered in the order in which they are made. -/
inductive HandleOp (T : Type*)
  | construct (proxy : Option T)
  | move (source : Nat)
  | destroy (handle : Nat)
deriving DecidableEq, Repr

structure Handles (T : Type*) where
  /-- `none` stands for a handle that has been destroyed -/
  handles : List (Option (WlHandle T)) := []
  /-- the calls of the destructor of the interface -/
  destroyed : List T := []
deriving DecidableEq, Repr

section Program
variable {T : Type*}

/-- The handle of a number, if it exists. -/
def Handles.lookup (s : Handles T) (h : Nat) : Option (WlHandle T) := s.handles[h]?.join

def Handles.step (s : Handles T) : HandleOp T → Option (Handles T)
  | .construct proxy =>
    match WlHandle.new proxy with
    -- the exception leaves no handle behind
    | .error _ => some s
    | .ok handle => some { s with handles := s.handles ++ [some handle] }
  | .move source =>
    (s.lookup source).map fun handle =>
      { s with handles := s.handles.set source (some handle.move.2) ++ [some handle.move.1] }
  | .destroy h =>
    (s.lookup h).map fun handle =>
      { handles := s.handles.set h none, destroyed := s.destroyed ++ handle.destroyed }

/-- A program of constructions, moves and destructions; each names a handle that exists. -/
def program (T : Type*) : Guarded (Handles T) (HandleOp T) where
  step := Handles.step

/-- The state that a program leads to, if every operation names an existing handle. -/
def runProgram (ops : List (HandleOp T)) : Option (Handles T) := (program T).exec {} ops

def HandleOp.constructed? : HandleOp T → Option T
  | .construct proxy => proxy
  | _ => none

def HandleOp.source? : HandleOp T → Option Nat
  | .move source => some source
  | _ => none

/-- The proxies that a program makes handles from. -/
def constructed (ops : List (HandleOp T)) : List T := ops.filterMap HandleOp.constructed?

/-- The handles that a program moves from, each as often as it does. -/
def movedFrom (ops : List (HandleOp T)) : List Nat := ops.filterMap HandleOp.source?

/-! ## One step -/

variable {s t : Handles T} {op : HandleOp T} {h : Nat} {x : WlHandle T}

/-- Everything that an operation can do. -/
theorem step_cases (hstep : s.step op = some t) :
    (op = .construct none ∧ t = s) ∨
    (∃ p, op = .construct (some p) ∧ t = { s with handles := s.handles ++ [some ⟨p, true⟩] }) ∨
    (∃ h x, op = .move h ∧ s.lookup h = some x ∧
      t = { s with handles := s.handles.set h (some ⟨x.proxy, false⟩) ++ [some ⟨x.proxy, true⟩] }) ∨
    (∃ h x, op = .destroy h ∧ s.lookup h = some x ∧
      t = { handles := s.handles.set h none, destroyed := s.destroyed ++ x.destroyed }) := by
  cases op with
  | construct proxy =>
      cases proxy with
      | none => exact Or.inl ⟨rfl, (Option.some.inj hstep).symm⟩
      | some p => exact Or.inr (Or.inl ⟨p, rfl, (Option.some.inj hstep).symm⟩)
  | move h =>
      obtain ⟨x, hx, ht⟩ := Option.map_eq_some_iff.mp hstep
      exact Or.inr (Or.inr (Or.inl ⟨h, x, rfl, hx, ht.symm⟩))
  | destroy h =>
      obtain ⟨x, hx, ht⟩ := Option.map_eq_some_iff.mp hstep
      exact Or.inr (Or.inr (Or.inr ⟨h, x, rfl, hx, ht.symm⟩))

theorem lookup_eq_some : s.lookup h = some x ↔ s.handles[h]? = some (some x) := Option.join_eq_some_iff

theorem lookup_lt (hx : s.lookup h = some x) : h < s.handles.length :=
  (List.getElem?_eq_some_iff.mp (lookup_eq_some.mp hx)).1

/-- What is found after a new handle has been added. -/
theorem lookup_concat {hs : List (Option (WlHandle T))} {ds : List T} {y z : WlHandle T} {k : Nat}
    (hz : Handles.lookup ⟨hs ++ [some y], ds⟩ k = some z) :
    k = hs.length ∧ y = z ∨ Handles.lookup ⟨hs, ds⟩ k = some z := by
  rw [lookup_eq_some] at hz
  rcases Nat.lt_trichotomy k hs.length with hlt | rfl | hgt
  · right
    rwa [lookup_eq_some, ← List.getElem?_append_left hlt]
  · left
    simpa using hz
  · rw [List.getElem?_eq_none (by rw [List.length_append, List.length_singleton]; omega)] at hz
    cases hz

/-- What is found after one place has been written. -/
theorem lookup_set {hs : List (Option (WlHandle T))} {ds ds' : List T} {y : Option (WlHandle T)} {z : WlHandle T}
    {k : Nat} (hz : Handles.lookup ⟨hs.set h y, ds⟩ k = some z) :
    k = h ∧ y = some z ∨ k ≠ h ∧ Handles.lookup ⟨hs, ds'⟩ k = some z := by
  rw [lookup_eq_some, List.getElem?_set] at hz
  by_cases hk : h = k
  · rw [if_pos hk] at hz
    split at hz
    · exact Or.inl ⟨hk.symm, Option.some.inj hz⟩
    · cases hz
  · rw [if_neg hk] at hz
    exact Or.inr ⟨Ne.symm hk, lookup_eq_some.mpr hz⟩

theorem constructed_concat (ops : List (HandleOp T)) (op : HandleOp T) :
    constructed (ops ++ [op]) = constructed ops ++ op.constructed?.toList := by
  unfold constructed
  rw [List.filterMap_append]
  cases h : op.constructed? <;> simp [h]

theorem movedFrom_concat (ops : List (HandleOp T)) (op : HandleOp T) :
    movedFrom (ops ++ [op]) = movedFrom ops ++ op.source?.toList := by
  unfold movedFrom
  rw [List.filterMap_append]
  cases h : op.source? <;> simp [h]

/-- Whether a handle owns its proxy is a matter of whether it has been moved from. -/
structure Marked (ops : List (HandleOp T)) (s : Handles T) : Prop where
  sources_lt : ∀ h ∈ movedFrom ops, h < s.handles.length
  owns_iff : ∀ h x, s.lookup h = some x → (x.ownsWlObject = true ↔ h ∉ movedFrom ops)

/-- A new handle has a number that nothing has been moved from. -/
theorem Marked.fresh {ops : List (HandleOp T)} (hm : Marked ops s) : s.handles.length ∉ movedFrom ops :=
  fun hmem => Nat.lt_irrefl _ (hm.sources_lt _ hmem)

theorem Marked.step {ops : List (HandleOp T)} (hm : Marked ops s) (hstep : s.step op = some t) :
    Marked (ops ++ [op]) t := by
  obtain ⟨rfl, rfl⟩ | ⟨p, rfl, rfl⟩ | ⟨h, x, rfl, hx, rfl⟩ | ⟨h, x, rfl, hx, rfl⟩ := step_cases hstep
  · have hsame : movedFrom (ops ++ [.construct none]) = movedFrom ops := by simp [movedFrom_concat, HandleOp.source?]
    exact ⟨hsame ▸ hm.sources_lt, hsame ▸ hm.owns_iff⟩
  · have hsame : movedFrom (ops ++ [.construct (some p)]) = movedFrom ops := by
      simp [movedFrom_concat, HandleOp.source?]
    refine ⟨fun k hk => ?_, fun k y hy => ?_⟩
    · rw [List.length_append]
      exact Nat.lt_add_right _ (hm.sources_lt k (hsame ▸ hk))
    · rw [hsame]
      rcases lookup_concat hy with ⟨rfl, rfl⟩ | hy
      · simpa using hm.fresh
      · exact hm.owns_iff k y hy
  · have hmoved : ∀ k, k ∈ movedFrom (ops ++ [.move h]) ↔ k ∈ movedFrom ops ∨ k = h := by
      simp [movedFrom_concat, HandleOp.source?]
    have hlt := lookup_lt hx
    refine ⟨fun k hk => ?_, fun k y hy => ?_⟩
    · rw [List.length_append, List.length_set]
      rcases (hmoved k).mp hk with hk | rfl
      · exact Nat.lt_add_right _ (hm.sources_lt k hk)
      · exact Nat.lt_add_right _ hlt
    · rw [hmoved]
      rcases lookup_concat hy with ⟨rfl, rfl⟩ | hy
      · -- the new handle: it owns, and is not the one that was moved from
        rw [List.length_set]
        simpa [Nat.ne_of_gt hlt] using hm.fresh
      · rcases lookup_set hy with ⟨rfl, heq⟩ | ⟨hne, hy⟩
        · simp [← Option.some.inj heq]
        · simpa [hne] using hm.owns_iff k y hy
  · have hsame : movedFrom (ops ++ [.destroy h]) = movedFrom ops := by simp [movedFrom_concat, HandleOp.source?]
    refine ⟨fun k hk => ?_, fun k y hy => ?_⟩
    · rw [List.length_set]
      exact hm.sources_lt k (hsame ▸ hk)
    · rw [hsame]
      rcases lookup_set hy with ⟨-, heq⟩ | ⟨-, hy⟩
      · cases heq
      · exact hm.owns_iff k y hy

theorem run_marked {ops : List (HandleOp T)} {t : Handles T} (hrun : runProgram ops = some t) : Marked ops t := by
  refine (program T).exec_induction (P := Marked) ?_ (fun ops u op t _ hu hstep => hu.step hstep) ops t hrun
  exact ⟨fun h hh => (by cases hh), fun h x hx => (by cases hx)⟩

/-- The move constructor always makes an owner. -/
theorem last_of_move {pre : List (HandleOp T)} {t : Handles T} (hrun : runProgram (pre ++ [.move h]) = some t) :
    ∃ p, t.handles.getLast? = some (some ⟨p, true⟩) := by
  obtain ⟨u, -, hstep⟩ := (program T).exec_concat_eq_some hrun
  obtain ⟨x, -, rfl⟩ := Option.map_eq_some_iff.mp hstep
  exact ⟨x.proxy, List.getLast?_concat⟩

end Program

/-! ## Ownership -/

section Ownership
variable {T : Type*} [DecidableEq T]

/-- The handles that own a proxy. -/
def Handles.owners (s : Handles T) (p : T) : Nat := s.handles.countP fun handle => handle = some ⟨p, true⟩

/-- All handles are gone. -/
def Handles.Gone (s : Handles T) : Prop := ∀ handle ∈ s.handles, handle = none

/-- What unique ownership says of a program and the state it leads to. -/
structure UniquelyOwned (ops : List (HandleOp T)) (s : Handles T) : Prop where
  one_owner : ∀ p, s.owners p ≤ 1
  destroyed_once : s.Gone → ∀ p ∈ constructed ops, s.destroyed.count p = 1
  not_yielded : ∀ h ∈ movedFrom ops, ∀ handle, s.lookup h = some handle → handle.get = none
  /-- the handle that the last operation has made, if that moved from a handle moved from before -/
  not_passed_on : ∀ pre h, ops = pre ++ [.move h] → h ∈ movedFrom pre →
    ∀ handle, s.handles.getLast? = some (some handle) → handle.ownsWlObject = false

variable {s t : Handles T} {op : HandleOp T} {h : Nat} {x : WlHandle T}

/-- What writing one place does to the owners of a proxy. -/
theorem owners_set (hx : s.lookup h = some x) (y : Option (WlHandle T)) (p : T) :
    (s.handles.set h y).countP (fun handle => handle = some ⟨p, true⟩) + (if x = ⟨p, true⟩ then 1 else 0) =
      s.owners p + if y = some ⟨p, true⟩ then 1 else 0 := by
  obtain ⟨hlt, hget⟩ := List.getElem?_eq_some_iff.mp (lookup_eq_some.mp hx)
  rw [List.countP_set hlt, hget]
  unfold Handles.owners
  by_cases hp : x = ⟨p, true⟩
  · have hpos : 0 < s.handles.countP fun handle => handle = some ⟨p, true⟩ := by
      rw [List.countP_pos_iff]
      exact ⟨s.handles[h], List.getElem_mem hlt, by simp [hget, hp]⟩
    simp only [hp, decide_true, if_true, decide_eq_true_eq]
    omega
  · simp only [Option.some.injEq, hp, decide_false, Bool.false_eq_true, if_false, decide_eq_true_eq]
    omega

/-- As long as no handle is moved from twice, a proxy has as many owners and destructions as constructions. -/
theorem balance_step {ops : List (HandleOp T)} (hm : Marked ops s) (hnodup : (movedFrom (ops ++ [op])).Nodup)
    (hstep : s.step op = some t) (p : T) (ih : s.owners p + s.destroyed.count p = (constructed ops).count p) :
    t.owners p + t.destroyed.count p = (constructed (ops ++ [op])).count p := by
  rw [constructed_concat, List.count_append, ← ih]
  obtain ⟨rfl, rfl⟩ | ⟨q, rfl, rfl⟩ | ⟨h, x, rfl, hx, rfl⟩ | ⟨h, x, rfl, hx, rfl⟩ := step_cases hstep
  · simp [HandleOp.constructed?]
  · have hone : ([some ⟨q, true⟩] : List (Option (WlHandle T))).countP (fun handle => handle = some ⟨p, true⟩) =
        [q].count p := by
      simp [List.countP_cons, List.count_cons]
    simp only [Handles.owners, HandleOp.constructed?, Option.toList_some, List.countP_append, hone]
    omega
  · have howns : x.ownsWlObject = true := by
      rw [hm.owns_iff h x hx]
      rw [movedFrom_concat] at hnodup
      exact fun hmem => (List.nodup_append.mp hnodup).2.2 h hmem h (by simp [HandleOp.source?]) rfl
    have hset := owners_set hx (some ⟨x.proxy, false⟩) p
    have hnew : (if x = ⟨p, true⟩ then 1 else 0) =
        [some (⟨x.proxy, true⟩ : WlHandle T)].countP (fun handle => handle = some ⟨p, true⟩) := by
      obtain ⟨q, o⟩ := x
      cases howns
      simp [List.countP_cons]
    simp only [HandleOp.constructed?, Option.toList_none, List.count_nil, Nat.add_zero]
    unfold Handles.owners at hset ⊢
    rw [List.countP_append, ← hnew, hset]
    simp
  · have hset := owners_set hx none p
    have hgone : (if x = ⟨p, true⟩ then 1 else 0) = x.destroyed.count p := by
      obtain ⟨q, o⟩ := x
      cases o <;> simp [WlHandle.destroyed, List.count_cons]
    rw [if_neg (by simp : ¬ (none : Option (WlHandle T)) = some ⟨p, true⟩), hgone] at hset
    show (s.handles.set h none).countP _ + (s.destroyed ++ x.destroyed).count p = s.owners p + s.destroyed.count p + 0
    rw [List.count_append]
    omega

theorem run_balance {ops : List (HandleOp T)} {t : Handles T} (hrun : runProgram ops = some t)
    (hnodup : (movedFrom ops).Nodup) (p : T) : t.owners p + t.destroyed.count p = (constructed ops).count p := by
  refine (program T).exec_induction (s := {}) (P := fun ops t => (movedFrom ops).Nodup →
    t.owners p + t.destroyed.count p = (constructed ops).count p) (fun _ => rfl) ?_ ops t hrun hnodup
  intro ops u op t hu ih hstep hnodup
  have hbefore : (movedFrom ops).Nodup := by
    rw [movedFrom_concat] at hnodup
    exact (List.nodup_append.mp hnodup).1
  exact balance_step (run_marked hu) hnodup hstep p (ih hbefore)

theorem owners_of_gone (hgone : s.Gone) (p : T) : s.owners p = 0 := by
  unfold Handles.owners
  rw [List.countP_eq_zero]
  intro handle hmem
  simp [hgone handle hmem]

/-- A program in which no handle is moved from twice keeps every proxy uniquely owned. -/
theorem uniquelyOwned_of_nodup {ops : List (HandleOp T)} {t : Handles T} (hrun : runProgram ops = some t)
    (hproxies : (constructed ops).Nodup) (hnodup : (movedFrom ops).Nodup) : UniquelyOwned ops t where
  one_owner p := by
    have hbalance := run_balance hrun hnodup p
    have := List.nodup_iff_count_le_one.mp hproxies p
    omega
  destroyed_once hgone p hp := by
    have hbalance := run_balance hrun hnodup p
    rw [owners_of_gone hgone, List.count_eq_one_of_mem hproxies hp] at hbalance
    omega
  not_yielded h hh x hx := by
    have howns : x.ownsWlObject = false := by
      rw [← Bool.not_eq_true, (run_marked hrun).owns_iff h x hx]
      exact not_not_intro hh
    unfold WlHandle.get
    rw [howns]
    rfl
  not_passed_on pre h heq hh := by
    rw [heq, movedFrom_concat] at hnodup
    exact absurd rfl ((List.nodup_append.mp hnodup).2.2 h hh h (by simp [HandleOp.source?]))

/-- **Handles own their proxies uniquely** in every state of a program, exactly when no handle is moved from twice: the
move constructor makes an owner of the new handle, whether or not the old one still was. -/
theorem unique_ownership_iff {ops : List (HandleOp T)} {t : Handles T} (hrun : runProgram ops = some t)
    (hproxies : (constructed ops).Nodup) :
    (∀ pre u, pre <+: ops → runProgram pre = some u → UniquelyOwned pre u) ↔ (movedFrom ops).Nodup := by
  constructor
  · intro hall
    refine nodup_filterMap_iff.mpr fun pre op h hpre hsource hmem => ?_
    obtain rfl : op = .move h := by
      cases op <;> simp_all [HandleOp.source?]
    obtain ⟨u, hu⟩ : ∃ u, runProgram (pre ++ [.move h]) = some u := by
      obtain ⟨rest, rfl⟩ := hpre
      unfold runProgram at hrun
      rw [Guarded.exec_append] at hrun
      obtain ⟨u, hu, -⟩ := Option.bind_eq_some_iff.mp hrun
      exact ⟨u, hu⟩
    obtain ⟨p, hlast⟩ := last_of_move hu
    cases (hall _ u hpre hu).not_passed_on pre h rfl hmem _ hlast
  · intro hnodup pre u hpre hu
    refine uniquelyOwned_of_nodup hu ?_ ?_
    · exact hproxies.sublist (hpre.sublist.filterMap _)
    · exact hnodup.sublist (hpre.sublist.filterMap _)

theorem unique_ownership_iff_passedAlong :
    (movedFrom [.construct (some 7), .move 0, .construct (some 8), .move 1, .destroy 0, .destroy 3] : List Nat).Nodup ∧
      ∀ pre u, pre <+: [HandleOp.construct (some 7), .move 0, .construct (some 8), .move 1, .destroy 0, .destroy 3] →
        runProgram pre = some u → UniquelyOwned pre u := by
  have hmoves : (movedFrom [.construct (some 7), .move 0, .construct (some 8), .move 1, .destroy 0, .destroy 3] :
    List Nat).Nodup := by decide
  exact ⟨hmoves, (unique_ownership_iff (t := ⟨[none, some ⟨7, false⟩, some ⟨8, true⟩, none], [7]⟩) (by decide)
    (by decide)).mpr hmoves⟩

/-- Moved from twice, one handle gives its proxy two owners, and the proxy is destroyed twice. -/
theorem two_owners :
    runProgram [.construct (some 7), .move 0, .move 0] =
        some ⟨[some ⟨7, false⟩, some ⟨7, true⟩, some ⟨7, true⟩], []⟩ ∧
      runProgram [.construct (some 7), .move 0, .move 0, .destroy 0, .destroy 1, .destroy 2] =
        some ⟨[none, none, none], [7, 7]⟩ ∧
      ¬ UniquelyOwned [.construct (some 7), .move 0, .move 0] ⟨[some ⟨7, false⟩, some ⟨7, true⟩, some ⟨7, true⟩], []⟩ ∧
      ¬ UniquelyOwned [.construct (some 7), .move 0, .move 0, .destroy 0, .destroy 1, .destroy 2]
        ⟨[none, none, none], [7, 7]⟩ := by
  refine ⟨by decide, by decide, fun h => ?_, fun h => ?_⟩
  · exact absurd (h.one_owner 7) (by decide)
  · exact absurd (h.destroyed_once (by simp [Handles.Gone]) 7 (by decide)) (by decide)

end Ownership

end Wlcs.Handle
