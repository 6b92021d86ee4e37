import Mathlib.Logic.Function.Basic
import Wlcs.Lib.Machine

/-!
# Content updates in a tree of surfaces

What the protocol says of `wl_surface.commit`. The state of a surface is double-buffered: a commit makes an update of what
has been requested since the last one. The update of a surface that is effectively synchronized is kept until its parent
commits, which makes it a part of the parent's update; that of any other surface is applied, with everything that has
become a part of it.

* `Compositor` : what is pending, kept and applied for each surface of the tree, after any requests (`handle`);
* `Tidy` : what holds of the kept updates;
* `requested_eq` : nothing that was requested of a surface is lost, applied twice, or applied out of order;
* `applied_iff` : the commits that it takes until everything requested of a surface is applied.
-/

namespace Wlcs.Subsurfaces
open EventMachine

/-- A `wlcs::Surface`, or a `wlcs::Subsurface` with the surface that it is a part of. -/
inductive Surface
  | surface (id : Nat)
  | subsurface (id : Nat) (parent : Surface)
deriving DecidableEq, Repr

namespace Surface

def parent? : Surface → Option Surface
  | .surface _ => none
  | .subsurface _ parent => some parent

/-- The surface, its parent and so on. -/
def chain : Surface → List Surface
  | .surface id => [.surface id]
  | .subsurface id parent => .subsurface id parent :: parent.chain

def depth : Surface → Nat
  | .surface _ => 0
  | .subsurface _ parent => parent.depth + 1

end Surface

/-- A request to the compositor; those that change the double-buffered state of a surface are of some type `α`. -/
inductive Request (α : Type)
  /-- the surface becomes a sub-surface of its parent -/
  | getSubsurface (s : Surface)
  | change (s : Surface) (state : α)
  | commit (s : Surface)
  | setSync (s : Surface)
  | setDesync (s : Surface)
deriving DecidableEq, Repr

structure Compositor (α : Type) where
  subsurfaces : List Surface := []
  desync : Surface → Bool := fun _ => false
  pending : Surface → List α := fun _ => []
  /-- the updates that are kept, each request with its surface -/
  kept : Surface → List (Surface × α) := fun _ => []
  active : Surface → List α := fun _ => []

section Requests
variable {α : Type}

/-- The requests of an update that are for `s`. -/
def stateOf (s : Surface) (update : List (Surface × α)) : List α :=
  update.filterMap fun entry => if entry.1 = s then some entry.2 else none

namespace Compositor

/-- A sub-surface behaves as synchronized if its parent does. -/
def synchronized (me : Compositor α) : Surface → Bool
  | .surface _ => false
  | .subsurface id parent => !me.desync (.subsurface id parent) || me.synchronized parent

def childrenOf (me : Compositor α) (s : Surface) : List Surface := me.subsurfaces.filter (·.parent? = some s)

def apply (me : Compositor α) (update : List (Surface × α)) : Compositor α :=
  { me with active := fun s => me.active s ++ stateOf s update }

/-- The update that a commit makes. -/
def updateOf (me : Compositor α) (s : Surface) : List (Surface × α) :=
  (me.childrenOf s).flatMap me.kept ++ (me.pending s).map fun state => (s, state)

def commit (me : Compositor α) (s : Surface) : Compositor α :=
  let taken : Compositor α :=
    { me with
      pending := Function.update me.pending s []
      kept := fun t => if t.parent? = some s then [] else me.kept t }
  if me.synchronized s then { taken with kept := Function.update taken.kept s (taken.kept s ++ me.updateOf s) }
  else taken.apply (me.updateOf s)

/-- What is kept for `s` at a surface and those above it, the oldest first. -/
def line (kept : Surface → List (Surface × α)) (s : Surface) : Surface → List α
  | .surface id => stateOf s (kept (.surface id))
  | .subsurface id parent => line kept s parent ++ stateOf s (kept (.subsurface id parent))

/-- Surfaces that do not behave as synchronized any more keep nothing. -/
def release (me : Compositor α) : Compositor α :=
  { me with
    active := fun s => me.active s ++ line (fun a => if me.synchronized a then [] else me.kept a) s s
    kept := fun a => if me.synchronized a then me.kept a else [] }

def handle (me : Compositor α) : Request α → Compositor α
  | .getSubsurface s => { me with subsurfaces := me.subsurfaces ++ [s] }
  | .change s state => { me with pending := Function.update me.pending s (me.pending s ++ [state]) }
  | .commit s => me.commit s
  | .setSync s => { me with desync := Function.update me.desync s false }
  | .setDesync s => release { me with desync := Function.update me.desync s true }

/-- The surface is a main surface, or has been made a sub-surface. -/
def Has (me : Compositor α) (s : Surface) : Prop := s.parent? = none ∨ s ∈ me.subsurfaces

/-- A surface becomes a sub-surface once, before anything else is requested of it. -/
def Allowed (me : Compositor α) : Request α → Prop
  | .getSubsurface s => s ∉ me.subsurfaces ∧ s.parent? ≠ none ∧ ∀ parent ∈ s.parent?, me.Has parent
  | .change s _ | .commit s => me.Has s
  | .setSync s | .setDesync s => s ∈ me.subsurfaces

instance (me : Compositor α) (s : Surface) : Decidable (me.Has s) :=
  inferInstanceAs (Decidable (s.parent? = none ∨ s ∈ me.subsurfaces))

instance (me : Compositor α) : (r : Request α) → Decidable (me.Allowed r)
  | .getSubsurface s =>
    inferInstanceAs (Decidable (s ∉ me.subsurfaces ∧ s.parent? ≠ none ∧ ∀ parent ∈ s.parent?, me.Has parent))
  | .change s _ => inferInstanceAs (Decidable (me.Has s))
  | .commit s => inferInstanceAs (Decidable (me.Has s))
  | .setSync s => inferInstanceAs (Decidable (s ∈ me.subsurfaces))
  | .setDesync s => inferInstanceAs (Decidable (s ∈ me.subsurfaces))

end Compositor

def compositor : Guarded (Compositor α) (Request α) where
  step me r := if me.Allowed r then some (me.handle r) else none

/-- What was requested of a surface. -/
def requested (rs : List (Request α)) (s : Surface) : List α :=
  rs.filterMap fun
    | .change t state => if t = s then some state else none
    | _ => none

end Requests

/-! ## Chains -/

namespace Surface

theorem self_mem_chain (s : Surface) : s ∈ s.chain := by
  cases s with
  | surface id => exact List.mem_singleton_self _
  | subsurface id parent => exact List.mem_cons_self

theorem depth_of_parent {s p : Surface} (h : s.parent? = some p) : s.depth = p.depth + 1 := by
  cases s with
  | surface id => cases h
  | subsurface id parent =>
      obtain rfl := Option.some.inj h
      rfl

theorem depth_le_of_mem_chain {a s : Surface} (h : a ∈ s.chain) : a.depth ≤ s.depth := by
  induction s with
  | surface id =>
      obtain rfl := List.mem_singleton.mp h
      exact Nat.le_refl _
  | subsurface id parent ih =>
      rcases List.mem_cons.mp h with rfl | h
      · exact Nat.le_refl _
      · exact Nat.le_succ_of_le (ih h)

/-- A chain goes up one level at a time. -/
theorem eq_of_depth_eq {a b s : Surface} (ha : a ∈ s.chain) (hb : b ∈ s.chain) (h : a.depth = b.depth) : a = b := by
  induction s with
  | surface id => rw [List.mem_singleton.mp ha, List.mem_singleton.mp hb]
  | subsurface id parent ih =>
      rcases List.mem_cons.mp ha with rfl | ha
      · rcases List.mem_cons.mp hb with rfl | hb
        · rfl
        · have hle := depth_le_of_mem_chain hb
          rw [← h] at hle
          exact absurd hle (Nat.not_succ_le_self _)
      · rcases List.mem_cons.mp hb with rfl | hb
        · have hle := depth_le_of_mem_chain ha
          rw [h] at hle
          exact absurd hle (Nat.not_succ_le_self _)
        · exact ih ha hb

theorem parent_mem_chain {a p s : Surface} (ha : a ∈ s.chain) (hp : a.parent? = some p) : p ∈ s.chain := by
  induction s with
  | surface id =>
      rw [List.mem_singleton.mp ha] at hp
      cases hp
  | subsurface id parent ih =>
      rcases List.mem_cons.mp ha with rfl | ha
      · obtain rfl := Option.some.inj hp
        exact List.mem_cons_of_mem _ parent.self_mem_chain
      · exact List.mem_cons_of_mem _ (ih ha)

theorem chain_sublist {a s : Surface} (h : a ∈ s.chain) : a.chain.Sublist s.chain := by
  induction s with
  | surface id =>
      obtain rfl := List.mem_singleton.mp h
      exact List.Sublist.refl _
  | subsurface id parent ih =>
      rcases List.mem_cons.mp h with rfl | h
      · exact List.Sublist.refl _
      · exact (ih h).cons _

end Surface

/-! ## What an update has for a surface -/

section Updates
variable {α : Type} {me : Compositor α} {s x : Surface}

@[simp] theorem stateOf_nil (s : Surface) : stateOf s ([] : List (Surface × α)) = [] := rfl

theorem stateOf_append (s : Surface) (u v : List (Surface × α)) : stateOf s (u ++ v) = stateOf s u ++ stateOf s v :=
  List.filterMap_append

theorem stateOf_own (s : Surface) (states : List α) : stateOf s (states.map fun state => (s, state)) = states := by
  induction states with
  | nil => rfl
  | cons state states ih =>
      rw [List.map_cons, stateOf, List.filterMap_cons, if_pos rfl]
      exact congrArg _ ih

theorem stateOf_eq_nil {update : List (Surface × α)} (h : ∀ entry ∈ update, entry.1 ≠ s) : stateOf s update = [] := by
  rw [stateOf, List.filterMap_eq_nil_iff]
  intro entry hentry
  rw [if_neg (h entry hentry)]

theorem stateOf_flatMap (s : Surface) (l : List Surface) (kept : Surface → List (Surface × α)) :
    stateOf s (l.flatMap kept) = l.flatMap fun t => stateOf s (kept t) := by
  induction l with
  | nil => rfl
  | cons t l ih => rw [List.flatMap_cons, stateOf_append, ih, List.flatMap_cons]

/-- Only one of several surfaces contributes. -/
theorem flatMap_eq_single {l : List Surface} (hl : l.Nodup) {f : Surface → List α} {c : Surface} (hc : c ∉ l → f c = [])
    (hf : ∀ t ∈ l, t ≠ c → f t = []) : l.flatMap f = f c := by
  induction l with
  | nil => exact (hc List.not_mem_nil).symm
  | cons t l ih =>
      obtain ⟨ht, hl⟩ := List.nodup_cons.mp hl
      rw [List.flatMap_cons]
      by_cases htc : t = c
      · subst htc
        have hrest : l.flatMap f = [] := by
          rw [List.flatMap_eq_nil_iff]
          intro u hu
          refine hf u (List.mem_cons_of_mem _ hu) ?_
          rintro rfl
          exact ht hu
        rw [hrest, List.append_nil]
      · rw [hf t List.mem_cons_self htc, List.nil_append]
        refine ih hl (fun hcl => hc ?_) fun u hu => hf u (List.mem_cons_of_mem _ hu)
        rw [List.mem_cons, not_or]
        exact ⟨Ne.symm htc, hcl⟩

/-- What holds of the updates that are kept. -/
structure Tidy (me : Compositor α) : Prop where
  nodup : me.subsurfaces.Nodup
  parents : ∀ s ∈ me.subsurfaces, ∀ parent ∈ s.parent?, me.Has parent
  /-- they are kept for the parent of a sub-surface -/
  absent : ∀ s, s ∉ me.subsurfaces → me.kept s = []
  desync : ∀ s, me.synchronized s = false → me.kept s = []
  /-- at the surface itself or further up -/
  above : ∀ a, ∀ entry ∈ me.kept a, a ∈ entry.1.chain

theorem Tidy.stateOf_kept (h : Tidy me) {a : Surface} (ha : a ∉ s.chain) : stateOf s (me.kept a) = [] := by
  refine stateOf_eq_nil fun entry hentry heq => ha ?_
  rw [← heq]
  exact h.above a entry hentry

/-- What the children of a surface have kept is for surfaces further down. -/
theorem Tidy.stateOf_children (h : Tidy me) {c : Surface} (hc : c ∈ s.chain) (hx : c.parent? = some x) :
    stateOf s ((me.childrenOf x).flatMap me.kept) = stateOf s (me.kept c) := by
  rw [stateOf_flatMap]
  refine flatMap_eq_single (h.nodup.filter _) (fun hnot => ?_) fun t ht htc => h.stateOf_kept fun hts => htc ?_
  · have habsent : c ∉ me.subsurfaces := by
      intro hmem
      exact hnot (List.mem_filter.mpr ⟨hmem, by simpa using hx⟩)
    rw [h.absent c habsent, stateOf_nil]
  · have htx : t.parent? = some x := by simpa using (List.mem_filter.mp ht).2
    refine Surface.eq_of_depth_eq hts hc ?_
    rw [Surface.depth_of_parent htx, Surface.depth_of_parent hx]

theorem Tidy.stateOf_children_nil (h : Tidy me) (hs : ∀ c ∈ s.chain, c.parent? ≠ some x) :
    stateOf s ((me.childrenOf x).flatMap me.kept) = [] := by
  rw [stateOf_flatMap, List.flatMap_eq_nil_iff]
  intro t ht
  have htx : t.parent? = some x := by simpa using (List.mem_filter.mp ht).2
  exact h.stateOf_kept fun hts => hs t hts htx

theorem not_child_of_self {c : Surface} (hc : c ∈ s.chain) : c.parent? ≠ some s := by
  intro hcs
  have hle := Surface.depth_le_of_mem_chain hc
  rw [Surface.depth_of_parent hcs] at hle
  exact absurd hle (Nat.not_succ_le_self _)

theorem Tidy.stateOf_updateOf_self (h : Tidy me) (s : Surface) : stateOf s (me.updateOf s) = me.pending s := by
  rw [Compositor.updateOf, stateOf_append, stateOf_own, h.stateOf_children_nil fun c hc => not_child_of_self hc,
    List.nil_append]

theorem stateOf_updateOf_of_ne (hsx : s ≠ x) :
    stateOf s (me.updateOf x) = stateOf s ((me.childrenOf x).flatMap me.kept) := by
  have hown : stateOf s ((me.pending x).map fun state => (x, state)) = [] := by
    refine stateOf_eq_nil fun entry hentry => ?_
    obtain ⟨state, -, rfl⟩ := List.mem_map.mp hentry
    exact Ne.symm hsx
  rw [Compositor.updateOf, stateOf_append, hown, List.append_nil]

theorem Tidy.stateOf_updateOf (h : Tidy me) (hpending : me.pending s = [])
    (hchildren : ∀ c ∈ s.chain, c.parent? = some x → stateOf s (me.kept c) = []) : stateOf s (me.updateOf x) = [] := by
  by_cases hsx : s = x
  · subst hsx
    rw [h.stateOf_updateOf_self, hpending]
  · rw [stateOf_updateOf_of_ne hsx, stateOf_flatMap, List.flatMap_eq_nil_iff]
    intro t ht
    by_cases hts : t ∈ s.chain
    · exact hchildren t hts (by simpa using (List.mem_filter.mp ht).2)
    · exact h.stateOf_kept hts

/-- A surface that does not behave as synchronized is a part of one that does not. -/
theorem synchronized_of_mem_chain {a : Surface} (ha : a ∈ s.chain) (h : me.synchronized s = false) :
    me.synchronized a = false := by
  induction s with
  | surface id =>
      rw [List.mem_singleton.mp ha]
      exact h
  | subsurface id parent ih =>
      rcases List.mem_cons.mp ha with rfl | ha
      · exact h
      · rw [Compositor.synchronized, Bool.or_eq_false_iff] at h
        exact ih ha h.2

theorem synchronized_congr {you : Compositor α} (h : you.desync = me.desync) (s : Surface) :
    you.synchronized s = me.synchronized s := by
  induction s with
  | surface id => rfl
  | subsurface id parent ih => rw [Compositor.synchronized, Compositor.synchronized, ih, h]

theorem Tidy.kept_of_mem_chain (h : Tidy me) {a : Surface} (ha : a ∈ s.chain) (hs : me.synchronized s = false) :
    me.kept a = [] :=
  h.desync a (synchronized_of_mem_chain ha hs)

theorem line_eq_nil {kept : Surface → List (Surface × α)} {a : Surface} (h : ∀ b ∈ a.chain, kept b = []) :
    Compositor.line kept s a = [] := by
  induction a with
  | surface id => rw [Compositor.line, h _ (List.mem_singleton_self _), stateOf_nil]
  | subsurface id parent ih =>
      rw [Compositor.line, ih fun b hb => h b (List.mem_cons_of_mem _ hb), h _ List.mem_cons_self, stateOf_nil,
        List.append_nil]

theorem line_congr {kept kept' : Surface → List (Surface × α)} {a : Surface} (h : ∀ b ∈ a.chain, kept b = kept' b) :
    Compositor.line kept s a = Compositor.line kept' s a := by
  induction a with
  | surface id => rw [Compositor.line, Compositor.line, h _ (List.mem_singleton_self _)]
  | subsurface id parent ih =>
      rw [Compositor.line, Compositor.line, ih fun b hb => h b (List.mem_cons_of_mem _ hb), h _ List.mem_cons_self]

end Updates

/-! ## A commit -/

section Commits
variable {α : Type} {me : Compositor α} {s x : Surface}

@[simp] theorem commit_subsurfaces (me : Compositor α) (x : Surface) : (me.commit x).subsurfaces = me.subsurfaces := by
  unfold Compositor.commit
  split <;> rfl

theorem commit_desync (me : Compositor α) (x : Surface) : (me.commit x).desync = me.desync := by
  unfold Compositor.commit
  split <;> rfl

@[simp] theorem commit_synchronized (me : Compositor α) (x s : Surface) :
    (me.commit x).synchronized s = me.synchronized s :=
  synchronized_congr (commit_desync me x) s

theorem commit_pending (me : Compositor α) (x s : Surface) :
    (me.commit x).pending s = if s = x then [] else me.pending s := by
  have hpending : (me.commit x).pending = Function.update me.pending x [] := by
    unfold Compositor.commit
    split <;> rfl
  rw [hpending, Function.update_apply]

theorem ne_parent_self : x.parent? ≠ some x := not_child_of_self x.self_mem_chain

theorem commit_kept (me : Compositor α) (x a : Surface) :
    (me.commit x).kept a =
      if a = x ∧ me.synchronized x = true then me.kept x ++ me.updateOf x
      else if a.parent? = some x then [] else me.kept a := by
  by_cases hx : me.synchronized x = true
  · rw [Compositor.commit, if_pos hx]
    by_cases hax : a = x
    · subst hax
      rw [if_pos ⟨rfl, hx⟩]
      simp only [Function.update_self]
      rw [if_neg ne_parent_self]
    · rw [if_neg fun h => hax h.1]
      exact Function.update_of_ne hax _ _
  · rw [Compositor.commit, if_neg hx, if_neg fun h => hx h.2]
    rfl

theorem commit_kept_synchronized (hx : me.synchronized x = true) : (me.commit x).kept x = me.kept x ++ me.updateOf x := by
  rw [commit_kept, if_pos ⟨rfl, hx⟩]

theorem commit_kept_child {a : Surface} (ha : a.parent? = some x) : (me.commit x).kept a = [] := by
  have hax : a ≠ x := by
    rintro rfl
    exact ne_parent_self ha
  rw [commit_kept, if_neg fun h => hax h.1, if_pos ha]

theorem commit_kept_other {a : Surface} (hax : a ≠ x) (ha : a.parent? ≠ some x) : (me.commit x).kept a = me.kept a := by
  rw [commit_kept, if_neg fun h => hax h.1, if_neg ha]

/-- What is kept above a surface stays when the surface is committed. -/
theorem commit_kept_above {a p : Surface} (hx : x.parent? = some p) (ha : a ∈ p.chain) :
    (me.commit x).kept a = me.kept a := by
  have hle := Surface.depth_le_of_mem_chain ha
  have hdepth := Surface.depth_of_parent hx
  refine commit_kept_other ?_ ?_
  · rintro rfl
    omega
  · intro hparent
    rw [Surface.depth_of_parent hparent] at hle
    omega

/-- The update of a synchronized surface goes to the end of what its surfaces have kept there. -/
theorem Tidy.line_commit_synchronized (h : Tidy me) (hx : me.synchronized x = true) {a : Surface} (ha : a ∈ s.chain) :
    Compositor.line (me.commit x).kept s a =
      Compositor.line me.kept s a ++ if a = x then stateOf s (me.updateOf x) else [] := by
  induction a with
  | surface id =>
      have hax : Surface.surface id ≠ x := by
        rintro rfl
        cases hx
      rw [if_neg hax, List.append_nil, Compositor.line, Compositor.line, commit_kept_other hax]
      rintro ⟨⟩
  | subsurface id parent ih =>
      have hparent := Surface.parent_mem_chain (p := parent) ha rfl
      by_cases hax : .subsurface id parent = x
      · subst hax
        rw [if_pos rfl, Compositor.line, Compositor.line, commit_kept_synchronized hx, stateOf_append, ← List.append_assoc,
          line_congr fun b hb => commit_kept_above rfl hb]
      · rw [if_neg hax, List.append_nil, Compositor.line, ih hparent, Compositor.line]
        by_cases hpx : parent = x
        · subst hpx
          -- what the child on the chain has kept becomes a part of the update
          have hsx : s ≠ parent := by
            rintro rfl
            exact not_child_of_self ha rfl
          rw [if_pos rfl, commit_kept_child rfl, stateOf_nil, List.append_nil, stateOf_updateOf_of_ne hsx,
            h.stateOf_children ha rfl]
        · rw [if_neg hpx, List.append_nil, commit_kept_other hax]
          intro hparent
          exact hpx (Option.some.inj hparent)

/-- The update of any other surface starts with the oldest request kept for the surfaces below. -/
theorem Tidy.line_commit_desync (h : Tidy me) (hx : me.synchronized x = false) {a : Surface} (ha : a ∈ s.chain) :
    Compositor.line me.kept s a =
      (if x ∈ a.chain ∧ a ≠ x then stateOf s (me.updateOf x) else []) ++ Compositor.line (me.commit x).kept s a := by
  have hkept : ∀ b, b.parent? ≠ some x → (me.commit x).kept b = me.kept b := by
    intro b hb
    rw [commit_kept, if_neg fun hbx => Bool.false_ne_true (hx.symm.trans hbx.2), if_neg hb]
  induction a with
  | surface id =>
      have hnot : ¬ (x ∈ (Surface.surface id).chain ∧ Surface.surface id ≠ x) :=
        fun hmem => hmem.2 (List.mem_singleton.mp hmem.1).symm
      rw [if_neg hnot, List.nil_append, Compositor.line, Compositor.line, hkept]
      rintro ⟨⟩
  | subsurface id parent ih =>
      have hparent := Surface.parent_mem_chain (p := parent) ha rfl
      by_cases hpx : parent = x
      · subst hpx
        have hsx : s ≠ parent := by
          rintro rfl
          exact not_child_of_self ha rfl
        have hmem : parent ∈ (Surface.subsurface id parent).chain ∧ Surface.subsurface id parent ≠ parent := by
          refine ⟨List.mem_cons_of_mem _ parent.self_mem_chain, fun heq => ?_⟩
          exact Nat.succ_ne_self _ (congrArg Surface.depth heq)
        have habove : Compositor.line me.kept s parent = [] := line_eq_nil fun b hb => h.kept_of_mem_chain hb hx
        have habove' : Compositor.line (me.commit parent).kept s parent = [] := by
          rw [← habove, ih hparent, if_neg fun hmem => hmem.2 rfl, List.nil_append]
        rw [if_pos hmem, Compositor.line, Compositor.line, commit_kept_child rfl, stateOf_nil, List.append_nil, habove,
          habove', List.append_nil, stateOf_updateOf_of_ne hsx, h.stateOf_children ha rfl, List.nil_append]
      · have hiff : (x ∈ (Surface.subsurface id parent).chain ∧ Surface.subsurface id parent ≠ x) ↔
            (x ∈ parent.chain ∧ parent ≠ x) := by
          constructor
          · rintro ⟨hmem, hne⟩
            rcases List.mem_cons.mp hmem with rfl | hmem
            · exact absurd rfl hne
            · exact ⟨hmem, hpx⟩
          · rintro ⟨hmem, -⟩
            refine ⟨List.mem_cons_of_mem _ hmem, ?_⟩
            rintro rfl
            exact Nat.not_succ_le_self _ (Surface.depth_le_of_mem_chain hmem)
        have hsame : (me.commit x).kept (.subsurface id parent) = me.kept (.subsurface id parent) := by
          refine hkept _ fun hparent => hpx ?_
          exact Option.some.inj hparent
        rw [Compositor.line, Compositor.line, hsame, ih hparent, if_congr hiff rfl rfl, List.append_assoc]

theorem commit_active_synchronized (hx : me.synchronized x = true) : (me.commit x).active = me.active := by
  rw [Compositor.commit, if_pos hx]

theorem commit_active_desync (hx : me.synchronized x = false) (s : Surface) :
    (me.commit x).active s = me.active s ++ stateOf s (me.updateOf x) := by
  rw [Compositor.commit, if_neg (Bool.eq_false_iff.mp hx)]
  rfl

/-- What was requested of a surface, if all of it is applied, kept or pending. -/
def Compositor.all (me : Compositor α) (s : Surface) : List α :=
  me.active s ++ Compositor.line me.kept s s ++ me.pending s

theorem Tidy.all_commit (h : Tidy me) (x s : Surface) : (me.commit x).all s = me.all s := by
  unfold Compositor.all
  cases hx : me.synchronized x with
  | true =>
      rw [commit_active_synchronized hx, h.line_commit_synchronized hx s.self_mem_chain, commit_pending]
      by_cases hsx : s = x
      · subst hsx
        rw [if_pos rfl, if_pos rfl, h.stateOf_updateOf_self, List.append_nil, List.append_assoc]
      · rw [if_neg hsx, if_neg hsx, List.append_nil]
  | false =>
      rw [commit_active_desync hx, commit_pending, h.line_commit_desync hx s.self_mem_chain]
      by_cases hsx : s = x
      · subst hsx
        have hnil : Compositor.line me.kept s s = [] := line_eq_nil fun b hb => h.kept_of_mem_chain hb hx
        rw [h.line_commit_desync hx s.self_mem_chain, if_neg fun hmem => hmem.2 rfl, List.nil_append] at hnil
        rw [if_pos rfl, if_neg fun hmem => hmem.2 rfl, h.stateOf_updateOf_self, hnil]
        simp only [List.append_nil]
      · rw [if_neg hsx]
        by_cases hmem : x ∈ s.chain
        · rw [if_pos ⟨hmem, hsx⟩, List.append_assoc, List.append_assoc, List.append_assoc, List.append_assoc]
        · have hnone : stateOf s (me.updateOf x) = [] := by
            rw [stateOf_updateOf_of_ne hsx]
            refine h.stateOf_children_nil fun c hc hcx => hmem ?_
            exact Surface.parent_mem_chain hc hcx
          rw [if_neg fun h => hmem h.1, hnone, List.nil_append, List.append_nil]

end Commits

/-! ## Any requests -/

section Runs
variable {α : Type} {me : Compositor α} {s x : Surface}

theorem synchronized_parent {id : Nat} {parent : Surface} (h : me.synchronized (.subsurface id parent) = false) :
    me.synchronized parent = false := by
  rw [Compositor.synchronized, Bool.or_eq_false_iff] at h
  exact h.2

theorem release_kept (me : Compositor α) (a : Surface) :
    me.release.kept a = if me.synchronized a then me.kept a else [] := rfl

/-- What is released was kept above, and before, what stays. -/
theorem line_release (me : Compositor α) (s a : Surface) :
    Compositor.line me.kept s a =
      Compositor.line (fun b => if me.synchronized b then [] else me.kept b) s a ++
        Compositor.line me.release.kept s a := by
  induction a with
  | surface id =>
      simp only [Compositor.line, Compositor.release, Compositor.synchronized, Bool.false_eq_true, if_false, stateOf_nil,
        List.append_nil]
  | subsurface id parent ih =>
      simp only [Compositor.line, ih]
      cases hsync : me.synchronized (.subsurface id parent) with
      | true => simp [release_kept, hsync]
      | false =>
          have hnone : Compositor.line me.release.kept s parent = [] := by
            refine line_eq_nil fun b hb => ?_
            have hb := synchronized_of_mem_chain hb (synchronized_parent hsync)
            rw [release_kept, hb]
            rfl
          rw [hnone]
          simp [release_kept, hsync]

theorem all_release (me : Compositor α) (s : Surface) : me.release.all s = me.all s := by
  rw [Compositor.all, Compositor.all, line_release me s s]
  simp only [Compositor.release, List.append_assoc]

/-- A surface that becomes `sync` does not make another one behave as `desync`. -/
theorem synchronized_of_setSync (h : (me.handle (.setSync x)).synchronized s = false) : me.synchronized s = false := by
  induction s with
  | surface id => rfl
  | subsurface id parent ih =>
      rw [Compositor.synchronized, Bool.or_eq_false_iff] at h
      rw [Compositor.synchronized, Bool.or_eq_false_iff]
      refine ⟨?_, ih h.2⟩
      have hdesync := h.1
      simp only [Compositor.handle, Function.update_apply] at hdesync
      split at hdesync
      · cases hdesync
      · exact hdesync

theorem mem_subsurfaces_of_synchronized (hhas : me.Has x) (hx : me.synchronized x = true) : x ∈ me.subsurfaces := by
  cases x with
  | surface id => cases hx
  | subsurface id parent =>
      rcases hhas with hnone | hmem
      · cases hnone
      · exact hmem

theorem Tidy.commit (h : Tidy me) (hhas : me.Has x) : Tidy (me.commit x) where
  nodup := by
    rw [commit_subsurfaces]
    exact h.nodup
  parents := by
    intro s hs parent hparent
    rw [commit_subsurfaces] at hs
    rw [Compositor.Has, commit_subsurfaces]
    exact h.parents s hs parent hparent
  absent := by
    intro s hs
    rw [commit_subsurfaces] at hs
    rw [commit_kept, h.absent s hs, ite_self, if_neg]
    rintro ⟨rfl, hx⟩
    exact hs (mem_subsurfaces_of_synchronized hhas hx)
  desync := by
    intro s hs
    rw [commit_synchronized] at hs
    rw [commit_kept, h.desync s hs, ite_self, if_neg]
    rintro ⟨rfl, hx⟩
    exact Bool.false_ne_true (hs.symm.trans hx)
  above := by
    intro a entry hentry
    rw [commit_kept] at hentry
    split at hentry
    case isTrue hax =>
      obtain ⟨rfl, -⟩ := hax
      rcases List.mem_append.mp hentry with hentry | hentry
      · exact h.above a entry hentry
      · rcases List.mem_append.mp hentry with hentry | hentry
        · obtain ⟨t, ht, hentry⟩ := List.mem_flatMap.mp hentry
          refine Surface.parent_mem_chain (h.above t entry hentry) ?_
          simpa using (List.mem_filter.mp ht).2
        · obtain ⟨state, -, rfl⟩ := List.mem_map.mp hentry
          exact Surface.self_mem_chain _
    case isFalse =>
      split at hentry
      · cases hentry
      · exact h.above a entry hentry

theorem Tidy.release (hnodup : me.subsurfaces.Nodup) (hparents : ∀ s ∈ me.subsurfaces, ∀ p ∈ s.parent?, me.Has p)
    (habsent : ∀ s, s ∉ me.subsurfaces → me.kept s = []) (habove : ∀ a, ∀ entry ∈ me.kept a, a ∈ entry.1.chain) :
    Tidy me.release where
  nodup := hnodup
  parents := hparents
  absent := by
    intro s hs
    rw [release_kept, habsent s hs, ite_self]
  desync := by
    intro s hs
    rw [synchronized_congr (show me.release.desync = me.desync from rfl)] at hs
    rw [release_kept, hs]
    rfl
  above := by
    intro a entry hentry
    rw [release_kept] at hentry
    split at hentry
    · exact habove a entry hentry
    · cases hentry

theorem Tidy.handle (h : Tidy me) {r : Request α} (hr : me.Allowed r) : Tidy (me.handle r) := by
  cases r with
  | getSubsurface s =>
      refine ⟨?_, ?_, ?_, ?_, h.above⟩
      · refine List.nodup_append.mpr ⟨h.nodup, List.pairwise_singleton _ s, ?_⟩
        intro a ha b hb hab
        rw [hab, List.mem_singleton.mp hb] at ha
        exact hr.1 ha
      · intro t ht parent hparent
        have hhas : me.Has parent := by
          rcases List.mem_append.mp ht with ht | ht
          · exact h.parents t ht parent hparent
          · rw [List.mem_singleton.mp ht] at hparent
            exact hr.2.2 parent hparent
        exact hhas.imp id (List.mem_append_left _)
      · intro t ht
        exact h.absent t fun hmem => ht (List.mem_append_left _ hmem)
      · intro t ht
        rw [synchronized_congr (show (me.handle (.getSubsurface s)).desync = me.desync from rfl)] at ht
        exact h.desync t ht
  | change s state =>
      refine ⟨h.nodup, h.parents, h.absent, fun t ht => ?_, h.above⟩
      rw [synchronized_congr (show (me.handle (.change s state)).desync = me.desync from rfl)] at ht
      exact h.desync t ht
  | commit s => exact h.commit hr
  | setSync s => exact ⟨h.nodup, h.parents, h.absent, fun t ht => h.desync t (synchronized_of_setSync ht), h.above⟩
  | setDesync s => exact Tidy.release h.nodup h.parents h.absent h.above

theorem Tidy.init : Tidy ({} : Compositor α) where
  nodup := List.nodup_nil
  parents := fun _ hs => absurd hs List.not_mem_nil
  absent := fun _ _ => rfl
  desync := fun _ _ => rfl
  above := fun _ _ hentry => absurd hentry List.not_mem_nil

theorem all_init (s : Surface) : ({} : Compositor α).all s = [] := by
  rw [Compositor.all, line_eq_nil fun _ _ => rfl]
  rfl

theorem step_inv {r : Request α} {you : Compositor α} (h : compositor.step me r = some you) :
    me.Allowed r ∧ me.handle r = you := by
  simp only [compositor] at h
  split at h
  case isTrue hr => exact ⟨hr, Option.some.inj h⟩
  case isFalse => cases h

theorem Tidy.exec {rs : List (Request α)} {you : Compositor α} (h : Tidy me) (hrun : compositor.exec me rs = some you) :
    Tidy you := by
  refine compositor.exec_induction (P := fun _ you => Tidy you) h ?_ rs you hrun
  intro rs u r t _ ih ht
  obtain ⟨hr, rfl⟩ := step_inv ht
  exact ih.handle hr

theorem requested_append (rs rs' : List (Request α)) (s : Surface) :
    requested (rs ++ rs') s = requested rs s ++ requested rs' s :=
  List.filterMap_append

theorem Tidy.all_handle (h : Tidy me) (r : Request α) (s : Surface) :
    (me.handle r).all s = me.all s ++ requested [r] s := by
  cases r with
  | getSubsurface x => exact (List.append_nil _).symm
  | change x state =>
      simp only [Compositor.all, Compositor.handle, Function.update_apply, requested, List.filterMap_cons,
        List.filterMap_nil]
      by_cases hsx : s = x
      · rw [if_pos hsx, if_pos hsx.symm, hsx]
        simp only [List.append_assoc]
      · rw [if_neg hsx, if_neg (Ne.symm hsx), List.append_nil]
  | commit x =>
      rw [requested, List.filterMap_cons, List.filterMap_nil, List.append_nil]
      exact h.all_commit x s
  | setSync x => exact (List.append_nil _).symm
  | setDesync x =>
      rw [requested, List.filterMap_cons, List.filterMap_nil, List.append_nil]
      exact all_release _ s

/-- Nothing that was requested of a surface is lost, applied twice, or applied out of order. -/
theorem Tidy.all_exec {rs : List (Request α)} {you : Compositor α} (h : Tidy me) (hrun : compositor.exec me rs = some you)
    (s : Surface) : you.all s = me.all s ++ requested rs s := by
  refine compositor.exec_induction (P := fun rs you => you.all s = me.all s ++ requested rs s) ?_ ?_ rs you hrun
  · exact (List.append_nil _).symm
  · intro rs u r t hu ih ht
    obtain ⟨-, rfl⟩ := step_inv ht
    rw [(h.exec hu).all_handle r s, ih, requested_append, List.append_assoc]

theorem requested_eq {rs : List (Request α)} (hrun : compositor.exec {} rs = some me) (s : Surface) :
    me.all s = requested rs s := by
  rw [Tidy.init.all_exec hrun, all_init, List.nil_append]

end Runs

/-! ## The commits that an update waits for -/

section Way
variable {α : Type} {me : Compositor α} {s x : Surface}

namespace Compositor

/-- The commits, one after the other, that apply what is requested now: each update is kept for the next one. -/
def way (me : Compositor α) : Surface → List Surface
  | .surface id => [.surface id]
  | .subsurface id parent =>
      .subsurface id parent :: if me.synchronized (.subsurface id parent) then me.way parent else []

/-- The commits that the newest request for `s` waits for, of those kept at a surface and above. -/
def remainingFrom (me : Compositor α) (s : Surface) : Surface → List Surface
  | .surface _ => []
  | .subsurface id parent =>
      if stateOf s (me.kept (.subsurface id parent)) ≠ [] then me.way parent else me.remainingFrom s parent

/-- The commits that the newest request for `s` waits for. -/
def remaining (me : Compositor α) (s : Surface) : List Surface :=
  if me.pending s ≠ [] then me.way s else me.remainingFrom s s

end Compositor

/-- A commit is of use if it is the next one. -/
def advance (x : Surface) : List Surface → List Surface
  | [] => []
  | w :: ws => if w = x then ws else w :: ws

theorem way_eq (me : Compositor α) (s : Surface) : ∃ rest, me.way s = s :: rest := by
  cases s with
  | surface id => exact ⟨[], rfl⟩
  | subsurface id parent => exact ⟨_, rfl⟩

theorem way_ne_nil (me : Compositor α) (s : Surface) : me.way s ≠ [] := by
  obtain ⟨rest, h⟩ := way_eq me s
  rw [h]
  exact List.cons_ne_nil s rest

theorem advance_way_of_ne (h : s ≠ x) : advance x (me.way s) = me.way s := by
  obtain ⟨rest, heq⟩ := way_eq me s
  rw [heq, advance, if_neg h]

theorem advance_way_desync (h : me.synchronized s = false) : advance s (me.way s) = [] := by
  cases s with
  | surface id => simp [Compositor.way, advance]
  | subsurface id parent => simp [Compositor.way, advance, h]

theorem way_sublist_chain (me : Compositor α) (s : Surface) : (me.way s).Sublist s.chain := by
  induction s with
  | surface id => exact List.Sublist.refl _
  | subsurface id parent ih =>
      refine List.Sublist.cons_cons _ ?_
      split
      · exact ih
      · exact List.nil_sublist _

theorem way_congr {you : Compositor α} (h : you.desync = me.desync) (s : Surface) : you.way s = me.way s := by
  induction s with
  | surface id => rfl
  | subsurface id parent ih => rw [Compositor.way, Compositor.way, synchronized_congr h, ih]

@[simp] theorem commit_way (me : Compositor α) (x s : Surface) : (me.commit x).way s = me.way s :=
  way_congr (commit_desync me x) s

theorem remainingFrom_sublist (me : Compositor α) (s a : Surface) : (me.remainingFrom s a).Sublist a.chain := by
  induction a with
  | surface id => exact List.nil_sublist _
  | subsurface id parent ih =>
      rw [Compositor.remainingFrom]
      split
      · exact (way_sublist_chain me parent).cons _
      · exact ih.cons _

theorem remaining_sublist_chain (me : Compositor α) (s : Surface) : (me.remaining s).Sublist s.chain := by
  rw [Compositor.remaining]
  split
  · exact way_sublist_chain me s
  · exact remainingFrom_sublist me s s

theorem Tidy.remainingFrom_eq_nil (h : Tidy me) (s a : Surface) :
    me.remainingFrom s a = [] ↔ Compositor.line me.kept s a = [] := by
  induction a with
  | surface id =>
      have hnil : me.kept (.surface id) = [] := h.desync _ rfl
      simp only [Compositor.remainingFrom, Compositor.line, hnil, stateOf_nil]
  | subsurface id parent ih =>
      rw [Compositor.remainingFrom, Compositor.line, List.append_eq_nil_iff, ← ih]
      split
      case isTrue hne => exact iff_of_false (way_ne_nil me parent) fun hboth => hne hboth.2
      case isFalse heq =>
        rw [not_not] at heq
        rw [heq, eq_self, and_true]

/-- Everything requested of a surface is applied as soon as its newest request waits for no commit. -/
theorem Tidy.remaining_eq_nil (h : Tidy me) (s : Surface) : me.remaining s = [] ↔ me.active s = me.all s := by
  have hall : me.active s = me.all s ↔ me.pending s = [] ∧ Compositor.line me.kept s s = [] := by
    rw [Compositor.all, List.append_assoc, List.self_eq_append_right, List.append_eq_nil_iff, and_comm]
  rw [hall, Compositor.remaining]
  split
  case isTrue hne => exact iff_of_false (way_ne_nil me s) fun hboth => hne hboth.1
  case isFalse heq =>
    rw [not_not] at heq
    rw [h.remainingFrom_eq_nil, heq, eq_self, true_and]

/-- Nothing waits at surfaces that do not behave as synchronized. -/
theorem Tidy.remainingFrom_desync (h : Tidy me) {a : Surface} (ha : me.synchronized a = false) (s : Surface) :
    me.remainingFrom s a = [] :=
  (h.remainingFrom_eq_nil s a).mpr (line_eq_nil fun _ hb => h.kept_of_mem_chain hb ha)

/-- What waits for a surface goes on to wait for the next one. -/
theorem Tidy.remainingFrom_commit_self (h : Tidy me) (hhas : me.Has x)
    (hx : me.synchronized x = true → stateOf s (me.updateOf x) ≠ []) :
    (me.commit x).remainingFrom s x = advance x (me.way x) := by
  cases hsync : me.synchronized x with
  | false =>
      rw [advance_way_desync hsync]
      refine (h.commit hhas).remainingFrom_desync ?_ s
      rw [commit_synchronized, hsync]
  | true =>
      cases x with
      | surface id => cases hsync
      | subsurface id parent =>
          rw [Compositor.remainingFrom, commit_kept_synchronized hsync, stateOf_append, if_pos, commit_way, Compositor.way,
            advance, if_pos rfl, if_pos hsync]
          intro hnil
          exact hx hsync (List.append_eq_nil_iff.mp hnil).2

theorem Tidy.remainingFrom_commit (h : Tidy me) (hhas : me.Has x) (hpending : me.pending s = []) {a : Surface}
    (ha : a ∈ s.chain) (hbelow : ∀ c ∈ s.chain, c.parent? = some a → stateOf s (me.kept c) = []) :
    (me.commit x).remainingFrom s a = advance x (me.remainingFrom s a) := by
  induction a with
  | surface id => rfl
  | subsurface id parent ih =>
      have hparent := Surface.parent_mem_chain (p := parent) ha rfl
      by_cases hkept : stateOf s (me.kept (.subsurface id parent)) = []
      · -- nothing comes from below, so nothing waits here after the commit either
        have hkept' : stateOf s ((me.commit x).kept (.subsurface id parent)) = [] := by
          by_cases hax : .subsurface id parent = x
          · rw [hax] at hbelow hkept
            rw [hax, commit_kept]
            split
            · rw [stateOf_append, hkept, h.stateOf_updateOf hpending hbelow, List.append_nil]
            · rw [if_neg ne_parent_self, hkept]
          · by_cases hpx : parent = x
            · subst hpx
              rw [commit_kept_child rfl, stateOf_nil]
            · rw [commit_kept_other hax fun hp => hpx (Option.some.inj hp), hkept]
        rw [Compositor.remainingFrom, if_neg (not_not.mpr hkept'), Compositor.remainingFrom, if_neg (not_not.mpr hkept)]
        refine ih hparent fun c hc hcp => ?_
        have hca : c = .subsurface id parent := by
          refine Surface.eq_of_depth_eq hc ha ?_
          rw [Surface.depth_of_parent hcp]
          rfl
        rw [hca, hkept]
      · rw [Compositor.remainingFrom, Compositor.remainingFrom, if_pos hkept]
        by_cases hpx : parent = x
        · subst hpx
          have hsx : s ≠ parent := by
            rintro rfl
            exact not_child_of_self ha rfl
          rw [commit_kept_child rfl, stateOf_nil, if_neg (not_not.mpr rfl)]
          refine h.remainingFrom_commit_self hhas fun _ => ?_
          rwa [stateOf_updateOf_of_ne hsx, h.stateOf_children ha rfl]
        · rw [advance_way_of_ne hpx, if_pos, commit_way]
          rw [commit_kept]
          split
          case isTrue hax =>
            rw [stateOf_append, ← hax.1]
            intro hnil
            exact hkept (List.append_eq_nil_iff.mp hnil).1
          case isFalse =>
            have hnot : (Surface.subsurface id parent).parent? ≠ some x := fun hp => hpx (Option.some.inj hp)
            rwa [if_neg hnot]

/-- A commit brings the newest request of a surface one step further if it is the one that the request waits for, and
changes nothing for it otherwise. -/
theorem Tidy.remaining_commit (h : Tidy me) (hhas : me.Has x) (s : Surface) :
    (me.commit x).remaining s = advance x (me.remaining s) := by
  rw [Compositor.remaining, Compositor.remaining, commit_pending]
  by_cases hpending : me.pending s = []
  · rw [hpending, ite_self, if_neg (not_not.mpr rfl), if_neg (not_not.mpr rfl)]
    refine h.remainingFrom_commit hhas hpending s.self_mem_chain fun c hc hcs => ?_
    exact absurd hcs (not_child_of_self hc)
  · rw [if_pos hpending]
    by_cases hsx : s = x
    · subst hsx
      rw [if_pos rfl, if_neg (not_not.mpr rfl)]
      refine h.remainingFrom_commit_self hhas fun _ => ?_
      rwa [h.stateOf_updateOf_self]
    · rw [if_neg hsx, if_pos hpending, commit_way, advance_way_of_ne hsx]

/-- The requests of a list of commits. -/
def commits (cs : List Surface) : List (Request α) := cs.map .commit

theorem requested_commits (cs : List Surface) (s : Surface) : requested (commits cs : List (Request α)) s = [] := by
  rw [requested, List.filterMap_eq_nil_iff]
  intro r hr
  obtain ⟨x, -, rfl⟩ := List.mem_map.mp hr
  rfl

theorem advance_sublist (x : Surface) (ws cs : List Surface) : (advance x ws).Sublist cs ↔ ws.Sublist (x :: cs) := by
  cases ws with
  | nil => exact iff_of_true (List.nil_sublist _) (List.nil_sublist _)
  | cons w ws =>
      rw [advance]
      split
      case isTrue hwx =>
        rw [hwx]
        exact (List.cons_sublist_cons).symm
      case isFalse hwx =>
        constructor
        · exact List.Sublist.cons x
        · intro hsub
          cases hsub with
          | cons _ hsub => exact hsub
          | cons_cons _ hsub => exact absurd rfl hwx

/-- After commits of any surfaces in any order, everything requested of `s` is applied if and only if they include, in
this order, those that its newest request waits for. -/
theorem Tidy.applied_iff (h : Tidy me) {cs : List Surface} {you : Compositor α}
    (hrun : compositor.exec me (commits cs) = some you) (s : Surface) :
    you.active s = me.all s ↔ (me.remaining s).Sublist cs := by
  induction cs generalizing me with
  | nil =>
      obtain rfl := Option.some.inj hrun
      rw [List.sublist_nil, h.remaining_eq_nil]
  | cons x cs ih =>
      obtain ⟨u, hu, hrun⟩ := Option.bind_eq_some_iff.mp hrun
      obtain ⟨hx, rfl⟩ := step_inv hu
      have hall : (me.handle (.commit x)).all s = me.all s := h.all_commit x s
      have hremaining : (me.handle (.commit x)).remaining s = advance x (me.remaining s) := h.remaining_commit hx s
      rw [← hall, ih (h.handle hx) hrun, hremaining, advance_sublist]

end Way

end Wlcs.Subsurfaces
