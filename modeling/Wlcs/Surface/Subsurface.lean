import Mathlib.Data.List.Basic
import Wlcs.Surface.ContentUpdates

/-!
# Sub-surfaces

`Subsurface::create_visible` requests the state of a new sub-surface and then commits it, its parent and so on, so that
it is shown whatever its ancestors are. `SubsurfaceBuilder` sets the sub-surface to `desync`, so that its tests need not
know that it has a parent.

* `create_visible_applied` : all that was requested of the sub-surface and its ancestors is applied;
* `position_applied_iff` : the commits after which a sub-surface has moved, in any tree, among them those of
  `SubsurfaceMultilevelTest`;
* `build_commit_applied` : a commit of what `SubsurfaceBuilder` returns is enough, as long as nobody calls `set_sync`.
-/

namespace Wlcs.Subsurfaces
open EventMachine

/-- The double-buffered state that the sub-surfaces of the client use. -/
inductive State
  /-- the surface gets a sub-surface -/
  | add (subsurface : Surface)
  /-- a sub-surface of the surface moves -/
  | position (subsurface : Surface) (x y : Int)
  | attach (width height : Int)
  | frame
deriving DecidableEq, Repr

/-- `Subsurface::Subsurface` -/
def newSubsurface (id : Nat) (parent : Surface) : List (Request State) :=
  [.getSubsurface (.subsurface id parent), .change parent (.add (.subsurface id parent))]

/-- `wl_subsurface_set_position` -/
def setPosition (id : Nat) (parent : Surface) (x y : Int) : Request State :=
  .change parent (.position (.subsurface id parent) x y)

/-- The loop of `create_visible`. -/
def commitLoop : Surface → List (Request State)
  | .surface id => [.commit (.surface id)]
  | .subsurface id parent => .commit (.subsurface id parent) :: commitLoop parent

/-- What `create_visible` requests before its loop. -/
def visible (id : Nat) (parent : Surface) (x y width height : Int) : List (Request State) :=
  newSubsurface id parent ++
    [setPosition id parent x y,
      .change (.subsurface id parent) (.attach width height),
      .change (.subsurface id parent) .frame]

def createVisible (id : Nat) (parent : Surface) (x y width height : Int) : List (Request State) :=
  visible id parent x y width height ++ commitLoop (.subsurface id parent)

/-- What `SubsurfaceBuilder::build` does once it has a main surface. -/
def build (id main : Nat) (offset size : Int × Int) : List (Request State) :=
  createVisible id (.surface main) offset.1 offset.2 size.1 size.2 ++ [.setDesync (.subsurface id (.surface main))]

section Runs
variable {me you : Compositor State} {id : Nat} {parent : Surface}

theorem commitLoop_eq (s : Surface) : commitLoop s = commits s.chain := by
  induction s with
  | surface id => rfl
  | subsurface id parent ih =>
      rw [commitLoop, ih]
      rfl

/-- The ancestors of a surface that the compositor knows are known to it. -/
theorem Tidy.has_of_mem_chain (h : Tidy me) {a s : Surface} (hs : me.Has s) (ha : a ∈ s.chain) : me.Has a := by
  induction s with
  | surface id =>
      rw [List.mem_singleton.mp ha]
      exact hs
  | subsurface id parent ih =>
      rcases List.mem_cons.mp ha with rfl | ha
      · exact hs
      · have hmem : .subsurface id parent ∈ me.subsurfaces := hs.resolve_left (Option.some_ne_none parent)
        exact ih (h.parents _ hmem parent rfl) ha

/-- The surfaces that the compositor knows may be changed and committed. -/
theorem exec_known {rs : List (Request State)}
    (h : ∀ r ∈ rs, ∃ s, me.Has s ∧ ((∃ state, r = .change s state) ∨ r = .commit s)) :
    ∃ you, you.subsurfaces = me.subsurfaces ∧ compositor.exec me rs = some you := by
  induction rs generalizing me with
  | nil => exact ⟨me, rfl, rfl⟩
  | cons r rs ih =>
      obtain ⟨hr, hsame⟩ : me.Allowed r ∧ (me.handle r).subsurfaces = me.subsurfaces := by
        obtain ⟨s, hs, ⟨state, rfl⟩ | rfl⟩ := h r List.mem_cons_self
        · exact ⟨hs, rfl⟩
        · exact ⟨hs, commit_subsurfaces me s⟩
      have hrest : ∀ r' ∈ rs, ∃ s, (me.handle r).Has s ∧ ((∃ state, r' = .change s state) ∨ r' = .commit s) := by
        intro r' hr'
        obtain ⟨s, hs, hrs⟩ := h r' (List.mem_cons_of_mem r hr')
        rw [Compositor.Has, ← hsame] at hs
        exact ⟨s, hs, hrs⟩
      obtain ⟨you, hyou, hrun⟩ := ih hrest
      refine ⟨you, hyou.trans hsame, ?_⟩
      rw [compositor.exec_step (if_pos hr)]
      exact hrun

theorem Tidy.exec_commits (h : Tidy me) {s : Surface} (hs : me.Has s) :
    ∃ you, you.subsurfaces = me.subsurfaces ∧ compositor.exec me (commits s.chain) = some you := by
  refine exec_known fun r hr => ?_
  obtain ⟨a, ha, rfl⟩ := List.mem_map.mp hr
  exact ⟨a, h.has_of_mem_chain hs ha, Or.inr rfl⟩

/-- Everything is applied after the commits of a surface and its ancestors. -/
theorem Tidy.commits_chain_applied (h : Tidy me) {s a : Surface} (ha : a ∈ s.chain)
    (hrun : compositor.exec me (commits s.chain) = some you) : you.active a = me.all a :=
  (h.applied_iff hrun a).mpr ((remaining_sublist_chain me a).trans (Surface.chain_sublist ha))

/-- What `create_visible` requests is allowed. -/
theorem exec_visible (hparent : me.Has parent) (hid : .subsurface id parent ∉ me.subsurfaces) (x y width height : Int) :
    ∃ you, you.Has (.subsurface id parent) ∧ compositor.exec me (visible id parent x y width height) = some you := by
  have hget : me.Allowed (.getSubsurface (.subsurface id parent)) := by
    refine ⟨hid, Option.some_ne_none parent, fun p hp => ?_⟩
    rw [← Option.some.inj hp]
    exact hparent
  have hmem : .subsurface id parent ∈ (me.handle (.getSubsurface (.subsurface id parent))).subsurfaces :=
    List.mem_append_right _ (List.mem_singleton_self _)
  have hpar : (me.handle (.getSubsurface (.subsurface id parent))).Has parent :=
    hparent.imp_right (List.mem_append_left _)
  have hknown : ∀ r ∈ [Request.change parent (.add (.subsurface id parent)), setPosition id parent x y,
      .change (.subsurface id parent) (.attach width height), .change (.subsurface id parent) .frame],
      ∃ s, (me.handle (.getSubsurface (.subsurface id parent))).Has s ∧
        ((∃ state, r = .change s state) ∨ r = .commit s) := by
    intro r hr
    simp only [List.mem_cons, List.not_mem_nil, or_false] at hr
    rcases hr with rfl | rfl | rfl | rfl
    · exact ⟨parent, hpar, Or.inl ⟨_, rfl⟩⟩
    · exact ⟨parent, hpar, Or.inl ⟨_, rfl⟩⟩
    · exact ⟨_, Or.inr hmem, Or.inl ⟨_, rfl⟩⟩
    · exact ⟨_, Or.inr hmem, Or.inl ⟨_, rfl⟩⟩
  obtain ⟨you, hsame, hrun⟩ := exec_known hknown
  rw [← hsame] at hmem
  refine ⟨you, Or.inr hmem, ?_⟩
  rw [visible, newSubsurface, List.cons_append, compositor.exec_step (if_pos hget)]
  exact hrun

/-- When `create_visible` has sent its last commit, the new sub-surface has its buffer, its frame callback and its place,
and nothing that was requested of one of its ancestors before is left to be applied. -/
theorem create_visible_applied {rs : List (Request State)} (hrun : compositor.exec {} rs = some me)
    (hparent : me.Has parent) (hid : .subsurface id parent ∉ me.subsurfaces) (x y width height : Int) :
    ∃ you, compositor.exec {} (rs ++ createVisible id parent x y width height) = some you ∧
      ∀ a ∈ (Surface.subsurface id parent).chain,
        you.active a = requested (rs ++ createVisible id parent x y width height) a := by
  obtain ⟨u, hhas, hu⟩ := exec_visible hparent hid x y width height
  have hrun' := compositor.exec_append {} rs (visible id parent x y width height)
  rw [hrun, Option.bind_some, hu] at hrun'
  have htidy : Tidy u := Tidy.init.exec hrun'
  obtain ⟨you, -, hyou⟩ := htidy.exec_commits hhas
  rw [createVisible, commitLoop_eq, ← List.append_assoc]
  refine ⟨you, ?_, fun a ha => ?_⟩
  · rw [compositor.exec_append, hrun', Option.bind_some, hyou]
  · rw [htidy.commits_chain_applied ha hyou, requested_eq hrun', requested_append _ (commits _), requested_commits,
      List.append_nil]

/-- Two levels of sub-surfaces, the lower one `desync`, and one more at the bottom. -/
theorem create_visible_applied_nested :
    ∃ you, compositor.exec {} (build 1 0 (4, 4) (8, 8) ++
        createVisible 2 (.subsurface 1 (.surface 0)) 20 20 100 50) = some you ∧
      ∀ a ∈ (Surface.subsurface 2 (.subsurface 1 (.surface 0))).chain,
        you.active a = requested (build 1 0 (4, 4) (8, 8) ++
          createVisible 2 (.subsurface 1 (.surface 0)) 20 20 100 50) a :=
  create_visible_applied rfl (by decide) (by decide) 20 20 100 50

/-- A sub-surface moves when the commits, of whatever surfaces and in whatever order, include that of its parent and then
those of the surfaces above, up to the first that does not behave as synchronized. -/
theorem position_applied_iff {rs : List (Request State)} (cs : List Surface) {x y : Int}
    (hrun : compositor.exec {} rs = some me)
    (hmove : compositor.exec me (setPosition id parent x y :: commits cs) = some you) :
    you.active parent = requested rs parent ++ [.position (.subsurface id parent) x y] ↔
      (me.way parent).Sublist cs := by
  obtain ⟨u, hu, hcs⟩ := Option.bind_eq_some_iff.mp hmove
  obtain ⟨hallowed, rfl⟩ := step_inv hu
  have htidy : Tidy me := Tidy.init.exec hrun
  have hway : (me.handle (setPosition id parent x y)).remaining parent = me.way parent := by
    rw [Compositor.remaining, if_pos]
    · exact way_congr (show (me.handle (setPosition id parent x y)).desync = me.desync from rfl) parent
    · simp [setPosition, Compositor.handle]
  have hall := htidy.all_handle (setPosition id parent x y) parent
  rw [requested_eq hrun] at hall
  have hnew : requested [setPosition id parent x y] parent = [.position (.subsurface id parent) x y] := by
    simp [requested, setPosition]
  rw [← hway, ← (htidy.handle hallowed).applied_iff hcs, hall, hnew]

/-- A test of the suite `SubsurfaceMultilevelTest`: what it requests before it moves the child, the surfaces that it
commits then, and whether it expects the child to have moved. -/
structure MultilevelTest where
  name : String
  before : List (Request State) := []
  committed : List Surface
  moves : Bool

namespace Multilevel

def mainSurface : Surface := .surface 0

def parentSubsurface : Surface := .subsurface 1 mainSurface

def childSubsurface : Surface := .subsurface 2 parentSubsurface

/-- The constructor of the fixture. -/
def fixture : List (Request State) := createVisible 1 mainSurface 0 0 50 50 ++ createVisible 2 parentSubsurface 0 0 50 50

def tests : List MultilevelTest := [
  { name := "subsurface_with_sync_parent_does_not_move_when_only_grandparent_committed"
    committed := [mainSurface], moves := false },
  { name := "subsurface_with_desync_parent_does_not_move_when_only_grandparent_committed"
    before := [.setDesync parentSubsurface], committed := [mainSurface], moves := false },
  { name := "subsurface_with_sync_parent_does_not_move_when_only_parent_committed"
    committed := [parentSubsurface], moves := false },
  { name := "subsurface_with_desync_parent_moves_when_only_parent_committed"
    before := [.setDesync parentSubsurface], committed := [parentSubsurface], moves := true },
  { name := "subsurface_does_not_move_when_grandparent_commit_is_before_sync_parent_commit"
    committed := [mainSurface, parentSubsurface], moves := false },
  { name := "subsurface_moves_after_both_sync_parent_and_grandparent_commit"
    committed := [parentSubsurface, mainSurface], moves := true },
  { name := "by_default_subsurface_is_sync", committed := [parentSubsurface], moves := false },
  { name := "subsurface_can_be_set_to_sync"
    before := [.setDesync childSubsurface, .setSync childSubsurface], committed := [parentSubsurface], moves := false }]

end Multilevel

/-- The compositor of the protocol does what the test expects. -/
def MultilevelTest.Passes (test : MultilevelTest) : Prop :=
  ∃ me you, compositor.exec {} (Multilevel.fixture ++ test.before) = some me ∧
    compositor.exec me (setPosition 2 Multilevel.parentSubsurface 20 20 :: commits test.committed) = some you ∧
    (you.active Multilevel.parentSubsurface =
        requested (Multilevel.fixture ++ test.before) Multilevel.parentSubsurface ++
          [.position Multilevel.childSubsurface 20 20] ↔ test.moves = true)

/-- The child moves in the tests that expect it to move, and in no other. -/
theorem position_applied_iff_multilevel : Multilevel.tests.Forall MultilevelTest.Passes := by
  have hpasses (test : MultilevelTest) {me you : Compositor State}
      (hrun : compositor.exec {} (Multilevel.fixture ++ test.before) = some me)
      (hmove : compositor.exec me (setPosition 2 Multilevel.parentSubsurface 20 20 :: commits test.committed) = some you)
      (hmoves : (me.way Multilevel.parentSubsurface).Sublist test.committed ↔ test.moves = true) : test.Passes :=
    ⟨me, you, hrun, hmove, (position_applied_iff test.committed hrun hmove).trans hmoves⟩
  refine List.forall_iff_forall_mem.mpr fun test htest => ?_
  simp only [Multilevel.tests, List.mem_cons, List.not_mem_nil, or_false] at htest
  rcases htest with rfl | rfl | rfl | rfl | rfl | rfl | rfl | rfl
  all_goals exact hpasses _ rfl rfl (by decide)

/-- A sub-surface stays `desync` until `set_sync`. -/
theorem handle_desync {s : Surface} {r : Request State} (hr : r ≠ .setSync s) (h : me.desync s = true) :
    (me.handle r).desync s = true := by
  cases r with
  | getSubsurface x => exact h
  | change x state => exact h
  | commit x =>
      rw [Compositor.handle, commit_desync]
      exact h
  | setSync x =>
      have hsx : s ≠ x := by
        rintro rfl
        exact hr rfl
      simp only [Compositor.handle, Function.update_of_ne hsx]
      exact h
  | setDesync x =>
      simp only [Compositor.handle, Compositor.release, Function.update_apply]
      split
      · rfl
      · exact h

theorem handle_subsurfaces {s : Surface} (r : Request State) (h : s ∈ me.subsurfaces) : s ∈ (me.handle r).subsurfaces := by
  cases r with
  | getSubsurface x => exact List.mem_append_left _ h
  | change x state => exact h
  | commit x =>
      rw [Compositor.handle, commit_subsurfaces]
      exact h
  | setSync x => exact h
  | setDesync x => exact h

theorem exec_desync {s : Surface} {rs : List (Request State)} (hrun : compositor.exec me rs = some you)
    (hrs : .setSync s ∉ rs) (hmem : s ∈ me.subsurfaces) (hdesync : me.desync s = true) :
    s ∈ you.subsurfaces ∧ you.desync s = true := by
  induction rs generalizing me with
  | nil =>
      obtain rfl := Option.some.inj hrun
      exact ⟨hmem, hdesync⟩
  | cons r rs ih =>
      obtain ⟨u, hu, hrun⟩ := Option.bind_eq_some_iff.mp hrun
      obtain ⟨-, rfl⟩ := step_inv hu
      rw [List.mem_cons, not_or] at hrs
      obtain ⟨hr, hrs⟩ := hrs
      exact ih hrun hrs (handle_subsurfaces r hmem) (handle_desync (Ne.symm hr) hdesync)

/-- What `SubsurfaceBuilder::build` returns needs no commit but its own. -/
theorem build_commit_applied {rs later : List (Request State)} {main : Nat} {offset size : Int × Int}
    (hrun : compositor.exec {} (rs ++ build id main offset size ++ later) = some me)
    (hlater : .setSync (.subsurface id (.surface main)) ∉ later) :
    ∃ you, compositor.exec me [.commit (.subsurface id (.surface main))] = some you ∧
      you.active (.subsurface id (.surface main)) =
        requested (rs ++ build id main offset size ++ later) (.subsurface id (.surface main)) := by
  have hrun' := hrun
  rw [build, ← List.append_assoc, compositor.exec_append] at hrun'
  obtain ⟨u, hu, hlater'⟩ := Option.bind_eq_some_iff.mp hrun'
  obtain ⟨v, -, hset⟩ := compositor.exec_concat_eq_some hu
  obtain ⟨hmem, rfl⟩ := step_inv hset
  obtain ⟨hmem, hdesync⟩ := exec_desync hlater' hlater hmem (by simp [Compositor.handle, Compositor.release])
  have htidy : Tidy me := Tidy.init.exec hrun
  have hstep : compositor.step me (.commit (.subsurface id (.surface main))) =
      some (me.commit (.subsurface id (.surface main))) := if_pos (Or.inr hmem)
  have hsync : me.synchronized (.subsurface id (.surface main)) = false := by
    simp [Compositor.synchronized, hdesync]
  have hone : compositor.exec me (commits [.subsurface id (.surface main)]) =
      some (me.commit (.subsurface id (.surface main))) := by
    rw [commits, List.map_singleton, compositor.exec_step hstep, Guarded.exec_nil]
  refine ⟨_, hone, ?_⟩
  rw [← requested_eq hrun]
  refine (htidy.applied_iff hone _).mpr ?_
  rw [Compositor.remaining]
  split
  · simp [Compositor.way, hsync]
  · rw [htidy.remainingFrom_desync hsync]
    exact List.nil_sublist _

/-- A new buffer for it, while the main surface has other things to commit. -/
theorem build_commit_applied_attach :
    ∃ me you,
      compositor.exec {} ([] ++ build 1 0 (7, 12) (40, 40) ++
        [.change (.surface 0) .frame, .change (.subsurface 1 (.surface 0)) (.attach 30 30)]) = some me ∧
      compositor.exec me [.commit (.subsurface 1 (.surface 0))] = some you ∧
      you.active (.subsurface 1 (.surface 0)) = [.attach 40 40, .frame, .attach 30 30] := by
  obtain ⟨me, hme⟩ : ∃ me, compositor.exec {} ([] ++ build 1 0 (7, 12) (40, 40) ++
      [.change (.surface 0) .frame, .change (.subsurface 1 (.surface 0)) (.attach 30 30)]) = some me := ⟨_, rfl⟩
  obtain ⟨you, hyou, hactive⟩ := build_commit_applied hme (by decide)
  exact ⟨me, you, hme, hyou, hactive⟩

end Runs

end Wlcs.Subsurfaces
