import Mathlib.Algebra.Group.Int.Defs
import Wlcs.Client.State
import Wlcs.Lib.OrdMap

/-!
# `touched_window`

The loop of `touched_window` goes over the active touches in the order of their ids and throws when a touch is on another
surface than the one before. A null pointer in its candidate stands for no touch seen yet, but a touch may itself be on
a null pointer: its surface was destroyed before the touch arrived.

* `touchedWindow_eq` : the loop throws unless each touch that is on a surface is followed by others on it;
* `NullAndOne` : some touches on null pointers, and all others on one surface;
* `touched_window_by_surfaces_iff` : the ids do not matter, and the loop throws for different surfaces, exactly
  if the touches are not of that kind.
-/

namespace Wlcs
open Std

/-- One turn of the loop. -/
def nextTouched (surface touched : SurfacePtr) : Except String SurfacePtr :=
  if surface.isSome && touched ≠ surface then .error "Multiple surfaces have active touches" else .ok touched

def TouchTracking.touchedWindow (me : TouchTracking) : Except String SurfacePtr :=
  me.currentTouches.toList.foldlM (fun surface touch => nextTouched surface touch.2.surface) none

namespace TouchedWindow

/-- A touch on the second surface may follow one on the first. -/
def Follows (surface touched : SurfacePtr) : Prop := surface = none ∨ touched = surface

instance (surface touched : SurfacePtr) : Decidable (Follows surface touched) :=
  inferInstanceAs (Decidable (surface = none ∨ touched = surface))

instance : Trans Follows Follows Follows where
  trans := by
    intro a b c hab hbc
    rcases hab with rfl | rfl
    · exact Or.inl rfl
    · exact hbc

theorem nextTouched_of_follows {surface touched : SurfacePtr} (h : Follows surface touched) :
    nextTouched surface touched = .ok touched := by
  rcases h with rfl | rfl <;> simp [nextTouched]

theorem nextTouched_of_not_follows {surface touched : SurfacePtr} (h : ¬ Follows surface touched) :
    nextTouched surface touched = .error "Multiple surfaces have active touches" := by
  cases surface with
  | none => exact absurd (Or.inl rfl) h
  | some surface =>
      have hne : touched ≠ some surface := fun heq => h (Or.inr heq)
      simp [nextTouched, hne]

theorem foldlM_nextTouched (surfaces : List SurfacePtr) (surface : SurfacePtr) :
    surfaces.foldlM nextTouched surface =
      if (surface :: surfaces).IsChain Follows then .ok (surfaces.getLastD surface)
      else .error "Multiple surfaces have active touches" := by
  induction surfaces generalizing surface with
  | nil => rfl
  | cons touched surfaces ih =>
      rw [List.foldlM_cons]
      by_cases h : Follows surface touched
      · rw [nextTouched_of_follows h]
        show surfaces.foldlM nextTouched touched = _
        rw [ih, List.getLastD_cons]
        simp only [List.isChain_cons_cons, h, true_and]
      · rw [nextTouched_of_not_follows h, if_neg]
        · rfl
        · intro hchain
          exact h (List.isChain_cons_cons.mp hchain).1

/-- The surfaces of the active touches, in the order of the ids. -/
def surfaces (touches : TreeMap Int SurfaceLocation) : List SurfacePtr := touches.toList.map (·.2.surface)

/-- The loop returns the last surface if every touch may follow those before it. -/
theorem touchedWindow_eq (me : TouchTracking) :
    me.touchedWindow =
      if (surfaces me.currentTouches).Pairwise Follows then .ok ((surfaces me.currentTouches).getLastD none)
      else .error "Multiple surfaces have active touches" := by
  have hfold : me.touchedWindow = (surfaces me.currentTouches).foldlM nextTouched none := by
    rw [surfaces, List.foldlM_map]
    rfl
  have hchain : (none :: surfaces me.currentTouches).IsChain Follows ↔
      (surfaces me.currentTouches).Pairwise Follows := by
    rw [List.isChain_iff_pairwise, List.pairwise_cons]
    exact and_iff_right fun _ _ => Or.inl rfl
  rw [hfold, foldlM_nextTouched]
  simp only [hchain]

/-! ## The set of the surfaces -/

/-- Some touch is on a null pointer, some touch is not, and all those that are not are on the same surface. -/
def NullAndOne (touches : TreeMap Int SurfaceLocation) : Prop :=
  ∃ surface : Nat, none ∈ surfaces touches ∧ some surface ∈ surfaces touches ∧
    ∀ touched ∈ surfaces touches, touched = none ∨ touched = some surface

/-- Two touches are on different surfaces. -/
def Differ (touches : TreeMap Int SurfaceLocation) : Prop :=
  ∃ a ∈ touches.toList, ∃ b ∈ touches.toList, a.2.surface ≠ b.2.surface

theorem differ_iff (touches : TreeMap Int SurfaceLocation) :
    Differ touches ↔ ∃ x ∈ surfaces touches, ∃ y ∈ surfaces touches, x ≠ y := by
  simp only [Differ, surfaces, List.mem_map, exists_exists_and_eq_and]

theorem follows_of_not_differ {touches : TreeMap Int SurfaceLocation} (h : ¬ Differ touches) :
    (surfaces touches).Pairwise Follows := by
  apply List.pairwise_of_forall_mem_list
  intro x hx y hy
  right
  by_contra hne
  exact h ((differ_iff touches).mpr ⟨y, hy, x, hx, hne⟩)

/-- The only different surfaces that the loop lets pass are null pointers and one other. -/
theorem nullAndOne_of_follows {touches : TreeMap Int SurfaceLocation} (h : (surfaces touches).Pairwise Follows)
    (hdiffer : Differ touches) : NullAndOne touches := by
  have hfollows : (surfaces touches).Pairwise fun x y => x = none ∨ y = none ∨ x = y :=
    h.imp fun h => h.imp_right fun heq => Or.inr heq.symm
  have hflip : (surfaces touches).Pairwise (flip fun x y => x = none ∨ y = none ∨ x = y) :=
    h.imp fun h => Or.inr (h.imp_right id)
  have hany : ∀ ⦃x⦄, x ∈ surfaces touches → ∀ ⦃y⦄, y ∈ surfaces touches → x = none ∨ y = none ∨ x = y :=
    List.Pairwise.forall_of_forall_of_flip (fun _ _ => Or.inr (Or.inr rfl)) hfollows hflip
  have hone : ∀ y, none ∈ surfaces touches → y ∈ surfaces touches → y ≠ none → NullAndOne touches := by
    intro y hnone hy hyne
    obtain ⟨surface, rfl⟩ := Option.ne_none_iff_exists'.mp hyne
    refine ⟨surface, hnone, hy, fun touched htouched => ?_⟩
    exact (hany htouched hy).imp_right fun h => h.resolve_left hyne
  obtain ⟨x, hx, y, hy, hne⟩ := (differ_iff touches).mp hdiffer
  rcases hany hx hy with hxnone | hynone | heq
  · subst hxnone
    exact hone y hx hy hne.symm
  · subst hynone
    exact hone x hy hx hne
  · exact absurd heq hne

theorem getLastD_eq_of_not_differ {touches touches' : TreeMap Int SurfaceLocation} (h : ¬ Differ touches)
    (hmem : ∀ surface, surface ∈ surfaces touches' ↔ surface ∈ surfaces touches) :
    (surfaces touches').getLastD none = (surfaces touches).getLastD none := by
  by_cases hempty : surfaces touches = []
  · have hempty' : surfaces touches' = [] := by
      apply List.eq_nil_iff_forall_not_mem.mpr
      intro surface hsurface
      rw [hmem, hempty] at hsurface
      exact List.not_mem_nil hsurface
    rw [hempty, hempty']
  · have hlast : ∀ l : List SurfacePtr, l ≠ [] → l.getLastD none ∈ l := by
      intro l hl
      rw [List.getLastD_eq_getLast?, List.getLast?_eq_some_getLast hl]
      exact List.getLast_mem hl
    have hempty' : surfaces touches' ≠ [] := by
      intro hnil
      have := (hmem _).mpr (hlast _ hempty)
      rw [hnil] at this
      exact List.not_mem_nil this
    by_contra hne
    exact h ((differ_iff touches).mpr ⟨_, (hmem _).mp (hlast _ hempty'), _, hlast _ hempty, hne⟩)

/-- Away from that kind of touches the outcome depends on the set of the surfaces. -/
theorem touchedWindow_congr {me me' : TouchTracking} (h : ¬ NullAndOne me.currentTouches)
    (hmem : ∀ surface, surface ∈ surfaces me'.currentTouches ↔ surface ∈ surfaces me.currentTouches) :
    me'.touchedWindow = me.touchedWindow := by
  have hdiffer : Differ me'.currentTouches ↔ Differ me.currentTouches := by
    simp only [differ_iff, hmem]
  have hnull : ¬ NullAndOne me'.currentTouches := by
    simp only [NullAndOne, hmem]
    exact h
  rw [touchedWindow_eq, touchedWindow_eq]
  by_cases hd : Differ me.currentTouches
  · rw [if_neg (fun hf => h (nullAndOne_of_follows hf hd)),
      if_neg (fun hf => hnull (nullAndOne_of_follows hf (hdiffer.mpr hd)))]
  · rw [if_pos (follows_of_not_differ hd), if_pos (follows_of_not_differ (fun hd' => hd (hdiffer.mp hd'))),
      getLastD_eq_of_not_differ hd hmem]

theorem throws_iff {me : TouchTracking} (h : ¬ NullAndOne me.currentTouches) :
    (∃ what, me.touchedWindow = .error what) ↔ Differ me.currentTouches := by
  rw [touchedWindow_eq]
  by_cases hd : Differ me.currentTouches
  · rw [if_neg (fun hf => h (nullAndOne_of_follows hf hd))]
    exact iff_of_true ⟨_, rfl⟩ hd
  · rw [if_pos (follows_of_not_differ hd)]
    exact iff_of_false (fun h => nomatch h) hd

/-! ## Other ids -/

/-- The id is an `int`. -/
def IsInt (id : Int) : Prop := -2 ^ 31 ≤ id ∧ id < 2 ^ 31

/-- The function gives each active touch an id of its own. -/
structure Renaming (touches : TreeMap Int SurfaceLocation) (f : Int → Int) : Prop where
  injective : ∀ a ∈ touches, ∀ b ∈ touches, f a = f b → a = b
  isInt : ∀ a ∈ touches, IsInt (f a)

def renamed (me : TouchTracking) (f : Int → Int) : TouchTracking :=
  { me with currentTouches := OrdMap.rename f me.currentTouches }

theorem mem_surfaces_rename {touches : TreeMap Int SurfaceLocation} {f : Int → Int} (hf : Renaming touches f)
    (surface : SurfacePtr) : surface ∈ surfaces (OrdMap.rename f touches) ↔ surface ∈ surfaces touches := by
  simp only [surfaces, List.mem_map]
  constructor
  · rintro ⟨e, he, rfl⟩
    obtain ⟨e', he', rfl⟩ := (OrdMap.mem_toList_rename hf.injective e).mp he
    exact ⟨e', he', rfl⟩
  · rintro ⟨e, he, rfl⟩
    exact ⟨(f e.1, e.2), (OrdMap.mem_toList_rename hf.injective _).mpr ⟨e, he, rfl⟩, rfl⟩

/-- Ids can be given to touches of that kind such that those on null pointers come first, and the loop throws nothing. -/
theorem exists_renaming_follows {touches : TreeMap Int SurfaceLocation} (hids : ∀ a ∈ touches, IsInt a)
    (h : NullAndOne touches) :
    ∃ f, Renaming touches f ∧ (surfaces (OrdMap.rename f touches)).Pairwise Follows := by
  obtain ⟨surface, hnone, hsome, hall⟩ := h
  have hmem : ∀ a, a ∈ touches.keys ↔ a ∈ touches := fun a => TreeMap.mem_keys
  have hsorted : touches.keys.Pairwise (· < ·) := TreeMap.ordered_keys.imp fun h => compare_eq_lt.mp h
  obtain ⟨f, hinto, hinj, hfirst⟩ := OrdMap.exists_rename_first Int.lt_irrefl hsorted
    fun id => decide (touches[id]?.bind SurfaceLocation.surface = none)
  have hf : Renaming touches f := by
    constructor
    · intro a ha b hb
      exact hinj a ((hmem a).mpr ha) b ((hmem b).mpr hb)
    · intro a ha
      exact hids _ ((hmem _).mp (hinto a ((hmem a).mpr ha)))
  have hat : ∀ e ∈ touches.toList, touches[e.1]?.bind SurfaceLocation.surface = e.2.surface ∧ e.1 ∈ touches.keys := by
    intro e he
    have hget := TreeMap.mem_toList_iff_getElem?_eq_some.mp he
    refine ⟨by rw [hget]; rfl, (hmem _).mpr ?_⟩
    rw [TreeMap.mem_iff_isSome_getElem?, hget]
    rfl
  refine ⟨f, hf, ?_⟩
  rw [surfaces, List.pairwise_map]
  apply (OrdMap.toList_sorted (OrdMap.rename f touches)).imp_of_mem
  intro x y hx hy hlt
  obtain ⟨a, ha, rfl⟩ := (OrdMap.mem_toList_rename hf.injective x).mp hx
  obtain ⟨b, hb, rfl⟩ := (OrdMap.mem_toList_rename hf.injective y).mp hy
  rcases hall _ (List.mem_map_of_mem ha) with hanone | hasome
  · exact Or.inl hanone
  · rcases hall _ (List.mem_map_of_mem hb) with hbnone | hbsome
    · -- the touch on a null pointer has the smaller id
      have hba := hfirst b.1 (hat b hb).2 a.1 (hat a ha).2 (by simp [hat b hb, hbnone]) (by simp [hat a ha, hasome])
      exact absurd (Int.lt_trans hlt hba) (Int.lt_irrefl _)
    · exact Or.inr (hbsome.trans hasome.symm)

/-- The ids of the touches make no difference to the outcome, and it is to throw for touches on different surfaces, exactly
if it is not the case that some touches are on null pointers and all others on one surface. -/
theorem touched_window_by_surfaces_iff (me : TouchTracking) (hids : ∀ id ∈ me.currentTouches, IsInt id) :
    ((∀ f, Renaming me.currentTouches f → (renamed me f).touchedWindow = me.touchedWindow) ∧
      ((∃ what, me.touchedWindow = .error what) ↔ Differ me.currentTouches)) ↔
      ¬ NullAndOne me.currentTouches := by
  constructor
  · rintro ⟨hsame, hthrows⟩ hnull
    obtain ⟨f, hf, hfollows⟩ := exists_renaming_follows hids hnull
    have hdiffer : Differ me.currentTouches := by
      obtain ⟨surface, hnone, hsome, -⟩ := hnull
      exact (differ_iff _).mpr ⟨_, hnone, _, hsome, Option.some_ne_none surface |>.symm⟩
    obtain ⟨what, hwhat⟩ := hthrows.mpr hdiffer
    have hreturns : (renamed me f).touchedWindow = .ok ((surfaces (renamed me f).currentTouches).getLastD none) := by
      rw [touchedWindow_eq]
      exact if_pos hfollows
    rw [← hsame f hf, hreturns] at hwhat
    cases hwhat
  · intro h
    exact ⟨fun f hf => touchedWindow_congr h (mem_surfaces_rename hf), throws_iff h⟩

/-- Two touches, on these surfaces. -/
def twoTouches (first second : SurfacePtr) : TouchTracking where
  currentTouches := (({} : TreeMap Int SurfaceLocation).insert 0 ⟨first, (0, 0)⟩).insert 1 ⟨second, (0, 0)⟩

theorem mem_twoTouches {first second : SurfacePtr} {id : Int} (h : id ∈ (twoTouches first second).currentTouches) :
    id = 0 ∨ id = 1 := by
  simp only [twoTouches, TreeMap.mem_insert, Std.compare_eq_iff_eq, TreeMap.not_mem_emptyc, or_false] at h
  omega

theorem isInt_twoTouches (first second : SurfacePtr) : ∀ id ∈ (twoTouches first second).currentTouches, IsInt id := by
  intro id hid
  have := mem_twoTouches hid
  unfold IsInt
  omega

theorem surfaces_twoTouches (first second : SurfacePtr) :
    surfaces (twoTouches first second).currentTouches = [first, second] := rfl

theorem touched_window_by_surfaces_iff_two :
    (∀ id ∈ (twoTouches (some 7) (some 8)).currentTouches, IsInt id) ∧
      ∀ f, Renaming (twoTouches (some 7) (some 8)).currentTouches f →
        (renamed (twoTouches (some 7) (some 8)) f).touchedWindow = (twoTouches (some 7) (some 8)).touchedWindow :=
  ⟨isInt_twoTouches _ _,
    ((touched_window_by_surfaces_iff (twoTouches (some 7) (some 8)) (isInt_twoTouches _ _)).mpr
      fun h => by simp [NullAndOne, surfaces_twoTouches] at h).1⟩

/-- A touch on a null pointer and one on a surface: exchanging their ids makes the loop throw. -/
theorem touched_window_depends_on_ids :
    Renaming (twoTouches none (some 7)).currentTouches (fun id => 1 - id) ∧
      Differ (twoTouches none (some 7)).currentTouches ∧
      (twoTouches none (some 7)).touchedWindow = .ok (some 7) ∧
      (renamed (twoTouches none (some 7)) fun id => 1 - id).touchedWindow =
        .error "Multiple surfaces have active touches" := by
  refine ⟨⟨fun a _ b _ h => by omega, fun a ha => ?_⟩, ?_, rfl, rfl⟩
  · have := mem_twoTouches ha
    unfold IsInt
    omega
  · rw [differ_iff, surfaces_twoTouches]
    exact ⟨none, by simp, some 7, by simp, by simp⟩

end TouchedWindow

end Wlcs
