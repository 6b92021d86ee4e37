import Wlcs.Lib.StdVector

/-!
# Release notifiers of a `ShmBuffer`

`on_release` calls every notifier, remembers where those stood that answered `false`, and then erases these one by one.
The positions are iterators into the vector that it erases from.
-/

namespace Wlcs.Buffer
open StdVector

section Release
variable {N : Type*} (returned : Nat → Bool)

/-- The first loop, from position `i` on: the notifiers called, and the positions of those that have expired.
`returned i` is what the notifier at position `i` answers. -/
def callNotifiers : Nat → List N → List N × List Nat
  | _, [] => ([], [])
  | i, notifier :: notifiers =>
    let (invoked, expired) := callNotifiers (i + 1) notifiers
    (notifier :: invoked, if returned i then expired else i :: expired)

/-- The notifiers called, and `release_notifiers` after the second loop. -/
def onRelease (releaseNotifiers : List N) : List N × Erasing N :=
  let (invoked, expired) := callNotifiers returned 0 releaseNotifiers
  (invoked, Erasing.eraseAll releaseNotifiers expired)

/-- The answers of `n` notifiers, from position `i` on. -/
def answers (i n : Nat) : List Bool := (List.range' i n).map returned

/-- The notifiers that answered `true`, in order. -/
def kept (i : Nat) (notifiers : List N) : List N :=
  ((notifiers.zip (answers returned i notifiers.length)).filter Prod.snd).map Prod.fst

/-- How many notifiers answer `false`. -/
def expirations (n : Nat) : Nat := (List.range n).countP fun i => !returned i

/-- What a release is to do: call each notifier once and in order, leave those that answered `true` in order, as
`notify_of_pointer_leave` does, and use no stale iterator. -/
structure Notified (releaseNotifiers : List N) (result : List N × Erasing N) : Prop where
  invoked : result.1 = releaseNotifiers
  vector : result.2.vector = some (kept returned 0 releaseNotifiers)
  same_as_idiom : result.2.vector = some (removeErase releaseNotifiers (answers returned 0 releaseNotifiers.length))
  not_stale : result.2.stale = []

variable {returned}

theorem callNotifiers_eq (i : Nat) (notifiers : List N) :
    callNotifiers returned i notifiers =
      (notifiers, (List.range' i notifiers.length).filter fun j => !returned j) := by
  induction notifiers generalizing i with
  | nil => rfl
  | cons notifier notifiers ih =>
      rw [callNotifiers, ih, List.length_cons, List.range'_succ]
      cases h : returned i <;> simp [h]

theorem kept_cons (i : Nat) (notifier : N) (notifiers : List N) :
    kept returned i (notifier :: notifiers) =
      if returned i then notifier :: kept returned (i + 1) notifiers else kept returned (i + 1) notifiers := by
  unfold kept answers
  rw [List.length_cons, List.range'_succ, List.map_cons, List.zip_cons_cons]
  cases h : returned i <;> simp

theorem kept_of_none {i : Nat} {notifiers : List N}
    (h : (List.range' i notifiers.length).filter (fun j => !returned j) = []) : kept returned i notifiers = notifiers := by
  induction notifiers generalizing i with
  | nil => rfl
  | cons notifier notifiers ih =>
      rw [List.length_cons, List.range'_succ] at h
      cases hi : returned i with
      | true =>
          rw [kept_cons, if_pos hi, ih (by simpa [hi] using h)]
      | false => simp [hi] at h

/-- One notifier has expired: erasing it leaves the others. -/
theorem kept_of_one {i j : Nat} {notifiers : List N}
    (h : (List.range' i notifiers.length).filter (fun j => !returned j) = [j]) :
    i ≤ j ∧ j < i + notifiers.length ∧ kept returned i notifiers = notifiers.eraseIdx (j - i) := by
  induction notifiers generalizing i with
  | nil => cases h
  | cons notifier notifiers ih =>
      rw [List.length_cons, List.range'_succ] at h
      cases hi : returned i with
      | false =>
          obtain ⟨rfl, hrest⟩ : i = j ∧
              (List.range' (i + 1) notifiers.length).filter (fun j => !returned j) = [] := by
            simpa [hi] using h
          rw [kept_cons, hi, if_neg Bool.false_ne_true, kept_of_none hrest, Nat.sub_self, List.eraseIdx_cons_zero]
          refine ⟨Nat.le_refl _, ?_, rfl⟩
          rw [List.length_cons]
          omega
      | true =>
          obtain ⟨hle, hlt, hkept⟩ := ih (by simpa [hi] using h)
          have hsub : j - i = j - (i + 1) + 1 := by omega
          rw [kept_cons, if_pos hi, hkept, hsub, List.eraseIdx_cons_succ]
          refine ⟨by omega, ?_, rfl⟩
          rw [List.length_cons]
          omega

theorem length_expired (n : Nat) :
    ((List.range' 0 n).filter fun j => !returned j).length = expirations returned n := by
  unfold expirations
  rw [← List.range_eq_range', List.countP_eq_length_filter]

theorem vector_of_expirations_le_one (notifiers : List N) (h : expirations returned notifiers.length ≤ 1) :
    (onRelease returned notifiers).2.vector = some (kept returned 0 notifiers) := by
  unfold onRelease
  rw [callNotifiers_eq]
  rw [← length_expired] at h
  dsimp only
  match hexpired : (List.range' 0 notifiers.length).filter fun j => !returned j with
  | [] =>
      rw [kept_of_none hexpired]
      rfl
  | [j] =>
      obtain ⟨-, hlt, hkept⟩ := kept_of_one hexpired
      rw [hkept]
      simp only [Erasing.eraseAll, Erasing.erase, List.foldl_cons, List.foldl_nil, Option.bind_some]
      rw [if_pos (by omega), Nat.sub_zero]
  | i :: j :: rest =>
      rw [hexpired] at h
      simp at h

/-- **A release calls each notifier once and keeps those that answer `true`**, exactly when at most one of them answers
`false`: the second erasure goes through an iterator that the first has made stale. -/
theorem release_notified_iff (releaseNotifiers : List N) (returned : Nat → Bool) :
    Notified returned releaseNotifiers (onRelease returned releaseNotifiers) ↔
      expirations returned releaseNotifiers.length ≤ 1 := by
  have hstale : (onRelease returned releaseNotifiers).2.stale = [] ↔
      expirations returned releaseNotifiers.length ≤ 1 := by
    unfold onRelease
    rw [callNotifiers_eq, ← length_expired]
    apply Erasing.stale_eq_nil_iff
    exact (List.pairwise_lt_range' (s := 0) (n := releaseNotifiers.length)).filter _
  constructor
  · intro h
    exact hstale.mp h.not_stale
  · intro h
    have hvector := vector_of_expirations_le_one releaseNotifiers h
    refine ⟨?_, hvector, ?_, hstale.mpr h⟩
    · unfold onRelease
      rw [callNotifiers_eq]
    · rw [hvector, removeErase_eq (by simp [answers])]
      rfl

/-- Two of three notifiers expire: the second of them stays, and the one that wanted to stay goes. -/
theorem wrong_notifier_erased :
    (onRelease (fun i => i == 2) ["first", "second", "third"]).2.vector = some ["second"] ∧
      (onRelease (fun _ => false) ["first", "second"]).2.vector = none ∧
      ¬ Notified (fun i => i == 2) ["first", "second", "third"]
        (onRelease (fun i => i == 2) ["first", "second", "third"]) := by
  refine ⟨by decide, by decide, fun h => ?_⟩
  exact absurd h.vector (by decide)

end Release

end Wlcs.Buffer
