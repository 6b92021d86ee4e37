import Mathlib.Data.List.Induction

/-!
# Event histories cut at marks

A stream of events in which some events are marks falls into groups: the groups closed by a mark and
the open group after the last mark.

* `openGroup mark es` : the events since the last mark;
* `closedPart mark es` : the events up to and including the last mark;
* `closedGroups mark es` : the groups closed by the marks, in order;
* `lastSome f es` : the value of `f` at the latest event at which it has one;
* `Since mark P es` : an event of which `P` holds has come after the last mark, or with it;
* `collect f es` : what the events give rise to, each in view of those before it.

Each comes with its `_concat` equation, which says how one more event changes it.
-/

namespace History
variable {E : Type*} {α : Type*}

/-- The value of `f` at the latest event at which it has one. -/
def lastSome (f : E → Option α) (es : List E) : Option α := es.reverse.findSome? f

@[simp] theorem lastSome_nil (f : E → Option α) : lastSome f [] = none := rfl

@[simp] theorem lastSome_concat (f : E → Option α) (es : List E) (e : E) :
    lastSome f (es ++ [e]) = (f e).or (lastSome f es) := by
  simp only [lastSome, List.reverse_append, List.reverse_singleton, List.singleton_append,
    List.findSome?_cons]
  cases f e <;> rfl

theorem lastSome_append (f : E → Option α) (es fs : List E) :
    lastSome f (es ++ fs) = (lastSome f fs).or (lastSome f es) := by
  simp [lastSome, List.findSome?_append]

theorem lastSome_eq_getLast? (f : E → Option α) (es : List E) : lastSome f es = (es.filterMap f).getLast? := by
  induction es using List.reverseRecOn with
  | nil => rfl
  | append_singleton es e ih =>
      rw [lastSome_concat, ih, List.filterMap_append]
      cases h : f e with
      | none => simp [h]
      | some a => simp [h]

/-- Reading the events through a map reads the value through it. -/
theorem lastSome_map {β : Type*} {f : E → Option α} {g : E → Option β} (k : β → α) {es : List E}
    (h : ∀ e ∈ es, f e = (g e).map k) : lastSome f es = (lastSome g es).map k := by
  induction es using List.reverseRecOn with
  | nil => rfl
  | append_singleton es e ih =>
      rw [lastSome_concat, lastSome_concat, h e (by simp), ih fun x hx => h x (by simp [hx])]
      cases g e <;> rfl

theorem lastSome_eq_none {f : E → Option α} {es : List E} :
    lastSome f es = none ↔ ∀ e ∈ es, f e = none := by
  simp [lastSome]

theorem lastSome_isSome {f : E → Option α} {es : List E} {e : E} (he : e ∈ es) (h : (f e).isSome) :
    (lastSome f es).isSome := by
  rw [Option.isSome_iff_ne_none] at h ⊢
  exact fun hnone => h (lastSome_eq_none.mp hnone e he)

theorem exists_of_lastSome_eq_some {f : E → Option α} {es : List E} {x : α} (h : lastSome f es = some x) :
    ∃ e ∈ es, f e = some x := by
  obtain ⟨e, he, hx⟩ := List.exists_of_findSome?_eq_some h
  exact ⟨e, List.mem_reverse.mp he, hx⟩

/-- An event of a longer history is one of the shorter, or the new one. -/
theorem concat_prefix_concat {pre es : List E} {x e : E} :
    pre ++ [x] <+: es ++ [e] ↔ (pre = es ∧ x = e) ∨ pre ++ [x] <+: es := by
  rw [List.prefix_concat_iff]
  apply or_congr_left
  constructor
  · intro h
    simpa using List.append_inj' h rfl
  · rintro ⟨rfl, rfl⟩
    rfl

theorem forall_concat_concat {P : List E → E → Prop} {es : List E} {e : E} :
    (∀ pre x, pre ++ [x] <+: es ++ [e] → P pre x) ↔ (∀ pre x, pre ++ [x] <+: es → P pre x) ∧ P es e := by
  constructor
  · intro h
    exact ⟨fun pre x hp => h pre x (hp.trans (List.prefix_append _ _)), h es e (List.prefix_refl _)⟩
  · rintro ⟨hes, he⟩ pre x hp
    rcases concat_prefix_concat.mp hp with ⟨rfl, rfl⟩ | hp
    · exact he
    · exact hes pre x hp

/-- What holds of every event after the events before it can be checked place by place. -/
theorem forall_concat_iff_take {P : List E → E → Prop} {es : List E} :
    (∀ pre e, pre ++ [e] <+: es → P pre e) ↔ ∀ i : Fin es.length, P (es.take i) (es.get i) := by
  constructor
  · intro h i
    refine h _ _ ?_
    rw [List.get_eq_getElem, List.take_append_getElem]
    exact List.take_prefix _ _
  · rintro h pre e ⟨rest, rfl⟩
    have hlt : pre.length < (pre ++ [e] ++ rest).length := by
      simp only [List.length_append, List.length_singleton]
      omega
    simpa using h ⟨pre.length, hlt⟩

/-- What holds of the empty history holds of every prefix exactly when no event breaks it where it still holds. -/
theorem forall_prefix_iff {P : List E → Prop} {C : List E → E → Prop} {es : List E} (init : P [])
    (step : ∀ pre e, pre ++ [e] <+: es → P pre → (P (pre ++ [e]) ↔ C pre e)) :
    (∀ pre, pre <+: es → P pre) ↔ ∀ pre e, pre ++ [e] <+: es → C pre e := by
  constructor
  · intro h pre e hp
    exact (step pre e hp (h pre ((List.prefix_append _ _).trans hp))).mp (h _ hp)
  · intro h pre
    induction pre using List.reverseRecOn with
    | nil => exact fun _ => init
    | append_singleton pre e ih =>
        intro hp
        exact (step pre e hp (ih ((List.prefix_append _ _).trans hp))).mpr (h pre e hp)

/-- Nothing is read twice from the events exactly when no event reads what one before it did. -/
theorem nodup_filterMap_iff {f : E → Option α} {es : List E} :
    (es.filterMap f).Nodup ↔ ∀ pre e a, pre ++ [e] <+: es → f e = some a → a ∉ pre.filterMap f := by
  induction es using List.reverseRecOn with
  | nil =>
      refine ⟨fun _ pre e a hp => ?_, fun _ => List.nodup_nil⟩
      simpa using hp.length_le
  | append_singleton es x ih =>
      have hlast : ((es ++ [x]).filterMap f).Nodup ↔
          (es.filterMap f).Nodup ∧ ∀ a, f x = some a → a ∉ es.filterMap f := by
        rw [List.filterMap_append, List.nodup_append]
        cases hx : f x with
        | none => simp [hx]
        | some b =>
            simp only [List.filterMap_cons, hx, List.filterMap_nil]
            constructor
            · rintro ⟨hes, -, h⟩
              refine ⟨hes, fun a ha hmem => ?_⟩
              obtain rfl := Option.some.inj ha
              exact h b hmem b List.mem_cons_self rfl
            · rintro ⟨hes, h⟩
              refine ⟨hes, by simp, fun a ha c hc hac => ?_⟩
              obtain rfl := List.mem_singleton.mp hc
              exact h c rfl (hac ▸ ha)
      rw [hlast, ih]
      constructor
      · rintro ⟨hes, hx⟩ pre e a hp he
        rcases concat_prefix_concat.mp hp with ⟨rfl, rfl⟩ | hp
        · exact hx a he
        · exact hes pre e a hp he
      · intro h
        exact ⟨fun pre e a hp => h pre e a (hp.trans (List.prefix_append _ _)), fun a => h es x a (List.prefix_refl _)⟩

variable (mark : E → Bool)

/-- The events since the last mark. -/
def openGroup (es : List E) : List E := (es.reverse.takeWhile (fun e => !mark e)).reverse

/-- The events up to and including the last mark. -/
def closedPart (es : List E) : List E := (es.reverse.dropWhile (fun e => !mark e)).reverse

@[simp] theorem openGroup_nil : openGroup mark [] = [] := rfl

@[simp] theorem closedPart_nil : closedPart mark [] = [] := rfl

theorem openGroup_concat (es : List E) (e : E) :
    openGroup mark (es ++ [e]) = if mark e then [] else openGroup mark es ++ [e] := by
  cases h : mark e <;> simp [openGroup, h]

theorem mark_of_mem_openGroup {es : List E} {e : E} (h : e ∈ openGroup mark es) : mark e = false := by
  induction es using List.reverseRecOn with
  | nil => cases h
  | append_singleton es x ih =>
      rw [openGroup_concat] at h
      split at h
      case isTrue => cases h
      case isFalse hx =>
        rcases List.mem_append.mp h with h | h
        · exact ih h
        · rw [List.mem_singleton.mp h]
          exact Bool.eq_false_iff.mpr hx

theorem closedPart_concat (es : List E) (e : E) :
    closedPart mark (es ++ [e]) = if mark e then es ++ [e] else closedPart mark es := by
  cases h : mark e <;> simp [closedPart, h]

theorem closedPart_concat_mark {e : E} (h : mark e = true) (es : List E) : closedPart mark (es ++ [e]) = es ++ [e] := by
  rw [closedPart_concat, if_pos h]

theorem closedPart_concat_of_not {e : E} (h : mark e = false) (es : List E) :
    closedPart mark (es ++ [e]) = closedPart mark es := by
  rw [closedPart_concat, h, if_neg Bool.false_ne_true]

theorem closedPart_append_openGroup (es : List E) : closedPart mark es ++ openGroup mark es = es := by
  rw [closedPart, openGroup, ← List.reverse_append, List.takeWhile_append_dropWhile, List.reverse_reverse]

/-- The groups closed by the marks, in order. -/
def closedGroups (es : List E) : List (List E) :=
  (es.foldl (fun (gs : List (List E) × List E) e =>
    if mark e then (gs.1 ++ [gs.2], []) else (gs.1, gs.2 ++ [e])) ([], [])).1

@[simp] theorem closedGroups_nil : closedGroups mark [] = [] := rfl

theorem cut_snd (es : List E) :
    (es.foldl (fun (gs : List (List E) × List E) e =>
      if mark e then (gs.1 ++ [gs.2], []) else (gs.1, gs.2 ++ [e])) ([], [])).2 = openGroup mark es := by
  induction es using List.reverseRecOn with
  | nil => rfl
  | append_singleton es e ih =>
      rw [List.foldl_append, openGroup_concat, ← ih]
      simp only [List.foldl_cons, List.foldl_nil]
      split <;> rfl

theorem closedGroups_concat (es : List E) (e : E) :
    closedGroups mark (es ++ [e]) =
      if mark e then closedGroups mark es ++ [openGroup mark es] else closedGroups mark es := by
  rw [← cut_snd, closedGroups, closedGroups, List.foldl_append]
  simp only [List.foldl_cons, List.foldl_nil]
  split <;> rfl

/-- An event of which `P` holds, given the events before it, has come and no mark after it. -/
def Since (P : List E → E → Prop) (es : List E) : Prop :=
  ∃ pre e post, es = pre ++ e :: post ∧ P pre e ∧ ∀ x ∈ post, mark x = false

variable {mark}

theorem not_since_nil {P : List E → E → Prop} : ¬ Since mark P [] := by
  rintro ⟨pre, e, post, heq, -⟩
  simp at heq

theorem since_concat {P : List E → E → Prop} {es : List E} {e : E} :
    Since mark P (es ++ [e]) ↔ P es e ∨ Since mark P es ∧ mark e = false := by
  constructor
  · rintro ⟨pre, x, post, heq, hx, hpost⟩
    rcases List.eq_nil_or_concat post with rfl | ⟨post, y, rfl⟩
    · obtain ⟨rfl, rfl⟩ : es = pre ∧ e = x := by simpa using List.append_inj' heq rfl
      exact Or.inl hx
    · rw [List.concat_eq_append, ← List.cons_append, ← List.append_assoc] at heq
      obtain ⟨rfl, rfl⟩ : es = pre ++ x :: post ∧ e = y := by simpa using List.append_inj' heq rfl
      exact Or.inr ⟨⟨pre, x, post, rfl, hx, fun z hz => hpost z (by simp [hz])⟩, hpost e (by simp)⟩
  · rintro (hx | ⟨⟨pre, x, post, rfl, hx, hpost⟩, he⟩)
    · exact ⟨es, e, [], rfl, hx, fun y hy => (by cases hy)⟩
    · refine ⟨pre, x, post ++ [e], by simp, hx, fun y hy => ?_⟩
      rcases List.mem_append.mp hy with hy | hy
      · exact hpost y hy
      · rwa [List.mem_singleton.mp hy]

/-- What the events give rise to after a history, each in view of those before it. -/
def collectFrom (f : List E → E → Option α) (before : List E) : List E → List α
  | [] => []
  | e :: es => (f before e).toList ++ collectFrom f (before ++ [e]) es

def collect (f : List E → E → Option α) (es : List E) : List α := collectFrom f [] es

@[simp] theorem collect_nil (f : List E → E → Option α) : collect f [] = [] := rfl

theorem collectFrom_concat (f : List E → E → Option α) (before es : List E) (e : E) :
    collectFrom f before (es ++ [e]) = collectFrom f before es ++ (f (before ++ es) e).toList := by
  induction es generalizing before with
  | nil => simp [collectFrom]
  | cons x es ih => simp [collectFrom, ih]

theorem collect_concat (f : List E → E → Option α) (es : List E) (e : E) :
    collect f (es ++ [e]) = collect f es ++ (f es e).toList :=
  collectFrom_concat f [] es e

end History
