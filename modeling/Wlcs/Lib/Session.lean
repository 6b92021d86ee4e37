import Mathlib.Data.List.Induction

/-!
# Sessions: words of `(opens a, moves*, closes b)*`

A stream of letters is *orderly* when it is a prefix of a word of complete sessions, each of which opens at some
`a`, moves any number of times and closes with a letter that matches `a`. `track` is the monitor of that language:
it holds what is open, and gives up at the first letter out of order. `orderly_iff_track` ties the two together.

`Reads` says that what is open, and which events are out of order, can be told from the events themselves; then
`Reads.orderly_concat` says what one more event does to the order.
-/

namespace Session
variable {A B : Type*}

inductive Letter (A B : Type*)
  | opens (a : A)
  | moves
  | closes (b : B)

/-- Words of complete sessions; `fits a b` says that `b` may close what `a` opened. -/
inductive Word (fits : A → B → Prop) : List (Letter A B) → Prop
  | nil : Word fits []
  | session {w : List (Letter A B)} {a : A} {b : B} (n : Nat) (hw : Word fits w) (hfit : fits a b) :
      Word fits (w ++ (.opens a :: List.replicate n .moves ++ [.closes b]))

/-- A prefix of a word of complete sessions. -/
def Orderly (fits : A → B → Prop) (ls : List (Letter A B)) : Prop := ∃ w, Word fits w ∧ ls <+: w

theorem Orderly.restrict {fits : A → B → Prop} {ls ms : List (Letter A B)} (h : Orderly fits ms) (hp : ls <+: ms) :
    Orderly fits ls := by
  obtain ⟨w, hw, hm⟩ := h
  exact ⟨w, hw, hp.trans hm⟩

variable (fits : A → B → Prop) [∀ a b, Decidable (fits a b)]

/-- One letter read with `o` open; `none` is a letter out of order. -/
def next (o : Option A) : Letter A B → Option (Option A)
  | .opens a => if o.isNone then some (some a) else none
  | .moves => if o.isSome then some o else none
  | .closes b =>
    match o with
    | some a => if fits a b then some none else none
    | none => none

/-- What is open after the letters, if they came in order. -/
def track (ls : List (Letter A B)) : Option (Option A) := ls.foldlM (next fits) none

@[simp] theorem track_nil : track fits ([] : List (Letter A B)) = some none := rfl

theorem track_append (ls ms : List (Letter A B)) :
    track fits (ls ++ ms) = (track fits ls).bind fun o => ms.foldlM (next fits) o := by
  simp [track, List.foldlM_append]

theorem track_concat (ls : List (Letter A B)) (l : Letter A B) :
    track fits (ls ++ [l]) = (track fits ls).bind (next fits · l) := by
  simp [track_append]

/-- The words read so far: complete sessions, then what is open with its moves. -/
inductive Reading (fits : A → B → Prop) : List (Letter A B) → Option A → Prop
  | between {w : List (Letter A B)} (hw : Word fits w) : Reading fits w none
  | inside {w : List (Letter A B)} (hw : Word fits w) (a : A) (n : Nat) :
      Reading fits (w ++ .opens a :: List.replicate n .moves) (some a)

theorem reading_of_track {ls : List (Letter A B)} {o : Option A} (h : track fits ls = some o) :
    Reading fits ls o := by
  induction ls using List.reverseRecOn generalizing o with
  | nil =>
      rw [track_nil, Option.some.injEq] at h
      exact h ▸ .between .nil
  | append_singleton ls l ih =>
      rw [track_concat] at h
      obtain ⟨p, hp, hl⟩ := Option.bind_eq_some_iff.mp h
      cases ih hp with
      | between hw =>
          cases l with
          | opens a =>
              obtain rfl : some a = o := by simpa [next] using hl
              exact .inside hw a 0
          | moves => simp [next] at hl
          | closes b => simp [next] at hl
      | inside hw a n =>
          cases l with
          | opens a' => simp [next] at hl
          | moves =>
              obtain rfl : some a = o := by simpa [next] using hl
              have := Reading.inside hw a (n + 1)
              rwa [List.replicate_succ', ← List.cons_append, ← List.append_assoc] at this
          | closes b =>
              obtain ⟨hfit, rfl⟩ : fits a b ∧ none = o := by simpa [next] using hl
              have := Word.session n hw hfit
              rw [← List.append_assoc] at this
              exact .between this

theorem track_replicate_moves (ls : List (Letter A B)) (a : A) (n : Nat) (h : track fits ls = some (some a)) :
    track fits (ls ++ List.replicate n .moves) = some (some a) := by
  induction n with
  | zero => simpa using h
  | succ n ih =>
      rw [List.replicate_succ', ← List.append_assoc, track_concat, ih]
      rfl

theorem track_word {w : List (Letter A B)} (hw : Word fits w) : track fits w = some none := by
  induction hw with
  | nil => rfl
  | @session w a b n _ hfit ih =>
      have hopen : track fits (w ++ [.opens a]) = some (some a) := by
        rw [track_concat, ih]
        rfl
      have hmoves := track_replicate_moves fits _ a n hopen
      rw [show w ++ (.opens a :: List.replicate n .moves ++ [.closes b]) =
        w ++ [.opens a] ++ List.replicate n .moves ++ [.closes b] by simp, track_concat, hmoves]
      simp [next, hfit]

theorem track_isSome_restrict {ls w : List (Letter A B)} (h : ls <+: w) (hw : (track fits w).isSome) :
    (track fits ls).isSome := by
  obtain ⟨t, rfl⟩ := h
  rw [track_append] at hw
  exact Option.isSome_of_isSome_bind hw

/-- The orderly streams are those that the monitor follows to the end, when every session can be closed. -/
theorem orderly_iff_track (hclose : ∀ a, ∃ b, fits a b) {ls : List (Letter A B)} :
    Orderly fits ls ↔ (track fits ls).isSome := by
  constructor
  · rintro ⟨w, hw, hp⟩
    exact track_isSome_restrict fits hp (by rw [track_word fits hw]; rfl)
  · intro h
    obtain ⟨o, ho⟩ := Option.isSome_iff_exists.mp h
    cases reading_of_track fits ho with
    | between hw => exact ⟨_, hw, List.prefix_refl _⟩
    | @inside w hw a n =>
        obtain ⟨b, hfit⟩ := hclose a
        refine ⟨_, Word.session n hw hfit, ⟨[.closes b], ?_⟩⟩
        simp

/-- `opened` is what the events have open and `bad` which events are out of order, where `letter` is what an event
contributes to the stream of letters. -/
structure Reads {E : Type*} (letter : E → Option (Letter A B)) (opened : List E → Option A) (bad : List E → E → Prop) :
    Prop where
  closable : ∀ a, ∃ b, fits a b
  nil : opened [] = none
  skips : ∀ es e, letter e = none → opened (es ++ [e]) = opened es ∧ ¬ bad es e
  reads : ∀ es e l, letter e = some l →
    bad es e ∧ next fits (opened es) l = none ∨ ¬ bad es e ∧ next fits (opened es) l = some (opened (es ++ [e]))

section Reads
variable {fits} {E : Type*} {letter : E → Option (Letter A B)} {opened : List E → Option A} {bad : List E → E → Prop}

theorem Reads.track_eq (h : Reads fits letter opened bad) {es : List E} (ho : Orderly fits (es.filterMap letter)) :
    track fits (es.filterMap letter) = some (opened es) := by
  induction es using List.reverseRecOn with
  | nil => rw [h.nil]; rfl
  | append_singleton es e ih =>
      rw [List.filterMap_append] at ho ⊢
      have ih := ih (ho.restrict (List.prefix_append _ _))
      cases hl : letter e with
      | none => simpa [List.filterMap_cons, hl, (h.skips es e hl).1] using ih
      | some l =>
          rw [orderly_iff_track fits h.closable] at ho
          simp only [List.filterMap_cons, hl, List.filterMap_nil, track_concat, ih, Option.bind_some] at ho ⊢
          rcases h.reads es e l hl with ⟨-, hnone⟩ | ⟨-, hsome⟩
          · simp [hnone] at ho
          · exact hsome

theorem Reads.orderly_concat (h : Reads fits letter opened bad) {es : List E} {e : E} :
    Orderly fits ((es ++ [e]).filterMap letter) ↔ Orderly fits (es.filterMap letter) ∧ ¬ bad es e := by
  constructor
  · intro ho
    rw [List.filterMap_append] at ho
    have hbefore := ho.restrict (List.prefix_append _ _)
    refine ⟨hbefore, ?_⟩
    cases hl : letter e with
    | none => exact (h.skips es e hl).2
    | some l =>
        rw [orderly_iff_track fits h.closable] at ho
        simp only [List.filterMap_cons, hl, List.filterMap_nil, track_concat, h.track_eq hbefore,
          Option.bind_some] at ho
        rcases h.reads es e l hl with ⟨-, hnone⟩ | ⟨hok, -⟩
        · simp [hnone] at ho
        · exact hok
  · rintro ⟨hbefore, hok⟩
    rw [List.filterMap_append]
    cases hl : letter e with
    | none => simpa [List.filterMap_cons, hl] using hbefore
    | some l =>
        rw [orderly_iff_track fits h.closable]
        simp only [List.filterMap_cons, hl, List.filterMap_nil, track_concat, h.track_eq hbefore, Option.bind_some]
        rcases h.reads es e l hl with ⟨hbad, -⟩ | ⟨-, hsome⟩
        · exact absurd hbad hok
        · rw [hsome]
          rfl

end Reads

end Session
