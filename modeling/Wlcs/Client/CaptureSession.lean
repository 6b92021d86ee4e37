import Wlcs.Lib.Machine

/-!
# Constraints of a capture session

A capture session sends the constraints for buffers in batches, each of them closed by `done`. `ImageCopyCaptureSession`
of the capture tests keeps no pending state: the first constraint of a batch clears what the batch before has left, and
the others add to it. It takes no notice of the constraints for dma-buf buffers.

* `Session.handle` : the listener;
* `constraintsOf` : what a batch says about shared memory buffers;
* `reports_last_batch_iff` : when the tests read the constraints of the last batch.
-/

namespace Wlcs.Capture
open EventMachine History

inductive Event
  | bufferSize (width height : UInt32)
  | shmFormat (format : UInt32)
  | dmabufDevice
  | dmabufFormat (format : UInt32)
  | done
  | stopped
deriving DecidableEq, Repr

/-- `wlcs::Size`: its sides are signed. -/
abbrev Size := Int32 × Int32

/-- The members of `ImageCopyCaptureSession`. -/
structure Session where
  dirty : Bool := false
  stopped : Bool := false
  bufferSize : Option Size := none
  shmFormats : List UInt32 := []
deriving DecidableEq, Repr

namespace Session

def markDirty (self : Session) : Session :=
  if self.dirty then self else { self with dirty := true, bufferSize := none, shmFormats := [] }

/-- `listener` -/
def handle (self : Session) : Event → Session
  | .bufferSize width height => { self.markDirty with bufferSize := some (width.toInt32, height.toInt32) }
  | .shmFormat format => { self.markDirty with shmFormats := self.markDirty.shmFormats ++ [format] }
  | .dmabufDevice | .dmabufFormat _ => self
  | .done => { self with dirty := false }
  | .stopped => { self with stopped := true }

end Session

/-- The session after the events. -/
def received (es : List Event) : Session := es.foldl Session.handle {}

theorem received_concat (es : List Event) (e : Event) : received (es ++ [e]) = (received es).handle e := by
  rw [received, List.foldl_append]
  rfl

/-! ## Batches -/

def Event.isDone : Event → Bool
  | .done => true
  | _ => false

def Event.size? : Event → Option Size
  | .bufferSize width height => some (width.toInt32, height.toInt32)
  | _ => none

def Event.format? : Event → Option UInt32
  | .shmFormat format => some format
  | _ => none

/-- The event says something about shared memory buffers. -/
def Event.constrains (e : Event) : Bool := e.size?.isSome || e.format?.isSome

/-- The size and the formats that a batch asks for. -/
def constraintsOf (batch : List Event) : Option Size × List UInt32 :=
  (lastSome Event.size? batch, batch.filterMap Event.format?)

/-- The batches of a stream, with the open one. -/
def batches (es : List Event) : List (List Event) := closedGroups Event.isDone es ++ [openGroup Event.isDone es]

/-- The last batch that says something about shared memory buffers. -/
def told (es : List Event) : List Event :=
  (lastSome (fun batch : List Event => if batch.any Event.constrains then some batch else none) (batches es)).getD []

/-- What the tests read. -/
def Session.reported (self : Session) : Option Size × List UInt32 := (self.bufferSize, self.shmFormats)

theorem constraintsOf_concat (batch : List Event) (e : Event) :
    constraintsOf (batch ++ [e]) = (e.size?.or (constraintsOf batch).1, (constraintsOf batch).2 ++ e.format?.toList) := by
  rw [constraintsOf, lastSome_concat, List.filterMap_append]
  cases e with
  | _ => rfl

/-- A batch without constraints asks for nothing, and only such a batch. -/
theorem constraintsOf_eq_nothing {batch : List Event} :
    constraintsOf batch = (none, []) ↔ batch.any Event.constrains = false := by
  rw [constraintsOf, Prod.mk.injEq, lastSome_eq_none, List.filterMap_eq_nil_iff, List.any_eq_false]
  simp only [Event.constrains, Bool.or_eq_true, Option.isSome_iff_ne_none, not_or, not_not]
  exact ⟨fun h e he => ⟨h.1 e he, h.2 e he⟩, fun h => ⟨fun e he => (h e he).1, fun e he => (h e he).2⟩⟩

/-- A constraint belongs to the open batch, which is then the one that counts. -/
theorem told_concat (es : List Event) (e : Event) :
    told (es ++ [e]) =
      if e.isDone then told es
      else if (openGroup Event.isDone es ++ [e]).any Event.constrains then openGroup Event.isDone es ++ [e]
      else told es := by
  unfold told batches
  rw [closedGroups_concat, openGroup_concat]
  by_cases hdone : e.isDone = true
  · rw [if_pos hdone, if_pos hdone, if_pos hdone, lastSome_concat]
    rfl
  · rw [if_neg hdone, if_neg hdone, if_neg hdone, lastSome_concat, lastSome_concat]
    by_cases hany : (openGroup Event.isDone es ++ [e]).any Event.constrains = true
    · rw [if_pos hany, if_pos hany]
      rfl
    · have hbefore : ¬ (openGroup Event.isDone es).any Event.constrains = true := by
        intro hbefore
        apply hany
        rw [List.any_append, hbefore, Bool.true_or]
      rw [if_neg hany, if_neg hany, if_neg hbefore]

/-- The session after the events. -/
structure Tells (es : List Event) (session : Session) : Prop where
  reported : session.reported = constraintsOf (told es)
  dirty : session.dirty = (openGroup Event.isDone es).any Event.constrains
  stopped : session.stopped = true ↔ .stopped ∈ es

theorem told_of_constrained {es : List Event} (h : (openGroup Event.isDone es).any Event.constrains = true) :
    told es = openGroup Event.isDone es := by
  rw [told, batches, lastSome_concat, if_pos h]
  rfl

/-- With the first constraint of a batch the session forgets the batch before. -/
theorem Tells.markDirty {es : List Event} {session : Session} (h : Tells es session) :
    session.markDirty.reported = constraintsOf (openGroup Event.isDone es) := by
  rw [Session.markDirty]
  cases hdirty : session.dirty with
  | true =>
      rw [if_pos rfl, h.reported, told_of_constrained (h.dirty.symm.trans hdirty)]
  | false =>
      rw [if_neg Bool.false_ne_true]
      exact (constraintsOf_eq_nothing.mpr (h.dirty.symm.trans hdirty)).symm

section Steps
variable {es : List Event} {e : Event} {session : Session}

/-- An event within a batch that says nothing about shared memory buffers. -/
theorem Tells.silent (h : Tells es session) (hdone : e.isDone = false) (hsilent : e.constrains = false) {next : Session}
    (hreported : next.reported = session.reported) (hdirty : next.dirty = session.dirty)
    (hstopped : next.stopped = true ↔ .stopped ∈ es ++ [e]) : Tells (es ++ [e]) next := by
  have hany : (openGroup Event.isDone es ++ [e]).any Event.constrains =
      (openGroup Event.isDone es).any Event.constrains := by
    rw [List.any_append, List.any_cons, hsilent]
    simp
  have hsame : constraintsOf (openGroup Event.isDone es ++ [e]) = constraintsOf (openGroup Event.isDone es) := by
    obtain ⟨hsize, hformat⟩ := Bool.or_eq_false_iff.mp hsilent
    rw [Option.isSome_eq_false_iff, Option.isNone_iff_eq_none] at hsize hformat
    rw [constraintsOf_concat, hsize, hformat, Option.none_or]
    exact congrArg (Prod.mk _) (List.append_nil _)
  refine ⟨?_, ?_, hstopped⟩
  · rw [hreported, h.reported, told_concat, hdone, if_neg Bool.false_ne_true, hany]
    split
    · rename_i hconstrained
      rw [told_of_constrained hconstrained, hsame]
    · rfl
  · rw [hdirty, h.dirty, openGroup_concat, hdone, if_neg Bool.false_ne_true, hany]

/-- A constraint adds to what the batch has said so far. -/
theorem Tells.constraint (h : Tells es session) (hdone : e.isDone = false) (hconstrains : e.constrains = true)
    {next : Session} (hreported : next.reported =
      (e.size?.or session.markDirty.reported.1, session.markDirty.reported.2 ++ e.format?.toList))
    (hdirty : next.dirty = true) (hstopped : next.stopped = true ↔ .stopped ∈ es ++ [e]) : Tells (es ++ [e]) next := by
  have hany : (openGroup Event.isDone es ++ [e]).any Event.constrains = true := by
    rw [List.any_append, List.any_cons, hconstrains]
    simp
  refine ⟨?_, ?_, hstopped⟩
  · rw [hreported, h.markDirty, told_concat, hdone, if_neg Bool.false_ne_true, if_pos hany, constraintsOf_concat]
  · rw [hdirty, openGroup_concat, hdone, if_neg Bool.false_ne_true, hany]

end Steps

theorem dirty_markDirty (session : Session) : session.markDirty.dirty = true := by
  rw [Session.markDirty]
  split
  · assumption
  · rfl

theorem stopped_markDirty (session : Session) : session.markDirty.stopped = session.stopped := by
  rw [Session.markDirty]
  split
  · rfl
  · rfl

/-- What every session has been told. -/
theorem tells_received (es : List Event) : Tells es (received es) := by
  induction es using List.reverseRecOn with
  | nil => exact ⟨rfl, rfl, by simp [received]⟩
  | append_singleton es e ih =>
      have hstopped (hne : e ≠ .stopped) : (received es).stopped = true ↔ .stopped ∈ es ++ [e] := by
        rw [ih.stopped, List.mem_append, List.mem_singleton]
        exact (or_iff_left hne.symm).symm
      rw [received_concat]
      cases e with
      | bufferSize width height =>
          refine ih.constraint rfl rfl ?_ (dirty_markDirty _) ?_
          · exact congrArg (Prod.mk _) (List.append_nil _).symm
          · exact (iff_of_eq (congrArg (· = true) (stopped_markDirty _))).trans (hstopped (by simp))
      | shmFormat format =>
          refine ih.constraint rfl rfl ?_ (dirty_markDirty _) ?_
          · rfl
          · exact (iff_of_eq (congrArg (· = true) (stopped_markDirty _))).trans (hstopped (by simp))
      | dmabufDevice => exact ih.silent rfl rfl rfl rfl (hstopped (by simp))
      | dmabufFormat format => exact ih.silent rfl rfl rfl rfl (hstopped (by simp))
      | done =>
          refine ⟨?_, ?_, hstopped (by simp)⟩
          · rw [told_concat]
            exact ih.reported
          · rw [openGroup_concat]
            rfl
      | stopped => exact ih.silent rfl rfl rfl rfl (by simp [Session.handle])

/-- There is something to tell as soon as there has been a constraint. -/
theorem any_told (es : List Event) : (told es).any Event.constrains = es.any Event.constrains := by
  induction es using List.reverseRecOn with
  | nil => rfl
  | append_singleton es e ih =>
      have hconcat (events : List Event) :
          (events ++ [e]).any Event.constrains = (events.any Event.constrains || e.constrains) := by
        simp
      rw [told_concat, hconcat es]
      by_cases hdone : e.isDone = true
      · have hsilent : e.constrains = false := by
          cases e with
          | done => rfl
          | _ => contradiction
        rw [if_pos hdone, ih, hsilent, Bool.or_false]
      · rw [if_neg hdone]
        by_cases hany : (openGroup Event.isDone es ++ [e]).any Event.constrains = true
        · rw [if_pos hany, hany]
          rw [hconcat, Bool.or_eq_true] at hany
          rcases hany with hopen | hnew
          · rw [← ih, told_of_constrained hopen, hopen, Bool.true_or]
          · rw [hnew, Bool.or_true]
        · rw [if_neg hany, ih]
          rw [Bool.not_eq_true, hconcat, Bool.or_eq_false_iff] at hany
          rw [hany.2, Bool.or_false]

/-- What has been told is one batch. -/
theorem mem_batches_of_told (es : List Event) : ∃ batch ∈ batches es, constraintsOf (told es) = constraintsOf batch := by
  rw [told]
  cases htold : lastSome (fun batch : List Event => if batch.any Event.constrains then some batch else none)
      (batches es) with
  | none =>
      have hopen : openGroup Event.isDone es ∈ batches es := List.mem_append_right _ (List.mem_singleton_self _)
      have hsilent : (openGroup Event.isDone es).any Event.constrains = false := by
        have := lastSome_eq_none.mp htold _ hopen
        simpa using this
      exact ⟨_, hopen, (constraintsOf_eq_nothing.mpr hsilent).symm⟩
  | some batch =>
      obtain ⟨found, hfound, heq⟩ := exists_of_lastSome_eq_some htold
      obtain rfl : found = batch := by
        split at heq
        · exact Option.some.inj heq
        · cases heq
      exact ⟨found, hfound, rfl⟩

/-- **The constraints of the last batch** are what the tests read after it is closed, if and only if it has a constraint
for shared memory buffers, or no batch before it had one; never are constraints of several batches mixed. -/
theorem reports_last_batch_iff (es : List Event) :
    (received (es ++ [.done])).dirty = false ∧
      ((received (es ++ [.done])).reported = constraintsOf (openGroup Event.isDone es) ↔
        (∃ e ∈ openGroup Event.isDone es, e.constrains = true) ∨ ∀ e ∈ es, e.constrains = false) ∧
      ∃ batch ∈ batches es, (received es).reported = constraintsOf batch := by
  have hreported : (received (es ++ [.done])).reported = constraintsOf (told es) := by
    rw [(tells_received _).reported, told_concat]
    rfl
  refine ⟨by rw [received_concat]; rfl, ?_, ?_⟩
  · rw [hreported]
    by_cases hopen : (openGroup Event.isDone es).any Event.constrains = true
    · rw [told_of_constrained hopen]
      exact iff_of_true rfl (Or.inl (List.any_eq_true.mp hopen))
    · have hnothing := constraintsOf_eq_nothing.mpr (Bool.not_eq_true _ ▸ hopen)
      rw [hnothing, constraintsOf_eq_nothing, any_told, List.any_eq_false]
      simp only [List.any_eq_true] at hopen
      simp only [hopen, false_or, Bool.not_eq_true]
  · obtain ⟨batch, hbatch, heq⟩ := mem_batches_of_told es
    exact ⟨batch, hbatch, (tells_received es).reported.trans heq⟩

end Wlcs.Capture
