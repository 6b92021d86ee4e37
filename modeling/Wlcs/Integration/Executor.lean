import Wlcs.Lib.Fifo
import Wlcs.Lib.Machine

/-!
# The executor of the Mir integration

`WaylandExecutor` runs functions on the thread of a Wayland event loop. `spawn` may be called from any thread: it queues
the function under a mutex and, after it has given the mutex back, adds one to an `eventfd`. The loop finds the descriptor
readable, takes one from it, and runs what is queued until `get_work` returns an empty function.

The mutex is held while the functions run, but it is recursive, so that a function may itself call `spawn`. A function
that was empty from the start also ends the loop, and leaves what was queued behind it. The `eventfd` is a semaphore: it
still counts every `spawn` that the loop has not been woken for.

`executor` is the executor with any number of threads (the type `T`); each lock, write, read and call is a step, and any
step that is enabled may come next. `ExecutorStep` lists the steps with their guards.
-/

namespace Wlcs.Integration
open EventMachine

/-! ## The code -/

/-- The largest value that an `eventfd` counter takes. -/
def eventfdMax : Nat := 0xfffffffffffffffe

/-- Adds one, unless the counter is full: the descriptor is not blocking. -/
def eventfdWrite (counter : Nat) : Option Nat := if counter < eventfdMax then some (counter + 1) else none

inductive Owner (T : Type)
  | loop
  | client (t : T)
deriving DecidableEq

/-- Where a thread is in `spawn`. The function that it was given may be empty. -/
inductive SpawnPc (W : Type)
  | idle
  /-- about to lock the mutex -/
  | calling (work : Option W)
  | locked (work : Option W)
  /-- the function is queued and the mutex free again; about to write the descriptor -/
  | queued
deriving DecidableEq

/-- Where the thread of the event loop is in `on_notify`. -/
inductive LoopPc (W : Type)
  | idle
  /-- about to read the descriptor -/
  | reading
  /-- about to lock the mutex -/
  | locking
  /-- about to call `get_work` -/
  | draining
  | running (work : W)
  /-- in a call of `spawn` that the function has made, about to write the descriptor -/
  | notifying (work : W)
deriving DecidableEq

/-- What goes into the log. -/
inductive Complaint
  /-- "eventfd_read failed to consume wakeup notification" -/
  | readFailed
  /-- "Exception processing Wayland event loop work item" -/
  | workThrew
deriving DecidableEq

structure Executor (T W : Type) where
  mutex : Option (Owner T) := none
  notifyFd : Nat := 0
  workqueue : Fifo (Option W) := .empty
  /-- `notify_source` has not been removed -/
  source : Bool := true
  threads : T → SpawnPc W := fun _ => .idle
  loop : LoopPc W := .idle
  logged : List Complaint := []
  /-- the functions that the loop has called -/
  ran : List W := []
  reads : Nat := 0
  writes : Nat := 0
  /-- the calls of `spawn` that threw because the descriptor could not be written -/
  failures : Nat := 0
  /-- who has queued a function and not yet written the descriptor -/
  unnotified : List (Owner T) := []

inductive ExecutorAction (T W : Type)
  | spawn (t : T) (work : Option W)
  | lock (t : T)
  | push (t : T)
  | notify (t : T)
  | wake
  | read
  | acquire
  | getWork
  /-- the function that the loop is in calls `spawn` -/
  | spawnHere (work : Option W)
  | notifyHere
  | finish (throws : Bool)
  /-- the event loop is destroyed -/
  | destroy

namespace Executor
variable {T W : Type} [DecidableEq T]

def goto (s : Executor T W) (t : T) (pc : SpawnPc W) : Executor T W :=
  { s with threads := Function.update s.threads t pc }

/-- `eventfd_write`, and the exception if it fails. -/
def write (s : Executor T W) (owner : Owner T) : Executor T W :=
  match eventfdWrite s.notifyFd with
  | some counter =>
    { s with notifyFd := counter, writes := s.writes + 1, unnotified := s.unnotified.erase owner }
  | none => { s with failures := s.failures + 1, unnotified := s.unnotified.erase owner }

/-- `get_work`, and what `on_notify` does with the answer. -/
def getWork (s : Executor T W) : Executor T W :=
  match s.workqueue.pop with
  | some (some work, workqueue) =>
    { s with workqueue := workqueue, loop := .running work, ran := s.ran ++ [work] }
  | some (none, workqueue) => { s with workqueue := workqueue, loop := .idle, mutex := none }
  | none => { s with loop := .idle, mutex := none }

def step (s : Executor T W) : ExecutorAction T W → Option (Executor T W)
  | .spawn t work =>
    match s.threads t with
    | .idle => some (s.goto t (.calling work))
    | _ => none
  | .lock t =>
    match s.threads t, s.mutex with
    | .calling work, none => some { s.goto t (.locked work) with mutex := some (.client t) }
    | _, _ => none
  | .push t =>
    match s.threads t with
    | .locked work =>
      some { s.goto t .queued with
        workqueue := s.workqueue.push work, mutex := none, unnotified := .client t :: s.unnotified }
    | _ => none
  | .notify t =>
    match s.threads t with
    | .queued => some ((s.write (.client t)).goto t .idle)
    | _ => none
  | .wake =>
    match s.loop with
    -- the descriptor is readable
    | .idle => if s.source ∧ 0 < s.notifyFd then some { s with loop := .reading } else none
    | _ => none
  | .read =>
    match s.loop with
    | .reading =>
      if 0 < s.notifyFd then
        some { s with notifyFd := s.notifyFd - 1, reads := s.reads + 1, loop := .locking }
      else some { s with logged := s.logged ++ [.readFailed], loop := .locking }
    | _ => none
  | .acquire =>
    match s.loop, s.mutex with
    | .locking, none => some { s with loop := .draining, mutex := some .loop }
    | _, _ => none
  | .getWork =>
    match s.loop with
    | .draining => some s.getWork
    | _ => none
  | .spawnHere work =>
    match s.loop with
    | .running current =>
      some { s with
        workqueue := s.workqueue.push work, loop := .notifying current, unnotified := .loop :: s.unnotified }
    | _ => none
  | .notifyHere =>
    match s.loop with
    -- if the write fails, the function sees the exception
    | .notifying current => some { s.write .loop with loop := .running current }
    | _ => none
  | .finish throws =>
    match s.loop with
    | .running _ =>
      some { s with loop := .draining, logged := if throws then s.logged ++ [.workThrew] else s.logged }
    | _ => none
  | .destroy =>
    match s.loop, s.mutex with
    -- `on_display_destruction` locks the mutex as well
    | .idle, none => if s.source then some { s with source := false } else none
    | _, _ => none

end Executor

def executor {T W : Type} [DecidableEq T] : Guarded (Executor T W) (ExecutorAction T W) where
  step := Executor.step

/-! ## Steps -/

section Steps
variable {T W : Type} [DecidableEq T] {s s' : Executor T W} {a : ExecutorAction T W}

inductive ExecutorStep (s : Executor T W) : ExecutorAction T W → Executor T W → Prop
  | spawn {t : T} (work : Option W) (hpc : s.threads t = .idle) : ExecutorStep s (.spawn t work) (s.goto t (.calling work))
  | lock {t : T} {work : Option W} (hpc : s.threads t = .calling work) (hfree : s.mutex = none) :
      ExecutorStep s (.lock t) { s.goto t (.locked work) with mutex := some (.client t) }
  | push {t : T} {work : Option W} (hpc : s.threads t = .locked work) :
      ExecutorStep s (.push t) { s.goto t .queued with
        workqueue := s.workqueue.push work, mutex := none, unnotified := .client t :: s.unnotified }
  | notify {t : T} (hpc : s.threads t = .queued) : ExecutorStep s (.notify t) ((s.write (.client t)).goto t .idle)
  | wake (hloop : s.loop = .idle) (hsource : s.source = true) (hfd : 0 < s.notifyFd) :
      ExecutorStep s .wake { s with loop := .reading }
  | read (hloop : s.loop = .reading) (hfd : 0 < s.notifyFd) :
      ExecutorStep s .read { s with notifyFd := s.notifyFd - 1, reads := s.reads + 1, loop := .locking }
  | readFails (hloop : s.loop = .reading) (hfd : s.notifyFd = 0) :
      ExecutorStep s .read { s with logged := s.logged ++ [.readFailed], loop := .locking }
  | acquire (hloop : s.loop = .locking) (hfree : s.mutex = none) :
      ExecutorStep s .acquire { s with loop := .draining, mutex := some .loop }
  | run {work : W} {workqueue : Fifo (Option W)} (hloop : s.loop = .draining)
      (hpop : s.workqueue.pop = some (some work, workqueue)) :
      ExecutorStep s .getWork { s with workqueue := workqueue, loop := .running work, ran := s.ran ++ [work] }
  | skip {workqueue : Fifo (Option W)} (hloop : s.loop = .draining) (hpop : s.workqueue.pop = some (none, workqueue)) :
      ExecutorStep s .getWork { s with workqueue := workqueue, loop := .idle, mutex := none }
  | drained (hloop : s.loop = .draining) (hpop : s.workqueue.pop = none) :
      ExecutorStep s .getWork { s with loop := .idle, mutex := none }
  | spawnHere {current : W} (work : Option W) (hloop : s.loop = .running current) :
      ExecutorStep s (.spawnHere work) { s with
        workqueue := s.workqueue.push work, loop := .notifying current, unnotified := .loop :: s.unnotified }
  | notifyHere {current : W} (hloop : s.loop = .notifying current) :
      ExecutorStep s .notifyHere { s.write .loop with loop := .running current }
  | finish {current : W} (throws : Bool) (hloop : s.loop = .running current) :
      ExecutorStep s (.finish throws) { s with
        loop := .draining, logged := if throws then s.logged ++ [.workThrew] else s.logged }
  | destroy (hloop : s.loop = .idle) (hfree : s.mutex = none) (hsource : s.source = true) :
      ExecutorStep s .destroy { s with source := false }

theorem executor_step_inv (h : executor.step s a = some s') : ExecutorStep s a s' := by
  change s.step a = some s' at h
  cases a with
  | spawn t work =>
      simp only [Executor.step] at h
      split at h
      · rename_i hpc
        obtain rfl := Option.some.inj h
        exact .spawn work hpc
      · cases h
  | lock t =>
      simp only [Executor.step] at h
      split at h
      · rename_i work hpc hfree
        obtain rfl := Option.some.inj h
        exact .lock hpc hfree
      · cases h
  | push t =>
      simp only [Executor.step] at h
      split at h
      · rename_i work hpc
        obtain rfl := Option.some.inj h
        exact .push hpc
      · cases h
  | notify t =>
      simp only [Executor.step] at h
      split at h
      · rename_i hpc
        obtain rfl := Option.some.inj h
        exact .notify hpc
      · cases h
  | wake =>
      simp only [Executor.step] at h
      split at h
      · rename_i hloop
        split at h
        · rename_i hready
          obtain rfl := Option.some.inj h
          exact .wake hloop hready.1 hready.2
        · cases h
      · cases h
  | read =>
      simp only [Executor.step] at h
      split at h
      · rename_i hloop
        split at h
        · rename_i hfd
          obtain rfl := Option.some.inj h
          exact .read hloop hfd
        · rename_i hfd
          obtain rfl := Option.some.inj h
          exact .readFails hloop (by omega)
      · cases h
  | acquire =>
      simp only [Executor.step] at h
      split at h
      · rename_i hloop hfree
        obtain rfl := Option.some.inj h
        exact .acquire hloop hfree
      · cases h
  | getWork =>
      simp only [Executor.step] at h
      split at h
      · rename_i hloop
        obtain rfl := Option.some.inj h
        unfold Executor.getWork
        split
        · rename_i work workqueue hpop
          exact .run hloop hpop
        · rename_i workqueue hpop
          exact .skip hloop hpop
        · rename_i hpop
          exact .drained hloop hpop
      · cases h
  | spawnHere work =>
      simp only [Executor.step] at h
      split at h
      · rename_i current hloop
        obtain rfl := Option.some.inj h
        exact .spawnHere work hloop
      · cases h
  | notifyHere =>
      simp only [Executor.step] at h
      split at h
      · rename_i current hloop
        obtain rfl := Option.some.inj h
        exact .notifyHere hloop
      · cases h
  | finish throws =>
      simp only [Executor.step] at h
      split at h
      · rename_i current hloop
        obtain rfl := Option.some.inj h
        exact .finish throws hloop
      · cases h
  | destroy =>
      simp only [Executor.step] at h
      split at h
      · rename_i hloop hfree
        split at h
        · rename_i hsource
          obtain rfl := Option.some.inj h
          exact .destroy hloop hfree hsource
        · cases h
      · cases h

namespace Executor

theorem write_cases (s : Executor T W) (owner : Owner T) :
    s.notifyFd < eventfdMax ∧ s.write owner =
        { s with notifyFd := s.notifyFd + 1, writes := s.writes + 1, unnotified := s.unnotified.erase owner } ∨
      eventfdMax ≤ s.notifyFd ∧ s.write owner =
        { s with failures := s.failures + 1, unnotified := s.unnotified.erase owner } := by
  unfold write eventfdWrite
  by_cases h : s.notifyFd < eventfdMax
  · rw [if_pos h]
    exact Or.inl ⟨h, rfl⟩
  · rw [if_neg h]
    exact Or.inr ⟨by omega, rfl⟩

/-- A write changes the descriptor and the logs of the writes only. -/
theorem write_frame (s : Executor T W) (owner : Owner T) : ∃ notifyFd writes failures, s.write owner =
    { s with notifyFd := notifyFd, writes := writes, failures := failures, unnotified := s.unnotified.erase owner } := by
  rcases s.write_cases owner with ⟨-, h⟩ | ⟨-, h⟩
  · exact ⟨_, _, s.failures, h⟩
  · exact ⟨s.notifyFd, s.writes, _, h⟩

end Executor

end Steps

end Wlcs.Integration
