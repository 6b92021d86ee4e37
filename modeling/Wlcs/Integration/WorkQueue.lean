import Mathlib.Data.List.ReduceOption
import Wlcs.Integration.Executor

/-!
# What becomes of the functions

The functions run one at a time and in the order in which they were queued, and none is left behind: as long as one is
queued, somebody is about to write the descriptor, the loop is at work, or the descriptor is readable (`no_work_lost`).
Once all calls of `spawn` have returned, the loop comes to rest by itself, after everything has run (`work_completes`).
After the destruction of the event loop nothing runs any more (`nothing_after_destruction`).

* `Held`, `Unnotified` : the mutex and the writes to come, against the threads' program counters;
* `Counted` : the counts of writes, reads and functions against each other.
-/

namespace Wlcs.Integration
open EventMachine

section Runs
variable {T W : Type} [DecidableEq T] {s s' : Executor T W} {a : ExecutorAction T W}

/-! ## The mutex -/

/-- The loop holds the mutex. -/
def LoopPc.holds : LoopPc W → Bool
  | .draining | .running _ | .notifying _ => true
  | _ => false

/-- Whoever is between lock and unlock holds the mutex. -/
structure Held (s : Executor T W) : Prop where
  client : ∀ t, s.mutex = some (.client t) ↔ ∃ work, s.threads t = .locked work
  loop : s.mutex = some .loop ↔ s.loop.holds = true

omit [DecidableEq T] in
theorem Held.initial : Held ({} : Executor T W) where
  client _ := ⟨nofun, nofun⟩
  loop := ⟨nofun, nofun⟩

omit [DecidableEq T] in
theorem Held.not_holds (h : Held s) (hfree : s.mutex = none) : s.loop.holds = false := by
  rw [← Bool.not_eq_true, ← h.loop, hfree]
  nofun

/-- A thread that neither gets nor loses the mutex goes on. -/
theorem Held.goto (h : Held s) {t : T} {pc : SpawnPc W} (hbefore : ∀ work, s.threads t ≠ .locked work)
    (hafter : ∀ work, pc ≠ .locked work) : Held (s.goto t pc) where
  client u := by
    show s.mutex = some (.client u) ↔ ∃ work, Function.update s.threads t pc u = .locked work
    rw [h.client]
    by_cases hu : u = t
    · subst hu
      rw [Function.update_self]
      exact ⟨fun ⟨work, hwork⟩ => absurd hwork (hbefore work), fun ⟨work, hwork⟩ => absurd hwork (hafter work)⟩
    · rw [Function.update_of_ne hu]
  loop := h.loop

theorem Held.step (h : Held s) (hstep : ExecutorStep s a s') : Held s' := by
  cases hstep with
  | spawn work hpc => exact h.goto (by simp [hpc]) (by simp)
  | @lock t work hpc hfree =>
      have hloop := h.not_holds hfree
      constructor
      · intro u
        show some (Owner.client t) = some (.client u) ↔ ∃ work', Function.update s.threads t (.locked work) u = .locked work'
        by_cases hu : u = t
        · subst hu
          simp
        · have hu' : ¬ ∃ work', s.threads u = .locked work' := by
            rw [← h.client u, hfree]
            nofun
          simpa [Function.update_of_ne hu, Ne.symm hu] using hu'
      · show some (Owner.client t) = some .loop ↔ s.loop.holds = true
        simp [hloop]
  | @push t work hpc =>
      have hheld : s.mutex = some (.client t) := (h.client t).mpr ⟨work, hpc⟩
      have hloop : s.loop.holds = false := by
        rw [← Bool.not_eq_true, ← h.loop, hheld]
        simp
      constructor
      · intro u
        show none = some (Owner.client u) ↔ ∃ work', Function.update s.threads t .queued u = .locked work'
        by_cases hu : u = t
        · subst hu
          simp
        · have hu' : ¬ ∃ work', s.threads u = .locked work' := by
            rw [← h.client u, hheld]
            simpa using Ne.symm hu
          simpa [Function.update_of_ne hu] using hu'
      · show none = some Owner.loop ↔ s.loop.holds = true
        simp [hloop]
  | @notify t hpc =>
      obtain ⟨notifyFd, writes, failures, hwrite⟩ := s.write_frame (.client t)
      have hwritten : Held (s.write (.client t)) := by
        rw [hwrite]
        exact ⟨h.client, h.loop⟩
      refine hwritten.goto (fun work => ?_) nofun
      rw [hwrite]
      simp [hpc]
  | wake hloop hsource hfd => exact ⟨h.client, by rw [h.loop, hloop]; rfl⟩
  | read hloop hfd => exact ⟨h.client, by rw [h.loop, hloop]; rfl⟩
  | readFails hloop hfd => exact ⟨h.client, by rw [h.loop, hloop]; rfl⟩
  | acquire hloop hfree =>
      constructor
      · intro t
        rw [← h.client, hfree]
        simp
      · exact ⟨fun _ => rfl, fun _ => rfl⟩
  | run hloop hpop => exact ⟨h.client, by rw [h.loop, hloop]; rfl⟩
  | skip hloop hpop =>
      have hheld : s.mutex = some .loop := h.loop.mpr (by rw [hloop]; rfl)
      constructor
      · intro t
        rw [← h.client, hheld]
        simp
      · exact ⟨nofun, nofun⟩
  | drained hloop hpop =>
      have hheld : s.mutex = some .loop := h.loop.mpr (by rw [hloop]; rfl)
      constructor
      · intro t
        rw [← h.client, hheld]
        simp
      · exact ⟨nofun, nofun⟩
  | spawnHere work hloop => exact ⟨h.client, by rw [h.loop, hloop]; rfl⟩
  | notifyHere hloop =>
      obtain ⟨notifyFd, writes, failures, hwrite⟩ := s.write_frame .loop
      rw [hwrite]
      exact ⟨h.client, by rw [h.loop, hloop]; rfl⟩
  | finish throws hloop => exact ⟨h.client, by rw [h.loop, hloop]; rfl⟩
  | destroy hloop hfree hsource => exact ⟨h.client, h.loop⟩

/-! ## The descriptor and the queue -/

/-- Who has queued a function and not yet written the descriptor. -/
structure Unnotified (s : Executor T W) : Prop where
  client : ∀ t, .client t ∈ s.unnotified ↔ s.threads t = .queued
  loop : .loop ∈ s.unnotified ↔ ∃ current, s.loop = .notifying current
  nodup : s.unnotified.Nodup

omit [DecidableEq T] in
theorem Unnotified.initial : Unnotified ({} : Executor T W) where
  client _ := ⟨nofun, nofun⟩
  loop := ⟨nofun, nofun⟩
  nodup := List.nodup_nil

omit [DecidableEq T] in
/-- The loop goes on without queueing or writing anything. -/
theorem Unnotified.loop_goes (h : Unnotified s) (hbefore : ∀ current, s.loop ≠ .notifying current)
    (hthreads : s'.threads = s.threads) (hunnotified : s'.unnotified = s.unnotified)
    (hafter : ∀ current, s'.loop ≠ .notifying current) : Unnotified s' where
  client t := by
    rw [hunnotified, hthreads]
    exact h.client t
  loop := by
    rw [hunnotified, h.loop]
    exact ⟨fun ⟨current, hcurrent⟩ => absurd hcurrent (hbefore current),
      fun ⟨current, hcurrent⟩ => absurd hcurrent (hafter current)⟩
  nodup := by
    rw [hunnotified]
    exact h.nodup

/-- A thread goes on without queueing or writing anything. -/
theorem Unnotified.thread_goes (h : Unnotified s) {t : T} {pc : SpawnPc W} (hbefore : s.threads t ≠ .queued)
    (hpc : pc ≠ .queued) (hthreads : s'.threads = Function.update s.threads t pc)
    (hunnotified : s'.unnotified = s.unnotified) (hloop : s'.loop = s.loop) : Unnotified s' where
  client u := by
    rw [hunnotified, h.client, hthreads]
    by_cases hu : u = t
    · subst hu
      rw [Function.update_self]
      exact ⟨fun hq => absurd hq hbefore, fun hq => absurd hq hpc⟩
    · rw [Function.update_of_ne hu]
  loop := by
    rw [hunnotified, hloop]
    exact h.loop
  nodup := by
    rw [hunnotified]
    exact h.nodup

theorem Unnotified.step (h : Unnotified s) (hstep : ExecutorStep s a s') : Unnotified s' := by
  cases hstep with
  | spawn work hpc => exact h.thread_goes (by simp [hpc]) (by simp) rfl rfl rfl
  | lock hpc hfree => exact h.thread_goes (by simp [hpc]) (by simp) rfl rfl rfl
  | @push t work hpc =>
      have hfresh : Owner.client t ∉ s.unnotified := by
        rw [h.client, hpc]
        nofun
      constructor
      · intro u
        show .client u ∈ .client t :: s.unnotified ↔ Function.update s.threads t .queued u = .queued
        by_cases hu : u = t
        · subst hu
          simp
        · rw [Function.update_of_ne hu, ← h.client]
          simp [hu]
      · show .loop ∈ .client t :: s.unnotified ↔ ∃ current, s.loop = .notifying current
        rw [← h.loop]
        simp
      · exact List.nodup_cons.mpr ⟨hfresh, h.nodup⟩
  | @notify t hpc =>
      obtain ⟨notifyFd, writes, failures, hwrite⟩ := s.write_frame (.client t)
      rw [hwrite]
      constructor
      · intro u
        show .client u ∈ s.unnotified.erase (.client t) ↔ Function.update s.threads t .idle u = .queued
        rw [h.nodup.mem_erase_iff, h.client]
        by_cases hu : u = t
        · subst hu
          simp
        · simp [hu]
      · show .loop ∈ s.unnotified.erase (.client t) ↔ ∃ current, s.loop = .notifying current
        rw [h.nodup.mem_erase_iff, ← h.loop]
        simp
      · exact h.nodup.erase _
  | wake hloop hsource hfd => exact h.loop_goes (by simp [hloop]) rfl rfl (by simp)
  | read hloop hfd => exact h.loop_goes (by simp [hloop]) rfl rfl (by simp)
  | readFails hloop hfd => exact h.loop_goes (by simp [hloop]) rfl rfl (by simp)
  | acquire hloop hfree => exact h.loop_goes (by simp [hloop]) rfl rfl (by simp)
  | run hloop hpop => exact h.loop_goes (by simp [hloop]) rfl rfl (by simp)
  | skip hloop hpop => exact h.loop_goes (by simp [hloop]) rfl rfl (by simp)
  | drained hloop hpop => exact h.loop_goes (by simp [hloop]) rfl rfl (by simp)
  | @spawnHere current work hloop =>
      have hfresh : Owner.loop ∉ s.unnotified := by
        rw [h.loop, hloop]
        simp
      constructor
      · intro t
        show .client t ∈ .loop :: s.unnotified ↔ s.threads t = .queued
        rw [← h.client]
        simp
      · simp
      · exact List.nodup_cons.mpr ⟨hfresh, h.nodup⟩
  | notifyHere hloop =>
      obtain ⟨notifyFd, writes, failures, hwrite⟩ := s.write_frame .loop
      rw [hwrite]
      constructor
      · intro t
        show .client t ∈ s.unnotified.erase .loop ↔ s.threads t = .queued
        rw [h.nodup.mem_erase_iff, ← h.client]
        simp
      · show .loop ∈ s.unnotified.erase .loop ↔ ∃ current, LoopPc.running _ = .notifying current
        rw [h.nodup.mem_erase_iff]
        simp
      · exact h.nodup.erase _
  | finish throws hloop => exact h.loop_goes (by simp [hloop]) rfl rfl (by simp)
  | destroy hloop hfree hsource => exact h.loop_goes (by simp [hloop]) rfl rfl (by simp [hloop])

/-- The loop has been woken and has not come back. -/
def LoopPc.entered : LoopPc W → Bool
  | .locking | .draining | .running _ | .notifying _ => true
  | _ => false

/-- Each function that is queued is written once, and the loop takes at least one each time it is woken, unless there are
none: `woken`. -/
structure Counted (s : Executor T W) : Prop where
  fd : s.notifyFd + s.reads = s.writes
  queued : s.writes + s.failures + s.unnotified.length = s.workqueue.sent.length
  woken : s.reads ≤ s.workqueue.taken + s.loop.entered.toNat
  /-- a write can fail only after a great many of them -/
  full : s.failures = 0 ∨ eventfdMax < s.workqueue.sent.length
  ran : s.ran = (s.workqueue.sent.take s.workqueue.taken).reduceOption

omit [DecidableEq T] in
theorem Counted.initial : Counted ({} : Executor T W) := ⟨rfl, rfl, Nat.zero_le _, Or.inl rfl, rfl⟩

omit [DecidableEq T] in
/-- Something is queued, behind what the loop has taken. -/
theorem Counted.ran_push (h : Counted s) (work : Option W) :
    s.ran = ((s.workqueue.push work).sent.take (s.workqueue.push work).taken).reduceOption := by
  rw [h.ran, Fifo.sent_push, Fifo.taken_push, List.take_append_of_le_length s.workqueue.taken_le]

omit [DecidableEq T] in
theorem Counted.ran_pop (h : Counted s) {work : Option W} {workqueue : Fifo (Option W)}
    (hpop : s.workqueue.pop = some (work, workqueue)) :
    s.ran ++ work.toList = (workqueue.sent.take workqueue.taken).reduceOption := by
  obtain ⟨hhead, hsent, htaken⟩ := Fifo.pop_eq_some.mp hpop
  rw [hsent, htaken, List.take_add_one, hhead, List.reduceOption_append, ← h.ran]
  cases work <;> rfl

omit [DecidableEq T] in
theorem Counted.full_push (h : Counted s) (work : Option W) :
    s.failures = 0 ∨ eventfdMax < (s.workqueue.push work).sent.length := by
  rw [Fifo.sent_push, List.length_append]
  exact h.full.imp_right fun hfull => Nat.lt_add_right _ hfull

theorem Counted.write (h : Counted s) {owner : Owner T} (howner : owner ∈ s.unnotified) : Counted (s.write owner) := by
  have hlength : (s.unnotified.erase owner).length + 1 = s.unnotified.length := by
    rw [List.length_erase_of_mem howner]
    have := List.length_pos_of_mem howner
    omega
  have hfd := h.fd
  have hqueued := h.queued
  rcases s.write_cases owner with ⟨-, hwrite⟩ | ⟨hmax, hwrite⟩
  · rw [hwrite]
    refine ⟨?_, ?_, h.woken, h.full, h.ran⟩
    · show s.notifyFd + 1 + s.reads = s.writes + 1
      omega
    · show s.writes + 1 + s.failures + (s.unnotified.erase owner).length = s.workqueue.sent.length
      omega
  · rw [hwrite]
    refine ⟨h.fd, ?_, h.woken, Or.inr ?_, h.ran⟩
    · show s.writes + (s.failures + 1) + (s.unnotified.erase owner).length = s.workqueue.sent.length
      omega
    · show eventfdMax < s.workqueue.sent.length
      omega

theorem Counted.step (h : Counted s) (hunnotified : Unnotified s) (hstep : ExecutorStep s a s') : Counted s' := by
  have hfd := h.fd
  have hqueued := h.queued
  have hwoken := h.woken
  cases hstep with
  | spawn work hpc => exact ⟨h.fd, h.queued, h.woken, h.full, h.ran⟩
  | lock hpc hfree => exact ⟨h.fd, h.queued, h.woken, h.full, h.ran⟩
  | @push t work hpc =>
      refine ⟨h.fd, ?_, h.woken, h.full_push work, h.ran_push work⟩
      show s.writes + s.failures + (.client t :: s.unnotified).length = (s.workqueue.push work).sent.length
      simp only [List.length_cons, Fifo.sent_push, List.length_append, List.length_nil]
      omega
  | @notify t hpc =>
      have hwritten := h.write ((hunnotified.client t).mpr hpc)
      exact ⟨hwritten.fd, hwritten.queued, hwritten.woken, hwritten.full, hwritten.ran⟩
  | wake hloop hsource hfd =>
      rw [hloop] at hwoken
      exact ⟨h.fd, h.queued, hwoken, h.full, h.ran⟩
  | read hloop hfd =>
      rw [hloop] at hwoken
      refine ⟨?_, h.queued, Nat.succ_le_succ hwoken, h.full, h.ran⟩
      show s.notifyFd - 1 + (s.reads + 1) = s.writes
      omega
  | readFails hloop hfd =>
      rw [hloop] at hwoken
      exact ⟨h.fd, h.queued, Nat.le_succ_of_le hwoken, h.full, h.ran⟩
  | acquire hloop hfree =>
      rw [hloop] at hwoken
      exact ⟨h.fd, h.queued, hwoken, h.full, h.ran⟩
  | @run work workqueue hloop hpop =>
      obtain ⟨-, hsent, htaken⟩ := Fifo.pop_eq_some.mp hpop
      rw [hloop] at hwoken
      refine ⟨h.fd, ?_, ?_, ?_, h.ran_pop hpop⟩
      · show s.writes + s.failures + s.unnotified.length = workqueue.sent.length
        rw [hsent]
        exact h.queued
      · show s.reads ≤ workqueue.taken + 1
        rw [htaken]
        exact Nat.le_succ_of_le hwoken
      · show s.failures = 0 ∨ eventfdMax < workqueue.sent.length
        rw [hsent]
        exact h.full
  | @skip workqueue hloop hpop =>
      obtain ⟨-, hsent, htaken⟩ := Fifo.pop_eq_some.mp hpop
      have hran := h.ran_pop hpop
      rw [Option.toList_none, List.append_nil] at hran
      rw [hloop] at hwoken
      refine ⟨h.fd, ?_, ?_, ?_, hran⟩
      · show s.writes + s.failures + s.unnotified.length = workqueue.sent.length
        rw [hsent]
        exact h.queued
      · -- the empty function is one that the loop can be said to have been woken for
        show s.reads ≤ workqueue.taken
        rw [htaken]
        exact hwoken
      · show s.failures = 0 ∨ eventfdMax < workqueue.sent.length
        rw [hsent]
        exact h.full
  | drained hloop hpop =>
      have htaken := Fifo.pop_eq_none hpop
      refine ⟨h.fd, h.queued, ?_, h.full, h.ran⟩
      show s.reads ≤ s.workqueue.taken
      omega
  | spawnHere work hloop =>
      rw [hloop] at hwoken
      refine ⟨h.fd, ?_, hwoken, h.full_push work, h.ran_push work⟩
      show s.writes + s.failures + (.loop :: s.unnotified).length = (s.workqueue.push work).sent.length
      simp only [List.length_cons, Fifo.sent_push, List.length_append, List.length_nil]
      omega
  | @notifyHere current hloop =>
      have hwritten := h.write (hunnotified.loop.mpr ⟨current, hloop⟩)
      obtain ⟨notifyFd, writes, failures, hwrite⟩ := s.write_frame .loop
      refine ⟨hwritten.fd, hwritten.queued, ?_, hwritten.full, hwritten.ran⟩
      rw [hwrite]
      rw [hloop] at hwoken
      exact hwoken
  | finish throws hloop =>
      rw [hloop] at hwoken
      exact ⟨h.fd, h.queued, hwoken, h.full, h.ran⟩
  | destroy hloop hfree hsource => exact ⟨h.fd, h.queued, h.woken, h.full, h.ran⟩

/-- The descriptor that woke the loop stays readable until the loop reads it. -/
structure Readable (s : Executor T W) : Prop where
  reading : s.loop = .reading → 0 < s.notifyFd
  quiet : .readFailed ∉ s.logged

theorem Readable.write (h : Readable s) (owner : Owner T) : Readable (s.write owner) := by
  rcases s.write_cases owner with ⟨-, hwrite⟩ | ⟨-, hwrite⟩
  · rw [hwrite]
    exact ⟨fun _ => Nat.succ_pos _, h.quiet⟩
  · rw [hwrite]
    exact ⟨h.reading, h.quiet⟩

theorem Readable.step (h : Readable s) (hstep : ExecutorStep s a s') : Readable s' := by
  cases hstep with
  | spawn work hpc => exact ⟨h.reading, h.quiet⟩
  | lock hpc hfree => exact ⟨h.reading, h.quiet⟩
  | push hpc => exact ⟨h.reading, h.quiet⟩
  | @notify t hpc =>
      have hwritten := h.write (.client t)
      exact ⟨hwritten.reading, hwritten.quiet⟩
  | wake hloop hsource hfd => exact ⟨fun _ => hfd, h.quiet⟩
  | read hloop hfd => exact ⟨nofun, h.quiet⟩
  | readFails hloop hfd =>
      have hpos := h.reading hloop
      omega
  | acquire hloop hfree => exact ⟨nofun, h.quiet⟩
  | run hloop hpop => exact ⟨nofun, h.quiet⟩
  | skip hloop hpop => exact ⟨nofun, h.quiet⟩
  | drained hloop hpop => exact ⟨nofun, h.quiet⟩
  | spawnHere work hloop => exact ⟨nofun, h.quiet⟩
  | notifyHere hloop => exact ⟨nofun, (h.write .loop).quiet⟩
  | finish throws hloop =>
      refine ⟨nofun, ?_⟩
      cases throws with
      | false => exact h.quiet
      | true => simpa using h.quiet
  | destroy hloop hfree hsource => exact ⟨h.reading, h.quiet⟩

/-! ## Runs -/

/-- The invariants of all runs. `ended` : only a loop that is idle is destroyed. -/
structure Sound (s : Executor T W) : Prop where
  held : Held s
  unnotified : Unnotified s
  counted : Counted s
  readable : Readable s
  ended : s.source = false → s.loop = .idle

theorem Sound.step (h : Sound s) (hstep : ExecutorStep s a s') : Sound s' where
  held := h.held.step hstep
  unnotified := h.unnotified.step hstep
  counted := h.counted.step h.unnotified hstep
  readable := h.readable.step hstep
  ended := by
    have hended := h.ended
    cases hstep with
    | spawn work hpc => exact hended
    | lock hpc hfree => exact hended
    | push hpc => exact hended
    | @notify t hpc =>
        obtain ⟨notifyFd, writes, failures, hwrite⟩ := s.write_frame (.client t)
        rw [hwrite]
        exact hended
    | wake hloop hsource hfd => exact fun hgone => by rw [hsource] at hgone; cases hgone
    | read hloop hfd => exact fun hgone => by rw [hended hgone] at hloop; cases hloop
    | readFails hloop hfd => exact fun hgone => by rw [hended hgone] at hloop; cases hloop
    | acquire hloop hfree => exact fun hgone => by rw [hended hgone] at hloop; cases hloop
    | run hloop hpop => exact fun hgone => by rw [hended hgone] at hloop; cases hloop
    | skip hloop hpop => exact fun _ => rfl
    | drained hloop hpop => exact fun _ => rfl
    | spawnHere work hloop => exact fun hgone => by rw [hended hgone] at hloop; cases hloop
    | notifyHere hloop =>
        obtain ⟨notifyFd, writes, failures, hwrite⟩ := s.write_frame .loop
        rw [hwrite]
        exact fun hgone => by rw [hended hgone] at hloop; cases hloop
    | finish throws hloop => exact fun hgone => by rw [hended hgone] at hloop; cases hloop
    | destroy hloop hfree hsource => exact fun _ => hloop

theorem exec_sound {as : List (ExecutorAction T W)} (h : executor.exec {} as = some s) : Sound s :=
  executor.exec_induction (P := fun _ s => Sound s) ⟨.initial, .initial, .initial, ⟨nofun, nofun⟩, nofun⟩
    (fun _ _ _ _ _ hu ht => hu.step (executor_step_inv ht)) as s h

omit [DecidableEq T] in
/-- Nobody is about to write, and the loop is not at work: every function that is queued has its count in the
descriptor. -/
theorem Sound.queue_le (h : Sound s) (hsent : s.workqueue.sent.length ≤ eventfdMax) (hloop : s.loop = .idle)
    (hthreads : ∀ t, s.threads t ≠ .queued) : s.workqueue.queue.length ≤ s.notifyFd := by
  have hnone : s.unnotified = [] := by
    rw [List.eq_nil_iff_forall_not_mem]
    intro owner howner
    cases owner with
    | loop =>
        obtain ⟨current, hcurrent⟩ := h.unnotified.loop.mp howner
        rw [hloop] at hcurrent
        cases hcurrent
    | client t => exact hthreads t ((h.unnotified.client t).mp howner)
  have hfailures : s.failures = 0 := h.counted.full.resolve_right (by omega)
  have hfd := h.counted.fd
  have hqueued := h.counted.queued
  have hwoken := h.counted.woken
  rw [hnone, hfailures, List.length_nil] at hqueued
  rw [hloop] at hwoken
  simp only [LoopPc.entered, Bool.toNat_false] at hwoken
  rw [Fifo.length_queue]
  omega

/-- **No work is lost**, in every interleaving of the loop with any number of threads. The functions that have run are
those that have been taken from the queue, each once and in the order in which they were queued, whether or not some of
the functions are empty, throw, or queue others; no thread gets at the queue while the loop takes them and runs them, not
even while one of them queues another. And the loop is never left asleep: unless a thread that has queued a function is
still to write the descriptor, an idle loop finds a count for every function that is queued. -/
theorem no_work_lost {as : List (ExecutorAction T W)} (h : executor.exec {} as = some s) :
    s.ran = (s.workqueue.sent.take s.workqueue.taken).reduceOption ∧
      (s.loop.holds = true → ∀ t work, s.threads t ≠ .locked work) ∧
      .readFailed ∉ s.logged ∧
      (s.workqueue.sent.length ≤ eventfdMax →
        s.failures = 0 ∧
          (s.loop = .idle → (∀ t, s.threads t ≠ .queued) → s.workqueue.queue.length ≤ s.notifyFd)) := by
  have hs := exec_sound h
  refine ⟨hs.counted.ran, ?_, hs.readable.quiet, fun hsent => ⟨hs.counted.full.resolve_right (by omega), ?_⟩⟩
  · intro hholds t work hlocked
    have hclient : s.mutex = some (.client t) := (hs.held.client t).mpr ⟨work, hlocked⟩
    have hheld : s.mutex = some .loop := hs.held.loop.mpr hholds
    rw [hclient] at hheld
    cases hheld
  · exact hs.queue_le hsent

/-- An empty function between two others, all queued before the loop wakes up: it is woken once for the first two, and
once more for the third. -/
def emptyBetween : List (ExecutorAction Bool Char) :=
  [.spawn true (some 'a'), .lock true, .push true, .notify true, .spawn false none, .lock false, .push false,
    .notify false, .spawn true (some 'b'), .lock true, .push true, .notify true, .wake, .read, .acquire, .getWork,
    .finish false, .getWork]

theorem no_work_lost_emptyBetween :
    ∃ s, executor.exec {} emptyBetween = some s ∧ s.ran = ['a'] ∧ s.workqueue.queue.length ≤ s.notifyFd :=
  ⟨_, rfl, rfl, ((no_work_lost (show executor.exec {} emptyBetween = some _ from rfl)).2.2.2 (by decide)).2 rfl (by decide)⟩

/-! ## Coming to rest -/

/-- The steps of the loop, as long as the functions that it runs queue nothing. -/
def ExecutorAction.ofLoop : ExecutorAction T W → Bool
  | .wake | .read | .acquire | .getWork | .notifyHere | .finish _ => true
  | _ => false

/-- The steps that the loop has before it: four for each count of the descriptor, and two for each function. -/
def Executor.stepsLeft (s : Executor T W) : Nat :=
  2 * s.workqueue.queue.reduceOption.length +
    match s.loop with
    | .idle => 4 * s.notifyFd
    | .reading => 4 * s.notifyFd - 1
    | .locking => 4 * s.notifyFd + 2
    | .draining => 4 * s.notifyFd + 1
    | .running _ => 4 * s.notifyFd + 2
    | .notifying _ => 4 * s.notifyFd + 7

/-- All calls of `spawn` have returned, and the event loop is there. -/
structure Quiescent (queued : List (Option W)) (s : Executor T W) : Prop extends Sound s where
  source : s.source = true
  threads : ∀ t, s.threads t = .idle
  sent : s.workqueue.sent = queued
  le_max : queued.length ≤ eventfdMax

/-- The calls of `spawn` that have returned, or never began, keep out of the way. -/
theorem Quiescent.step {queued : List (Option W)} (h : Quiescent queued s) (ha : a.ofLoop = true)
    (hstep : ExecutorStep s a s') : Quiescent queued s' ∧ s'.stepsLeft + 1 = s.stepsLeft := by
  have hsound := h.toSound.step hstep
  cases hstep with
  | wake hloop hsource hfd =>
      refine ⟨⟨hsound, h.source, h.threads, h.sent, h.le_max⟩, ?_⟩
      simp only [Executor.stepsLeft, hloop]
      omega
  | read hloop hfd =>
      refine ⟨⟨hsound, h.source, h.threads, h.sent, h.le_max⟩, ?_⟩
      simp only [Executor.stepsLeft, hloop]
      omega
  | readFails hloop hfd =>
      have := h.readable.reading hloop
      omega
  | acquire hloop hfree =>
      refine ⟨⟨hsound, h.source, h.threads, h.sent, h.le_max⟩, ?_⟩
      simp only [Executor.stepsLeft, hloop]
      omega
  | run hloop hpop =>
      refine ⟨⟨hsound, h.source, h.threads, (Fifo.pop_eq_some.mp hpop).2.1.trans h.sent, h.le_max⟩, ?_⟩
      simp only [Executor.stepsLeft, hloop, Fifo.queue_of_pop hpop, List.reduceOption_cons_of_some, List.length_cons]
      omega
  | skip hloop hpop =>
      refine ⟨⟨hsound, h.source, h.threads, (Fifo.pop_eq_some.mp hpop).2.1.trans h.sent, h.le_max⟩, ?_⟩
      simp only [Executor.stepsLeft, hloop, Fifo.queue_of_pop hpop, List.reduceOption_cons_of_none]
      omega
  | drained hloop hpop =>
      refine ⟨⟨hsound, h.source, h.threads, h.sent, h.le_max⟩, ?_⟩
      simp only [Executor.stepsLeft, hloop]
      omega
  | @notifyHere current hloop =>
      have hfd := h.counted.fd
      have hqueued := h.counted.queued
      have hmem := List.length_pos_of_mem (h.unnotified.loop.mpr ⟨current, hloop⟩)
      have hmax := h.le_max
      rw [← h.sent] at hmax
      rcases s.write_cases .loop with ⟨-, hwrite⟩ | ⟨hfull, -⟩
      · rw [hwrite] at hsound ⊢
        refine ⟨⟨hsound, h.source, h.threads, h.sent, h.le_max⟩, ?_⟩
        simp only [Executor.stepsLeft, hloop]
        omega
      · omega
  | finish throws hloop =>
      refine ⟨⟨hsound, h.source, h.threads, h.sent, h.le_max⟩, ?_⟩
      simp only [Executor.stepsLeft, hloop]
      omega
  | spawn work hpc => cases ha
  | lock hpc hfree => cases ha
  | push hpc => cases ha
  | notify hpc => cases ha
  | spawnHere work hloop => cases ha
  | destroy hloop hfree hsource => cases ha

omit [DecidableEq T] in
theorem Quiescent.mutex_free {queued : List (Option W)} (h : Quiescent queued s) (hloop : s.loop.holds = false) :
    s.mutex = none := by
  cases hmutex : s.mutex with
  | none => rfl
  | some owner =>
      cases owner with
      | loop =>
          rw [h.held.loop.mp hmutex] at hloop
          cases hloop
      | client t =>
          obtain ⟨work, hwork⟩ := (h.held.client t).mp hmutex
          rw [h.threads] at hwork
          cases hwork

omit [DecidableEq T] in
theorem Quiescent.queue_le {queued : List (Option W)} (h : Quiescent queued s) (hloop : s.loop = .idle) :
    s.workqueue.queue.length ≤ s.notifyFd := by
  refine h.toSound.queue_le (by rw [h.sent]; exact h.le_max) hloop fun t => ?_
  rw [h.threads]
  nofun

/-- As long as there is something left to do, the loop can do it. -/
theorem Quiescent.progress {queued : List (Option W)} (h : Quiescent queued s) (hleft : s.stepsLeft ≠ 0) :
    ∃ a s', a.ofLoop = true ∧ executor.step s a = some s' := by
  cases hloop : s.loop with
  | idle =>
      have hfd : 0 < s.notifyFd := by
        by_contra hzero
        have hle := h.queue_le hloop
        have hqueue : s.workqueue.queue = [] := List.length_eq_zero_iff.mp (by omega)
        apply hleft
        simp only [Executor.stepsLeft, hloop, hqueue, List.reduceOption_nil, List.length_nil]
        omega
      refine ⟨.wake, { s with loop := .reading }, rfl, ?_⟩
      show s.step .wake = _
      simp only [Executor.step, hloop, h.source, hfd, and_self, if_true]
  | reading =>
      have hfd := h.readable.reading hloop
      refine ⟨.read, { s with notifyFd := s.notifyFd - 1, reads := s.reads + 1, loop := .locking }, rfl, ?_⟩
      show s.step .read = _
      simp only [Executor.step, hloop, hfd, if_true]
  | locking =>
      have hfree := h.mutex_free (by rw [hloop]; rfl)
      refine ⟨.acquire, { s with loop := .draining, mutex := some .loop }, rfl, ?_⟩
      show s.step .acquire = _
      simp only [Executor.step, hloop, hfree]
  | draining =>
      refine ⟨.getWork, s.getWork, rfl, ?_⟩
      show s.step .getWork = _
      simp only [Executor.step, hloop]
  | running work =>
      refine ⟨.finish false, { s with loop := .draining }, rfl, ?_⟩
      show s.step (.finish false) = _
      simp only [Executor.step, hloop]
      rfl
  | notifying work =>
      refine ⟨.notifyHere, { s.write .loop with loop := .running work }, rfl, ?_⟩
      show s.step .notifyHere = _
      simp only [Executor.step, hloop]

omit [DecidableEq T] in
/-- When nothing is left to do, everything has run. -/
theorem Quiescent.all_ran {queued : List (Option W)} (h : Quiescent queued s) (hleft : s.stepsLeft = 0) :
    s.loop = .idle ∧ s.ran = queued.reduceOption := by
  have hloop : s.loop = .idle := by
    cases hloop : s.loop with
    | idle => rfl
    | reading =>
        have hfd := h.readable.reading hloop
        simp only [Executor.stepsLeft, hloop] at hleft
        omega
    | locking => simp [Executor.stepsLeft, hloop] at hleft
    | draining => simp [Executor.stepsLeft, hloop] at hleft
    | running work => simp [Executor.stepsLeft, hloop] at hleft
    | notifying work => simp [Executor.stepsLeft, hloop] at hleft
  refine ⟨hloop, ?_⟩
  have hle := h.queue_le hloop
  simp only [Executor.stepsLeft, hloop] at hleft
  rw [Fifo.length_queue] at hle
  rw [h.counted.ran, h.sent, List.take_of_length_le]
  rw [← h.sent]
  omega

/-- **All work completes.** Once the calls of `spawn` have returned, whatever they left behind, the loop can go on until
it has made `stepsLeft` steps, no more and no less, and then every function that was queued has run, in order. -/
theorem work_completes {as : List (ExecutorAction T W)} (h : executor.exec {} as = some s)
    (hsource : s.source = true) (hthreads : ∀ t, s.threads t = .idle)
    (hsent : s.workqueue.sent.length ≤ eventfdMax) :
    ∀ bs s', (∀ b ∈ bs, b.ofLoop = true) → executor.exec s bs = some s' →
      bs.length + s'.stepsLeft = s.stepsLeft ∧
        (s'.stepsLeft ≠ 0 → ∃ b t, b.ofLoop = true ∧ executor.step s' b = some t) ∧
        (s'.stepsLeft = 0 → s'.loop = .idle ∧ s'.ran = s.workqueue.sent.reduceOption) := by
  intro bs s' hbs hexec
  have hs : Quiescent s.workqueue.sent s := ⟨exec_sound h, hsource, hthreads, rfl, hsent⟩
  obtain ⟨hs', hlength⟩ := Guarded.exec_length (M := executor) (I := Quiescent s.workqueue.sent)
    (fun u b t hu hb ht => (hu.step hb (executor_step_inv ht)).1)
    (fun u b t hu hb ht => (hu.step hb (executor_step_inv ht)).2) hs hbs hexec
  exact ⟨hlength, hs'.progress, hs'.all_ran⟩

/-- The third function of `emptyBetween` is still queued when all threads are back. -/
def lastWakes : List (ExecutorAction Bool Char) :=
  [.wake, .read, .acquire, .getWork, .finish true, .getWork, .wake, .read, .acquire, .getWork]

theorem work_completes_emptyBetween :
    ∃ s s', executor.exec {} emptyBetween = some s ∧ s.stepsLeft = 10 ∧ executor.exec s lastWakes = some s' ∧
      s'.ran = ['a', 'b'] := by
  refine ⟨_, _, rfl, rfl, rfl, ?_⟩
  have hexec : executor.exec {} emptyBetween = some _ := rfl
  exact ((work_completes hexec rfl (by decide) (by decide) lastWakes _ (by decide) rfl).2.2 rfl).2

/-! ## The end of the event loop -/

/-- **Nothing runs after the destruction** of the event loop, although the executor may still be used: whatever the
threads queue from then on stays in the queue, and none of them is kept from the mutex by the loop. -/
theorem nothing_after_destruction {as : List (ExecutorAction T W)} (h : executor.exec {} as = some s)
    (hsource : s.source = false) (bs : List (ExecutorAction T W)) (s' : Executor T W) (hexec : executor.exec s bs = some s') :
    s'.ran = s.ran ∧ s'.workqueue.taken = s.workqueue.taken ∧ s.workqueue.sent <+: s'.workqueue.sent ∧
      s'.loop = .idle ∧ s'.mutex ≠ some .loop := by
  have hgoes : Sound s' ∧ s'.source = false ∧ s'.ran = s.ran ∧ s'.workqueue.taken = s.workqueue.taken ∧
      s.workqueue.sent <+: s'.workqueue.sent := by
    refine executor.exec_induction (P := fun _ u => Sound u ∧ u.source = false ∧ u.ran = s.ran ∧
      u.workqueue.taken = s.workqueue.taken ∧ s.workqueue.sent <+: u.workqueue.sent)
      ⟨exec_sound h, hsource, rfl, rfl, List.prefix_refl _⟩ ?_ bs s' hexec
    rintro - u b t - ⟨hu, hgone, hran, htaken, hsent⟩ ht
    have hidle := hu.ended hgone
    have hstep := executor_step_inv ht
    refine ⟨hu.step hstep, ?_⟩
    cases hstep with
    | spawn work hpc => exact ⟨hgone, hran, htaken, hsent⟩
    | lock hpc hfree => exact ⟨hgone, hran, htaken, hsent⟩
    | push hpc => exact ⟨hgone, hran, htaken, hsent.trans (List.prefix_append _ _)⟩
    | @notify t' hpc =>
        obtain ⟨notifyFd, writes, failures, hwrite⟩ := u.write_frame (.client t')
        rw [hwrite]
        exact ⟨hgone, hran, htaken, hsent⟩
    | wake hloop hsource hfd => rw [hgone] at hsource; cases hsource
    | read hloop hfd => rw [hidle] at hloop; cases hloop
    | readFails hloop hfd => rw [hidle] at hloop; cases hloop
    | acquire hloop hfree => rw [hidle] at hloop; cases hloop
    | run hloop hpop => rw [hidle] at hloop; cases hloop
    | skip hloop hpop => rw [hidle] at hloop; cases hloop
    | drained hloop hpop => rw [hidle] at hloop; cases hloop
    | spawnHere work hloop => rw [hidle] at hloop; cases hloop
    | notifyHere hloop => rw [hidle] at hloop; cases hloop
    | finish throws hloop => rw [hidle] at hloop; cases hloop
    | destroy hloop hfree hsource => exact ⟨rfl, hran, htaken, hsent⟩
  obtain ⟨hs', hgone, hran, htaken, hsent⟩ := hgoes
  refine ⟨hran, htaken, hsent, hs'.ended hgone, ?_⟩
  rw [ne_eq, hs'.held.loop, hs'.ended hgone]
  nofun

def lateSpawn : List (ExecutorAction Bool Char) := [.spawn true (some 'c'), .lock true, .push true, .notify true]

theorem nothing_after_destruction_lateSpawn :
    ∃ s s', executor.exec {} (emptyBetween ++ [.destroy]) = some s ∧ executor.exec s lateSpawn = some s' ∧
      s'.ran = ['a'] ∧ s'.workqueue.queue = [some 'b', some 'c'] := by
  refine ⟨_, _, rfl, rfl, ?_, rfl⟩
  have hexec : executor.exec {} (emptyBetween ++ [.destroy]) = some _ := rfl
  exact (nothing_after_destruction hexec rfl lateSpawn _ rfl).1

end Runs

end Wlcs.Integration
