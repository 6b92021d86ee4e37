import Wlcs.Lib.History
import Wlcs.Runner.ExitStatus

/-!
# Failures outside tests

A part result may also come from an environment or from the set-up of a test case, when no test is running. The listener
then looks at the test that started last: there is none before the first test, and the reasons for which an earlier test
was skipped stay until the next test ends. `no_failure_masked_iff` says when a failure of another test gets lost by this.

The skip reasons are the only thing that outlives a test; `reasons_iff` reads them off the events.
-/

namespace Wlcs.Runner
open EventMachine History

/-! ## Runs with part results anywhere -/

/-- As `Phase.next`, with part results allowed in every phase. -/
def Phase.nextAnywhere (p : Phase) : Event → Option Phase
  | .testPartResult _ => some p
  | e => p.next e

def phaseAnywhere (events : List Event) : Option Phase := events.foldlM Phase.nextAnywhere .outside

theorem phaseAnywhere_concat (events : List Event) (e : Event) :
    phaseAnywhere (events ++ [e]) = (phaseAnywhere events).bind (·.nextAnywhere e) := by
  simp [phaseAnywhere, List.foldlM_append]

theorem phaseAnywhere_restrict {events more : List Event} {p : Phase} (h : phaseAnywhere more = some p)
    (hp : events <+: more) : ∃ q, phaseAnywhere events = some q := foldlM_restrict h hp

/-- The test that an event starts. -/
def Event.started : Event → Option TestInfo
  | .testStart info => some info
  | _ => none

def Event.endsTest : Event → Bool
  | .testEnd _ => true
  | _ => false

def Event.startsIteration : Event → Bool
  | .testIterationStart _ => true
  | _ => false

/-- The test that started last, which may have ended. -/
def lastStarted (events : List Event) : Option TestInfo := lastSome Event.started events

/-! ## What the listener holds -/

theorem currentTestInfo_eq (events : List Event) : (after events).listener.currentTestInfo = lastStarted events := by
  induction events using List.reverseRecOn with
  | nil => rfl
  | append_singleton events e ih =>
      rw [after_concat, lastStarted, lastSome_concat, ← lastStarted, ← ih]
      cases e with
      | testPartResult result =>
          by_cases hfailed : result.failed = true
          · obtain ⟨l, out, hstep, hpart⟩ := step_failing (after events) hfailed
            rw [hstep]
            cases hpart with
            | dangling | skipped | failed => rfl
          · rw [step_passing _ hfailed]
            rfl
      | _ => rfl

/-- A failing part at which the test that started last has declared itself skipped. -/
def SkippingAt (pre : List Event) (e : Event) : Prop :=
  ∃ result, e = .testPartResult result ∧ result.failed = true ∧
    ∃ last, lastStarted pre = some last ∧ (after pre).gtest.Skips last

/-- There are skip reasons when such a part has come and no test has ended since. -/
theorem reasons_iff (events : List Event) :
    (after events).listener.currentSkipReasons.isSome = true ↔ Since Event.endsTest SkippingAt events := by
  induction events using List.reverseRecOn with
  | nil => exact iff_of_false (by decide) not_since_nil
  | append_singleton events e ih =>
      rw [after_concat, since_concat, ← ih]
      cases e with
      | testPartResult result =>
          by_cases hfailed : result.failed = true
          · obtain ⟨l, out, hstep, hpart⟩ := step_failing (after events) hfailed
            rw [hstep]
            have hcurrent := currentTestInfo_eq events
            cases hpart with
            | dangling hnone =>
                refine ⟨fun h => Or.inr ⟨h, rfl⟩, ?_⟩
                rintro (⟨other, -, -, last, hlast, -⟩ | ⟨h, -⟩)
                · rw [← hcurrent, hnone] at hlast
                  cases hlast
                · exact h
            | @skipped info reasons hinfo hskip =>
                refine iff_of_true rfl ?_
                rcases hskip with hskip | hreasons
                · exact Or.inl ⟨result, rfl, hfailed, info, hcurrent ▸ hinfo, hskip⟩
                · exact Or.inr ⟨hreasons, rfl⟩
            | @failed info hinfo hskip hreasons =>
                refine ⟨fun h => Or.inr ⟨h, rfl⟩, ?_⟩
                rintro (⟨other, -, -, last, hlast, hskips⟩ | ⟨h, -⟩)
                · rw [← hcurrent, hinfo] at hlast
                  exact absurd (Option.some.inj hlast ▸ hskips) hskip
                · exact h
          · rw [step_passing _ hfailed]
            refine ⟨fun h => Or.inr ⟨h, rfl⟩, ?_⟩
            rintro (⟨other, heq, hother, -⟩ | ⟨h, -⟩)
            · exact absurd (Event.testPartResult.inj heq ▸ hother) hfailed
            · exact h
      | testEnd info =>
          refine iff_of_false (fun h => by cases h) ?_
          rintro (⟨other, heq, -⟩ | ⟨-, hmark⟩)
          · cases heq
          · cases hmark
      | _ =>
          refine ⟨fun h => Or.inr ⟨h, rfl⟩, ?_⟩
          rintro (⟨other, heq, -⟩ | ⟨h, -⟩)
          · cases heq
          · exact h

/-! ## What gtest holds -/

/-- The test that runs in a phase. -/
def Phase.test : Phase → Option TestInfo
  | .testing info => some info
  | _ => none

theorem nextAnywhere_cases {p q : Phase} {e : Event} (h : p.nextAnywhere e = some q) :
    (∃ result, e = .testPartResult result ∧ p = q) ∨ PhaseStep p e q := by
  cases e with
  | testPartResult result => exact Or.inl ⟨result, rfl, Option.some.inj h⟩
  | _ => exact Or.inr (phaseStep_of_next h)

theorem running_eq {events : List Event} {p : Phase} (h : phaseAnywhere events = some p) :
    (after events).gtest.running = p.test := by
  induction events using List.reverseRecOn generalizing p with
  | nil =>
      obtain rfl := Option.some.inj h
      rfl
  | append_singleton events e ih =>
      rw [phaseAnywhere_concat] at h
      obtain ⟨q, hq, hnext⟩ := Option.bind_eq_some_iff.mp h
      have ih := ih hq
      rw [after_concat]
      rcases nextAnywhere_cases hnext with ⟨result, rfl, rfl⟩ | hstep
      · exact ih
      · cases hstep with
        | passedOn he => rwa [step_passedOn he]
        | @recordProperty info property =>
            show ((after events).gtest.step (.recordProperty property)).running = _
            simp only [Gtest.step, ih, Phase.test]
        | testPartResult => exact ih
        | testIterationStart | testIterationEnd => exact ih
        | testStart | testEnd => rfl

theorem lastStarted_of_running {events : List Event} {info : TestInfo}
    (h : (after events).gtest.running = some info) : lastStarted events = some info := by
  induction events using List.reverseRecOn with
  | nil => cases h
  | append_singleton events e ih =>
      rw [after_concat] at h
      rw [lastStarted, lastSome_concat, ← lastStarted]
      cases e with
      | testStart started => exact h
      | testEnd ended => cases h
      | recordProperty property =>
          refine ih ?_
          change ((after events).gtest.step (.recordProperty property)).running = _ at h
          simp only [Gtest.step] at h
          split at h
          · next hrunning => rwa [hrunning] at h ⊢
          · exact h
      | _ => exact ih h

/-- Only a new iteration takes back that a test is skipped. -/
theorem skips_step {g : Gtest} {e : Event} {info : TestInfo} (he : e.startsIteration = false) (h : g.Skips info) :
    (g.step e).Skips info := by
  cases e with
  | testIterationStart => cases he
  | recordProperty property =>
      simp only [Gtest.step]
      split
      · next running hrunning =>
          unfold Gtest.Skips
          by_cases hsame : info = running
          · simp only [hsame, Function.update_self]
            exact record_skips property (hsame ▸ h)
          · simp only [Function.update_of_ne hsame]
            exact h
      · exact h
  | _ => exact h

/-- A test goes on until it ends, and what it has declared stays declared. -/
theorem testing_append {pre more : List Event} {p : Phase} {info : TestInfo}
    (hpre : phaseAnywhere pre = some (.testing info)) (h : phaseAnywhere (pre ++ more) = some p)
    (hmore : ∀ e ∈ more, e.endsTest = false) :
    p = .testing info ∧ ((after pre).gtest.Skips info → (after (pre ++ more)).gtest.Skips info) := by
  induction more using List.reverseRecOn generalizing p with
  | nil =>
      rw [List.append_nil] at h ⊢
      rw [hpre] at h
      exact ⟨(Option.some.inj h).symm, id⟩
  | append_singleton more e ih =>
      rw [← List.append_assoc] at h ⊢
      rw [phaseAnywhere_concat] at h
      obtain ⟨q, hq, hnext⟩ := Option.bind_eq_some_iff.mp h
      obtain ⟨rfl, hskips⟩ := ih hq fun x hx => hmore x (List.mem_append_left _ hx)
      have hend := hmore e (List.mem_append_right _ (List.mem_singleton_self _))
      rw [after_concat]
      have hkept (he : e.startsIteration = false) (hs : (after pre).gtest.Skips info) :=
        skips_step he (hskips hs)
      cases e with
      | testPartResult result => exact ⟨(Option.some.inj hnext).symm, hkept rfl⟩
      | recordProperty property => exact ⟨(Option.some.inj hnext).symm, hkept rfl⟩
      | testEnd => cases hend
      | _ => cases hnext

/-! ## Failures that count -/

/-- Only a new iteration forgets names. -/
theorem names_subset_step {s : State} {e : Event} (he : e.startsIteration = false) :
    s.listener.failedTestNames ⊆ (runner.step s e).1.listener.failedTestNames ∧
      s.listener.skippedTestNames ⊆ (runner.step s e).1.listener.skippedTestNames := by
  cases e with
  | testIterationStart => cases he
  | testPartResult result =>
      by_cases hfailed : result.failed = true
      · obtain ⟨l, out, hstep, hpart⟩ := step_failing s hfailed
        rw [hstep]
        cases hpart with
        | dangling => exact ⟨Finset.Subset.refl _, Finset.Subset.refl _⟩
        | skipped => exact ⟨Finset.Subset.refl _, Finset.subset_insert _ _⟩
        | failed => exact ⟨Finset.subset_insert _ _, Finset.Subset.refl _⟩
      · rw [step_passing s hfailed]
        exact ⟨Finset.Subset.refl _, Finset.Subset.refl _⟩
  | _ => exact ⟨Finset.Subset.refl _, Finset.Subset.refl _⟩

theorem names_subset_append {pre more : List Event} (hmore : ∀ e ∈ more, e.startsIteration = false) :
    (after pre).listener.failedTestNames ⊆ (after (pre ++ more)).listener.failedTestNames ∧
      (after pre).listener.skippedTestNames ⊆ (after (pre ++ more)).listener.skippedTestNames := by
  induction more using List.reverseRecOn with
  | nil =>
      rw [List.append_nil]
      exact ⟨Finset.Subset.refl _, Finset.Subset.refl _⟩
  | append_singleton more e ih =>
      have ih := ih fun x hx => hmore x (by simp [hx])
      have hstep := names_subset_step (s := after (pre ++ more)) (hmore e (by simp))
      rw [← List.append_assoc, after_concat]
      exact ⟨ih.1.trans hstep.1, ih.2.trans hstep.2⟩

/-- A failing part before the first test. -/
def DanglingAt (pre : List Event) (e : Event) : Prop :=
  ∃ result, e = .testPartResult result ∧ result.failed = true ∧ lastStarted pre = none

theorem dangling_since (events : List Event) :
    (after events).listener.dangling = true ↔ Since (fun _ => false) DanglingAt events := by
  induction events using List.reverseRecOn with
  | nil => exact iff_of_false (by decide) not_since_nil
  | append_singleton events e ih =>
      rw [after_concat, since_concat, ← ih, and_iff_left rfl]
      cases e with
      | testPartResult result =>
          by_cases hfailed : result.failed = true
          · have hcurrent := currentTestInfo_eq events
            obtain ⟨l, out, hstep, hpart⟩ := step_failing (after events) hfailed
            rw [hstep]
            cases hpart with
            | dangling hnone => exact iff_of_true rfl (Or.inl ⟨result, rfl, hfailed, hcurrent ▸ hnone⟩)
            | skipped hinfo | failed hinfo =>
                refine (or_iff_right ?_).symm
                rintro ⟨other, -, -, hlast⟩
                rw [← hcurrent, hinfo] at hlast
                cases hlast
          · rw [step_passing _ hfailed]
            refine (or_iff_right ?_).symm
            rintro ⟨other, heq, hother, -⟩
            exact hfailed (Event.testPartResult.inj heq ▸ hother)
      | _ =>
          refine (or_iff_right ?_).symm
          rintro ⟨other, heq, -⟩
          cases heq

/-- A failing part is counted as a failure of the test: the printer gets it, the test is among those that failed until
the iteration is over, and the iteration makes the run a failure. -/
structure CountedAsFailure (pre : List Event) (result : TestPartResult) (rest : List Event) (info : TestInfo) :
    Prop where
  passedOn : (runner.step (after pre) (.testPartResult result)).2 = [.delegate (.testPartResult result)]
  inserted : info.fullName ∈ (after (pre ++ [.testPartResult result])).listener.failedTestNames
  notSkipped : (after (pre ++ [.testPartResult result])).listener.skippedTestNames =
    (after pre).listener.skippedTestNames
  kept : ∀ mid unitTest iteration, mid ++ [.testIterationEnd unitTest iteration] <+: rest →
    (∀ e ∈ mid, e.startsIteration = false) →
    let ended := (after (pre ++ .testPartResult result :: mid ++ [.testIterationEnd unitTest iteration])).listener
    info.fullName ∈ ended.failedTestNames ∧ ended.failed = true

/-- No part result finds the pointer to the test uninitialised, and no failing part of a test that has not declared
itself skipped is taken for a skipped one. -/
def NothingMasked (events : List Event) : Prop :=
  (after events).listener.dangling = false ∧
    ∀ pre result rest info, events = pre ++ .testPartResult result :: rest → result.failed = true →
      (after pre).gtest.running = some info → ¬ (after pre).gtest.Skips info → CountedAsFailure pre result rest info

/-- A failing part outside the tests comes after some test has started; and if the one that started last has declared
itself skipped, no failing part without an excuse follows before the next test has ended. -/
def StrayPartsHarmless (events : List Event) : Prop :=
  ∀ pre result rest, events = pre ++ .testPartResult result :: rest → result.failed = true →
    (after pre).gtest.running = none → ∃ last, lastStarted pre = some last ∧
      ((after pre).gtest.Skips last → ∀ mid part, mid ++ [.testPartResult part] <+: rest →
        (∀ e ∈ mid, e.endsTest = false) → ¬ UnexcusedAt (pre ++ .testPartResult result :: mid) part)

/-- Without skip reasons a failing part of a test that has not declared itself skipped is counted. -/
theorem countedAsFailure_of_reasons_none {pre : List Event} {result : TestPartResult} (rest : List Event)
    {info : TestInfo} (hfailed : result.failed = true) (hrunning : (after pre).gtest.running = some info)
    (hskip : ¬ (after pre).gtest.Skips info) (hreasons : (after pre).listener.currentSkipReasons = none) :
    CountedAsFailure pre result rest info := by
  have hcurrent : (after pre).listener.currentTestInfo = some info := by
    rw [currentTestInfo_eq, lastStarted_of_running hrunning]
  obtain ⟨l, out, hstep, hpart⟩ := step_failing (after pre) hfailed
  cases hpart with
  | dangling hnone =>
      rw [hcurrent] at hnone
      cases hnone
  | @skipped other reasons hinfo hother =>
      rw [hcurrent] at hinfo
      obtain rfl := Option.some.inj hinfo
      rw [hreasons] at hother
      exact absurd (hother.resolve_right (by decide)) hskip
  | @failed other hinfo =>
      rw [hcurrent] at hinfo
      obtain rfl := Option.some.inj hinfo
      have hafter : (after (pre ++ [.testPartResult result])).listener = { (after pre).listener with
          failedTestNames := insert info.fullName (after pre).listener.failedTestNames } := by
        rw [after_concat, hstep]
      have hinserted : info.fullName ∈ (after (pre ++ [.testPartResult result])).listener.failedTestNames := by
        rw [hafter]
        exact Finset.mem_insert_self _ _
      refine ⟨by rw [hstep], hinserted, by rw [hafter], fun mid unitTest iteration _ hmid => ?_⟩
      have hmem := (names_subset_append hmid).1 hinserted
      rw [List.append_assoc, List.singleton_append] at hmem
      have hended : (after (pre ++ .testPartResult result :: mid ++ [.testIterationEnd unitTest iteration])).listener =
          { (after (pre ++ .testPartResult result :: mid)).listener with
            failed := (after (pre ++ .testPartResult result :: mid)).listener.failed ||
              decide ((after (pre ++ .testPartResult result :: mid)).listener.failedTestNames ≠ ∅) } := by
        rw [after_concat]
        rfl
      rw [hended]
      refine ⟨hmem, ?_⟩
      simp only [Bool.or_eq_true, decide_eq_true_eq]
      exact Or.inr (Finset.ne_empty_of_mem hmem)

/-- **Masked failures**: no failure is masked exactly when the failing parts outside the tests are harmless. -/
theorem no_failure_masked_iff (events : List Event) (p : Phase) (h : phaseAnywhere events = some p) :
    NothingMasked events ↔ StrayPartsHarmless events := by
  constructor
  · rintro ⟨hdangling, hcounted⟩ pre result rest rfl hfailed hrunning
    cases hlast : lastStarted pre with
    | none =>
        have hset := (dangling_since _).mpr ⟨pre, _, rest, rfl, ⟨result, rfl, hfailed, hlast⟩, fun _ _ => rfl⟩
        rw [hdangling] at hset
        cases hset
    | some last =>
        refine ⟨last, rfl, fun hskips mid part hpart hmid hunexcused => ?_⟩
        obtain ⟨hpartFailed, info, hinfo, hnot⟩ := hunexcused
        obtain ⟨tail, rfl⟩ := hpart
        -- the reasons of the stray part are still there
        have hreasons := (reasons_iff (pre ++ .testPartResult result :: mid)).mpr
          ⟨pre, _, mid, rfl, ⟨result, rfl, hfailed, last, hlast, hskips⟩, hmid⟩
        have hcount := hcounted (pre ++ .testPartResult result :: mid) part tail info (by simp) hpartFailed hinfo hnot
        obtain ⟨l, out, hstep, hfailing⟩ := step_failing (after (pre ++ .testPartResult result :: mid)) hpartFailed
        have hout := hcount.passedOn
        rw [hstep] at hout
        cases hfailing with
        | dangling | skipped => cases hout
        | failed _ _ hnone =>
            rw [hnone] at hreasons
            cases hreasons
  · intro hharmless
    refine ⟨?_, fun pre result rest info heq hfailed hrunning hskip => ?_⟩
    · rw [Bool.eq_false_iff]
      intro hset
      obtain ⟨pre, e, rest, heq, ⟨result, rfl, hfailed, hlast⟩, -⟩ := (dangling_since events).mp hset
      have hnone : (after pre).gtest.running = none := by
        cases hrunning : (after pre).gtest.running with
        | none => rfl
        | some info =>
            rw [lastStarted_of_running hrunning] at hlast
            cases hlast
      obtain ⟨last, hsome, -⟩ := hharmless pre result rest heq hfailed hnone
      rw [hlast] at hsome
      cases hsome
    · refine countedAsFailure_of_reasons_none rest hfailed hrunning hskip ?_
      rw [← Option.not_isSome_iff_eq_none, reasons_iff]
      rintro ⟨before, e, mid, rfl, ⟨stray, rfl, hstray, last, hlast, hskips⟩, hmid⟩
      cases hbefore : (after before).gtest.running with
      | none =>
          obtain ⟨started, hstarted, hnot⟩ := hharmless before stray (mid ++ .testPartResult result :: rest)
            (by simpa using heq) hstray hbefore
          rw [hlast] at hstarted
          obtain rfl := Option.some.inj hstarted
          refine hnot hskips mid result ?_ hmid ⟨hfailed, info, hrunning, hskip⟩
          exact ⟨rest, by simp⟩
      | some test =>
          -- the part came from the test that is still running
          obtain rfl : test = last := Option.some.inj ((lastStarted_of_running hbefore).symm.trans hlast)
          obtain ⟨q, hq⟩ := phaseAnywhere_restrict h (heq ▸ List.prefix_append _ _)
          obtain ⟨b, hb⟩ := phaseAnywhere_restrict hq (List.prefix_append _ _)
          have htest := running_eq hb
          rw [hbefore] at htest
          cases b with
          | testing other =>
              obtain rfl := Option.some.inj htest
              obtain ⟨rfl, hkept⟩ := testing_append hb hq fun e he => by
                rcases List.mem_cons.mp he with rfl | he
                · rfl
                · exact hmid e he
              obtain rfl : info = test := Option.some.inj (hrunning.symm.trans (running_eq hq))
              exact hskip (hkept hskips)
          | outside | iterating => cases htest

/-- The first test is skipped, its test case fails to clean up, and the second test fails. -/
def strayTearDown : List Event :=
  let skipped : TestInfo := ⟨0, "XdgPopupTest", "popup_moves"⟩
  let broken : TestInfo := ⟨1, "FrameSubmission", "post_one_frame_at_a_time"⟩
  [.testProgramStart, .testIterationStart 0, .testCaseStart "XdgPopupTest", .testStart skipped,
    .recordProperty ⟨"wlcs-skip-test", "Missing extension"⟩, .testPartResult ⟨true, "not supported"⟩, .testEnd skipped,
    .testPartResult ⟨true, "tear down"⟩, .testCaseEnd "XdgPopupTest", .testCaseStart "FrameSubmission",
    .testStart broken, .testPartResult ⟨true, "no frame"⟩, .testEnd broken, .testCaseEnd "FrameSubmission",
    .testIterationEnd ⟨2, 2, 0, 0⟩ 0, .testProgramEnd]

/-- The environment fails before there is a test. -/
def straySetUp : List Event :=
  [.testProgramStart, .testIterationStart 0, .environmentsSetUpStart, .testPartResult ⟨true, "set up"⟩]

theorem no_failure_masked_iff_strayTearDown :
    phaseAnywhere strayTearDown = some .outside ∧ (NothingMasked strayTearDown ↔ StrayPartsHarmless strayTearDown) :=
  ⟨by decide, no_failure_masked_iff strayTearDown .outside (by decide)⟩

/-- The failure of the second test is lost, and the run succeeds; the other run reads the uninitialised pointer. -/
theorem failures_masked :
    phaseAnywhere strayTearDown = some .outside ∧ ¬ NothingMasked strayTearDown ∧
      main .ready strayTearDown = exitSuccess ∧
      phaseAnywhere straySetUp = some .iterating ∧ ¬ NothingMasked straySetUp := by
  refine ⟨by decide, ?_, by decide, by decide, ?_⟩
  · rintro ⟨-, hcounted⟩
    have hcount := hcounted (strayTearDown.take 11) ⟨true, "no frame"⟩ (strayTearDown.drop 12)
      ⟨1, "FrameSubmission", "post_one_frame_at_a_time"⟩ rfl rfl rfl (by unfold Gtest.Skips; decide)
    exact absurd hcount.passedOn (by decide)
  · rintro ⟨hdangling, -⟩
    exact absurd hdangling (by decide)

end Wlcs.Runner
