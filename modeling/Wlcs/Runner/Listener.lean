import Mathlib.Data.Finset.Insert
import Wlcs.Lib.Machine

/-!
# The test runner

`main` runs all tests under `XFailSupportingTestListenerWrapper`, a listener that wraps the result printer of gtest and
keeps the failures of tests that have declared themselves skipped away from it.

* `Gtest` : what the listener can ask gtest for, the test being run and the properties recorded for each test;
* `Listener` : the members of the wrapper, and its handlers;
* `runner` : the two of them, fed with the events of a run;
* `main`.
-/

namespace Wlcs.Runner
open EventMachine

/-- A registered test; `id` stands for the address of the `TestInfo`. -/
structure TestInfo where
  id : Nat
  testCaseName : String
  name : String
deriving DecidableEq, Repr

def TestInfo.fullName (t : TestInfo) : String := t.testCaseName ++ "." ++ t.name

structure TestProperty where
  key : String
  value : String
deriving DecidableEq, Repr

structure TestPartResult where
  failed : Bool
  message : String
deriving DecidableEq, Repr

/-- What the summary of an iteration reads from `UnitTest`. -/
structure UnitTest where
  testToRunCount : Nat
  testCaseToRunCount : Nat
  elapsedTime : Nat
  successfulTestCount : Nat
deriving DecidableEq, Repr

inductive Event
  | testProgramStart
  | testIterationStart (iteration : Nat)
  | environmentsSetUpStart
  | environmentsSetUpEnd
  | testCaseStart (testCase : String)
  | testStart (info : TestInfo)
  /-- `::testing::Test::RecordProperty` -/
  | recordProperty (property : TestProperty)
  | testPartResult (result : TestPartResult)
  | testEnd (info : TestInfo)
  | testCaseEnd (testCase : String)
  | environmentsTearDownStart
  | environmentsTearDownEnd
  | testIterationEnd (unitTest : UnitTest) (iteration : Nat)
  | testProgramEnd
deriving DecidableEq, Repr

/-! ## gtest -/

structure Gtest where
  running : Option TestInfo := none
  /-- The properties in the result of each test. -/
  properties : TestInfo → List TestProperty := fun _ => []

/-- A property recorded under a key in use replaces its value. -/
def record (properties : List TestProperty) (property : TestProperty) : List TestProperty :=
  if properties.any (·.key = property.key) then
    properties.map fun p => if p.key = property.key then property else p
  else properties ++ [property]

def Gtest.step (g : Gtest) : Event → Gtest
  | .testIterationStart _ => { g with properties := fun _ => [] }
  | .testStart info => { g with running := some info }
  | .recordProperty property =>
    match g.running with
    | some info => { g with properties := Function.update g.properties info (record (g.properties info) property) }
    | none => g
  | .testEnd _ => { g with running := none }
  | _ => g

/-! ## The listener -/

/-- What the listener prints, and what it passes on to the printer that it wraps. -/
inductive Output
  | delegate (e : Event)
  | reason (text : String)
  | skip (test : String)
  | ran (tests testCases elapsed : Nat)
  | passed (tests : Nat)
  | skipped (names : Finset String)
  | failed (names : Finset String)
deriving DecidableEq

structure Listener where
  /-- `none` until a test has started: the source leaves the pointer uninitialised. -/
  currentTestInfo : Option TestInfo := none
  currentSkipReasons : Option (List String) := none
  failedTestNames : Finset String := ∅
  skippedTestNames : Finset String := ∅
  failed : Bool := false
  /-- The uninitialised pointer has been dereferenced. -/
  dangling : Bool := false

def skipKey : String := "wlcs-skip-test"

/-- The values of the properties that declare the test skipped. -/
def skipReasons (properties : List TestProperty) : List String :=
  (properties.filter (·.key = skipKey)).map (·.value)

namespace Listener

def onTestIterationStart (l : Listener) (iteration : Nat) : Listener × List Output :=
  ({ l with failedTestNames := ∅, skippedTestNames := ∅ }, [.delegate (.testIterationStart iteration)])

def onTestStart (l : Listener) (info : TestInfo) : Listener × List Output :=
  ({ l with currentTestInfo := some info }, [.delegate (.testStart info)])

/-- The loop over the properties of the current test: each that declares it skipped adds its value to the reasons. -/
def addSkipReasons (l : Listener) (properties : List TestProperty) : Listener :=
  if (skipReasons properties).isEmpty then l
  else { l with currentSkipReasons := some (l.currentSkipReasons.getD [] ++ skipReasons properties) }

def onTestPartResult (l : Listener) (g : Gtest) (result : TestPartResult) : Listener × List Output :=
  if result.failed then
    match l.currentTestInfo with
    | none => ({ l with dangling := true }, [])
    | some info =>
      let l := l.addSkipReasons (g.properties info)
      if l.currentSkipReasons.isSome then
        ({ l with skippedTestNames := insert info.fullName l.skippedTestNames }, [])
      else
        ({ l with failedTestNames := insert info.fullName l.failedTestNames }, [.delegate (.testPartResult result)])
  else (l, [.delegate (.testPartResult result)])

def onTestEnd (l : Listener) (info : TestInfo) : Listener × List Output :=
  ({ l with currentSkipReasons := none },
    match l.currentSkipReasons with
    | some reasons => reasons.map .reason ++ [.skip info.fullName]
    | none => [.delegate (.testEnd info)])

def onTestIterationEnd (l : Listener) (unitTest : UnitTest) : Listener × List Output :=
  ({ l with failed := l.failed || decide (l.failedTestNames ≠ ∅) },
    [.ran unitTest.testToRunCount unitTest.testCaseToRunCount unitTest.elapsedTime,
      .passed unitTest.successfulTestCount] ++
    (if l.skippedTestNames ≠ ∅ then [.skipped l.skippedTestNames] else []) ++
    (if l.failedTestNames ≠ ∅ then [.failed l.failedTestNames] else []))

/-- The handler of each event; gtest does not tell its listeners about recorded properties, and what is not handled here
goes to the printer as it is. -/
def handle (l : Listener) (g : Gtest) : Event → Listener × List Output
  | .testIterationStart iteration => l.onTestIterationStart iteration
  | .testStart info => l.onTestStart info
  | .recordProperty _ => (l, [])
  | .testPartResult result => l.onTestPartResult g result
  | .testEnd info => l.onTestEnd info
  | .testIterationEnd unitTest _ => l.onTestIterationEnd unitTest
  | e => (l, [.delegate e])

end Listener

/-! ## The run -/

structure State where
  gtest : Gtest := {}
  listener : Listener := {}

/-- gtest updates its own state and then tells the listener. -/
def runner : Transducer State Event (List Output) where
  step s e :=
    let gtest := s.gtest.step e
    let (listener, outputs) := s.listener.handle gtest e
    (⟨gtest, listener⟩, outputs)

def after (events : List Event) : State := runner.run {} events

/-- How far `main` gets before it runs the tests. -/
inductive Startup
  /-- no integration module on the command line, or `--help` -/
  | usage
  /-- the integration module cannot be loaded -/
  | moduleFailed
  /-- the module has no `wlcs_server_integration` -/
  | entryPointFailed
  | ready
deriving DecidableEq, Repr

def exitSuccess : Nat := 0

def exitFailure : Nat := 1

def main (startup : Startup) (events : List Event) : Nat :=
  match startup with
  | .usage | .moduleFailed | .entryPointFailed => 1
  | .ready => if (after events).listener.failed then exitFailure else exitSuccess

end Wlcs.Runner
