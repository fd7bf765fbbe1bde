import MullvadAppTests.Lib.Selection
import MullvadAppTests.TestManager.Summary
import MullvadAppTests.TestManager.TestMetadata

/-!
`run` of `test-manager/src/run_tests.rs` with `run_test` and the `Logger` of
`test-manager/src/logging.rs`: the tests are sorted and filtered, and run one
after the other until one that must succeed has failed. How each test ends, what
is logged while it runs and which calls of the manager itself fail are inputs. A
panic of the manager is an error like those that it returns through `?`.
-/

namespace MullvadAppTests.TestManager

open Lib

/-! ### The logger -/

/-- `printed` is what has gone to the terminal so far, live or later. -/
structure Logger where
  buffer : Bool
  storedRecords : List Text
  printed : List Text
  deriving DecidableEq, Repr

namespace Logger

def storeRecords (logger : Logger) (state : Bool) : Logger := {logger with buffer := state}

def printStoredRecords (logger : Logger) : Logger :=
  {logger with storedRecords := [], printed := logger.printed ++ logger.storedRecords}

def flushRecords (logger : Logger) : Logger := {logger with storedRecords := []}

def log (logger : Logger) (record : Text) : Logger :=
  if logger.buffer then {logger with storedRecords := logger.storedRecords ++ [record]}
  else {logger with printed := logger.printed ++ [record]}

def logAll (logger : Logger) (records : List Text) : Logger := records.foldl log logger

end Logger

/-! ### One test -/

/-- `Result<Result<(), Error>, PanicMessage>`. -/
inductive TestOutcome where
  | ok
  | err (error : String)
  | panic (message : String)
  deriving DecidableEq, Repr

def TestOutcome.succeeded : TestOutcome → Bool
  | .ok => true
  | .err _ => false
  | .panic _ => false

/-- What happens when a test is run: how its function ends, the records logged
meanwhile, and what the calls give that the manager makes for it. `lateRecords` are
those of other tasks that come when the stored records have been printed or dropped
and the logger still buffers: these are two locks of the logger. -/
structure TestCalls where
  client : Except String Unit
  clientRecords : List Text
  getSettings : Except String Unit
  outcome : TestOutcome
  testRecords : List Text
  tryPollOutput : Except String (List Text)
  getMullvadAppLogs : Except String Unit
  newClient : Except String Unit
  cleanupRecords : List Text
  lateRecords : List Text
  cleanup : Except String Unit
  summaryIo : SummaryLogger.LogIo

/-- A registered test; its calls stand for `func`. -/
structure RegisteredTest where
  metadata : TestMetadata
  calls : TestCalls

structure TestOutput where
  errorMessages : List Text
  testName : Text
  result : TestOutcome
  deriving DecidableEq, Repr

inductive RunError where
  | transport (source : String)
  | waitForServer (source : String)
  | panicked (message : String)
  | runTest (source : String)
  | cleanupAfterTest (source : String)
  | logTestResult (source : SummaryError)
  | testPanicked (message : String)
  | testFailed (error : String)
  deriving DecidableEq, Repr

/-- `run_test`. The output of the runner is collected for failed tests only. -/
def runTest (test : RegisteredTest) : Except String TestOutput :=
  let output :=
    if test.calls.outcome.succeeded then []
    else
      match test.calls.tryPollOutput with
      | .ok outputAfterTest => outputAfterTest
      | .error e => ["could not get logs: ".toList ++ e.toList]
  match test.calls.getMullvadAppLogs with
  | .error e => .error e
  | .ok _ => .ok ⟨output, test.metadata.name, test.calls.outcome⟩

/-! ### The loop -/

/-- What `run` does for a test, as far as it can be seen from outside. -/
inductive RunEvent where
  | runTest (test : TestMetadata)
  | cleanupAfterTest (test : TestMetadata)
  deriving DecidableEq, Repr

/-- `defaultSettings` says whether `DEFAULT_SETTINGS` is set; `events` is a
history. -/
structure RunState where
  logger : Logger
  summaryLogger : Option SummaryLogger
  defaultSettings : Bool
  successfulTests : List Text
  failedTests : List Text
  finalResult : Except RunError Unit
  events : List RunEvent

/-- A part of the loop's body; an early return keeps the state it left. -/
abbrev RunM := Except (RunError × RunState) RunState

def RunState.logAll (s : RunState) (records : List Text) : RunState :=
  {s with logger := s.logger.logAll records}

/-- `init_default_settings`, for the clients that downcast to the current
management interface. -/
def initDefaultSettings (test : RegisteredTest) (s : RunState) : RunM :=
  if test.metadata.mullvadClientVersion = .new ∧ s.defaultSettings = false then
    match test.calls.getSettings with
    | .error _ => .error (.panicked "Failed to obtain settings", s)
    | .ok _ => .ok {s with defaultSettings := true}
  else .ok s

def createClient (test : RegisteredTest) (s : RunState) : RunM :=
  let s := s.logAll test.calls.clientRecords
  match test.calls.client with
  | .error e => .error (.panicked e, s)
  | .ok _ => initDefaultSettings test s

def executeTest (printFailedTestsOnly : Bool) (test : RegisteredTest) (s : RunState) : RunM :=
  let s := s.logAll ["Running ".toList ++ test.metadata.name]
  let s := if printFailedTestsOnly then {s with logger := s.logger.storeRecords true} else s
  let s := {s.logAll test.calls.testRecords with events := s.events ++ [.runTest test.metadata]}
  match runTest test with
  | .error e => .error (.runTest e, s)
  | .ok _ => .ok s

/-- `cleanup_after_test` with a new client, when the daemon may have to be reset. -/
def cleanupAfterTest (test : RegisteredTest) (s : RunState) : RunM :=
  if test.metadata.mullvadClientVersion = .new ∧
      (test.metadata.cleanup = true ∨ test.calls.outcome.succeeded = false) then
    let s := s.logAll test.calls.cleanupRecords
    match test.calls.newClient with
    | .error e => .error (.panicked e, s)
    | .ok _ =>
        let s := {s with events := s.events ++ [.cleanupAfterTest test.metadata]}
        if s.defaultSettings = false then
          .error (.panicked "default settings were not initialized", s)
        else
          match test.calls.cleanup with
          | .error e => .error (.cleanupAfterTest e, s)
          | .ok _ => .ok s
  else .ok s

def printRecords (printFailedTestsOnly : Bool) (test : RegisteredTest) (s : RunState) : RunState :=
  if printFailedTestsOnly then
    let logger :=
      if test.calls.outcome.succeeded then s.logger.flushRecords
      else s.logger.printStoredRecords
    {s with logger := (logger.logAll test.calls.lateRecords).storeRecords false}
  else s

def logResult (test : RegisteredTest) (s : RunState) : RunM :=
  match maybeLogTestResult s.summaryLogger test.calls.summaryIo test.metadata.name
      (if test.calls.outcome.succeeded then .pass else .fail) with
  | .error e => .error (.logTestResult e, s)
  | .ok summaryLogger => .ok {s with summaryLogger}

/-- The last `match` of the body. -/
def account (test : RegisteredTest) (s : RunState) : RunState :=
  match test.calls.outcome with
  | .panic message =>
      {s with
        failedTests := s.failedTests ++ [test.metadata.name]
        finalResult := .error (.testPanicked message)}
  | .err error =>
      {s with
        failedTests := s.failedTests ++ [test.metadata.name]
        finalResult := .error (.testFailed error)}
  | .ok => {s with successfulTests := s.successfulTests ++ [test.metadata.name]}

def runOne (printFailedTestsOnly : Bool) (test : RegisteredTest) (s : RunState) : RunM := do
  let s ← createClient test s
  let s ← executeTest printFailedTestsOnly test s
  let s ← cleanupAfterTest test s
  let s ← logResult test (printRecords printFailedTestsOnly test s)
  .ok (account test s)

def RegisteredTest.failed (test : RegisteredTest) : Bool := !test.calls.outcome.succeeded

/-- A test that must succeed ends the loop when it has failed. -/
def RegisteredTest.breaks (test : RegisteredTest) : Bool :=
  test.metadata.mustSucceed && test.failed

def runTests (printFailedTestsOnly : Bool) (s : RunState) : List RegisteredTest → RunM
  | [] => .ok s
  | test :: rest => do
      let s ← runOne printFailedTestsOnly test s
      if test.breaks then .ok s else runTests printFailedTestsOnly s rest

/-! ### The whole run -/

section

-- `str::to_lowercase`
variable (toLowercase : Text → Text)

def matchesFilter (filters : List Text) (test : RegisteredTest) : Bool :=
  test.metadata.alwaysRun ||
    filters.any fun command =>
      Text.contains (toLowercase test.metadata.command) (toLowercase command)

def RegisteredTest.priority (test : RegisteredTest) : Int := test.metadata.priority.getD 0

def selectTests (testFilters : List Text) (tests : List RegisteredTest) : List RegisteredTest :=
  let tests := sortByKey RegisteredTest.priority tests
  if testFilters ≠ [] then tests.filter (matchesFilter toLowercase testFilters) else tests

/-- The arguments of `run`, and the outcomes of the calls before the loop. -/
structure RunArgs where
  testFilters : List Text
  skipWait : Bool
  printFailedTestsOnly : Bool
  summaryLogger : Option SummaryLogger
  createClientTransports : Except String Unit
  waitForServer : Except String Unit

def RunState.start (logger : Logger) (defaultSettings : Bool)
    (summaryLogger : Option SummaryLogger) : RunState :=
  ⟨logger, summaryLogger, defaultSettings, [], [], .ok (), []⟩

/-- The records at the end of the run. -/
def RunState.finish (s : RunState) : RunState :=
  s.logAll (["TESTS THAT SUCCEEDED:".toList] ++ s.successfulTests ++
    ["TESTS THAT FAILED:".toList] ++ s.failedTests)

def RunTests.run (args : RunArgs) (logger : Logger) (defaultSettings : Bool)
    (tests : List RegisteredTest) : Except RunError Unit × RunState :=
  let s := RunState.start logger defaultSettings args.summaryLogger
  match args.createClientTransports with
  | .error e => (.error (.transport e), s)
  | .ok _ =>
      match (if args.skipWait then .ok () else args.waitForServer) with
      | .error e => (.error (.waitForServer e), s)
      | .ok _ =>
          match runTests args.printFailedTestsOnly s
              (selectTests toLowercase args.testFilters tests) with
          | .error (e, s) => (.error e, s)
          | .ok s => (s.finalResult, s.finish)

end

/-! ### What a run amounts to -/

/-- The calls that the manager makes for a test do not fail. -/
structure TestCalls.Succeed (calls : TestCalls) : Prop where
  client : calls.client = .ok ()
  getSettings : calls.getSettings = .ok ()
  getMullvadAppLogs : calls.getMullvadAppLogs = .ok ()
  newClient : calls.newClient = .ok ()
  cleanup : calls.cleanup = .ok ()
  summaryIo : calls.summaryIo = ⟨.ok (), .ok (), .ok (), .ok ()⟩

/-- The daemon is reset after a test. -/
def RegisteredTest.cleansUp (test : RegisteredTest) : Bool :=
  test.metadata.mullvadClientVersion = .new && (test.failed || test.metadata.cleanup)

def RegisteredTest.events (test : RegisteredTest) : List RunEvent :=
  .runTest test.metadata ::
    if test.cleansUp then [.cleanupAfterTest test.metadata] else []

/-- The line of a test in the summary. -/
def RegisteredTest.summaryLine (test : RegisteredTest) : Text :=
  test.metadata.name ++
    ' ' :: (if test.failed then TestResult.fail else TestResult.pass).display ++ ['\n']

def RunState.summaryText (s : RunState) : Option Text := s.summaryLogger.map (·.file.content)

/-- `last` is reached from `s` by running `tests`, all of them. -/
structure Executed (s : RunState) (tests : List RegisteredTest) (last : RunState) : Prop where
  events : last.events = s.events ++ tests.flatMap (·.events)
  successful : last.successfulTests =
    s.successfulTests ++ (tests.filter fun test => !test.failed).map (·.metadata.name)
  failed : last.failedTests =
    s.failedTests ++ (tests.filter (·.failed)).map (·.metadata.name)
  summary : last.summaryText = s.summaryText.map (· ++ (tests.map (·.summaryLine)).flatten)
  result : last.finalResult = .ok () ↔
    s.finalResult = .ok () ∧ ∀ test ∈ tests, test.failed = false

theorem Executed.refl (s : RunState) : Executed s [] s where
  events := by simp
  successful := by simp
  failed := by simp
  summary := by simp
  result := by simp

theorem Executed.cons {s middle last : RunState} {test : RegisteredTest}
    {rest : List RegisteredTest} (hfirst : Executed s [test] middle)
    (hrest : Executed middle rest last) : Executed s (test :: rest) last where
  events := by rw [hrest.events, hfirst.events]; simp
  successful := by
    rw [hrest.successful, hfirst.successful, List.append_assoc, ← List.map_append,
      ← List.filter_append]
    rfl
  failed := by
    rw [hrest.failed, hfirst.failed, List.append_assoc, ← List.map_append, ← List.filter_append]
    rfl
  summary := by
    rw [hrest.summary, hfirst.summary, Option.map_map]
    congr 1
    funext text
    simp
  result := by
    rw [hrest.result, hfirst.result]
    simp [and_assoc]

/-- The parts of the loop's body that only log leave the rest alone. -/
theorem executed_of_eq {s last : RunState} {test : RegisteredTest}
    (hevents : last.events = s.events ++ test.events)
    (hsummary : last.summaryText = s.summaryText.map (· ++ test.summaryLine))
    (hsuccessful : last.successfulTests = s.successfulTests)
    (hfailed : last.failedTests = s.failedTests)
    (hresult : last.finalResult = s.finalResult) : Executed s [test] (account test last) := by
  have hoff : (account test last).events = last.events ∧
      (account test last).summaryText = last.summaryText := by
    unfold account
    split <;> exact ⟨rfl, rfl⟩
  constructor
  · rw [hoff.1, hevents]
    simp
  · unfold account
    split <;> simp_all [RegisteredTest.failed, TestOutcome.succeeded]
  · unfold account
    split <;> simp_all [RegisteredTest.failed, TestOutcome.succeeded]
  · rw [hoff.2, hsummary]
    simp
  · unfold account
    split <;> simp_all [RegisteredTest.failed, TestOutcome.succeeded]

/-- Only the logger, the settings and the history may differ. -/
structure SameProgress (s next : RunState) : Prop where
  summaryLogger : next.summaryLogger = s.summaryLogger
  successfulTests : next.successfulTests = s.successfulTests
  failedTests : next.failedTests = s.failedTests
  finalResult : next.finalResult = s.finalResult

theorem SameProgress.trans {s middle last : RunState} (hfirst : SameProgress s middle)
    (hsecond : SameProgress middle last) : SameProgress s last where
  summaryLogger := hsecond.summaryLogger.trans hfirst.summaryLogger
  successfulTests := hsecond.successfulTests.trans hfirst.successfulTests
  failedTests := hsecond.failedTests.trans hfirst.failedTests
  finalResult := hsecond.finalResult.trans hfirst.finalResult

theorem createClient_ok {test : RegisteredTest} (h : test.calls.Succeed) (s : RunState) :
    ∃ next, createClient test s = .ok next ∧ SameProgress s next ∧ next.events = s.events ∧
      (test.metadata.mullvadClientVersion = .new → next.defaultSettings = true) := by
  unfold createClient initDefaultSettings
  simp only [h.client, h.getSettings]
  split
  · exact ⟨_, rfl, ⟨rfl, rfl, rfl, rfl⟩, rfl, fun _ => rfl⟩
  · next hset =>
    refine ⟨_, rfl, ⟨rfl, rfl, rfl, rfl⟩, rfl, ?_⟩
    intro hnew
    simpa [hnew] using hset

theorem executeTest_ok {test : RegisteredTest} (h : test.calls.Succeed) (printOnly : Bool)
    (s : RunState) :
    ∃ next, executeTest printOnly test s = .ok next ∧ SameProgress s next ∧
      next.events = s.events ++ [.runTest test.metadata] ∧
      next.defaultSettings = s.defaultSettings := by
  unfold executeTest runTest
  simp only [h.getMullvadAppLogs]
  cases printOnly with
  | true => exact ⟨_, rfl, ⟨rfl, rfl, rfl, rfl⟩, rfl, rfl⟩
  | false => exact ⟨_, rfl, ⟨rfl, rfl, rfl, rfl⟩, rfl, rfl⟩

/-- A daemon that is cleaned up has its default settings known: the client of the
test itself has asked for them. -/
theorem cleanupAfterTest_ok {test : RegisteredTest} (h : test.calls.Succeed) (s : RunState)
    (hset : test.metadata.mullvadClientVersion = .new → s.defaultSettings = true) :
    ∃ next, cleanupAfterTest test s = .ok next ∧ SameProgress s next ∧
      next.events = s.events ++
        if test.cleansUp then [.cleanupAfterTest test.metadata] else [] := by
  unfold cleanupAfterTest
  split
  · next hcond =>
    have hcleans : test.cleansUp = true := by
      simpa [RegisteredTest.cleansUp, RegisteredTest.failed, or_comm] using hcond
    have hnot : (s.logAll test.calls.cleanupRecords).defaultSettings ≠ false := by
      rw [RunState.logAll, hset hcond.1]
      simp
    simp only [h.newClient, h.cleanup, hcleans, if_true, if_neg hnot]
    exact ⟨_, rfl, ⟨rfl, rfl, rfl, rfl⟩, rfl⟩
  · next hcond =>
    have hcleans : test.cleansUp = false := by
      rw [← Bool.not_eq_true]
      simpa [RegisteredTest.cleansUp, RegisteredTest.failed, or_comm] using hcond
    rw [hcleans]
    exact ⟨_, rfl, ⟨rfl, rfl, rfl, rfl⟩, by simp⟩

theorem printRecords_sameProgress (printOnly : Bool) (test : RegisteredTest) (s : RunState) :
    SameProgress s (printRecords printOnly test s) ∧
      (printRecords printOnly test s).events = s.events := by
  cases printOnly <;> exact ⟨⟨rfl, rfl, rfl, rfl⟩, rfl⟩

theorem logResult_ok {test : RegisteredTest} (h : test.calls.Succeed) (s : RunState) :
    ∃ next, logResult test s = .ok next ∧ next.events = s.events ∧
      next.summaryText = s.summaryText.map (· ++ test.summaryLine) ∧
      next.successfulTests = s.successfulTests ∧ next.failedTests = s.failedTests ∧
      next.finalResult = s.finalResult := by
  unfold logResult
  cases hlogger : s.summaryLogger with
  | none =>
      refine ⟨_, rfl, rfl, ?_, rfl, rfl, rfl⟩
      simp [RunState.summaryText, hlogger]
  | some logger =>
      have hlogged : ∃ after, logger.logTestResult test.calls.summaryIo test.metadata.name
          (if test.calls.outcome.succeeded then .pass else .fail) = .ok after := by
        rw [h.summaryIo]
        exact ⟨_, rfl⟩
      obtain ⟨after, hafter⟩ := hlogged
      simp only [maybeLogTestResult, hafter]
      refine ⟨_, rfl, rfl, ?_, rfl, rfl, rfl⟩
      simp only [RunState.summaryText, hlogger, Option.map_some, logTestResult_content hafter,
        RegisteredTest.summaryLine, RegisteredTest.failed]
      by_cases hsucceeded : test.calls.outcome.succeeded = true <;> simp [hsucceeded]

theorem runOne_executes {test : RegisteredTest} (h : test.calls.Succeed) (printOnly : Bool)
    (s : RunState) :
    ∃ next, runOne printOnly test s = .ok next ∧ Executed s [test] next := by
  obtain ⟨created, hcreate, hsame₁, hevents₁, hset⟩ := createClient_ok h s
  obtain ⟨ran, hran, hsame₂, hevents₂, hsettings⟩ := executeTest_ok h printOnly created
  rw [← hsettings] at hset
  obtain ⟨clean, hclean, hsame₃, hevents₃⟩ := cleanupAfterTest_ok h ran hset
  obtain ⟨hsame₄, hevents₄⟩ := printRecords_sameProgress printOnly test clean
  obtain ⟨logged, hlogged, hevents₅, hsummary, hsuccessful, hfailed, hresult⟩ :=
    logResult_ok h (printRecords printOnly test clean)
  have hsame := ((hsame₁.trans hsame₂).trans hsame₃).trans hsame₄
  refine ⟨account test logged, ?_, ?_⟩
  · simp only [runOne, hcreate, hran, hclean, hlogged, bind, Except.bind]
  · apply executed_of_eq
    · rw [hevents₅, hevents₄, hevents₃, hevents₂, hevents₁, List.append_assoc]
      rfl
    · rw [hsummary, RunState.summaryText, hsame.summaryLogger]
      rfl
    · rw [hsuccessful, hsame.successfulTests]
    · rw [hfailed, hsame.failedTests]
    · rw [hresult, hsame.finalResult]

/-- The loop runs the tests up to the first one that ends it. -/
theorem runTests_executes {tests : List RegisteredTest} (h : ∀ test ∈ tests, test.calls.Succeed)
    (printOnly : Bool) (s : RunState) :
    ∃ last, runTests printOnly s tests = .ok last ∧
      Executed s (takeThrough RegisteredTest.breaks tests) last := by
  induction tests generalizing s with
  | nil => exact ⟨s, rfl, .refl s⟩
  | cons test rest ih =>
      obtain ⟨htest, hrest⟩ := List.forall_mem_cons.mp h
      obtain ⟨next, hone, hexecuted⟩ := runOne_executes htest printOnly s
      simp only [runTests, hone, takeThrough, bind, Except.bind]
      split
      · exact ⟨next, rfl, hexecuted⟩
      · obtain ⟨last, hlast, hmore⟩ := ih hrest next
        exact ⟨last, hlast, hexecuted.cons hmore⟩

/-- The tests in the order of their priorities, equal ones as they were
registered, without those that no filter asks for. -/
def Selects (toLowercase : Text → Text) (testFilters : List Text)
    (tests selected : List RegisteredTest) : Prop :=
  ∃ sorted, IsStableSort (fun test => test.metadata.priority.getD 0) tests sorted ∧
    selected =
      if testFilters = [] then sorted
      else
        sorted.filter fun test => test.metadata.alwaysRun = true ∨
          ∃ command ∈ testFilters, toLowercase command <:+: toLowercase test.metadata.command

theorem Selects.eq_selectTests {toLowercase : Text → Text} {testFilters : List Text}
    {tests selected : List RegisteredTest} (h : Selects toLowercase testFilters tests selected) :
    selected = selectTests toLowercase testFilters tests := by
  obtain ⟨sorted, hsorted, rfl⟩ := h
  obtain rfl : sorted = sortByKey RegisteredTest.priority tests :=
    hsorted.unique (sortByKey_isStableSort _ tests)
  simp only [selectTests]
  by_cases hfilters : testFilters = []
  · simp [hfilters]
  · rw [if_neg hfilters, if_pos hfilters]
    apply List.filter_congr
    intro test _
    rw [Bool.eq_iff_iff]
    simp [matchesFilter, Text.contains]

/-- All tests were run and passed. -/
theorem all_passed_iff (tests : List RegisteredTest) :
    (∀ test ∈ takeThrough RegisteredTest.breaks tests, test.failed = false) ↔
      takeThrough RegisteredTest.breaks tests = tests ∧ ∀ test ∈ tests, test.failed = false := by
  constructor
  · intro h
    induction tests with
    | nil => simp [takeThrough]
    | cons test rest ih =>
        rw [takeThrough] at h ⊢
        split at h
        · next hbreaks =>
          have hfailed : test.failed = false := h test (by simp)
          simp [RegisteredTest.breaks, hfailed] at hbreaks
        · next hbreaks =>
          obtain ⟨htest, hrest⟩ := List.forall_mem_cons.mp h
          obtain ⟨heq, hall⟩ := ih hrest
          rw [if_neg hbreaks, heq]
          exact ⟨rfl, List.forall_mem_cons.mpr ⟨htest, hall⟩⟩
  · rintro ⟨heq, hall⟩
    rwa [heq]

/-- The outcome of a run in which the manager's own calls succeed. The tests that
are run are the selected ones up to the first that must succeed and fails. -/
theorem run_outcome (toLowercase : Text → Text) (args : RunArgs) (logger : Logger)
    (defaultSettings : Bool) (tests selected : List RegisteredTest)
    (hconnect : args.createClientTransports = .ok ())
    (hserver : args.skipWait = true ∨ args.waitForServer = .ok ())
    (hcalls : ∀ test ∈ tests, test.calls.Succeed)
    (hselected : Selects toLowercase args.testFilters tests selected) :
    let executed := takeThrough RegisteredTest.breaks selected
    let outcome := RunTests.run toLowercase args logger defaultSettings tests
    outcome.2.events = executed.flatMap (·.events) ∧
      outcome.2.summaryText = args.summaryLogger.map (fun summaryLogger =>
        summaryLogger.file.content ++ (executed.map (·.summaryLine)).flatten) ∧
      outcome.2.successfulTests =
        (executed.filter fun test => !test.failed).map (·.metadata.name) ∧
      outcome.2.failedTests = (executed.filter (·.failed)).map (·.metadata.name) ∧
      (outcome.1 = .ok () ↔
        executed = selected ∧ ∀ test ∈ selected, test.calls.outcome = .ok) := by
  have hsubset : ∀ test ∈ selected, test.calls.Succeed := by
    obtain ⟨sorted, hsorted, rfl⟩ := hselected
    intro test htest
    apply hcalls test
    apply hsorted.perm.mem_iff.mp
    split at htest
    · exact htest
    · exact List.mem_of_mem_filter htest
  have hwait : (if args.skipWait then .ok () else args.waitForServer) =
      (.ok () : Except String Unit) := by
    rcases hserver with hskip | hserver
    · simp [hskip]
    · simp [hserver]
  obtain ⟨last, hrun, hexecuted⟩ := runTests_executes hsubset args.printFailedTestsOnly
    (.start logger defaultSettings args.summaryLogger)
  have houtcome : RunTests.run toLowercase args logger defaultSettings tests =
      (last.finalResult, last.finish) := by
    simp only [RunTests.run, hconnect, hwait, ← hselected.eq_selectTests, hrun]
  have hpassed : ∀ test : RegisteredTest, test.failed = false ↔ test.calls.outcome = .ok := by
    intro test
    unfold RegisteredTest.failed
    cases test.calls.outcome <;> simp [TestOutcome.succeeded]
  simp only [houtcome, ← hpassed, ← all_passed_iff]
  refine ⟨?_, ?_, ?_, ?_, ?_⟩
  · exact hexecuted.events
  · rw [show last.finish.summaryText = last.summaryText from rfl, hexecuted.summary]
    simp [RunState.summaryText, RunState.start, Option.map_map, Function.comp_def]
  · exact hexecuted.successful
  · exact hexecuted.failed
  · rw [hexecuted.result]
    simp [RunState.start]

/-- A test for which every call of the manager succeeds. -/
def TestCalls.working (outcome : TestOutcome) : TestCalls :=
  ⟨.ok (), [], .ok (), outcome, [], .ok [], .ok (), .ok (), [], [], .ok (),
    ⟨.ok (), .ok (), .ok (), .ok ()⟩⟩

/-- Registered in an order that is not the order of the priorities; the test that
must succeed fails, so that the last one is not run. -/
def threeTests : List RegisteredTest :=
  [⟨⟨"test_late".toList, "test_late".toList, .new, some 5, false, false, true⟩, .working .ok⟩,
    ⟨⟨"test_login".toList, "test_login".toList, .new, none, true, true, false⟩,
      .working (.err "no account")⟩,
    ⟨⟨"test_install".toList, "test_install".toList, .none, some (-1), true, true, true⟩,
      .working .ok⟩]

def threeTestsArgs : RunArgs := ⟨[], false, true, none, .ok (), .ok ()⟩

theorem threeTests_outcome :
    ∃ selected, Selects id threeTestsArgs.testFilters threeTests selected ∧
      (RunTests.run id threeTestsArgs ⟨false, [], []⟩ false threeTests).2.events =
        (takeThrough RegisteredTest.breaks selected).flatMap (·.events) ∧
      (RunTests.run id threeTestsArgs ⟨false, [], []⟩ false threeTests).2.successfulTests =
        ["test_install".toList] ∧
      (RunTests.run id threeTestsArgs ⟨false, [], []⟩ false threeTests).2.failedTests =
        ["test_login".toList] ∧
      (RunTests.run id threeTestsArgs ⟨false, [], []⟩ false threeTests).1 ≠ .ok () := by
  have hselects : Selects id threeTestsArgs.testFilters threeTests
      (sortByKey (fun test => test.metadata.priority.getD 0) threeTests) :=
    ⟨_, sortByKey_isStableSort _ threeTests, rfl⟩
  have hcalls : ∀ test ∈ threeTests, test.calls.Succeed := by
    simp only [threeTests, List.forall_mem_cons]
    exact ⟨⟨rfl, rfl, rfl, rfl, rfl, rfl⟩, ⟨rfl, rfl, rfl, rfl, rfl, rfl⟩,
      ⟨rfl, rfl, rfl, rfl, rfl, rfl⟩, by simp⟩
  obtain ⟨hevents, _, hsuccessful, hfailed, hresult⟩ :=
    run_outcome id threeTestsArgs ⟨false, [], []⟩ false threeTests _ rfl (.inr rfl) hcalls hselects
  refine ⟨_, hselects, hevents, ?_, ?_, ?_⟩
  · rw [hsuccessful]
    decide
  · rw [hfailed]
    decide
  · rw [ne_eq, hresult]
    rintro ⟨_, hpassed⟩
    exact absurd hpassed (by decide)

end MullvadAppTests.TestManager
