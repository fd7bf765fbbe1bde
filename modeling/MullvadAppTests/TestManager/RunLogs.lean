import MullvadAppTests.TestManager.RunTests

/-!
What becomes of the records that are logged while `run` runs with
`print_failed_tests_only`. The logger buffers from the start of a test to the end
of its cleanup, and the two calls that may fail in between leave the loop through
`?` without switching it back. A record that another task logs just before the
logger is switched back stays in the buffer, until the next test is over.
-/

namespace MullvadAppTests.TestManager

open Lib

namespace Logger

/-- The logger that `get_or_init` sets up, after `printed` has been logged. -/
def init (printed : List Text) : Logger := ⟨false, [], printed⟩

theorem logAll_of_live (logger : Logger) (h : logger.buffer = false) (records : List Text) :
    logger.logAll records = {logger with printed := logger.printed ++ records} := by
  induction records generalizing logger with
  | nil => simp [logAll]
  | cons record rest ih =>
      have hlog : logger.log record = {logger with printed := logger.printed ++ [record]} := by
        simp [log, h]
      have hrest := ih {logger with printed := logger.printed ++ [record]} h
      rw [logAll] at hrest
      rw [logAll, List.foldl_cons, hlog, hrest]
      simp

theorem logAll_of_buffering (logger : Logger) (h : logger.buffer = true)
    (records : List Text) :
    logger.logAll records = {logger with storedRecords := logger.storedRecords ++ records} := by
  induction records generalizing logger with
  | nil => simp [logAll]
  | cons record rest ih =>
      have hlog : logger.log record =
          {logger with storedRecords := logger.storedRecords ++ [record]} := by
        simp [log, h]
      have hrest := ih {logger with storedRecords := logger.storedRecords ++ [record]} h
      rw [logAll] at hrest
      rw [logAll, List.foldl_cons, hlog, hrest]
      simp

end Logger

/-! ### One test -/

namespace RegisteredTest

/-- What is logged from the first call of `store_records` until the records of the
test are printed or dropped. -/
def bufferedRecords (test : RegisteredTest) : List Text :=
  test.calls.testRecords ++
    if test.calls.getMullvadAppLogs = .ok () ∧ test.cleansUp = true then
      test.calls.cleanupRecords
    else []

/-- Neither `run_test` nor `cleanup_after_test` fails. -/
def Completes (test : RegisteredTest) : Prop :=
  test.calls.getMullvadAppLogs = .ok () ∧
    (test.cleansUp = true → test.calls.cleanup = .ok ())

instance (test : RegisteredTest) : Decidable test.Completes :=
  inferInstanceAs (Decidable (_ ∧ (_ → _)))

/-- A write of the summary fails; `summarised` says whether one is written. -/
def summaryFails (summarised : Bool) (test : RegisteredTest) : Bool :=
  summarised && decide ¬(test.calls.summaryIo.testName = .ok () ∧
    test.calls.summaryIo.space = .ok () ∧ test.calls.summaryIo.testResult = .ok () ∧
    test.calls.summaryIo.newline = .ok ())

/-- No test is run after this one. -/
def stops (summarised : Bool) (test : RegisteredTest) : Bool :=
  test.breaks || test.summaryFails summarised

end RegisteredTest

def RunState.testsStarted (s : RunState) : Nat :=
  s.events.countP fun
    | .runTest _ => true
    | .cleanupAfterTest _ => false

/-- The records of the tests in `started` that failed are among those printed
between `s` and `last`, in their order, and only late records wait in the buffer. -/
structure Printed (s : RunState) (started : List RegisteredTest) (last : RunState) : Prop where
  buffer : last.logger.buffer = false
  storedRecords : last.logger.storedRecords =
    (started.getLast?.map (·.calls.lateRecords)).getD s.logger.storedRecords
  printed : ∃ since, last.logger.printed = s.logger.printed ++ since ∧
    ((started.filter (·.failed)).flatMap (·.bufferedRecords)).Sublist since
  testsStarted : last.testsStarted = s.testsStarted + started.length
  summarised : last.summaryLogger.isSome = s.summaryLogger.isSome

theorem Printed.refl {s : RunState} (h : s.logger.buffer = false) : Printed s [] s where
  buffer := h
  storedRecords := rfl
  printed := ⟨[], by simp, by simp⟩
  testsStarted := by simp
  summarised := rfl

theorem Printed.cons {s middle last : RunState} {test : RegisteredTest}
    {rest : List RegisteredTest} (hfirst : Printed s [test] middle)
    (hrest : Printed middle rest last) : Printed s (test :: rest) last where
  buffer := hrest.buffer
  storedRecords := by
    have hmiddle : middle.logger.storedRecords = test.calls.lateRecords := hfirst.storedRecords
    rw [hrest.storedRecords, hmiddle, List.getLast?_cons]
    cases rest.getLast? <;> rfl
  printed := by
    obtain ⟨since₁, hprinted₁, hsub₁⟩ := hfirst.printed
    obtain ⟨since₂, hprinted₂, hsub₂⟩ := hrest.printed
    refine ⟨since₁ ++ since₂, ?_, ?_⟩
    · rw [hprinted₂, hprinted₁, List.append_assoc]
    · rw [← List.singleton_append, List.filter_append, List.flatMap_append]
      exact hsub₁.append hsub₂
  testsStarted := by
    rw [hrest.testsStarted, hfirst.testsStarted]
    simp only [List.length_cons, List.length_nil]
    omega
  summarised := hrest.summarised.trans hfirst.summarised

/-- How the loop's body may end. -/
inductive BodyEnd (s : RunState) (test : RegisteredTest) : RunM → Prop where
  | panicked (message : String) (last : RunState) :
      BodyEnd s test (.error (.panicked message, last))
  | buffering (e : RunError) (last : RunState) (hfails : ¬test.Completes)
      (hbuffer : last.logger.buffer = true) : BodyEnd s test (.error (e, last))
  | unsummarised (e : RunError) (last : RunState) (hcompletes : test.Completes)
      (hsummary : test.summaryFails s.summaryLogger.isSome = true)
      (hprinted : Printed s [test] last) : BodyEnd s test (.error (e, last))
  | next (next : RunState) (hcompletes : test.Completes)
      (hsummary : test.summaryFails s.summaryLogger.isSome = false)
      (hprinted : Printed s [test] next) : BodyEnd s test (.ok next)

/-- Between the two calls of `store_records`: the records since the first wait in
the buffer. -/
structure Buffering (s : RunState) (records : List Text) (middle : RunState) : Prop where
  buffer : middle.logger.buffer = true
  storedRecords : middle.logger.storedRecords = s.logger.storedRecords ++ records
  printed : ∃ since, middle.logger.printed = s.logger.printed ++ since
  testsStarted : middle.testsStarted = s.testsStarted + 1
  summaryLogger : middle.summaryLogger = s.summaryLogger

theorem createClient_logs (test : RegisteredTest) (s : RunState) :
    (∃ message last, createClient test s = .error (.panicked message, last)) ∨
      ∃ next, createClient test s = .ok next ∧
        next.logger = s.logger.logAll test.calls.clientRecords ∧
        next.events = s.events ∧ next.summaryLogger = s.summaryLogger := by
  unfold createClient initDefaultSettings
  cases test.calls.client with
  | error e => exact .inl ⟨_, _, rfl⟩
  | ok _ =>
      simp only []
      split
      · cases test.calls.getSettings with
        | error e => exact .inl ⟨_, _, rfl⟩
        | ok _ => exact .inr ⟨_, rfl, rfl, rfl, rfl⟩
      · exact .inr ⟨_, rfl, rfl, rfl, rfl⟩

theorem executeTest_logs {s created : RunState} (test : RegisteredTest)
    (hbuffer : s.logger.buffer = false)
    (hlogger : created.logger = s.logger.logAll test.calls.clientRecords)
    (hevents : created.events = s.events)
    (hsummary : created.summaryLogger = s.summaryLogger) :
    ∃ middle, Buffering s test.calls.testRecords middle ∧
      ((∃ e, executeTest true test created = .error (.runTest e, middle) ∧
          test.calls.getMullvadAppLogs ≠ .ok ()) ∨
        (executeTest true test created = .ok middle ∧
          test.calls.getMullvadAppLogs = .ok ())) := by
  have hcreated : created.logger.buffer = false ∧
      created.logger.storedRecords = s.logger.storedRecords := by
    rw [hlogger, Logger.logAll_of_live _ hbuffer]
    exact ⟨hbuffer, rfl⟩
  have hbuffering : Buffering s test.calls.testRecords
      {({created.logAll ["Running ".toList ++ test.metadata.name] with
          logger := (created.logAll ["Running ".toList ++ test.metadata.name]).logger.storeRecords
            true} : RunState).logAll test.calls.testRecords with
        events := created.events ++ [.runTest test.metadata]} := by
    constructor
    · simp [RunState.logAll, Logger.logAll_of_buffering, Logger.storeRecords]
    · simp [RunState.logAll, Logger.logAll_of_buffering, Logger.storeRecords,
        Logger.logAll_of_live, hcreated]
    · refine ⟨test.calls.clientRecords ++ ["Running ".toList ++ test.metadata.name], ?_⟩
      simp [RunState.logAll, Logger.logAll_of_buffering, Logger.storeRecords,
        Logger.logAll_of_live, hlogger, hbuffer]
    · simp [RunState.testsStarted, hevents]
    · exact hsummary
  refine ⟨_, hbuffering, ?_⟩
  unfold executeTest runTest
  cases test.calls.getMullvadAppLogs with
  | error e => exact .inl ⟨e, rfl, by simp⟩
  | ok _ => exact .inr ⟨rfl, rfl⟩

theorem cleanupAfterTest_logs {s middle : RunState} {test : RegisteredTest}
    (hlogs : test.calls.getMullvadAppLogs = .ok ())
    (h : Buffering s test.calls.testRecords middle) :
    (∃ message last, cleanupAfterTest test middle = .error (.panicked message, last)) ∨
      (∃ e last, cleanupAfterTest test middle = .error (e, last) ∧ ¬test.Completes ∧
        last.logger.buffer = true) ∨
      ∃ next, cleanupAfterTest test middle = .ok next ∧ test.Completes ∧
        Buffering s test.bufferedRecords next := by
  unfold cleanupAfterTest
  split
  · next hcond =>
    have hcleans : test.cleansUp = true := by
      simpa [RegisteredTest.cleansUp, RegisteredTest.failed, or_comm] using hcond
    have hbuffered : Buffering s test.bufferedRecords
        {middle.logAll test.calls.cleanupRecords with
          events := middle.events ++ [.cleanupAfterTest test.metadata]} := by
      have hlogAll : (middle.logAll test.calls.cleanupRecords).logger =
          {middle.logger with
            storedRecords := middle.logger.storedRecords ++ test.calls.cleanupRecords} :=
        Logger.logAll_of_buffering _ h.buffer _
      constructor
      · simp [hlogAll, h.buffer]
      · simp [hlogAll, h.storedRecords, RegisteredTest.bufferedRecords, hlogs, hcleans]
      · simpa [hlogAll] using h.printed
      · simpa [RunState.testsStarted] using h.testsStarted
      · exact h.summaryLogger
    cases test.calls.newClient with
    | error e => exact .inl ⟨_, _, rfl⟩
    | ok _ =>
        simp only []
        split
        · exact .inl ⟨_, _, rfl⟩
        · cases hcleanup : test.calls.cleanup with
          | error e =>
              refine .inr (.inl ⟨_, _, rfl, ?_, hbuffered.buffer⟩)
              rintro ⟨_, hclean⟩
              simp [hclean hcleans] at hcleanup
          | ok _ => exact .inr (.inr ⟨_, rfl, ⟨hlogs, fun _ => hcleanup⟩, hbuffered⟩)
  · next hcond =>
    have hcleans : test.cleansUp = false := by
      rw [← Bool.not_eq_true]
      simpa [RegisteredTest.cleansUp, RegisteredTest.failed, or_comm] using hcond
    refine .inr (.inr ⟨middle, rfl, ⟨hlogs, by simp [hcleans]⟩, ?_⟩)
    simpa [RegisteredTest.bufferedRecords, hcleans] using h

/-- The records of a failed test are printed, those of a test that passed are
dropped. -/
theorem printRecords_logs {s middle : RunState} {test : RegisteredTest}
    (h : Buffering s test.bufferedRecords middle) :
    Printed s [test] (printRecords true test middle) := by
  obtain ⟨since, hsince⟩ := h.printed
  have hstarted : (printRecords true test middle).testsStarted = s.testsStarted + 1 :=
    h.testsStarted
  have hsummary : (printRecords true test middle).summaryLogger = s.summaryLogger :=
    h.summaryLogger
  have hfailed : test.failed = !test.calls.outcome.succeeded := rfl
  cases hsucceeded : test.calls.outcome.succeeded with
  | true =>
      have hlogger : (printRecords true test middle).logger =
          ⟨false, test.calls.lateRecords, middle.logger.printed⟩ := by
        simp [printRecords, hsucceeded, Logger.flushRecords, Logger.storeRecords,
          Logger.logAll_of_buffering, h.buffer]
      refine ⟨by rw [hlogger], by rw [hlogger]; rfl, ⟨since, ?_, ?_⟩, hstarted, by rw [hsummary]⟩
      · rw [hlogger, hsince]
      · simp [hfailed, hsucceeded]
  | false =>
      have hlogger : (printRecords true test middle).logger =
          ⟨false, test.calls.lateRecords,
            middle.logger.printed ++ (s.logger.storedRecords ++ test.bufferedRecords)⟩ := by
        simp [printRecords, hsucceeded, Logger.printStoredRecords, Logger.storeRecords,
          Logger.logAll_of_buffering, h.buffer, h.storedRecords]
      refine ⟨by rw [hlogger], by rw [hlogger]; rfl,
        ⟨since ++ (s.logger.storedRecords ++ test.bufferedRecords), ?_, ?_⟩, hstarted,
        by rw [hsummary]⟩
      · rw [hlogger, hsince, List.append_assoc]
      · simp [hfailed, hsucceeded]

theorem logResult_logs (test : RegisteredTest) (s : RunState) :
    (test.summaryFails s.summaryLogger.isSome = true ∧
        ∃ e, logResult test s = .error (.logTestResult e, s)) ∨
      (test.summaryFails s.summaryLogger.isSome = false ∧
        ∃ summaryLogger, logResult test s = .ok {s with summaryLogger} ∧
          summaryLogger.isSome = s.summaryLogger.isSome) := by
  unfold logResult
  cases hlogger : s.summaryLogger with
  | none => exact .inr ⟨rfl, none, rfl, rfl⟩
  | some logger =>
      simp only [RegisteredTest.summaryFails, maybeLogTestResult, SummaryLogger.logTestResult]
      obtain ⟨testName, space, testResult, newline⟩ := test.calls.summaryIo
      rcases testName with e | _
      · exact .inl ⟨by simp, _, rfl⟩
      rcases space with e | _
      · exact .inl ⟨by simp, _, rfl⟩
      rcases testResult with e | _
      · exact .inl ⟨by simp, _, rfl⟩
      rcases newline with e | _
      · exact .inl ⟨by simp, _, rfl⟩
      · exact .inr ⟨by simp, _, rfl, rfl⟩

theorem Printed.of_sameLogger {s middle last : RunState} {tests : List RegisteredTest}
    (h : Printed s tests middle) (hlogger : last.logger = middle.logger)
    (hevents : last.events = middle.events)
    (hsummary : last.summaryLogger.isSome = middle.summaryLogger.isSome) :
    Printed s tests last where
  buffer := by rw [hlogger]; exact h.buffer
  storedRecords := by rw [hlogger]; exact h.storedRecords
  printed := by rw [hlogger]; exact h.printed
  testsStarted := by rw [RunState.testsStarted, hevents]; exact h.testsStarted
  summarised := hsummary.trans h.summarised

theorem runOne_logs {s : RunState} (test : RegisteredTest) (hlive : s.logger.buffer = false) :
    BodyEnd s test (runOne true test s) := by
  unfold runOne
  obtain ⟨message, last, hcreate⟩ | ⟨created, hcreate, hlogger, hevents, hsame⟩ :=
    createClient_logs test s
  · rw [hcreate]
    exact .panicked message last
  rw [hcreate]
  obtain ⟨middle, hbuffering, ⟨e, hexecute, hfails⟩ | ⟨hexecute, hlogs⟩⟩ :=
    executeTest_logs test hlive hlogger hevents hsame
  · simp only [bind, Except.bind, hexecute]
    exact .buffering _ middle (fun hcompletes => hfails hcompletes.1) hbuffering.buffer
  simp only [bind, Except.bind, hexecute]
  obtain ⟨message, last, hclean⟩ | ⟨e, last, hclean, hfails, hbuffer⟩ |
    ⟨clean, hclean, hcompletes, hbuffered⟩ := cleanupAfterTest_logs hlogs hbuffering
  · simp only [hclean]
    exact .panicked message last
  · simp only [hclean]
    exact .buffering e last hfails hbuffer
  simp only [hclean]
  have hprinted := printRecords_logs hbuffered
  obtain ⟨hfails, e, hresult⟩ | ⟨hwrites, summaryLogger, hresult, hsome⟩ :=
    logResult_logs test (printRecords true test clean)
  · simp only [hresult]
    rw [hprinted.summarised] at hfails
    exact .unsummarised _ _ hcompletes hfails hprinted
  · simp only [hresult]
    rw [hprinted.summarised] at hwrites
    refine .next _ hcompletes hwrites (hprinted.of_sameLogger ?_ ?_ ?_)
    · unfold account
      split <;> rfl
    · unfold account
      split <;> rfl
    · unfold account
      split <;> exact hsome

/-! ### All tests -/

/-- The loop leaves the logger live when every test that it reaches completes;
else it returns from the first that does not, with the logger buffering. -/
theorem runTests_logs {tests : List RegisteredTest} {s : RunState}
    (hlive : s.logger.buffer = false) :
    (∃ message last, runTests true s tests = .error (.panicked message, last)) ∨
      ∃ last, (runTests true s tests = .ok last ∨ ∃ e, runTests true s tests = .error (e, last)) ∧
        let reached := takeThrough (RegisteredTest.stops s.summaryLogger.isSome) tests
        (last.logger.buffer = true ∧ ¬∀ test ∈ reached, test.Completes) ∨
          ((∀ test ∈ reached, test.Completes) ∧ Printed s reached last) := by
  induction tests generalizing s with
  | nil => exact .inr ⟨s, .inl rfl, .inr ⟨by simp [takeThrough], .refl hlive⟩⟩
  | cons test rest ih =>
      have hend := runOne_logs test hlive
      rw [runTests]
      generalize runOne true test s = body at hend ⊢
      cases hend with
      | panicked message last => exact .inl ⟨message, last, rfl⟩
      | buffering e last hfails hbuffer =>
          refine .inr ⟨last, .inr ⟨e, rfl⟩, .inl ⟨hbuffer, ?_⟩⟩
          intro hall
          exact hfails (hall test (mem_takeThrough_cons _ test rest))
      | unsummarised e last hcompletes hsummary hprinted =>
          have hstops : test.stops s.summaryLogger.isSome = true := by
            simp [RegisteredTest.stops, hsummary]
          refine .inr ⟨last, .inr ⟨e, rfl⟩, .inr ?_⟩
          simpa [takeThrough, hstops, hcompletes] using hprinted
      | next next hcompletes hsummary hprinted =>
          have hstops : test.stops s.summaryLogger.isSome = test.breaks := by
            simp [RegisteredTest.stops, hsummary]
          simp only [bind, Except.bind, takeThrough, hstops]
          cases hbreaks : test.breaks with
          | true =>
              refine .inr ⟨next, .inl rfl, .inr ?_⟩
              simpa [hcompletes] using hprinted
          | false =>
              obtain hpanics | ⟨last, hends, hrest⟩ := ih hprinted.buffer
              · exact .inl hpanics
              refine .inr ⟨last, hends, ?_⟩
              rw [hprinted.summarised] at hrest
              simp only [Bool.false_eq_true, if_false, List.forall_mem_cons, hcompletes,
                true_and]
              rcases hrest with hbuffering | ⟨hall, hmore⟩
              · exact .inl hbuffering
              · exact .inr ⟨hall, hprinted.cons hmore⟩

/-- The manager reaches the runner, so that the loop is entered. -/
def RunArgs.Connects (args : RunArgs) : Prop :=
  args.createClientTransports = .ok () ∧ (args.skipWait = true ∨ args.waitForServer = .ok ())

/-- The tests that are run: all that are selected, up to one after which the loop
ends. -/
def RunArgs.reached (args : RunArgs) (selected : List RegisteredTest) : List RegisteredTest :=
  takeThrough (RegisteredTest.stops args.summaryLogger.isSome) selected

/-- After a run that began when `printed` had been printed: the logger does not
buffer, and what it has buffered during a test that did not pass is printed. -/
structure LogsKept (printed : List Text) (selected : List RegisteredTest) (last : RunState) :
    Prop where
  buffer : last.logger.buffer = false
  storedRecords : last.logger.storedRecords = []
  printed : ∃ since, last.logger.printed = printed ++ since ∧
    (((selected.take last.testsStarted).filter (·.failed)).flatMap
      (·.bufferedRecords)).Sublist since

theorem Printed.logsKept_iff {s last : RunState} {args : RunArgs}
    {selected : List RegisteredTest} (h : Printed s (args.reached selected) last)
    (hstart : s.testsStarted = 0) (hstored : s.logger.storedRecords = []) :
    LogsKept s.logger.printed selected last ↔
      ∀ test ∈ (args.reached selected).getLast?, test.calls.lateRecords = [] := by
  have hstarted : selected.take last.testsStarted = args.reached selected := by
    rw [h.testsStarted, hstart, Nat.zero_add]
    exact (List.prefix_iff_eq_take.mp (takeThrough_isPrefix _ selected)).symm
  have hwaiting := h.storedRecords
  rw [hstored] at hwaiting
  constructor
  · intro hkept test htest
    rw [hkept.storedRecords, Option.mem_def.mp htest] at hwaiting
    exact hwaiting.symm
  · intro hlate
    refine ⟨h.buffer, ?_, ?_⟩
    · rw [hwaiting]
      cases hlast : (args.reached selected).getLast? with
      | none => rfl
      | some test => exact hlate test hlast
    · rw [hstarted]
      exact h.printed

theorem Printed.logAll {s last : RunState} {tests : List RegisteredTest}
    (h : Printed s tests last) (records : List Text) :
    Printed s tests (last.logAll records) := by
  have hlogger : (last.logAll records).logger =
      {last.logger with printed := last.logger.printed ++ records} :=
    Logger.logAll_of_live _ h.buffer _
  obtain ⟨since, hprinted, hsub⟩ := h.printed
  refine ⟨?_, ?_, ⟨since ++ records, ?_, ?_⟩, h.testsStarted, h.summarised⟩
  · rw [hlogger]
    exact h.buffer
  · rw [hlogger]
    exact h.storedRecords
  · rw [hlogger]
    simp only [hprinted, List.append_assoc]
  · exact hsub.trans (List.sublist_append_left since records)

theorem RunTests.run_of_connects (toLowercase : Text → Text) {args : RunArgs}
    (hconnects : args.Connects) (logger : Logger) (defaultSettings : Bool)
    (tests : List RegisteredTest) :
    let body := runTests args.printFailedTestsOnly
      (.start logger defaultSettings args.summaryLogger)
      (selectTests toLowercase args.testFilters tests)
    let outcome := RunTests.run toLowercase args logger defaultSettings tests
    (∀ s, body = .ok s → outcome = (s.finalResult, s.finish)) ∧
      ∀ e s, body = .error (e, s) → outcome = (.error e, s) := by
  obtain ⟨htransports, hserver⟩ := hconnects
  have hwait : (if args.skipWait then .ok () else args.waitForServer) =
      (.ok () : Except String Unit) := by
    rcases hserver with hskip | hserver
    · simp [hskip]
    · simp [hserver]
  constructor
  · intro s hbody
    simp only [RunTests.run, htransports, hwait, hbody]
  · intro e s hbody
    simp only [RunTests.run, htransports, hwait, hbody]

theorem RunTests.run_of_not_connects (toLowercase : Text → Text) {args : RunArgs}
    (hconnects : ¬args.Connects) (logger : Logger) (defaultSettings : Bool)
    (tests : List RegisteredTest) :
    (RunTests.run toLowercase args logger defaultSettings tests).2 =
      .start logger defaultSettings args.summaryLogger := by
  unfold RunTests.run
  cases htransports : args.createClientTransports with
  | error e => rfl
  | ok _ =>
      simp only []
      split
      · rfl
      · next hwait =>
        exfalso
        apply hconnects
        refine ⟨htransports, ?_⟩
        split at hwait
        · next hskip => exact .inl hskip
        · exact .inr hwait

/-- `run` keeps the logs exactly when neither `run_test` nor `cleanup_after_test`
fails for a test that it reaches, and no record comes late in the last one; a failing
write of the summary does no harm. -/
theorem logs_kept_iff (toLowercase : Text → Text) (args : RunArgs) (printed : List Text)
    (defaultSettings : Bool) (tests : List RegisteredTest)
    (hprint : args.printFailedTestsOnly = true)
    (hreturns : ∀ message,
      (RunTests.run toLowercase args (.init printed) defaultSettings tests).1 ≠
        .error (.panicked message)) :
    LogsKept printed (selectTests toLowercase args.testFilters tests)
        (RunTests.run toLowercase args (.init printed) defaultSettings tests).2 ↔
      (args.Connects →
        let reached := args.reached (selectTests toLowercase args.testFilters tests)
        (∀ test ∈ reached, test.Completes) ∧
          ∀ test ∈ reached.getLast?, test.calls.lateRecords = []) := by
  by_cases hconnects : args.Connects
  swap
  · rw [RunTests.run_of_not_connects toLowercase hconnects]
    refine ⟨fun _ h => absurd h hconnects, fun _ => ⟨rfl, rfl, [], ?_, ?_⟩⟩
    · simp [RunState.start, Logger.init]
    · simp [RunState.start, RunState.testsStarted]
  obtain ⟨hok, herror⟩ :=
    RunTests.run_of_connects toLowercase hconnects (.init printed) defaultSettings tests
  rw [hprint] at hok herror
  generalize selectTests toLowercase args.testFilters tests = selected at hok herror ⊢
  obtain ⟨message, last, hpanics⟩ | ⟨last, hends, hlogs⟩ :=
    @runTests_logs selected (.start (.init printed) defaultSettings args.summaryLogger) rfl
  · rw [herror _ _ hpanics] at hreturns
    exact absurd rfl (hreturns message)
  have hkept {after : RunState}
      (h : Printed (.start (.init printed) defaultSettings args.summaryLogger)
        (args.reached selected) after) :
      LogsKept printed selected after ↔
        ∀ test ∈ (args.reached selected).getLast?, test.calls.lateRecords = [] :=
    h.logsKept_iff rfl rfl
  have hlost {after : RunState} (hbuffer : after.logger.buffer = true) :
      ¬LogsKept printed selected after :=
    fun hkept => Bool.false_ne_true (hkept.buffer.symm.trans hbuffer)
  rcases hends with hends | ⟨e, hends⟩
  · rw [hok _ hends]
    rcases hlogs with ⟨hbuffer, hfails⟩ | ⟨hall, hprinted⟩
    · have hfinish : last.finish.logger.buffer = true := by
        rw [RunState.finish, RunState.logAll, Logger.logAll_of_buffering _ hbuffer]
        exact hbuffer
      exact iff_of_false (hlost hfinish) fun hall => hfails (hall hconnects).1
    · exact (hkept (hprinted.logAll _)).trans
        ⟨fun hlate _ => ⟨hall, hlate⟩, fun h => (h hconnects).2⟩
  · rw [herror _ _ hends]
    rcases hlogs with ⟨hbuffer, hfails⟩ | ⟨hall, hprinted⟩
    · exact iff_of_false (hlost hbuffer) fun hall => hfails (hall hconnects).1
    · exact (hkept hprinted).trans
        ⟨fun hlate _ => ⟨hall, hlate⟩, fun h => (h hconnects).2⟩

/-- A failed test whose record is printed, with a late record that the next test drops,
and a test after which the summary cannot be written. -/
def unsummarisedTests : List RegisteredTest :=
  [⟨⟨"test_login".toList, "test_login".toList, .previous, none, false, false, true⟩,
      {TestCalls.working (.err "no account") with
        testRecords := ["logging in".toList]
        lateRecords := ["pty closed".toList]}⟩,
    ⟨⟨"test_logout".toList, "test_logout".toList, .previous, some 1, false, false, true⟩,
      {TestCalls.working .ok with summaryIo := ⟨.ok (), .error "disk full", .ok (), .ok ()⟩}⟩]

def unsummarisedArgs : RunArgs :=
  ⟨[], true, true, some ⟨.openWith true none, rfl⟩, .ok (), .ok ()⟩

theorem unsummarised_logs_kept :
    (RunTests.run id unsummarisedArgs (.init []) false unsummarisedTests).1 =
        .error (.logTestResult (.write "disk full")) ∧
      LogsKept [] unsummarisedTests
        (RunTests.run id unsummarisedArgs (.init []) false unsummarisedTests).2 := by
  have hresult : (RunTests.run id unsummarisedArgs (.init []) false unsummarisedTests).1 =
      .error (.logTestResult (.write "disk full")) := by
    decide
  have hkept := logs_kept_iff id unsummarisedArgs [] false unsummarisedTests rfl (by
    intro message
    rw [hresult]
    simp)
  exact ⟨hresult, hkept.mpr (fun _ => by decide)⟩

/-- The test fails and has logged something, and then its log files cannot be
fetched. -/
def unfetchedTest : RegisteredTest :=
  ⟨⟨"test_login".toList, "test_login".toList, .previous, none, false, false, true⟩,
    {TestCalls.working (.err "no account") with
      testRecords := ["logging in".toList]
      getMullvadAppLogs := .error "not connected"}⟩

def unfetchedOutcome : Except RunError Unit × RunState :=
  RunTests.run id threeTestsArgs (.init []) false [unfetchedTest]

theorem unfetched_logs_lost :
    unfetchedOutcome.1 = .error (.runTest "not connected") ∧
      unfetchedOutcome.2.logger.buffer = true ∧
      unfetchedOutcome.2.logger.storedRecords = ["logging in".toList] ∧
      unfetchedOutcome.2.logger.printed = ["Running test_login".toList] ∧
      ¬LogsKept [] (selectTests id threeTestsArgs.testFilters [unfetchedTest])
        unfetchedOutcome.2 := by
  have hbuffer : unfetchedOutcome.2.logger.buffer = true := by decide
  refine ⟨by decide, hbuffer, by decide, by decide, ?_⟩
  intro hkept
  exact Bool.false_ne_true (hkept.buffer.symm.trans hbuffer)

end MullvadAppTests.TestManager
