import MullvadAppTests.Lib.OpenFile
import MullvadAppTests.Lib.Result
import MullvadAppTests.Lib.Text
import Mathlib.Data.List.AList

/-!
`test-manager/src/summary.rs`: the logger that writes one line for each test, and
the parser that reads such a file back. The format is defined twice, by what the
logger writes and by how the parser splits a line. Which calls on the file fail
is an input.
-/

namespace MullvadAppTests.TestManager

open Lib

/-- `Open`, `Write` and `Read` carry the I/O error. -/
inductive SummaryError where
  | openFile (source : String)
  | write (source : String)
  | read (source : String)
  | parse
  deriving DecidableEq, Repr

inductive TestResult where
  | pass
  | fail
  | unknown
  deriving DecidableEq, Repr

namespace TestResult

def passStr : Text := ['✅']

def failStr : Text := ['❌']

def unknownStr : Text := [' ']

def fromStr (s : Text) : Except SummaryError TestResult :=
  if s = passStr then .ok .pass
  else if s = failStr then .ok .fail
  else .ok .unknown

def display : TestResult → Text
  | .pass => passStr
  | .fail => failStr
  | .unknown => unknownStr

end TestResult

/-! ### Writing -/

/-- The logger only ever appends. -/
structure SummaryLogger where
  file : OpenFile Char
  at_end : file.cursor = file.content.length

namespace SummaryLogger

def writeAll (io : Except String Unit) (data : Text) (logger : SummaryLogger) :
    Except SummaryError SummaryLogger :=
  match io with
  | .error e => .error (.write e)
  | .ok _ => .ok ⟨logger.file.writeAll data, (OpenFile.writeAll_at_end logger.at_end data).2⟩

/-- Outcomes of the calls that `new` makes. -/
structure NewIo where
  openFile : Except String Unit
  name : Except String Unit
  newline : Except String Unit

def new (io : NewIo) (name : Text) (previous : Option Text) :
    Except SummaryError SummaryLogger :=
  match io.openFile with
  | .error e => .error (.openFile e)
  | .ok _ => do
      let logger ← writeAll io.name name ⟨.openWith true previous, rfl⟩
      writeAll io.newline ['\n'] logger

/-- Outcomes of the four writes of `log_test_result`. -/
structure LogIo where
  testName : Except String Unit
  space : Except String Unit
  testResult : Except String Unit
  newline : Except String Unit

def logTestResult (io : LogIo) (testName : Text) (testResult : TestResult)
    (logger : SummaryLogger) : Except SummaryError SummaryLogger := do
  let logger ← writeAll io.testName testName logger
  let logger ← writeAll io.space [' '] logger
  let logger ← writeAll io.testResult testResult.display logger
  writeAll io.newline ['\n'] logger

/-- One call of `log_test_result`. -/
structure Call where
  io : LogIo
  testName : Text
  testResult : TestResult

def logAll (logger : SummaryLogger) (calls : List Call) : Except SummaryError SummaryLogger :=
  calls.foldlM (fun logger call => logger.logTestResult call.io call.testName call.testResult)
    logger

end SummaryLogger

/-- `maybe_log_test_result`. -/
def maybeLogTestResult (summaryLogger : Option SummaryLogger) (io : SummaryLogger.LogIo)
    (testName : Text) (testResult : TestResult) : Except SummaryError (Option SummaryLogger) :=
  match summaryLogger with
  | some logger => (logger.logTestResult io testName testResult).map some
  | none => .ok none

/-! ### Reading -/

structure Summary where
  name : Text
  results : AList fun _ : Text => TestResult

/-- What `next_line` gives for a file that can be read. -/
def fileLines (content : Text) : List (Except String Text) := (Text.lines content).map .ok

def parseLine (results : AList fun _ : Text => TestResult) (line : Text) :
    Except SummaryError (AList fun _ : Text => TestResult) :=
  match Text.splitWhitespace line with
  | testName :: testResult :: _ => do
      let testResult ← TestResult.fromStr testResult
      .ok (results.insert testName testResult)
  | _ => .error .parse

def Summary.parseLog (file : Except String (List (Except String Text))) :
    Except SummaryError Summary :=
  match file with
  | .error e => .error (.openFile e)
  | .ok [] => .error .parse
  | .ok (.error e :: _) => .error (.read e)
  | .ok (.ok name :: lines) => do
      let results ← lines.foldlM (fun results line =>
        match line with
        | .error e => .error (.read e)
        | .ok line => parseLine results line) ∅
      .ok ⟨name, results⟩

/-! ### What the logger has written -/

/-- The line of one call, without its newline. -/
def SummaryLogger.Call.record (call : SummaryLogger.Call) : Text :=
  call.testName ++ ' ' :: call.testResult.display

theorem writeAll_content {io : Except String Unit} {data : Text} {logger next : SummaryLogger}
    (h : logger.writeAll io data = .ok next) :
    next.file.content = logger.file.content ++ data := by
  unfold SummaryLogger.writeAll at h
  split at h
  · cases h
  · cases h
    exact (OpenFile.writeAll_at_end logger.at_end data).1

theorem new_content {io : SummaryLogger.NewIo} {name : Text} {previous : Option Text}
    {logger : SummaryLogger} (h : SummaryLogger.new io name previous = .ok logger) :
    logger.file.content = name ++ ['\n'] := by
  unfold SummaryLogger.new at h
  split at h
  · cases h
  · obtain ⟨named, hname, hnewline⟩ := bind_eq_ok h
    rw [writeAll_content hnewline, writeAll_content hname]
    rfl

theorem logTestResult_content {io : SummaryLogger.LogIo} {testName : Text}
    {testResult : TestResult} {logger next : SummaryLogger}
    (h : logger.logTestResult io testName testResult = .ok next) :
    next.file.content =
      logger.file.content ++ (testName ++ ' ' :: testResult.display ++ ['\n']) := by
  obtain ⟨named, hname, h⟩ := bind_eq_ok h
  obtain ⟨spaced, hspace, h⟩ := bind_eq_ok h
  obtain ⟨ended, hresult, hnewline⟩ := bind_eq_ok h
  rw [writeAll_content hnewline, writeAll_content hresult, writeAll_content hspace,
    writeAll_content hname]
  simp

theorem logAll_content {calls : List SummaryLogger.Call} {logger last : SummaryLogger}
    (h : logger.logAll calls = .ok last) :
    last.file.content =
      logger.file.content ++ ((calls.map (·.record)).map (· ++ ['\n'])).flatten := by
  induction calls generalizing logger with
  | nil =>
      cases h
      simp
  | cons call rest ih =>
      rw [SummaryLogger.logAll, List.foldlM_cons] at h
      obtain ⟨next, hcall, hrest⟩ := bind_eq_ok h
      rw [ih hrest, logTestResult_content hcall]
      simp [SummaryLogger.Call.record]

/-! ### Reading it back -/

theorem display_last (testResult : TestResult) (testName : Text) :
    (testName ++ ' ' :: testResult.display).getLast? ≠ some '\r' := by
  cases testResult <;>
    simp [TestResult.display, TestResult.passStr, TestResult.failStr, TestResult.unknownStr]

theorem newline_not_mem_record {call : SummaryLogger.Call} (h : Text.IsWord call.testName) :
    '\n' ∉ call.record := by
  have hdisplay : '\n' ∉ call.testResult.display := by
    cases call.testResult <;> decide
  simp [SummaryLogger.Call.record, h.newline_not_mem, hdisplay]

/-- The file's lines are the name and one line for each call. -/
theorem lines_logged {io : SummaryLogger.NewIo} {name : Text} {previous : Option Text}
    {calls : List SummaryLogger.Call} {logger last : SummaryLogger}
    (hname : '\n' ∉ name) (hcr : name.getLast? ≠ some '\r')
    (hwords : ∀ call ∈ calls, Text.IsWord call.testName)
    (hnew : SummaryLogger.new io name previous = .ok logger)
    (hlog : logger.logAll calls = .ok last) :
    Text.lines last.file.content = name :: calls.map (·.record) := by
  have hrecords : ∀ line ∈ calls.map (·.record),
      '\n' ∉ line ∧ line.getLast? ≠ some '\r' := by
    intro line hline
    obtain ⟨call, hcall, rfl⟩ := List.mem_map.mp hline
    exact ⟨newline_not_mem_record (hwords call hcall), display_last _ _⟩
  rw [logAll_content hlog, new_content hnew, List.append_assoc, List.singleton_append,
    Text.lines_append hname hcr, Text.lines_flatten _ hrecords]

theorem parseLine_record {call : SummaryLogger.Call} (h : Text.IsWord call.testName)
    (hresult : call.testResult ≠ .unknown) (results : AList fun _ : Text => TestResult) :
    parseLine results call.record = .ok (results.insert call.testName call.testResult) := by
  have hdisplay : Text.IsWord call.testResult.display := by
    cases hcase : call.testResult with
    | pass => decide
    | fail => decide
    | unknown => exact absurd hcase hresult
  have hparse : TestResult.fromStr call.testResult.display = .ok call.testResult := by
    cases hcase : call.testResult with
    | pass => rfl
    | fail => rfl
    | unknown => exact absurd hcase hresult
  rw [parseLine, SummaryLogger.Call.record, Text.splitWhitespace_cons h (by decide),
    Text.splitWhitespace_word hdisplay]
  simp only [hparse]
  rfl

/-- `UNKNOWN_STR` is white space, so the second column is missing. -/
theorem parseLine_unknown {call : SummaryLogger.Call} (h : Text.IsWord call.testName)
    (hresult : call.testResult = .unknown) (results : AList fun _ : Text => TestResult) :
    parseLine results call.record = .error .parse := by
  have hdisplay : Text.splitWhitespace call.testResult.display = [] := by
    rw [hresult]
    decide
  rw [parseLine, SummaryLogger.Call.record, Text.splitWhitespace_cons h (by decide), hdisplay]

/-- The parser's loop over the lines that calls have left. -/
def parseRecords (results : AList fun _ : Text => TestResult) (calls : List SummaryLogger.Call) :
    Except SummaryError (AList fun _ : Text => TestResult) :=
  calls.foldlM (fun results call => parseLine results call.record) results

theorem parseRecords_known {calls : List SummaryLogger.Call}
    (hwords : ∀ call ∈ calls, Text.IsWord call.testName)
    (hknown : ∀ call ∈ calls, call.testResult ≠ .unknown)
    (results : AList fun _ : Text => TestResult) :
    parseRecords results calls =
      .ok (calls.foldl (fun results call => results.insert call.testName call.testResult)
        results) := by
  induction calls generalizing results with
  | nil => rfl
  | cons call rest ih =>
      obtain ⟨hword, hwords⟩ := List.forall_mem_cons.mp hwords
      obtain ⟨hcall, hknown⟩ := List.forall_mem_cons.mp hknown
      rw [parseRecords, List.foldlM_cons, parseLine_record hword hcall]
      exact ih hwords hknown _

theorem parseRecords_unknown {calls : List SummaryLogger.Call}
    (hwords : ∀ call ∈ calls, Text.IsWord call.testName) {call : SummaryLogger.Call}
    (hmem : call ∈ calls) (hunknown : call.testResult = .unknown)
    (results : AList fun _ : Text => TestResult) :
    parseRecords results calls = .error .parse := by
  induction calls generalizing results with
  | nil => cases hmem
  | cons first rest ih =>
      obtain ⟨hword, hwords⟩ := List.forall_mem_cons.mp hwords
      rw [parseRecords, List.foldlM_cons]
      by_cases hfirst : first.testResult = .unknown
      · rw [parseLine_unknown hword hfirst]
        rfl
      · rw [parseLine_record hword hfirst]
        have hrest : call ∈ rest := by
          rcases List.mem_cons.mp hmem with rfl | hrest
          · exact absurd hunknown hfirst
          · exact hrest
        exact ih hwords hrest _

/-- The result of the last call for a test. -/
def lastResult (calls : List SummaryLogger.Call) (testName : Text) : Option TestResult :=
  (calls.filter (·.testName = testName)).getLast?.map (·.testResult)

theorem lookup_insert_calls (calls : List SummaryLogger.Call)
    (results : AList fun _ : Text => TestResult) (testName : Text) :
    (calls.foldl (fun results call => results.insert call.testName call.testResult)
        results).lookup testName =
      (lastResult calls testName).or (results.lookup testName) := by
  induction calls generalizing results with
  | nil => rfl
  | cons call rest ih =>
      rw [List.foldl_cons, ih]
      by_cases hname : call.testName = testName
      · subst hname
        rw [AList.lookup_insert, lastResult, lastResult, List.filter_cons_of_pos (by simp),
          List.getLast?_cons]
        cases (rest.filter (·.testName = call.testName)).getLast? <;> rfl
      · rw [AList.lookup_insert_ne (Ne.symm hname), lastResult, lastResult,
          List.filter_cons_of_neg (by simpa using hname)]

/-- The file is read back as the name and the last result of each test. -/
def ReadsBack (name : Text) (calls : List SummaryLogger.Call) (content : Text) : Prop :=
  ∃ summary, Summary.parseLog (.ok (fileLines content)) = .ok summary ∧ summary.name = name ∧
    ∀ testName, summary.results.lookup testName = lastResult calls testName

theorem parseLog_lines (name : Text) (calls : List SummaryLogger.Call) (content : Text)
    (h : Text.lines content = name :: calls.map (·.record)) :
    Summary.parseLog (.ok (fileLines content)) =
      (parseRecords ∅ calls).map fun results => ⟨name, results⟩ := by
  rw [fileLines, h]
  simp only [List.map_cons, Summary.parseLog, parseRecords, List.foldlM_map]
  cases List.foldlM (fun results call => parseLine results call.record) ∅ calls <;> rfl

/-- A summary is read back as it was logged if and only if no test was logged
with an unknown result. -/
theorem summary_reads_back_iff (newIo : SummaryLogger.NewIo) (name : Text)
    (previous : Option Text) (calls : List SummaryLogger.Call) (logger last : SummaryLogger)
    (hname : '\n' ∉ name) (hcr : name.getLast? ≠ some '\r')
    (hwords : ∀ call ∈ calls, Text.IsWord call.testName)
    (hnew : SummaryLogger.new newIo name previous = .ok logger)
    (hlog : logger.logAll calls = .ok last) :
    ReadsBack name calls last.file.content ↔ ∀ call ∈ calls, call.testResult ≠ .unknown := by
  have hparse := parseLog_lines name calls _ (lines_logged hname hcr hwords hnew hlog)
  constructor
  · rintro ⟨summary, hsummary, _, _⟩ call hcall hunknown
    rw [hparse, parseRecords_unknown hwords hcall hunknown] at hsummary
    cases hsummary
  · intro hknown
    rw [parseRecords_known hwords hknown] at hparse
    refine ⟨_, hparse, rfl, ?_⟩
    intro testName
    rw [lookup_insert_calls, AList.lookup_empty, Option.or_none]

def SummaryLogger.NewIo.working : SummaryLogger.NewIo := ⟨.ok (), .ok (), .ok ()⟩

def SummaryLogger.LogIo.working : SummaryLogger.LogIo := ⟨.ok (), .ok (), .ok (), .ok ()⟩

/-- A test that fails and then passes, and one that fails. -/
def retried : List SummaryLogger.Call :=
  [⟨.working, "test_a".toList, .fail⟩, ⟨.working, "test_b".toList, .fail⟩,
    ⟨.working, "test_a".toList, .pass⟩]

theorem retried_reads_back :
    ∃ logger last, SummaryLogger.new .working "linux".toList none = .ok logger ∧
      logger.logAll retried = .ok last ∧
      ReadsBack "linux".toList retried last.file.content := by
  refine ⟨_, _, rfl, rfl, ?_⟩
  refine (summary_reads_back_iff .working "linux".toList none retried _ _ ?_ ?_ ?_ rfl rfl).mpr ?_
  · decide
  · decide
  · simp only [retried, List.forall_mem_cons]
    decide
  · simp only [retried, List.forall_mem_cons]
    decide

/-- A test whose result is unknown. -/
def unknownTest : List SummaryLogger.Call := [⟨.working, "test_a".toList, .unknown⟩]

/-- The line is `test_a` and two spaces, and the whole file is refused. -/
theorem unknownTest_refused :
    ∃ logger last, SummaryLogger.new .working "linux".toList none = .ok logger ∧
      logger.logAll unknownTest = .ok last ∧
      last.file.content = "linux\ntest_a  \n".toList ∧
      Summary.parseLog (.ok (fileLines last.file.content)) = .error .parse ∧
      ¬ ReadsBack "linux".toList unknownTest last.file.content := by
  have hparse : Summary.parseLog (.ok (fileLines "linux\ntest_a  \n".toList)) =
      .error .parse := rfl
  refine ⟨_, _, rfl, rfl, rfl, hparse, ?_⟩
  rintro ⟨summary, hsummary, _⟩
  cases hparse.symm.trans hsummary

end MullvadAppTests.TestManager
