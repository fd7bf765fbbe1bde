import MullvadAppTests.TestManager.Report

/-!
The command `run-tests` of `test-manager/src/main.rs`, up to the exit status of
the process. What the steps before the tests give, the VM among them, is an input;
the tests are those of `run_tests.rs`. Nothing is assumed of the calls that the
manager makes: with the status zero they have all succeeded as far as they were
made, so every selected test was run.
-/

namespace MullvadAppTests.TestManager

open Lib

/-! ### The command -/

/-- The arguments that are read here. For a report, `testReport` is what the file
holds before. -/
structure RunTestsCommand where
  name : Text
  testFilters : List Text
  verbose : Bool
  testReport : Option (Option Text)

/-- Outcomes of the calls that `main` makes for the command. -/
structure MainCalls where
  loadConfig : Except String Unit
  getVmConfig : Except String Unit
  getAppManifest : Except String Unit
  runVm : Except String Unit
  provision : Except String Unit
  skipWait : Bool
  newIo : SummaryLogger.NewIo
  createClientTransports : Except String Unit
  waitForServer : Except String Unit

inductive MainError where
  | context (message source : String)
  | createSummaryLogger (source : SummaryError)
  | testsFailed (source : RunError)
  deriving DecidableEq, Repr

def withContext (message : String) (result : Except String Unit) : Except MainError Unit :=
  result.mapError (.context message)

def createSummaryLogger (command : RunTestsCommand) (calls : MainCalls) :
    Except MainError (Option SummaryLogger) :=
  match command.testReport with
  | none => .ok none
  | some previous =>
      match SummaryLogger.new calls.newIo command.name previous with
      | .error e => .error (.createSummaryLogger e)
      | .ok summaryLogger => .ok (some summaryLogger)

/-- Everything before the tests. -/
def prepareTests (command : RunTestsCommand) (calls : MainCalls) :
    Except MainError (Option SummaryLogger) := do
  withContext "Failed to load config" calls.loadConfig
  withContext "Cannot get VM config" calls.getVmConfig
  withContext "Could not find the specified app packages" calls.getAppManifest
  withContext "Failed to start VM" calls.runVm
  withContext "Failed to run provisioning for VM" calls.provision
  createSummaryLogger command calls

/-- The result of `main`, with the state in which the tests were left. -/
def runTestsCommand (toLowercase : Text → Text) (command : RunTestsCommand) (calls : MainCalls)
    (logger : Logger) (tests : List RegisteredTest) :
    Except MainError Unit × Option RunState :=
  match prepareTests command calls with
  | .error e => (.error e, none)
  | .ok summaryLogger =>
      let args : RunArgs :=
        ⟨command.testFilters, calls.skipWait, !command.verbose, summaryLogger,
          calls.createClientTransports, calls.waitForServer⟩
      let outcome := RunTests.run toLowercase args logger false tests
      (outcome.1.mapError .testsFailed, some outcome.2)

/-- An error that `main` returns is printed; a panic has a status of its own. -/
def exitCode : Except MainError Unit → Nat
  | .ok _ => 0
  | .error (.testsFailed (.panicked _)) => 101
  | .error _ => 1

/-- The tests of a command: all of them in order, without those that no filter
asks for. -/
def RunTestsCommand.selected (toLowercase : Text → Text) (command : RunTestsCommand)
    (tests : List RegisteredTest) : List RegisteredTest :=
  selectTests toLowercase command.testFilters tests

end MullvadAppTests.TestManager
