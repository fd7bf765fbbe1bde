import MullvadAppTests.Ci.TestJobs
import MullvadAppTests.TestManager.Main

/-!
What the status of `ci-runtests.sh` says about the tests: the job loop of the
script above the test managers that it runs. The script gives no filters, so a
manager runs every registered test. The report of an earlier run may still be there,
if it could not be removed.
-/

namespace MullvadAppTests.Ci

open Lib TestManager TestJobs

/-- The command line of a job, as the manager reads it. -/
def TestJobs.Arguments.command (arguments : Arguments) (previousReport : Option Text) :
    RunTestsCommand :=
  ⟨arguments.os, [], false, some previousReport⟩

/-- What one job of the script comes upon: whether the manager builds, how its
calls end, and how the registered tests go. -/
structure ManagerRun where
  builds : Bool
  previousReport : Option Text
  calls : MainCalls
  logger : Logger
  tests : List RegisteredTest

namespace ManagerRun

def runTests (toLowercase : Text → Text) (run : ManagerRun) (arguments : Arguments) :
    Except MainError Unit × Option RunState :=
  runTestsCommand toLowercase (arguments.command run.previousReport) run.calls run.logger run.tests

/-- `cargo run` has the status of the program, or its own when the build fails. -/
def status (toLowercase : Text → Text) (run : ManagerRun) (arguments : Arguments) : Nat :=
  if run.builds then exitCode (run.runTests toLowercase arguments).1 else 101

end ManagerRun

variable {toLowercase : Text → Text} {limit : Nat} {setup : Setup} {s : State}

end MullvadAppTests.Ci
