import MullvadAppTests.Lib.Text

/-!
`test-manager/src/tests/test_metadata.rs`: what a test registers itself with. The
test function is left out; how a test ends is an input of the functions that run
it.
-/

namespace MullvadAppTests.TestManager

open Lib

inductive MullvadClientVersion where
  | none
  | new
  | previous
  deriving DecidableEq, Repr

/-- `priority` is an `i32`. -/
structure TestMetadata where
  name : Text
  command : Text
  mullvadClientVersion : MullvadClientVersion
  priority : Option Int
  alwaysRun : Bool
  mustSucceed : Bool
  cleanup : Bool
  deriving DecidableEq, Repr

end MullvadAppTests.TestManager
