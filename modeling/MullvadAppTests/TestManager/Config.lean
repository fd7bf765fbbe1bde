import MullvadAppTests.TestManager.Package

/-!
`test-manager/src/config.rs`: the configurations of the virtual machines. The JSON in
which they are saved is a parameter.
-/

namespace MullvadAppTests.TestManager

open Lib

inductive VmType where
  | qemu
  | tart
  deriving DecidableEq, Repr

inductive Provisioner where
  | noop
  | ssh
  deriving DecidableEq, Repr

inductive Display where
  | none
  | local
  | vnc
  deriving DecidableEq, Repr

structure RuntimeOptions where
  display : Display
  keepChanges : Bool
  deriving DecidableEq, Repr

def RuntimeOptions.default : RuntimeOptions := ⟨.none, false⟩

/-- The whole `VmConfig`; the lookup of packages reads three of its fields. -/
structure Config.VmConfig extends TestManager.VmConfig where
  vmType : VmType
  imagePath : String
  provisioner : Provisioner
  sshUser : Option String
  sshPassword : Option String
  disks : List String
  artifactsDir : Option String
  tpm : Bool
  deriving DecidableEq, Repr

structure Config where
  runtimeOpts : RuntimeOptions
  vms : Std.ExtTreeMap String Config.VmConfig
  mullvadHost : Option String

def Config.default : Config := ⟨.default, ∅, none⟩

def Config.getVm (config : Config) (name : String) : Option Config.VmConfig := config.vms[name]?

/-- What is left of a configuration when it is saved: the options of a single run are
skipped. -/
def Config.saved (config : Config) : Config := {config with runtimeOpts := .default}

/-- `serde_json`, with what `serde` derives for a configuration. What was written is read
back, a text that ends too early is refused, and what is skipped has its default in
whatever is read. -/
structure SerdeJson where
  fromSlice : List UInt8 → Option Config
  toVecPretty : Config → List UInt8
  fromSlice_toVecPretty : ∀ config, fromSlice (toVecPretty config) = some config.saved
  fromSlice_cut : ∀ config data, data <+: toVecPretty config → data ≠ toVecPretty config →
    fromSlice data = none
  skipped : ∀ data config, fromSlice data = some config → config.runtimeOpts = .default

end MullvadAppTests.TestManager
