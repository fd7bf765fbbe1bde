import MullvadAppTests.TestManager.ConfigJson

/-!
`ConfigFile` of `test-manager/src/config.rs` and the commands of
`test-manager/src/main.rs` on it. Every invocation loads `config.json`, and `set`
and `remove` write it as a whole. Which calls on the file fail is an input; a
write that fails may have truncated the file, or may have written a part of it.

Above that is a map from names to configurations that is either intact or lost.
Any sequence of invocations does on the file what it does on the map. As long as no
write is cut short, a machine is started as it was set last.
-/

namespace MullvadAppTests.TestManager

open Lib

/-! ### The file -/

inductive FileError where
  | notFound
  | other (message : String)
  deriving DecidableEq, Repr

inductive WriteOutcome where
  | done
  /-- The file could not be opened. -/
  | refused (message : String)
  /-- The file was truncated and the first bytes were written. -/
  | stopped (written : Nat) (message : String)
  deriving DecidableEq, Repr

/-- `readFails` is an error other than that the file is missing. -/
structure ConfigIo where
  readFails : Option String
  write : WriteOutcome
  deriving DecidableEq, Repr

/-- `tokio::fs::read`. -/
def ConfigIo.readFile (io : ConfigIo) (disk : Option (List UInt8)) : Except FileError (List UInt8) :=
  match io.readFails with
  | some message => .error (.other message)
  | none =>
      match disk with
      | none => .error .notFound
      | some data => .ok data

/-- `tokio::fs::write`. -/
def ConfigIo.writeFile (io : ConfigIo) (data : List UInt8) (disk : Option (List UInt8)) :
    Except FileError Unit × Option (List UInt8) :=
  match io.write with
  | .done => (.ok (), some data)
  | .refused message => (.error (.other message), disk)
  | .stopped written message => (.error (.other message), some (data.take written))

inductive ConfigError where
  | read (source : FileError)
  | invalidConfig
  | write (source : FileError)
  deriving DecidableEq, Repr

section

variable (json : SerdeJson)

namespace Config

def load (io : ConfigIo) (disk : Option (List UInt8)) : Except ConfigError Config :=
  match io.readFile disk with
  | .error e => .error (.read e)
  | .ok data =>
      match json.fromSlice data with
      | none => .error .invalidConfig
      | some config => .ok config

def loadOrDefault (io : ConfigIo) (disk : Option (List UInt8)) : Except ConfigError Config :=
  match load json io disk with
  | .error (.read .notFound) => .ok .default
  | result => result

def save (io : ConfigIo) (config : Config) (disk : Option (List UInt8)) :
    Except ConfigError Unit × Option (List UInt8) :=
  match io.writeFile (json.toVecPretty config) disk with
  | (.error e, disk) => (.error (.write e), disk)
  | (.ok _, disk) => (.ok (), disk)

/-- `ConfigFile::edit`. -/
def edit (io : ConfigIo) (change : Config → Config) (config : Config) (disk : Option (List UInt8)) :
    Except ConfigError Unit × Option (List UInt8) :=
  save json io (change config) disk

/-- `vm::set_config`. -/
def setConfig (io : ConfigIo) (name : String) (vmConfig : VmConfig) (config : Config)
    (disk : Option (List UInt8)) : Except ConfigError Unit × Option (List UInt8) :=
  edit json io (fun config => {config with vms := config.vms.insert name vmConfig}) config disk

end Config

/-! ### The commands -/

/-- The commands of the manager, with the arguments that have to do with the
configuration. -/
inductive Command where
  | set (name : String) (config : Config.VmConfig)
  | remove (name : String)
  | list
  | runVm (name : String) (vnc : Option Nat) (keepChanges : Bool)
  | runTests (name : String) (display : Bool) (vnc : Option Nat)
  | formatTestReports
  | update (name : String)

/-- How an invocation ends, or with what it goes on to start a machine. -/
inductive CommandResult where
  | loadFailed (source : ConfigError)
  | editFailed (source : ConfigError)
  | set
  | removed
  | noSuchConfiguration
  | listed (names : List String)
  | starts (runtimeOpts : RuntimeOptions) (mullvadHost : Option String) (config : Config.VmConfig)
  | notFound (name : String)
  | unreachable
  | formatted
  deriving DecidableEq, Repr

/-- `vm::get_vm_config`, and the start of the machine. -/
def startVm (config : Config) (name : String) : CommandResult :=
  match config.getVm name with
  | none => .notFound name
  | some vmConfig => .starts config.runtimeOpts config.mullvadHost vmConfig

/-- The display of `run-tests`. The argument parser excludes both together. -/
def displayOf (display : Bool) (vnc : Option Nat) : Option Display :=
  match display, vnc.isSome with
  | false, false => some .none
  | true, false => some .local
  | false, true => some .vnc
  | true, true => none

/-- `main`, after the configuration was loaded. -/
def Command.perform (io : ConfigIo) (config : Config) (disk : Option (List UInt8)) :
    Command → CommandResult × Option (List UInt8)
  | .set name vmConfig =>
      match config.setConfig json io name vmConfig disk with
      | (.error e, disk) => (.editFailed e, disk)
      | (.ok _, disk) => (.set, disk)
  | .remove name =>
      if config.getVm name = none then (.noSuchConfiguration, disk)
      else
        match Config.edit json io (fun config => {config with vms := config.vms.erase name}) config
            disk with
        | (.error e, disk) => (.editFailed e, disk)
        | (.ok _, disk) => (.removed, disk)
  | .list => (.listed config.vms.keys, disk)
  | .runVm name vnc keepChanges =>
      let display := if vnc.isSome then Display.vnc else .local
      (startVm {config with runtimeOpts := ⟨display, keepChanges⟩} name, disk)
  | .runTests name display vnc =>
      match displayOf display vnc with
      | none => (.unreachable, disk)
      | some display =>
          (startVm {config with runtimeOpts := {config.runtimeOpts with display}} name, disk)
  | .formatTestReports => (.formatted, disk)
  | .update name => (startVm config name, disk)

def Command.main (io : ConfigIo) (command : Command) (disk : Option (List UInt8)) :
    CommandResult × Option (List UInt8) :=
  match Config.loadOrDefault json io disk with
  | .error e => (.loadFailed e, disk)
  | .ok config => command.perform json io config disk

/-- A sequence of invocations, each with what happens to its calls. -/
def runCommands (disk : Option (List UInt8)) :
    List (ConfigIo × Command) → List CommandResult × Option (List UInt8)
  | [] => ([], disk)
  | (io, command) :: rest =>
      let (result, disk) := command.main json io disk
      let (results, disk) := runCommands disk rest
      (result :: results, disk)

/-! ### The map behind the file -/

/-- What the file is for. -/
structure VmStore where
  vms : Std.ExtTreeMap String Config.VmConfig
  mullvadHost : Option String

namespace VmStore

def start (store : VmStore) (runtimeOpts : RuntimeOptions) (name : String) : CommandResult :=
  match store.vms[name]? with
  | none => .notFound name
  | some vmConfig => .starts runtimeOpts store.mullvadHost vmConfig

/-- The configuration that is loaded for a map. -/
def config (store : VmStore) : Config := ⟨.default, store.vms, store.mullvadHost⟩

/-- What is written for a map. -/
def fileData (store : VmStore) : List UInt8 := json.toVecPretty store.config

/-- A changed map is put in place of the old one. It is lost when only a part of
it was written. -/
def replace (io : ConfigIo) (old new : VmStore) (done : CommandResult) :
    CommandResult × Option VmStore :=
  match io.write with
  | .done => (done, some new)
  | .refused message => (.editFailed (.write (.other message)), some old)
  | .stopped written message =>
      (.editFailed (.write (.other message)),
        if written < (new.fileData json).length then none else some new)

def perform (io : ConfigIo) (store : VmStore) : Command → CommandResult × Option VmStore
  | .set name vmConfig =>
      store.replace json io {store with vms := store.vms.insert name vmConfig} .set
  | .remove name =>
      if name ∈ store.vms then
        store.replace json io {store with vms := store.vms.erase name} .removed
      else (.noSuchConfiguration, some store)
  | .list => (.listed store.vms.keys, some store)
  | .runVm name vnc keepChanges =>
      (store.start ⟨if vnc.isSome then .vnc else .local, keepChanges⟩ name, some store)
  | .runTests name display vnc =>
      match displayOf display vnc with
      | none => (.unreachable, some store)
      | some display => (store.start ⟨display, false⟩ name, some store)
  | .formatTestReports => (.formatted, some store)
  | .update name => (store.start .default name, some store)

/-- An invocation on a map that may be lost. A lost one stays lost. -/
def main (io : ConfigIo) (command : Command) (store : Option VmStore) :
    CommandResult × Option VmStore :=
  match io.readFails, store with
  | some message, _ => (.loadFailed (.read (.other message)), store)
  | none, none => (.loadFailed .invalidConfig, none)
  | none, some store => store.perform json io command

def runCommands (store : Option VmStore) :
    List (ConfigIo × Command) → List CommandResult × Option VmStore
  | [] => ([], store)
  | (io, command) :: rest =>
      let (result, store) := main json io command store
      let (results, store) := runCommands store rest
      (result :: results, store)

/-- The map that a file stands for. -/
def ofFile : Option (List UInt8) → Option VmStore
  | none => some ⟨∅, none⟩
  | some data => (json.fromSlice data).map fun config => ⟨config.vms, config.mullvadHost⟩

/-! ### Refinement -/

variable {json}

theorem ofFile_fileData (store : VmStore) : ofFile json (some (store.fileData json)) = some store := by
  rw [ofFile, fileData, json.fromSlice_toVecPretty]
  rfl

theorem ofFile_cut (store : VmStore) (written : Nat) :
    ofFile json (some ((store.fileData json).take written)) =
      if written < (store.fileData json).length then none else some store := by
  split
  · next hcut =>
    have hne : (store.fileData json).take written ≠ store.fileData json := by
      intro heq
      have hlength := congrArg List.length heq
      rw [List.length_take] at hlength
      omega
    have hnone : json.fromSlice ((store.fileData json).take written) = none :=
      json.fromSlice_cut store.config _ (List.take_prefix _ _) hne
    rw [ofFile, hnone, Option.map_none]
  · next hwhole =>
    rw [List.take_of_length_le (by omega), ofFile_fileData]

/-- Loading the file gives the map, or fails and tells that it is lost. -/
theorem loadOrDefault_eq {io : ConfigIo} (h : io.readFails = none)
    (disk : Option (List UInt8)) :
    Config.loadOrDefault json io disk =
      match ofFile json disk with
      | none => .error .invalidConfig
      | some store => .ok store.config := by
  cases disk with
  | none =>
      simp only [Config.loadOrDefault, Config.load, ConfigIo.readFile, h]
      rfl
  | some data =>
      simp only [Config.loadOrDefault, Config.load, ConfigIo.readFile, h, ofFile]
      cases hdata : json.fromSlice data with
      | none => rfl
      | some config =>
          have hskipped := json.skipped data config hdata
          obtain ⟨runtimeOpts, vms, mullvadHost⟩ := config
          simp only at hskipped
          simp only [Option.map_some, VmStore.config, hskipped]

/-- An edit of the file is an edit of the map. -/
theorem edit_refines (io : ConfigIo) {store : VmStore} {disk : Option (List UInt8)}
    (h : ofFile json disk = some store) (new : VmStore) (change : Config → Config)
    (hchange : change store.config = new.config) (done : CommandResult) :
    let outcome := match Config.edit json io change store.config disk with
      | (.error e, disk) => (CommandResult.editFailed e, disk)
      | (.ok _, disk) => (done, disk)
    (outcome.1, ofFile json outcome.2) = store.replace json io new done := by
  have hdata : json.toVecPretty new.config = new.fileData json := rfl
  simp only [Config.edit, Config.save, ConfigIo.writeFile, replace, hchange, hdata]
  cases io.write with
  | done => simp only [ofFile_fileData]
  | refused message => simp only [h]
  | stopped written message => simp only [ofFile_cut]

theorem perform_refines (io : ConfigIo) {store : VmStore} {disk : Option (List UInt8)}
    (h : ofFile json disk = some store) (command : Command) :
    ((command.perform json io store.config disk).1,
        ofFile json (command.perform json io store.config disk).2) =
      store.perform json io command := by
  cases command with
  | set name vmConfig =>
      exact edit_refines io h {store with vms := store.vms.insert name vmConfig} _ rfl .set
  | remove name =>
      have hmem : store.config.getVm name = none ↔ name ∉ store.vms := by
        rw [Std.ExtTreeMap.mem_iff_isSome_getElem?, Option.not_isSome_iff_eq_none]
        rfl
      simp only [Command.perform, perform]
      by_cases hname : name ∈ store.vms
      · rw [if_neg (by rw [hmem]; exact not_not_intro hname), if_pos hname]
        exact edit_refines io h {store with vms := store.vms.erase name} _ rfl .removed
      · rw [if_pos (hmem.mpr hname), if_neg hname]
        exact congrArg (Prod.mk _) h
  | list => exact congrArg (Prod.mk _) h
  | runVm name vnc keepChanges => exact congrArg (Prod.mk _) h
  | runTests name display vnc =>
      simp only [Command.perform, perform]
      cases displayOf display vnc with
      | none => exact congrArg (Prod.mk _) h
      | some display => exact congrArg (Prod.mk _) h
  | formatTestReports => exact congrArg (Prod.mk _) h
  | update name => exact congrArg (Prod.mk _) h

/-- One invocation. -/
theorem main_refines (io : ConfigIo) (command : Command) (disk : Option (List UInt8)) :
    ((command.main json io disk).1, ofFile json (command.main json io disk).2) =
      main json io command (ofFile json disk) := by
  cases hread : io.readFails with
  | some message =>
      have hload : Config.loadOrDefault json io disk = .error (.read (.other message)) := by
        simp only [Config.loadOrDefault, Config.load, ConfigIo.readFile, hread]
      simp only [Command.main, hload, main, hread]
  | none =>
      simp only [Command.main, loadOrDefault_eq hread, main, hread]
      cases hstore : ofFile json disk with
      | none => simp only [hstore]
      | some store => exact perform_refines io hstore command

end VmStore

/-- Any sequence of invocations, whichever of their calls fail, answers and leaves
the file as the same sequence on the map does. -/
theorem config_store_refines (json : SerdeJson) (disk : Option (List UInt8))
    (invocations : List (ConfigIo × Command)) :
    ((runCommands json disk invocations).1,
        VmStore.ofFile json (runCommands json disk invocations).2) =
      VmStore.runCommands json (VmStore.ofFile json disk) invocations := by
  induction invocations generalizing disk with
  | nil => rfl
  | cons invocation rest ih =>
      obtain ⟨io, command⟩ := invocation
      have hmain := @VmStore.main_refines json io command disk
      have hrest := ih (command.main json io disk).2
      simp only [runCommands, VmStore.runCommands, ← hmain, ← hrest]

def debian : Config.VmConfig :=
  ⟨⟨.linux, some .deb, some .x64⟩, .qemu, "debian.qcow2", .ssh, some "user", some "pass", [],
    none, false⟩

/-- The second write is cut short, and with it the file is lost. -/
def diskIsFull : List (ConfigIo × Command) :=
  [(⟨none, .done⟩, .set "debian12" debian),
    (⟨none, .stopped 0 "No space left on device"⟩, .remove "debian12"), (⟨none, .done⟩, .list)]

theorem fileData_plainJson_pos (store : VmStore) : 0 < (store.fileData plainJson).length := by
  rw [List.length_pos_iff]
  intro hempty
  have hread := plainJson.fromSlice_toVecPretty store.config
  have hnone : plainJson.fromSlice [] = none := rfl
  rw [show plainJson.toVecPretty store.config = [] from hempty, hnone] at hread
  cases hread

theorem diskIsFull_refines :
    ((runCommands plainJson none diskIsFull).1,
        VmStore.ofFile plainJson (runCommands plainJson none diskIsFull).2) =
      ([.set, .editFailed (.write (.other "No space left on device")),
        .loadFailed .invalidConfig], none) := by
  rw [config_store_refines plainJson none diskIsFull]
  simp [diskIsFull, VmStore.ofFile, VmStore.runCommands, VmStore.main, VmStore.perform,
    VmStore.replace, fileData_plainJson_pos]

/-! ### What a machine is started with -/

/-- What an invocation makes of the configuration of the machine `name`. -/
def Command.edited (io : ConfigIo) (name : String) (vmConfig : Option Config.VmConfig) :
    Command → Option Config.VmConfig
  | .set other new => if io = ⟨none, .done⟩ ∧ other = name then some new else vmConfig
  | .remove other => if io = ⟨none, .done⟩ ∧ other = name then none else vmConfig
  | _ => vmConfig

/-- The configuration that was set last and not removed since, from an initial one. -/
def lastSet (name : String) (vmConfig : Option Config.VmConfig)
    (invocations : List (ConfigIo × Command)) : Option Config.VmConfig :=
  invocations.foldl (fun vmConfig (io, command) => command.edited io name vmConfig) vmConfig

/-- The machine that a command starts, and the options that it gives for this run. -/
def Command.starting : Command → Option (String × RuntimeOptions)
  | .runVm name vnc keepChanges =>
      some (name, ⟨if vnc.isSome then .vnc else .local, keepChanges⟩)
  | .runTests name display vnc =>
      (displayOf display vnc).map fun display => (name, ⟨display, false⟩)
  | .update name => some (name, .default)
  | _ => none

/-- No write is cut short. A write may still fail to open the file. -/
def Whole (invocations : List (ConfigIo × Command)) : Prop :=
  ∀ invocation ∈ invocations, ∀ written message,
    invocation.1.write ≠ .stopped written message

theorem VmStore.replace_whole {io : ConfigIo}
    (hwhole : ∀ written message, io.write ≠ .stopped written message) (old new : VmStore)
    (done : CommandResult) :
    (old.replace json io new done).2 = some (if io.write = .done then new else old) := by
  unfold VmStore.replace
  cases hwrite : io.write with
  | done => rfl
  | refused message => simp
  | stopped written message => exact absurd hwrite (hwhole written message)

/-- One invocation on the map. -/
theorem VmStore.main_edited {io : ConfigIo}
    (hwhole : ∀ written message, io.write ≠ .stopped written message) (store : VmStore)
    (command : Command) (name : String) :
    ∃ next, (VmStore.main json io command (some store)).2 = some next ∧
      next.vms[name]? = command.edited io name store.vms[name]? ∧
      next.mullvadHost = store.mullvadHost := by
  obtain ⟨readFails, write⟩ := io
  cases readFails with
  | some message => exact ⟨store, rfl, by cases command <;> simp [Command.edited], rfl⟩
  | none =>
      cases command with
      | set other new =>
          refine ⟨_, VmStore.replace_whole json hwhole store _ .set, ?_, ?_⟩
          · by_cases hdone : write = .done
            · simp [Command.edited, hdone, Std.ExtTreeMap.getElem?_insert]
            · simp [Command.edited, hdone]
          · split <;> rfl
      | remove other =>
          simp only [VmStore.main, VmStore.perform]
          by_cases hother : other ∈ store.vms
          · rw [if_pos hother]
            refine ⟨_, VmStore.replace_whole json hwhole store _ .removed, ?_, ?_⟩
            · by_cases hdone : write = .done
              · simp [Command.edited, hdone, Std.ExtTreeMap.getElem?_erase]
              · simp [Command.edited, hdone]
            · split <;> rfl
          · rw [if_neg hother]
            refine ⟨store, rfl, ?_, rfl⟩
            have hnone : store.vms[other]? = none := Std.ExtTreeMap.getElem?_eq_none hother
            rw [Command.edited]
            split
            · next hname => rw [← hname.2, hnone]
            · rfl
      | runTests other display vnc =>
          refine ⟨store, ?_, rfl, rfl⟩
          simp only [VmStore.main, VmStore.perform]
          cases displayOf display vnc <;> rfl
      | list => exact ⟨store, rfl, rfl, rfl⟩
      | runVm other vnc keepChanges => exact ⟨store, rfl, rfl, rfl⟩
      | formatTestReports => exact ⟨store, rfl, rfl, rfl⟩
      | update other => exact ⟨store, rfl, rfl, rfl⟩

theorem ofFile_runCommands {disk : Option (List UInt8)} {store : VmStore}
    (hdisk : VmStore.ofFile json disk = some store) {invocations : List (ConfigIo × Command)}
    (hwhole : Whole invocations) (name : String) :
    ∃ last, VmStore.ofFile json (runCommands json disk invocations).2 = some last ∧
      last.vms[name]? = lastSet name store.vms[name]? invocations ∧
      last.mullvadHost = store.mullvadHost := by
  induction invocations generalizing disk store with
  | nil => exact ⟨store, hdisk, rfl, rfl⟩
  | cons invocation rest ih =>
      obtain ⟨io, command⟩ := invocation
      obtain ⟨hfirst, hrest⟩ := List.forall_mem_cons.mp hwhole
      obtain ⟨next, hnext, hvm, hhost⟩ := store.main_edited json hfirst command name
      have hmain := congrArg Prod.snd (@VmStore.main_refines json io command disk)
      rw [hdisk, hnext] at hmain
      obtain ⟨last, hlast, hlastVm, hlastHost⟩ := ih hmain hrest
      exact ⟨last, hlast, by rw [hlastVm, hvm]; rfl, hlastHost.trans hhost⟩

/-- As long as no write is cut short, a machine is started with the configuration that was
set last and not removed since, with the options of this run only, and nothing is written. -/
theorem starts_last_set (json : SerdeJson) {disk : Option (List UInt8)} {store : VmStore}
    (hdisk : VmStore.ofFile json disk = some store) {invocations : List (ConfigIo × Command)}
    (hwhole : Whole invocations) {io : ConfigIo} (hread : io.readFails = none)
    {command : Command} {name : String} {runtimeOpts : RuntimeOptions}
    (hstart : command.starting = some (name, runtimeOpts)) :
    command.main json io (runCommands json disk invocations).2 =
      (match lastSet name store.vms[name]? invocations with
        | none => .notFound name
        | some vmConfig => .starts runtimeOpts store.mullvadHost vmConfig,
        (runCommands json disk invocations).2) := by
  obtain ⟨last, hlast, hvm, hhost⟩ := ofFile_runCommands json hdisk hwhole name
  have hstarts : startVm {last.config with runtimeOpts} name =
      match lastSet name store.vms[name]? invocations with
      | none => .notFound name
      | some vmConfig => .starts runtimeOpts store.mullvadHost vmConfig := by
    rw [← hvm, ← hhost]
    rfl
  rw [Command.main, VmStore.loadOrDefault_eq hread, hlast, ← hstarts]
  cases command with
  | runVm other vnc keepChanges =>
      cases hstart
      rfl
  | runTests other display vnc =>
      obtain ⟨shown, hshown, hsame⟩ := Option.map_eq_some_iff.mp hstart
      cases hsame
      simp only [Command.perform, hshown]
      rfl
  | update other =>
      cases hstart
      rfl
  | set other new => cases hstart
  | remove other => cases hstart
  | list => cases hstart
  | formatTestReports => cases hstart

/-- A refused write and another machine do not matter. -/
def setTwice : List (ConfigIo × Command) :=
  [(⟨none, .done⟩, .set "debian12" {debian with tpm := true}),
    (⟨none, .done⟩, .set "debian12" debian),
    (⟨none, .refused "Permission denied"⟩, .remove "debian12"),
    (⟨none, .done⟩, .set "debian11" {debian with imagePath := "old.qcow2"}),
    (⟨none, .done⟩, .runVm "debian12" none true)]

theorem setTwice_starts :
    ((Command.runTests "debian12" false none).main plainJson ⟨none, .done⟩
      (runCommands plainJson none setTwice).2).1 = .starts ⟨.none, false⟩ none debian := by
  have hwhole : Whole setTwice := by simp [Whole, setTwice]
  have hstart : (Command.runTests "debian12" false none).starting =
      some ("debian12", ⟨.none, false⟩) := rfl
  rw [starts_last_set plainJson rfl hwhole rfl hstart]
  simp [lastSet, setTwice, Command.edited]

end

end MullvadAppTests.TestManager
