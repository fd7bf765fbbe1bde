import MullvadAppTests.Lib.JsonPrefix
import MullvadAppTests.Lib.Serde
import MullvadAppTests.Lib.Utf8
import MullvadAppTests.TestManager.Config

/-!
A format for the configurations with what is required of `serde_json`. The fields
have the names and the order in which `config.rs` declares them.
-/

namespace MullvadAppTests.TestManager

open Lib

namespace Config

/-! ### Enumerations -/

def vmTypes : List (String × VmType) := [("qemu", .qemu), ("tart", .tart)]

def osTypes : List (String × OsType) :=
  [("windows", .windows), ("linux", .linux), ("macos", .macos)]

def packageTypes : List (String × PackageType) := [("deb", .deb), ("rpm", .rpm)]

def architectures : List (String × Architecture) := [("x64", .x64), ("aarch64", .aarch64)]

def provisioners : List (String × Provisioner) := [("noop", .noop), ("ssh", .ssh)]

def ofVmType : VmType → Json
  | .qemu => .string "qemu"
  | .tart => .string "tart"

def ofOsType : OsType → Json
  | .windows => .string "windows"
  | .linux => .string "linux"
  | .macos => .string "macos"

def ofPackageType : PackageType → Json
  | .deb => .string "deb"
  | .rpm => .string "rpm"

def ofArchitecture : Architecture → Json
  | .x64 => .string "x64"
  | .aarch64 => .string "aarch64"

def ofProvisioner : Provisioner → Json
  | .noop => .string "noop"
  | .ssh => .string "ssh"

/-! ### A virtual machine -/

/-- The fields in the order of their declaration. -/
def vmFields : List String :=
  ["vm_type", "image_path", "os_type", "package_type", "architecture", "provisioner", "ssh_user",
    "ssh_password", "disks", "artifacts_dir", "tpm"]

def VmConfig.serialize (config : VmConfig) : Json :=
  .object
    [("vm_type", ofVmType config.vmType), ("image_path", .string config.imagePath),
      ("os_type", ofOsType config.osType),
      ("package_type", Serde.ofOption ofPackageType config.packageType),
      ("architecture", Serde.ofOption ofArchitecture config.architecture),
      ("provisioner", ofProvisioner config.provisioner),
      ("ssh_user", Serde.ofOption .string config.sshUser),
      ("ssh_password", Serde.ofOption .string config.sshPassword),
      ("disks", .array (config.disks.map .string)),
      ("artifacts_dir", Serde.ofOption .string config.artifactsDir), ("tpm", .bool config.tpm)]

def VmConfig.deserialize (value : Json) : Option VmConfig := do
  let source ← Serde.source vmFields value
  let vmType ← Serde.required (Serde.unitVariant vmTypes) "vm_type" source
  let imagePath ← Serde.required Serde.string "image_path" source
  let osType ← Serde.required (Serde.unitVariant osTypes) "os_type" source
  let packageType ← Serde.optional (Serde.unitVariant packageTypes) "package_type" source
  let architecture ← Serde.optional (Serde.unitVariant architectures) "architecture" source
  let provisioner ← Serde.required (Serde.unitVariant provisioners) "provisioner" source
  let sshUser ← Serde.optional Serde.string "ssh_user" source
  let sshPassword ← Serde.optional Serde.string "ssh_password" source
  let disks ← Serde.required (Serde.list Serde.string) "disks" source
  let artifactsDir ← Serde.optional Serde.string "artifacts_dir" source
  let tpm ← Serde.defaulted Serde.bool false "tpm" source
  some ⟨⟨osType, packageType, architecture⟩, vmType, imagePath, provisioner, sshUser, sshPassword,
    disks, artifactsDir, tpm⟩

/-! ### The whole file -/

def fields : List String := ["vms", "mullvad_host"]

def serialize (config : Config) : Json :=
  .object
    [("vms", Serde.ofTreeMap VmConfig.serialize config.vms),
      ("mullvad_host", Serde.ofOption .string config.mullvadHost)]

def deserialize (value : Json) : Option Config := do
  let source ← Serde.source fields value
  let vms ← Serde.required (Serde.treeMap VmConfig.deserialize) "vms" source
  let mullvadHost ← Serde.optional Serde.string "mullvad_host" source
  some ⟨.default, vms, mullvadHost⟩

def encode (config : Config) : List UInt8 := Text.utf8Encode (config.serialize.pretty 0)

def decode (data : List UInt8) : Option Config :=
  (Text.utf8Decode data).bind fun text => (Json.parse text).bind deserialize

/-! ### Reading what was saved -/

theorem unitVariant_ofVmType (vmType : VmType) :
    Serde.unitVariant vmTypes (ofVmType vmType) = some vmType := by
  cases vmType <;> rfl

theorem unitVariant_ofOsType (osType : OsType) :
    Serde.unitVariant osTypes (ofOsType osType) = some osType := by
  cases osType <;> rfl

theorem unitVariant_ofPackageType (packageType : PackageType) :
    Serde.unitVariant packageTypes (ofPackageType packageType) = some packageType := by
  cases packageType <;> rfl

theorem unitVariant_ofArchitecture (architecture : Architecture) :
    Serde.unitVariant architectures (ofArchitecture architecture) = some architecture := by
  cases architecture <;> rfl

theorem unitVariant_ofProvisioner (provisioner : Provisioner) :
    Serde.unitVariant provisioners (ofProvisioner provisioner) = some provisioner := by
  cases provisioner <;> rfl

theorem nullable_string (s : Option String) :
    Serde.nullable Serde.string (Serde.ofOption .string s) = some s :=
  Serde.nullable_ofOption Serde.string_string (by simp) s

/-- The members that are written, as the deserialiser finds them. -/
def VmConfig.source (config : VmConfig) : Serde.Source :=
  .map
    [("vm_type", ofVmType config.vmType), ("image_path", .string config.imagePath),
      ("os_type", ofOsType config.osType),
      ("package_type", Serde.ofOption ofPackageType config.packageType),
      ("architecture", Serde.ofOption ofArchitecture config.architecture),
      ("provisioner", ofProvisioner config.provisioner),
      ("ssh_user", Serde.ofOption .string config.sshUser),
      ("ssh_password", Serde.ofOption .string config.sshPassword),
      ("disks", .array (config.disks.map .string)),
      ("artifacts_dir", Serde.ofOption .string config.artifactsDir), ("tpm", .bool config.tpm)]

theorem VmConfig.source_serialize (config : VmConfig) :
    Serde.source vmFields config.serialize = some config.source :=
  Serde.source_object (show (vmFields.filter (· ∈ vmFields)).Nodup by decide)

theorem VmConfig.deserialize_serialize (config : VmConfig) :
    VmConfig.deserialize config.serialize = some config := by
  have hvmType : Serde.required (Serde.unitVariant vmTypes) "vm_type" config.source =
      some config.vmType := unitVariant_ofVmType _
  have himagePath : Serde.required Serde.string "image_path" config.source =
      some config.imagePath := rfl
  have hosType : Serde.required (Serde.unitVariant osTypes) "os_type" config.source =
      some config.osType := unitVariant_ofOsType _
  have hpackageType : Serde.optional (Serde.unitVariant packageTypes) "package_type" config.source =
      some config.packageType :=
    Serde.nullable_ofOption unitVariant_ofPackageType (by intro a; cases a <;> simp [ofPackageType]) _
  have harchitecture : Serde.optional (Serde.unitVariant architectures) "architecture"
      config.source = some config.architecture :=
    Serde.nullable_ofOption unitVariant_ofArchitecture
      (by intro a; cases a <;> simp [ofArchitecture]) _
  have hprovisioner : Serde.required (Serde.unitVariant provisioners) "provisioner" config.source =
      some config.provisioner := unitVariant_ofProvisioner _
  have hsshUser : Serde.optional Serde.string "ssh_user" config.source = some config.sshUser :=
    nullable_string _
  have hsshPassword : Serde.optional Serde.string "ssh_password" config.source =
      some config.sshPassword := nullable_string _
  have hdisks : Serde.required (Serde.list Serde.string) "disks" config.source =
      some config.disks := Serde.list_map Serde.string_string _
  have hartifactsDir : Serde.optional Serde.string "artifacts_dir" config.source =
      some config.artifactsDir := nullable_string _
  have htpm : Serde.defaulted Serde.bool false "tpm" config.source = some config.tpm := rfl
  rw [VmConfig.deserialize, Serde.bind_of_eq_some config.source_serialize,
    Serde.bind_of_eq_some hvmType, Serde.bind_of_eq_some himagePath,
    Serde.bind_of_eq_some hosType, Serde.bind_of_eq_some hpackageType,
    Serde.bind_of_eq_some harchitecture, Serde.bind_of_eq_some hprovisioner,
    Serde.bind_of_eq_some hsshUser, Serde.bind_of_eq_some hsshPassword,
    Serde.bind_of_eq_some hdisks, Serde.bind_of_eq_some hartifactsDir,
    Serde.bind_of_eq_some htpm]

theorem deserialize_serialize (config : Config) :
    deserialize config.serialize = some config.saved := by
  have hsource : Serde.source fields config.serialize = some (.map
      [("vms", Serde.ofTreeMap VmConfig.serialize config.vms),
        ("mullvad_host", Serde.ofOption .string config.mullvadHost)]) :=
    Serde.source_object (show (fields.filter (· ∈ fields)).Nodup by decide)
  have hvms : Serde.required (Serde.treeMap VmConfig.deserialize) "vms" (.map
      [("vms", Serde.ofTreeMap VmConfig.serialize config.vms),
        ("mullvad_host", Serde.ofOption .string config.mullvadHost)]) = some config.vms :=
    Serde.treeMap_ofTreeMap VmConfig.deserialize_serialize config.vms
  have hhost : Serde.optional Serde.string "mullvad_host" (.map
      [("vms", Serde.ofTreeMap VmConfig.serialize config.vms),
        ("mullvad_host", Serde.ofOption .string config.mullvadHost)]) = some config.mullvadHost :=
    nullable_string config.mullvadHost
  rw [deserialize, Serde.bind_of_eq_some hsource, Serde.bind_of_eq_some hvms,
    Serde.bind_of_eq_some hhost]
  rfl

theorem wellFormed_ofOption {α : Type} {encode : α → Json} (h : ∀ a, (encode a).WellFormed)
    (a : Option α) : (Serde.ofOption encode a).WellFormed := by
  cases a with
  | none => exact .null
  | some a => exact h a

theorem VmConfig.wellFormed (config : VmConfig) : config.serialize.WellFormed := by
  apply Json.WellFormed.object
  simp only [List.forall_mem_cons]
  refine ⟨?_, .string _, ?_, wellFormed_ofOption ?_ _, wellFormed_ofOption ?_ _, ?_,
    wellFormed_ofOption .string _, wellFormed_ofOption .string _, ?_,
    wellFormed_ofOption .string _, .bool _, by simp⟩
  · cases config.vmType <;> exact .string _
  · cases config.osType <;> exact .string _
  · intro packageType
    cases packageType <;> exact .string _
  · intro architecture
    cases architecture <;> exact .string _
  · cases config.provisioner <;> exact .string _
  · apply Json.WellFormed.array
    intro item hitem
    obtain ⟨disk, _, rfl⟩ := List.mem_map.mp hitem
    exact .string disk

theorem wellFormed (config : Config) : config.serialize.WellFormed := by
  apply Json.WellFormed.object
  simp only [List.forall_mem_cons]
  refine ⟨?_, wellFormed_ofOption .string _, by simp⟩
  apply Json.WellFormed.object
  intro member hmember
  obtain ⟨entry, _, rfl⟩ := List.mem_map.mp hmember
  exact entry.2.wellFormed

theorem decode_encode (config : Config) : decode config.encode = some config.saved := by
  rw [decode, encode, Text.utf8Decode_utf8Encode, Option.bind_some,
    Json.parse_pretty config.wellFormed, Option.bind_some, deserialize_serialize]

/-- A file that was not written to its end is no text, or the beginning of one. -/
theorem decode_cut (config : Config) (data : List UInt8) (hbegin : data <+: config.encode)
    (hne : data ≠ config.encode) : decode data = none := by
  rw [decode]
  cases htext : Text.utf8Decode data with
  | none => rfl
  | some text =>
      have hdata := Text.utf8Encode_of_utf8Decode htext
      rw [hdata] at hbegin hne
      have hcut : text ≠ config.serialize.pretty 0 := by
        intro heq
        exact hne (congrArg Text.utf8Encode heq)
      rw [Option.bind_some,
        Json.parse_prefix config.wellFormed (Text.prefix_of_utf8Encode hbegin) hcut]
      rfl

theorem runtimeOpts_of_decode (data : List UInt8) (config : Config)
    (h : decode data = some config) : config.runtimeOpts = .default := by
  obtain ⟨text, _, h⟩ := Option.bind_eq_some_iff.mp h
  obtain ⟨value, _, h⟩ := Option.bind_eq_some_iff.mp h
  simp only [deserialize, Option.bind_eq_bind, Option.bind_eq_some_iff] at h
  obtain ⟨_, _, _, _, _, _, h⟩ := h
  rw [← Option.some.inj h]

end Config

def plainJson : SerdeJson where
  fromSlice := Config.decode
  toVecPretty := Config.encode
  fromSlice_toVecPretty := Config.decode_encode
  fromSlice_cut := Config.decode_cut
  skipped := Config.runtimeOpts_of_decode

end MullvadAppTests.TestManager
