import MullvadAppTests.Ci.VersionNames

/-!
The test manager looks up the packages that the script has put into `./packages/`.
`get_app_manifest` is called with the name of an app package, cuts the version out
of it and looks for the file of the UI tests of that version.
-/

namespace MullvadAppTests.Ci

open Lib TestManager

/-- The configuration of a machine for which the packages of the platform are. -/
def Platform.Matches (config : VmConfig) : Platform → Prop
  | .deb => config = ⟨.linux, some .deb, some .x64⟩
  | .rpm => config = ⟨.linux, some .rpm, some .x64⟩
  | .windows =>
      config.osType = .windows ∧ (config.architecture = none ∨ config.architecture = some .x64)
  | .macos =>
      config.osType = .macos ∧ (config.architecture = none ∨ config.architecture = some .aarch64)

/-! ### Characters -/

theorem mem_e2eVersion {version : AppVersion} {c : Char} (hc : c ∈ version.e2eVersion) :
    Regex.isLowerAlphanumeric c = true ∨ c = '-' ∨ c = '.' := by
  have hdigits : ∀ word : Word Char.isDigit, c ∈ word.text →
      Regex.isLowerAlphanumeric c = true ∨ c = '-' ∨ c = '.' := by
    intro word hword
    exact .inl (by simp [Regex.isLowerAlphanumeric, word.inClass c hword])
  have hletters : ∀ c ∈ "-beta".toList ++ "-dev-".toList,
      Regex.isLowerAlphanumeric c = true ∨ c = '-' ∨ c = '.' := by
    intro c hc
    have hall : (("-beta".toList ++ "-dev-".toList).all fun c =>
        Regex.isLowerAlphanumeric c || c = '-' || c = '.') = true := by decide
    simpa [or_assoc] using List.all_eq_true.mp hall c hc
  rw [e2eVersion_eq, AppVersion.tail, AppVersion.betaPart, AppVersion.devPart] at hc
  rcases List.mem_append.mp hc with hyear | hc
  · exact hdigits _ hyear
  rcases List.mem_cons.mp hc with hdot | hc
  · exact .inr (.inr hdot)
  rcases List.mem_append.mp hc with hnumber | hc
  · exact hdigits _ hnumber
  rcases List.mem_append.mp hc with hbeta | hdev
  · cases hnumber : version.beta with
    | none => simp [hnumber] at hbeta
    | some number =>
        simp only [hnumber] at hbeta
        rcases List.mem_append.mp hbeta with hbeta | hbeta
        · exact hletters c (List.mem_append_left _ hbeta)
        · exact hdigits _ hbeta
  · cases hbuild : version.dev with
    | none => simp [hbuild] at hdev
    | some build =>
        simp only [hbuild] at hdev
        rcases List.mem_append.mp hdev with hdev | hdev
        · exact hletters c (List.mem_append_right _ hdev)
        · exact .inl (mem_commit hdev)

theorem isUpper_of_mem {version : AppVersion} {c : Char} (hc : c ∈ version.e2eVersion) :
    c.isUpper = false := by
  by_contra hupper
  obtain ⟨hA, hZ⟩ : 65 ≤ c.val.toNat ∧ c.val.toNat ≤ 90 :=
    of_decide_eq_true (Bool.eq_true_of_not_eq_false hupper)
  rcases mem_e2eVersion hc with hclass | rfl | rfl
  · rcases Bool.or_eq_true_iff.mp hclass with hdigit | hlower
    · rw [Char.isDigit, Bool.and_eq_true, decide_eq_true_eq, decide_eq_true_eq] at hdigit
      have hle : c.val.toNat ≤ 57 := hdigit.2
      omega
    · have hle : 97 ≤ c.val.toNat := of_decide_eq_true (Bool.and_eq_true_iff.mp hlower).1
      omega
  · exact absurd hA (by decide)
  · exact absurd hA (by decide)

theorem lower_e2eVersion (version : AppVersion) :
    Text.makeAsciiLowercase version.e2eVersion = version.e2eVersion :=
  Text.makeAsciiLowercase_eq_self fun _ hc => isUpper_of_mem hc

/-- The lower case of the name of a package. -/
theorem lower_appName (platform : Platform) (version : AppVersion) :
    Text.makeAsciiLowercase (platform.appName version) =
      "mullvadvpn-".toList ++
        (Text.makeAsciiLowercase version.appVersion ++ platform.appSuffix) := by
  have hsuffix : Text.makeAsciiLowercase platform.appSuffix = platform.appSuffix := by
    cases platform <;> decide +kernel
  have hname : Text.makeAsciiLowercase "MullvadVPN-".toList = "mullvadvpn-".toList := by
    decide +kernel
  unfold Platform.appName
  rw [Text.makeAsciiLowercase_append, Text.makeAsciiLowercase_append, hsuffix, hname,
    List.append_assoc]

/-- The name of a file for the UI tests differs from its lower case in a tag only. -/
theorem lower_e2eName (platform : Platform) (version : AppVersion) :
    Text.makeAsciiLowercase (platform.e2eName version) =
      "app-e2e-tests-".toList ++
        (version.e2eVersion ++ Text.makeAsciiLowercase version.keptTag) ++ platform.e2eSuffix := by
  have hsuffix : Text.makeAsciiLowercase platform.e2eSuffix = platform.e2eSuffix := by
    cases platform <;> decide +kernel
  have hname : Text.makeAsciiLowercase "app-e2e-tests-".toList = "app-e2e-tests-".toList := by
    decide +kernel
  unfold Platform.e2eName
  rw [Text.makeAsciiLowercase_append, Text.makeAsciiLowercase_append,
    Text.makeAsciiLowercase_append, lower_e2eVersion, hsuffix, hname]

theorem lower_packagePath (name : Text) :
    Text.makeAsciiLowercase (packagePath name) = packagePath (Text.makeAsciiLowercase name) := by
  have hdirectory : Text.makeAsciiLowercase "./packages/".toList = "./packages/".toList := by
    decide +kernel
  unfold packagePath
  rw [Text.makeAsciiLowercase_append, hdirectory]

/-! ### App packages -/

/-- Whether the test manager takes the name for one of a file for the UI tests. -/
def isE2eName (name : Text) : Bool :=
  (Text.makeAsciiLowercase (packagePath name)).contains e2eMarker

def Platform.ext : Platform → Text
  | .deb => "deb".toList
  | .rpm => "rpm".toList
  | .windows => "exe".toList
  | .macos => "pkg".toList

section

variable {platform : Platform} {config : VmConfig} {version : AppVersion}

theorem getExt_of_matches (h : platform.Matches config) :
    getExt config.target = .ok platform.ext := by
  cases platform with
  | deb | rpm =>
      cases h
      rfl
  | windows | macos =>
      simp only [getExt, h.1]
      rfl

theorem ext_of_matches (h : platform.Matches config) :
    false = true ∨ ∃ ext, getExt config.target = .ok ext := .inr ⟨_, getExt_of_matches h⟩

theorem appName_hasExtension (platform : Platform) (version : AppVersion) :
    hasExtension platform.ext (platform.appName version) = true := by
  have hname : ∃ before, before ≠ [] ∧
      platform.appName version = before ++ '.' :: platform.ext := by
    have hsuffix : ∃ before, platform.appSuffix = before ++ '.' :: platform.ext := by
      cases platform with
      | deb => exact ⟨"_amd64".toList, rfl⟩
      | rpm => exact ⟨"_x86_64".toList, rfl⟩
      | windows | macos => exact ⟨[], rfl⟩
    obtain ⟨before, hbefore⟩ := hsuffix
    refine ⟨"MullvadVPN-".toList ++ version.appVersion ++ before, by simp, ?_⟩
    unfold Platform.appName
    rw [hbefore]
    generalize "MullvadVPN-".toList ++ version.appVersion = start
    rw [List.append_assoc]
  obtain ⟨before, hne, hname⟩ := hname
  have hext : platform.ext ≠ [] ∧ '.' ∉ platform.ext := by
    cases platform <;> decide
  simp [hasExtension, hname, extension_append hne hext.1 hext.2]

theorem accepts_app_iff (h : platform.Matches config) {app name : Text} :
    accepts app false config.target name = .ok true ↔
      hasExtension platform.ext name = true ∧
        isCandidate app false config.target
          (packagePath name) = true := by
  simp only [accepts, getExt_of_matches h]
  simp

theorem infix_packagePath (name : Text) : name <:+: packagePath name :=
  (List.suffix_append _ name).isInfix

/-- An app package passes the filters of its own name, unless it is taken for a file
for the UI tests. -/
theorem appName_passes {fs : FileSystem} (hmatches : platform.Matches config)
    (hfile : fs.isFile (packagePath (platform.appName version)) = true)
    (hname : isE2eName (platform.appName version) = false) :
    PassesFilters fs (platform.appName version) false
      config.target (platform.appName version) := by
  refine ⟨hfile, (accepts_app_iff hmatches).mpr ⟨appName_hasExtension platform version, ?_⟩⟩
  refine isCandidate_iff.mpr ⟨hname, by simp, ?_, ?_⟩
  · intro arch harch hlinux
    have hsuffix : platform.appSuffix <:+:
        Text.makeAsciiLowercase (packagePath (platform.appName version)) := by
      rw [lower_packagePath, lower_appName]
      refine List.IsInfix.trans ?_ (infix_packagePath _)
      exact ((List.suffix_append _ _).trans (List.suffix_append _ _)).isInfix
    cases platform with
    | deb =>
        cases hmatches
        cases harch
        refine ⟨"amd64".toList, by decide, List.IsInfix.trans ?_ hsuffix⟩
        exact ⟨['_'], ".deb".toList, by decide⟩
    | rpm =>
        cases hmatches
        cases harch
        refine ⟨"x86_64".toList, by decide, List.IsInfix.trans ?_ hsuffix⟩
        exact ⟨['_'], ".rpm".toList, by decide⟩
    | windows | macos => simp [hmatches.1] at hlinux
  · rw [lower_packagePath]
    exact infix_packagePath _

theorem packagePath_eq (name : Text) : packagePath name = "./packages".toList ++ '/' :: name := by
  have hdirectory : "./packages/".toList = "./packages".toList ++ ['/'] := by decide
  unfold packagePath
  rw [hdirectory]
  generalize "./packages".toList = directory
  rw [List.append_assoc, List.singleton_append]

/-- What is no part of the directory is found in a path only if it is found in the
name. -/
theorem infix_name {part name : Text} (h : part <:+: packagePath name) (hslash : '/' ∉ part)
    {c : Char} (hc : c ∈ part) (hdirectory : c ∉ "./packages".toList) : part <:+: name := by
  rw [packagePath_eq, Text.infix_append_cons hslash] at h
  rcases h with h | h
  · exact absurd (h.subset hc) hdirectory
  · exact h

theorem isE2eName_iff {name : Text} :
    isE2eName name = true ↔ e2eMarker <:+: Text.makeAsciiLowercase name := by
  rw [isE2eName, Text.contains, decide_eq_true_eq, lower_packagePath]
  constructor
  · intro h
    exact infix_name h (by decide) (c := 't') (by decide) (by decide)
  · intro h
    exact h.trans (infix_packagePath _)

theorem slash_not_mem_lower_appName (platform : Platform) (version : AppVersion) :
    '/' ∉ Text.makeAsciiLowercase (platform.appName version) := by
  apply Text.not_mem_makeAsciiLowercase (by decide)
  have hsuffix : '/' ∉ platform.appSuffix := by
    cases platform <;> decide
  have hversion : '/' ∉ version.e2eVersion := by
    intro hmem
    rcases mem_e2eVersion hmem with hclass | hdash | hdot
    · exact absurd hclass (by decide)
    · exact absurd hdash (by decide)
    · exact absurd hdot (by decide)
  have htag : '/' ∉ version.tagPart := by
    rw [AppVersion.tagPart]
    split
    · exact List.not_mem_nil
    · next tag _ =>
      intro hmem
      rcases List.mem_cons.mp hmem with hplus | htag
      · exact absurd hplus (by decide)
      · exact (tag.inName '/' htag).1 rfl
  unfold Platform.appName
  exact List.not_mem_append
    (List.not_mem_append (by decide) (List.not_mem_append hversion htag)) hsuffix

/-- A path in which the name of an app package is found has that name in its own. -/
theorem infix_of_passes {fs : FileSystem} (hmatches : platform.Matches config) {name : Text}
    (h : PassesFilters fs (platform.appName version) false
      config.target name) :
    isE2eName name = false ∧
      Text.makeAsciiLowercase (platform.appName version) <:+: Text.makeAsciiLowercase name := by
  obtain ⟨hmarker, _, _, hinside⟩ :=
    isCandidate_iff.mp ((accepts_app_iff hmatches).mp h.2).2
  refine ⟨hmarker, ?_⟩
  rw [lower_packagePath] at hinside
  apply infix_name hinside (slash_not_mem_lower_appName platform version) (c := 'm')
  · rw [lower_appName]
    exact List.mem_append_left _ (by decide)
  · decide

theorem isCandidate_congr {app : Text} {e2eBin : Bool} {packageType : Target} {path other : Text}
    (h : Text.makeAsciiLowercase path = Text.makeAsciiLowercase other) :
    isCandidate app e2eBin packageType path = isCandidate app e2eBin packageType other := by
  simp only [isCandidate, h]

theorem appSuffix_ext (platform : Platform) :
    ∃ before, platform.appSuffix = before ++ platform.ext := by
  cases platform with
  | deb => exact ⟨"_amd64.".toList, rfl⟩
  | rpm => exact ⟨"_x86_64.".toList, rfl⟩
  | windows | macos => exact ⟨['.'], rfl⟩

/-- Names that differ in the case of letters only have the same extension. -/
theorem ext_of_lower {other : Platform} {otherVersion : AppVersion}
    (h : Text.makeAsciiLowercase (other.appName otherVersion) =
      Text.makeAsciiLowercase (platform.appName version)) : other.ext = platform.ext := by
  obtain ⟨before, hbefore⟩ := appSuffix_ext platform
  obtain ⟨otherBefore, hotherBefore⟩ := appSuffix_ext other
  rw [lower_appName, lower_appName, hbefore, hotherBefore, ← List.append_assoc,
    ← List.append_assoc, ← List.append_assoc, ← List.append_assoc] at h
  apply List.append_inj_right' h
  cases other <;> cases platform <;> decide

theorem e2eName_isE2eName (platform : Platform) (version : AppVersion) :
    isE2eName (platform.e2eName version) = true := by
  rw [isE2eName_iff, lower_e2eName]
  refine List.IsInfix.trans ?_ (List.prefix_append _ _).isInfix
  refine List.IsInfix.trans ?_ (List.prefix_append _ _).isInfix
  exact ⟨[], ['-'], by decide⟩

/-- The directory holds only files that the script has named. -/
structure CiPackages (fs : FileSystem) (names : List Text) : Prop where
  listed : fs.packages = some names
  files : ∀ name ∈ names, fs.isFile (packagePath name) = true
  named : ∀ name ∈ names, ∃ (version : AppVersion) (os : Text),
    getAppFilename version.text os = some name ∨ getE2eFilename version.text os = some name

theorem CiPackages.name {fs : FileSystem} {names : List Text} (h : CiPackages fs names)
    {name : Text} (hname : name ∈ names) :
    ∃ (platform : Platform) (version : AppVersion),
      name = platform.appName version ∨ name = platform.e2eName version := by
  obtain ⟨version, os, happ | he2e⟩ := h.named name hname
  · rw [getAppFilename_text] at happ
    obtain ⟨platform, _, rfl⟩ := Option.map_eq_some_iff.mp happ
    exact ⟨platform, version, .inl rfl⟩
  · rw [getE2eFilename_text] at he2e
    obtain ⟨platform, _, rfl⟩ := Option.map_eq_some_iff.mp he2e
    exact ⟨platform, version, .inr rfl⟩

section

variable {fs : FileSystem} {names : List Text} (hpackages : CiPackages fs names)
  (hmatches : platform.Matches config) (hname : platform.appName version ∈ names)
include hpackages hmatches hname

/-- An app package whose name differs in the case of letters only passes the filters
as well. -/
theorem passes_of_lower {name : Text} (hmarker : isE2eName (platform.appName version) = false)
    (hmem : name ∈ names) (hlower : Text.makeAsciiLowercase name =
      Text.makeAsciiLowercase (platform.appName version)) :
    PassesFilters fs (platform.appName version) false config.target name := by
  have hpasses := appName_passes hmatches (hpackages.files _ hname) hmarker
  refine ⟨hpackages.files name hmem, (accepts_app_iff hmatches).mpr ⟨?_, ?_⟩⟩
  · obtain ⟨other, otherVersion, rfl | rfl⟩ := hpackages.name hmem
    · rw [← ext_of_lower hlower]
      exact appName_hasExtension other otherVersion
    · have hmarked := e2eName_isE2eName other otherVersion
      rw [isE2eName_iff, hlower, ← isE2eName_iff, hmarker] at hmarked
      cases hmarked
  · have hpath : Text.makeAsciiLowercase (packagePath name) =
        Text.makeAsciiLowercase (packagePath (platform.appName version)) := by
      rw [lower_packagePath, lower_packagePath, hlower]
    rw [isCandidate_congr hpath]
    exact ((accepts_app_iff hmatches).mp hpasses.2).2

/-- The longer names that contain the one that is looked for do not get in the way,
those that differ in the case of letters do. -/
theorem findApp_appName_iff :
    (∀ sorter, findApp sorter fs (platform.appName version) false config.target =
        .ok (packagePath (platform.appName version))) ↔
      fs.isFile (platform.appName version) = false ∧
        isE2eName (platform.appName version) = false ∧
        ∀ name ∈ names, Text.makeAsciiLowercase name =
          Text.makeAsciiLowercase (platform.appName version) → name = platform.appName version := by
  have htotal := ext_of_matches hmatches
  have hlen : ∀ {name}, PassesFilters fs (platform.appName version) false config.target name →
      Text.utf8Len (platform.appName version) ≤ Text.utf8Len name := by
    intro name hpasses
    have hinside := Text.utf8Len_le_of_infix (infix_of_passes hmatches hpasses).2
    rwa [Text.utf8Len_makeAsciiLowercase, Text.utf8Len_makeAsciiLowercase] at hinside
  constructor
  · intro h
    rcases findApp_ok (h (.ofStable _)) htotal with
      ⟨_, heq⟩ | ⟨hfile, _, name, _, _, heq, hpasses, _⟩
    · cases heq
    obtain rfl := packagePath_injective heq
    have hmarker := (infix_of_passes hmatches hpasses).1
    refine ⟨hfile, hmarker, ?_⟩
    intro name hmem hlower
    -- a sort may as well put this file first
    obtain ⟨sorter, hsorter⟩ := exists_findApp_eq hfile hpackages.listed hmem htotal
      (passes_of_lower hpackages hmatches hname hmarker hmem hlower) (by
        intro other _ hother
        rw [← Text.utf8Len_makeAsciiLowercase name, hlower, Text.utf8Len_makeAsciiLowercase]
        exact hlen hother)
    rw [h sorter] at hsorter
    exact (packagePath_injective (Except.ok.inj hsorter)).symm
  · rintro ⟨hfile, hmarker, hcase⟩ sorter
    refine findApp_of_unique hfile hpackages.listed hname htotal
      (appName_passes hmatches (hpackages.files _ hname) hmarker) ?_
    intro other hother hpasses hotherLen
    apply hcase other hother
    symm
    apply Text.eq_of_infix_of_utf8Len (infix_of_passes hmatches hpasses).2
    rwa [Text.utf8Len_makeAsciiLowercase, Text.utf8Len_makeAsciiLowercase]

theorem exists_findApp_appName_iff (sorter : UnstableSort Text.utf8Len) :
    (∃ path, findApp sorter fs (platform.appName version) false
        config.target = .ok path) ↔
      fs.isFile (platform.appName version) = true ∨
        isE2eName (platform.appName version) = false := by
  have htotal := ext_of_matches hmatches
  constructor
  · rintro ⟨path, hpath⟩
    rcases findApp_ok hpath htotal with ⟨hfile, _⟩ | ⟨_, _, name, _, _, _, hpasses, _⟩
    · exact .inl hfile
    · obtain ⟨hmarker, hinside⟩ := infix_of_passes hmatches hpasses
      right
      by_contra hnot
      rw [Bool.not_eq_false, isE2eName_iff] at hnot
      rw [isE2eName_iff.mpr (hnot.trans hinside)] at hmarker
      cases hmarker
  · intro h
    cases hfile : fs.isFile (platform.appName version) with
    | true => exact ⟨platform.appName version, by simp [findApp, hfile]⟩
    | false =>
        have hmarker : isE2eName (platform.appName version) = false := by simpa [hfile] using h
        exact findApp_of_passes sorter hfile hpackages.listed hname htotal
          (appName_passes hmatches (hpackages.files _ hname) hmarker)

end

/-! ### Files for the UI tests -/

/-- A word with a character that the other parts of the name do not have is found in
the hash or in the suffix. -/
theorem infix_e2eName (htag : version.keptTag = []) {word : Text} {c : Char} (hdash : '-' ∉ word) (hc : c ∈ word)
    (hdigit : c.isDigit = false) (hletters : c ∉ "./packages/app-e2e-tests-beta-dev".toList)
    (h : word <:+: packagePath (platform.e2eName version)) :
    (∃ build, version.dev = some build ∧ word <:+: build.commit) ∨
      word <:+: platform.e2eSuffix := by
  have hletters : c ∉ "./packages/app-e2e-tests-".toList ∧ c ∉ "-beta".toList ∧
      c ∉ "-dev".toList ∧ c ≠ '.' := by
    have hsubset : ∀ part ∈ ["./packages/app-e2e-tests-".toList, "-beta".toList, "-dev".toList,
        ['.']], part ⊆ "./packages/app-e2e-tests-beta-dev".toList := by decide
    refine ⟨fun hmem => hletters (hsubset _ (by simp) hmem),
      fun hmem => hletters (hsubset _ (by simp) hmem),
      fun hmem => hletters (hsubset _ (by simp) hmem), ?_⟩
    rintro rfl
    exact hletters (hsubset ['.'] (by simp) (by simp))
  obtain ⟨hname, hbeta, hdev, hdot⟩ := hletters
  obtain ⟨suffix, hsuffix⟩ := List.head?_eq_some_iff.mp (e2eSuffix_endsVersion platform).dash
  have hbetaPart : c ∉ version.betaPart := version.not_mem_betaPart hdigit hbeta
  have hrelease : c ∉ version.release := version.not_mem_release hdigit hdot
  have hbefore : c ∉ "./packages/app-e2e-tests-".toList ++ (version.release ++ version.betaPart) :=
    List.not_mem_append hname (List.not_mem_append hrelease hbetaPart)
  rw [packagePath_e2eName, htag, List.nil_append, AppVersion.e2eVersion,
    List.append_assoc _ version.devPart, ← List.append_assoc, AppVersion.devPart, hsuffix] at h
  generalize "./packages/app-e2e-tests-".toList ++ (version.release ++ version.betaPart) = before
    at h hbefore
  cases hbuild : version.dev with
  | none =>
      simp only [hbuild, List.nil_append] at h
      rcases (Text.infix_append_cons hdash).mp h with hleft | hright
      · exact absurd (hleft.subset hc) hbefore
      · right
        rw [hsuffix]
        exact hright.trans (List.suffix_cons _ _).isInfix
  | some build =>
      have hsplit : before ++ ("-dev-".toList ++ build.commit ++ '-' :: suffix) =
          (before ++ "-dev".toList) ++ '-' :: (build.commit ++ '-' :: suffix) := by
        simp
      simp only [hbuild, hsplit] at h
      rcases (Text.infix_append_cons hdash).mp h with hleft | hright
      · exact absurd (hleft.subset hc) (List.not_mem_append hbefore hdev)
      · rcases (Text.infix_append_cons hdash).mp hright with hhash | hright
        · exact .inl ⟨build, rfl, hhash⟩
        · right
          rw [hsuffix]
          exact hright.trans (List.suffix_cons _ _).isInfix

theorem keptTag_of_recognised (h : version.isRecognised = true) : version.keptTag = [] := if_pos h

/-- A name has a `+` only if a tag was left there. -/
theorem plus_mem_e2eName (h : version.isRecognised = false) : '+' ∈ platform.e2eName version := by
  have hplus : '+' ∈ version.keptTag := by
    rw [AppVersion.keptTag, h, if_neg Bool.false_ne_true, AppVersion.tagPart]
    unfold AppVersion.isRecognised at h
    cases hdev : version.dev with
    | none => simp [hdev] at h
    | some build =>
        cases htag : build.tag with
        | none => simp [hdev, DevBuild.isRecognised, htag] at h
        | some tag => simp [htag]
  exact List.mem_append_left _ (List.mem_append_right _ (List.mem_append_right _ hplus))

theorem plus_not_mem_e2eName (h : version.isRecognised = true) :
    '+' ∉ platform.e2eName version := by
  have hversion : '+' ∉ version.e2eVersion := by
    intro hmem
    rcases mem_e2eVersion hmem with hclass | hdash | hdot
    · exact absurd hclass (by decide)
    · exact absurd hdash (by decide)
    · exact absurd hdot (by decide)
  have hsuffix : '+' ∉ platform.e2eSuffix := by
    cases platform <;> decide
  unfold Platform.e2eName
  rw [keptTag_of_recognised h, List.append_nil]
  exact List.not_mem_append (List.not_mem_append (by decide) hversion) hsuffix

theorem lower_e2eName_of_recognised (h : version.isRecognised = true) :
    Text.makeAsciiLowercase (platform.e2eName version) = platform.e2eName version := by
  rw [lower_e2eName, keptTag_of_recognised h]
  unfold Platform.e2eName
  rw [keptTag_of_recognised h]
  rfl

theorem length_commit (hrecognised : version.isRecognised = true) {build : DevBuild}
    (hdev : version.dev = some build) : build.commit.length ≤ 6 := by
  have hbuild : build.isRecognised = true := by
    simpa [AppVersion.isRecognised, hdev] using hrecognised
  rw [DevBuild.commit, if_pos hbuild, List.length_take]
  exact Nat.min_le_left _ _

theorem not_windows (hrecognised : version.isRecognised = true) (hplatform : platform ≠ .windows) :
    ¬ "windows".toList <:+: packagePath (platform.e2eName version) := by
  intro h
  rcases infix_e2eName (keptTag_of_recognised hrecognised) (c := 'w') (by decide) (by decide)
    (by decide) (by decide) h with ⟨build, hdev, hhash⟩ | hsuffix
  · -- the word is longer than the hash
    have hlength := hhash.length_le.trans (length_commit hrecognised hdev)
    have hword : "windows".toList.length = 7 := by decide
    omega
  · revert hsuffix
    cases platform with
    | deb | rpm | macos => decide
    | windows => exact absurd rfl hplatform

/-- The hash is too short for the names of both the system and the architecture. -/
theorem not_linux_x64 (hrecognised : version.isRecognised = true)
    (hlinux : "linux".toList <:+: packagePath (Platform.macos.e2eName version))
    (harch : ∃ id ∈ Architecture.x64.getIdentifiers,
      id <:+: packagePath (Platform.macos.e2eName version)) : False := by
  have htag := keptTag_of_recognised hrecognised
  obtain ⟨build, hbuild, hlinux⟩ : ∃ build, version.dev = some build ∧
      "linux".toList <:+: build.commit := by
    rcases infix_e2eName htag (c := 'x') (by decide) (by decide) (by decide) (by decide) hlinux with
      h | hsuffix
    · exact h
    · exact absurd hsuffix (by decide)
  obtain ⟨id, hid, harch⟩ := harch
  rcases List.mem_pair.mp hid with rfl | rfl
  · rcases infix_e2eName htag (c := '_') (by decide) (by decide) (by decide) (by decide) harch with
      ⟨build, _, hhash⟩ | hsuffix
    · have hmem : '_' ∈ build.commit := hhash.subset (by decide)
      exact absurd (mem_commit hmem) (by decide)
    · exact absurd hsuffix (by decide)
  · rcases infix_e2eName htag (c := 'm') (by decide) (by decide) (by decide) (by decide) harch with
      ⟨other, hother, hhash⟩ | hsuffix
    · obtain rfl := Option.some.inj (hbuild.symm.trans hother)
      have hsubset : "linux".toList ++ "amd64".toList ⊆ build.commit :=
        List.append_subset.mpr ⟨hlinux.subset, hhash.subset⟩
      have hnodup : ("linux".toList ++ "amd64".toList).Nodup := by decide
      have hlength := (hnodup.subperm hsubset).length_le.trans (length_commit hrecognised hbuild)
      have hwords : ("linux".toList ++ "amd64".toList).length = 10 := by decide
      omega
    · exact absurd hsuffix (by decide)

/-- The suffix of a file for the UI tests of another system is longer, or the filters
reject it. -/
theorem e2eSuffix_of_candidate (hmatches : platform.Matches config)
    (hrecognised : version.isRecognised = true) {other : Platform} {app : Text}
    (h : isCandidate app true
      config.target
      (packagePath (other.e2eName version)) = true) :
    other.e2eSuffix = platform.e2eSuffix ∨
      Text.utf8Len platform.e2eSuffix < Text.utf8Len other.e2eSuffix := by
  obtain ⟨_, hos, harch, _⟩ := isCandidate_iff.mp h
  rw [lower_packagePath, lower_e2eName_of_recognised hrecognised] at hos harch
  have hmacos : Text.utf8Len Platform.macos.e2eSuffix = 21 := by decide
  have hlinux : Text.utf8Len Platform.deb.e2eSuffix = 25 := by decide
  have hwindows : Text.utf8Len Platform.windows.e2eSuffix = 27 := by decide
  cases platform with
  | deb | rpm =>
      cases hmatches
      cases other with
      | deb | rpm => exact .inl rfl
      | windows =>
          right
          change Text.utf8Len Platform.deb.e2eSuffix < _
          omega
      | macos => exact (not_linux_x64 hrecognised (hos rfl) (harch _ rfl (.inl rfl))).elim
  | windows =>
      have hos : "windows".toList <:+: packagePath (other.e2eName version) := by
        simpa only [getOsName, hmatches.1] using hos rfl
      cases other with
      | windows => exact .inl rfl
      | deb | rpm | macos => exact absurd hos (not_windows hrecognised (by simp))
  | macos =>
      cases other with
      | macos => exact .inl rfl
      | windows =>
          right
          omega
      | deb | rpm =>
          right
          change _ < Text.utf8Len Platform.deb.e2eSuffix
          omega

/-- Of the files for the UI tests that pass the filters and have no tag in the name, the
one of the version has the shortest name. -/
theorem e2eName_unique (hmatches : platform.Matches config) (hpart : version.HasPart)
    (hrecognised : version.isRecognised = true) {other : Platform} {otherVersion : AppVersion}
    (hother : otherVersion.isRecognised = true)
    (h : isCandidate version.e2eVersion true
      config.target
      (packagePath (other.e2eName otherVersion)) = true)
    (hlen : Text.utf8Len (other.e2eName otherVersion) ≤ Text.utf8Len (platform.e2eName version)) :
    other.e2eName otherVersion = platform.e2eName version := by
  obtain ⟨_, _, _, hinside⟩ := isCandidate_iff.mp h
  rw [lower_packagePath, lower_e2eName_of_recognised hother] at hinside
  obtain ⟨rest, hrest⟩ := e2eVersion_isPrefix hpart (keptTag_of_recognised hother) hinside
  unfold Platform.e2eName at hlen ⊢
  rw [keptTag_of_recognised hrecognised, keptTag_of_recognised hother, List.append_nil,
    List.append_nil, ← hrest] at hlen ⊢
  simp only [Text.utf8Len_append] at hlen
  rcases e2eSuffix_of_candidate hmatches hother h with hsuffix | hlonger
  · rw [hsuffix] at hlen ⊢
    have hnil : rest = [] := Text.utf8Len_eq_zero.mp (by omega)
    rw [hnil, List.append_nil]
  · omega

theorem e2eName_isCandidate (version : AppVersion) (hmatches : platform.Matches config) :
    isCandidate version.e2eVersion true config.target
      (packagePath (platform.e2eName version)) = true := by
  have hversion : version.e2eVersion <:+:
      Text.makeAsciiLowercase (packagePath (platform.e2eName version)) := by
    rw [lower_packagePath, lower_e2eName]
    refine List.IsInfix.trans ?_ (infix_packagePath _)
    refine List.IsInfix.trans ?_ (List.prefix_append _ _).isInfix
    exact List.IsInfix.trans (List.prefix_append _ _).isInfix (List.suffix_append _ _).isInfix
  have hsuffix : platform.e2eSuffix <:+:
      Text.makeAsciiLowercase (packagePath (platform.e2eName version)) := by
    rw [lower_packagePath, lower_e2eName]
    exact List.IsInfix.trans (List.suffix_append _ _).isInfix (infix_packagePath _)
  refine isCandidate_iff.mpr ⟨e2eName_isE2eName platform version, ?_, ?_, ?_⟩
  · intro _
    refine List.IsInfix.trans ?_ hsuffix
    cases platform with
    | deb | rpm =>
        cases hmatches
        decide
    | windows | macos =>
        simp only [getOsName, hmatches.1]
        decide
  · intro arch harch _
    cases platform with
    | deb | rpm =>
        cases hmatches
        cases harch
        exact ⟨"x86_64".toList, by decide, List.IsInfix.trans (by decide) hsuffix⟩
    | windows =>
        rcases hmatches.2 with hnone | hx64
        · simp [hnone] at harch
        · obtain rfl : arch = .x64 := by simpa [hx64] using harch.symm
          exact ⟨"x86_64".toList, by decide, List.IsInfix.trans (by decide) hsuffix⟩
    | macos =>
        rcases hmatches.2 with hnone | haarch64
        · simp [hnone] at harch
        · obtain rfl : arch = .aarch64 := by simpa [haarch64] using harch.symm
          exact ⟨"aarch64".toList, by decide, List.IsInfix.trans (by decide) hsuffix⟩
  · exact hversion

theorem e2eName_passes {fs : FileSystem} (hmatches : platform.Matches config)
    (hfile : fs.isFile (packagePath (platform.e2eName version)) = true) :
    PassesFilters fs version.e2eVersion true
      config.target (platform.e2eName version) := by
  refine ⟨hfile, ?_⟩
  rw [accepts, if_pos rfl, lower_e2eVersion, e2eName_isCandidate version hmatches]

theorem packagePath_ne_e2eVersion (name : Text) : packagePath name ≠ version.e2eVersion := by
  intro heq
  have hslash : '/' ∈ version.e2eVersion := by
    rw [← heq, packagePath_eq]
    simp
  rcases mem_e2eVersion hslash with hclass | hdash | hdot
  · exact absurd hclass (by decide)
  · exact absurd hdash (by decide)
  · exact absurd hdot (by decide)

theorem isPrefix_appName : "MullvadVPN-".toList <+: platform.appName version := by
  unfold Platform.appName
  generalize "MullvadVPN-".toList = start
  rw [List.append_assoc]
  exact List.prefix_append _ _

/-- A file is in the way if it passes for a file for the UI tests of the version, with a
name that is not longer. It is an app package, or the script has left a tag in a name. -/
def InTheWay (config : VmConfig) (version : AppVersion) (e2eName name : Text) : Prop :=
  name ≠ e2eName ∧
    ("MullvadVPN-".toList <+: name ∨ '+' ∈ name ∨ '+' ∈ e2eName) ∧
    isCandidate version.e2eVersion true config.target (packagePath name) = true ∧
    Text.utf8Len name ≤ Text.utf8Len e2eName

instance (config : VmConfig) (version : AppVersion) (e2eName name : Text) :
    Decidable (InTheWay config version e2eName name) := by
  unfold InTheWay
  infer_instance

def AppVersion.untagged (version : AppVersion) : AppVersion :=
  {version with dev := version.dev.map fun build => {build with tag := none}}

/-- The file of the same commit without a tag is in the way of one with a tag that the
script does not recognise. -/
theorem untagged_inTheWay (hmatches : platform.Matches config)
    (hunrecognised : version.isRecognised = false)
    (hhash : ∀ build ∈ version.dev, build.hash.text.length ≤ 6) :
    InTheWay config version (platform.e2eName version) (platform.e2eName version.untagged) := by
  have hversion : version.untagged.e2eVersion = version.e2eVersion := by
    have hdevPart : version.untagged.devPart = version.devPart := by
      unfold AppVersion.devPart AppVersion.untagged
      cases hdev : version.dev with
      | none => rfl
      | some build =>
          have htake : build.hash.text.take 6 = build.hash.text :=
            List.take_of_length_le (hhash build hdev)
          simp [DevBuild.commit, DevBuild.isRecognised, htake]
    unfold AppVersion.e2eVersion
    rw [hdevPart]
    rfl
  have hplain : version.untagged.isRecognised = true := by
    unfold AppVersion.isRecognised AppVersion.untagged
    cases version.dev <;> rfl
  have hplus : '+' ∈ platform.e2eName version := plus_mem_e2eName hunrecognised
  have hcandidate := e2eName_isCandidate version.untagged hmatches
  rw [hversion] at hcandidate
  have hlen : Text.utf8Len (platform.e2eName version.untagged) ≤
      Text.utf8Len (platform.e2eName version) := by
    unfold Platform.e2eName
    rw [hversion, keptTag_of_recognised hplain, List.append_nil]
    simp only [Text.utf8Len_append]
    omega
  refine ⟨?_, .inr (.inr hplus), hcandidate, hlen⟩
  intro heq
  rw [← heq] at hplus
  exact plus_not_mem_e2eName hplain hplus

theorem findApp_e2eVersion_iff {fs : FileSystem} {names : List Text}
    (hpackages : CiPackages fs names) (hmatches : platform.Matches config)
    (hpart : version.HasPart) (hname : platform.e2eName version ∈ names) :
    (∀ sorter, findApp sorter fs version.e2eVersion true
        config.target =
          .ok (packagePath (platform.e2eName version))) ↔
      fs.isFile version.e2eVersion = false ∧
        ∀ name ∈ names, ¬ InTheWay config version (platform.e2eName version) name := by
  have hpasses : ∀ name ∈ names, isCandidate version.e2eVersion true
      config.target (packagePath name) = true →
      PassesFilters fs version.e2eVersion true
        config.target name := by
    intro name hmem hcandidate
    refine ⟨hpackages.files name hmem, ?_⟩
    rw [accepts, if_pos rfl, lower_e2eVersion, hcandidate]
  constructor
  · intro h
    rcases findApp_ok (h (.ofStable _)) (.inl rfl) with
      ⟨_, heq⟩ | ⟨hfile, _, found, hlisted, _, heq, _, hleast⟩
    · exact absurd heq (packagePath_ne_e2eVersion _)
    obtain rfl := Option.some.inj (hpackages.listed.symm.trans hlisted)
    obtain rfl := packagePath_injective heq
    refine ⟨hfile, ?_⟩
    rintro name hmem ⟨hother, _, hcandidate, hlen⟩
    -- a sort may as well find this file
    obtain ⟨sorter, hsorter⟩ := exists_findApp_eq hfile hpackages.listed hmem (.inl rfl)
      (hpasses name hmem hcandidate) fun other hother hotherPasses =>
        hlen.trans (hleast other hother hotherPasses)
    rw [h sorter] at hsorter
    exact hother (packagePath_injective (Except.ok.inj hsorter)).symm
  · rintro ⟨hfile, hway⟩ sorter
    refine findApp_of_unique hfile hpackages.listed hname (.inl rfl)
      (e2eName_passes hmatches (hpackages.files _ hname)) ?_
    intro other hother hotherPasses hlen
    have hcandidate := Except.ok.inj hotherPasses.2
    rw [lower_e2eVersion] at hcandidate
    by_contra hne
    have hplain : ¬ ("MullvadVPN-".toList <+: other ∨ '+' ∈ other ∨
        '+' ∈ platform.e2eName version) :=
      fun hdoubtful => hway other hother ⟨hne, hdoubtful, hcandidate, hlen⟩
    obtain ⟨hnotApp, hotherPlus, hplus⟩ : ¬ "MullvadVPN-".toList <+: other ∧ '+' ∉ other ∧
        '+' ∉ platform.e2eName version := by simpa only [not_or] using hplain
    have hrecognised := Bool.of_not_eq_false fun h => hplus (plus_mem_e2eName h)
    obtain ⟨otherPlatform, otherVersion, rfl | rfl⟩ := hpackages.name hother
    · exact hnotApp isPrefix_appName
    · have hotherRecognised := Bool.of_not_eq_false fun h => hotherPlus (plus_mem_e2eName h)
      exact hne (e2eName_unique hmatches hpart hrecognised hotherRecognised hcandidate hlen)

end

/-- The configuration is one of a machine with the given system. -/
def MatchesOs (os : Text) (config : VmConfig) : Prop :=
  ∃ platform, Platform.ofOs os = some platform ∧ platform.Matches config

/-- The test manager finds the packages of a version among those of other versions
exactly when its name has a `-` after the numbers, no other file has its name but for
the case of letters, and no tag puts a file in the way of the one for the UI tests. -/
theorem manifest_found_iff (search : Regex → Text → Option Text)
    (hsearch : Regex.LeftmostFirst search) (version previous : AppVersion)
    (os app e2e previousApp : Text) (config : VmConfig) (fs : FileSystem) (names : List Text)
    (happ : getAppFilename version.text os = some app)
    (he2e : getE2eFilename version.text os = some e2e)
    (hprevious : getAppFilename previous.text os = some previousApp)
    (hmatches : MatchesOs os config) (hpackages : CiPackages fs names)
    (happMem : app ∈ names) (he2eMem : e2e ∈ names) (hpreviousMem : previousApp ∈ names) :
    (∀ sorter, ∃ manifest,
        getAppManifest search sorter fs config app previousApp = .ok manifest ∧
        manifest.currentAppPath = packagePath app ∧ manifest.uiE2eTestsPath = packagePath e2e) ↔
      version.HasPart ∧ isE2eName app = false ∧
        (∀ name ∈ names,
          Text.makeAsciiLowercase name = Text.makeAsciiLowercase app → name = app) ∧
        (fs.isFile previousApp = true ∨ isE2eName previousApp = false) ∧
        (∀ name ∈ names, ¬ InTheWay config version e2e name) ∧
        fs.isFile app = false ∧ fs.isFile version.e2eVersion = false := by
  obtain ⟨platform, hos, hmatches⟩ := hmatches
  rw [getAppFilename_text, hos, Option.map_some, Option.some.injEq] at happ hprevious
  rw [getE2eFilename_text, hos, Option.map_some, Option.some.injEq] at he2e
  subst happ he2e hprevious
  have hcurrent := findApp_appName_iff hpackages hmatches happMem
  have hold := exists_findApp_appName_iff hpackages hmatches hpreviousMem
  simp only [getAppManifest_ok, hold, search_version hsearch]
  constructor
  · intro h
    obtain ⟨hfile, hmarker, hcase⟩ := hcurrent.mp fun sorter => (h sorter).1
    obtain ⟨_, hpreviousFound, capture, hcapture, _⟩ := h (.ofStable _)
    have hpart : version.HasPart := by
      by_contra hnot
      rw [if_neg hnot] at hcapture
      cases hcapture
    rw [if_pos hpart] at h
    obtain ⟨hversionFile, hway⟩ :=
      (findApp_e2eVersion_iff hpackages hmatches hpart he2eMem).mp (by
        intro sorter
        obtain ⟨_, _, _, hcapture, hfound⟩ := h sorter
        cases hcapture
        exact hfound)
    exact ⟨hpart, hmarker, hcase, hpreviousFound, hway, hfile, hversionFile⟩
  · rintro ⟨hpart, hmarker, hcase, hpreviousFound, hway, hfile, hversionFile⟩ sorter
    rw [if_pos hpart]
    exact ⟨hcurrent.mpr ⟨hfile, hmarker, hcase⟩ sorter, hpreviousFound, version.e2eVersion, rfl,
      (findApp_e2eVersion_iff hpackages hmatches hpart he2eMem).mpr ⟨hversionFile, hway⟩ sorter⟩

/-- The version `2023.n`, or its first beta. -/
def version2023 (n : Char) (hn : n.isDigit = true) (beta : Bool) : AppVersion where
  year := ⟨"2023".toList, by decide, List.all_eq_true.mp (by decide)⟩
  year_length := by decide
  number := ⟨[n], by simp, by simpa using hn⟩
  beta := if beta then some ⟨['1'], by decide, List.all_eq_true.mp (by decide)⟩ else none
  dev := none

/-- A working directory with nothing but these packages. -/
def onlyPackages (names : List Text) : FileSystem :=
  ⟨fun path => path ∈ names.map packagePath, some names⟩

theorem onlyPackages_ci {version previous : AppVersion} {os app e2e previousApp : Text}
    (happ : getAppFilename version.text os = some app)
    (he2e : getE2eFilename version.text os = some e2e)
    (hprevious : getAppFilename previous.text os = some previousApp) :
    CiPackages (onlyPackages [app, e2e, previousApp]) [app, e2e, previousApp] where
  listed := rfl
  files := by
    intro name hname
    simpa only [onlyPackages, decide_eq_true_eq] using List.mem_map_of_mem hname
  named := by
    simp only [List.forall_mem_cons]
    exact ⟨⟨version, os, .inl happ⟩, ⟨version, os, .inr he2e⟩, ⟨previous, os, .inl hprevious⟩,
      by simp⟩

/-- A development build of the first beta, with the tag of the beta: the expression of the
script allows no dot in a tag. -/
def taggedVersion : AppVersion :=
  {version2023 '3' rfl true with
    dev := some {
      hash := ⟨"abcdef".toList, by decide, List.all_eq_true.mp (by decide)⟩
      tag := some ⟨"2023.3-beta1".toList, by simp⟩}}

def taggedPackages : List Text :=
  ["MullvadVPN-2023.3-beta1-dev-abcdef+2023.3-beta1_amd64.deb".toList,
    "app-e2e-tests-2023.3-beta1-dev-abcdef+2023.3-beta1-x86_64-unknown-linux-gnu".toList,
    "MullvadVPN-2023.2_amd64.deb".toList]

def releasePackages : List Text :=
  ["MullvadVPN-2023.3_amd64.deb".toList,
    "app-e2e-tests-2023.3-x86_64-unknown-linux-gnu".toList,
    "MullvadVPN-2023.2_amd64.deb".toList]

def debian11 : Text := "debian11".toList

def debianConfig : VmConfig := ⟨.linux, some .deb, some .x64⟩

theorem debianConfig_matches : MatchesOs debian11 debianConfig :=
  ⟨.deb, by decide +kernel, rfl⟩

theorem previous_name :
    getAppFilename (version2023 '2' rfl false).text debian11 =
      some "MullvadVPN-2023.2_amd64.deb".toList := by decide +kernel

theorem tagged_names :
    getAppFilename taggedVersion.text debian11 =
        some "MullvadVPN-2023.3-beta1-dev-abcdef+2023.3-beta1_amd64.deb".toList ∧
      getE2eFilename taggedVersion.text debian11 =
        some ("app-e2e-tests-2023.3-beta1-dev-abcdef+2023.3-beta1" ++
          "-x86_64-unknown-linux-gnu").toList := by decide +kernel

theorem release_names :
    getAppFilename (version2023 '3' rfl false).text debian11 =
        some "MullvadVPN-2023.3_amd64.deb".toList ∧
      getE2eFilename (version2023 '3' rfl false).text debian11 =
        some "app-e2e-tests-2023.3-x86_64-unknown-linux-gnu".toList := by decide +kernel

theorem releasePackages_ci : CiPackages (onlyPackages releasePackages) releasePackages :=
  onlyPackages_ci release_names.1 release_names.2 previous_name

theorem tagged_manifest_found :
    (taggedVersion.HasPart ∧ taggedVersion.isRecognised = false) ∧
      ∀ sorter, ∃ manifest, getAppManifest Regex.find sorter (onlyPackages taggedPackages)
          debianConfig "MullvadVPN-2023.3-beta1-dev-abcdef+2023.3-beta1_amd64.deb".toList
          "MullvadVPN-2023.2_amd64.deb".toList = .ok manifest ∧
        manifest.currentAppPath =
          packagePath "MullvadVPN-2023.3-beta1-dev-abcdef+2023.3-beta1_amd64.deb".toList ∧
        manifest.uiE2eTestsPath =
          packagePath ("app-e2e-tests-2023.3-beta1-dev-abcdef+2023.3-beta1" ++
            "-x86_64-unknown-linux-gnu").toList := by
  refine ⟨by decide, ?_⟩
  apply (manifest_found_iff _ Regex.find_leftmostFirst taggedVersion (version2023 '2' rfl false)
    debian11 _ _ _ debianConfig _ taggedPackages tagged_names.1 tagged_names.2 previous_name
    debianConfig_matches (onlyPackages_ci tagged_names.1 tagged_names.2 previous_name)
    (by decide +kernel) (by decide +kernel) (by decide +kernel)).mpr
  decide +kernel

/-- The version of a release cannot be cut out of the name of its app package. -/
theorem release_not_found :
    getAppFilename (version2023 '3' rfl false).text debian11 =
        some "MullvadVPN-2023.3_amd64.deb".toList ∧
      getE2eFilename (version2023 '3' rfl false).text debian11 =
        some "app-e2e-tests-2023.3-x86_64-unknown-linux-gnu".toList ∧
      CiPackages (onlyPackages releasePackages) releasePackages ∧
      MatchesOs debian11 debianConfig ∧
      ∀ search, Regex.LeftmostFirst search → ¬ ∃ sorter manifest,
        getAppManifest search sorter (onlyPackages releasePackages) debianConfig
          "MullvadVPN-2023.3_amd64.deb".toList "MullvadVPN-2023.2_amd64.deb".toList =
            .ok manifest := by
  refine ⟨release_names.1, release_names.2, releasePackages_ci, debianConfig_matches, ?_⟩
  rintro search hsearch ⟨sorter, manifest, hmanifest⟩
  have hname : Platform.deb.appName (version2023 '3' rfl false) =
      "MullvadVPN-2023.3_amd64.deb".toList := by decide +kernel
  rw [← hname] at hmanifest
  obtain ⟨hcurrent, _, capture, hcapture, _⟩ := getAppManifest_ok.mp ⟨manifest, hmanifest, rfl, rfl⟩
  have hmem : Platform.deb.appName (version2023 '3' rfl false) ∈ releasePackages := by
    decide +kernel
  have hmatches : Platform.deb.Matches debianConfig := rfl
  have hfound := (findApp_appName_iff releasePackages_ci hmatches hmem).mpr (by decide +kernel)
    sorter
  have hpart : ¬ (version2023 '3' rfl false).HasPart := by decide
  rw [Except.ok.inj (hcurrent.symm.trans hfound), search_version hsearch, if_neg hpart] at hcapture
  cases hcapture

end MullvadAppTests.Ci
