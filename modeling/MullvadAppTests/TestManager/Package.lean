import MullvadAppTests.Lib.Regex
import MullvadAppTests.Lib.Selection
import Mathlib.Data.List.DropRight

/-!
`test-manager/src/package.rs`: how the app package and the executable of the UI
tests are looked up. A file is given by its path from the working directory; the
names in `./packages/` are those that are listed before the first error. How
`sort_unstable_by_key` orders paths of equal length is left open, and so is how the
`regex` crate searches.
-/

namespace MullvadAppTests.TestManager

open Lib

inductive OsType where
  | windows
  | linux
  | macos
  deriving DecidableEq, Repr

inductive PackageType where
  | deb
  | rpm
  deriving DecidableEq, Repr

inductive Architecture where
  | x64
  | aarch64
  deriving DecidableEq, Repr

def Architecture.getIdentifiers : Architecture → List Text
  | .x64 => ["x86_64".toList, "amd64".toList]
  | .aarch64 => ["arm64".toList, "aarch64".toList]

structure VmConfig where
  osType : OsType
  packageType : Option PackageType
  architecture : Option Architecture
  deriving DecidableEq, Repr

/-- The tuple that the source calls `package_type`. -/
abbrev Target := OsType × Option PackageType × Option Architecture

abbrev VmConfig.target (config : VmConfig) : Target :=
  (config.osType, config.packageType, config.architecture)

structure Manifest where
  currentAppPath : Text
  previousAppPath : Text
  uiE2eTestsPath : Text
  deriving DecidableEq

inductive PackageError where
  | error (message : Text)
  | panic (message : Text)
  deriving DecidableEq

/-- `packages` is `none` if the directory cannot be listed. -/
structure FileSystem where
  isFile : Text → Bool
  packages : Option (List Text)

/-- The expression `\d{4}\.\d+(-beta\d+)?(-dev)?-([0-9a-z])+`. -/
def versionRegex : Regex :=
  .concat
    [.times Regex.isDecimal 4, .lit ['.'], .many Regex.isDecimal,
      .opt (.concat [.lit "-beta".toList, .many Regex.isDecimal]), .opt (.lit "-dev".toList),
      .lit ['-'], .many Regex.isLowerAlphanumeric]

/-- The path of a directory entry. -/
def packagePath (name : Text) : Text := "./packages/".toList ++ name

/-- `Path::extension`, of a file name. -/
def extension (name : Text) : Option Text :=
  let before := (name.rdropWhile (· ≠ '.')).dropLast
  if name = "..".toList ∨ before = [] then none else some (name.rtakeWhile (· ≠ '.'))

def getExt (packageType : Target) : Except PackageError Text :=
  match packageType.1 with
  | .windows => .ok "exe".toList
  | .macos => .ok "pkg".toList
  | .linux =>
      match packageType.2.1 with
      | none => .error (.panic "must specify package type".toList)
      | some .deb => .ok "deb".toList
      | some .rpm => .ok "rpm".toList

def getOsName (packageType : Target) : Text :=
  match packageType.1 with
  | .windows => "windows".toList
  | .macos => "apple".toList
  | .linux => "linux".toList

def hasExtension (ext name : Text) : Bool :=
  match extension name with
  | none => false
  | some found => Text.makeAsciiLowercase found = Text.makeAsciiLowercase ext

def e2eMarker : Text := "app-e2e-tests".toList

/-- The filters on the path in lower case. The architecture does not count for an
app package that is not for Linux. -/
def isCandidate (app : Text) (e2eBin : Bool) (packageType : Target) (path : Text) : Bool :=
  let u8Path := Text.makeAsciiLowercase path
  if e2eBin ^^ u8Path.contains e2eMarker then false
  else if e2eBin && !u8Path.contains (getOsName packageType) then false
  else if packageType.2.2.any fun arch =>
      (e2eBin || packageType.1 = .linux) && !arch.getIdentifiers.any (Text.contains u8Path) then
    false
  else u8Path.contains app

/-- The body of the loop over the directory, for a file. -/
def accepts (app : Text) (e2eBin : Bool) (packageType : Target) (name : Text) :
    Except PackageError Bool :=
  if e2eBin then .ok (isCandidate app e2eBin packageType (packagePath name))
  else
    match getExt packageType with
    | .error e => .error e
    | .ok ext =>
        .ok (hasExtension ext name && isCandidate app e2eBin packageType (packagePath name))

def findMatches (fs : FileSystem) (app : Text) (e2eBin : Bool) (packageType : Target) :
    List Text → Except PackageError (List Text)
  | [] => .ok []
  | name :: rest =>
      if fs.isFile (packagePath name) then
        match accepts app e2eBin packageType name with
        | .error e => .error e
        | .ok accepted =>
            (findMatches fs app e2eBin packageType rest).map fun found =>
              if accepted then packagePath name :: found else found
      else findMatches fs app e2eBin packageType rest

def notFound (app : Text) (e2eBin : Bool) : Text :=
  if e2eBin then
    "Could not find UI/e2e test for package: ".toList ++ app ++
      ".\nExpecting a binary named like `app-e2e-tests-".toList ++ app ++
      ("_ARCH` to exist in packages/\nExample ARCH: `amd64-unknown-linux-gnu`, " ++
        "`x86_64-unknown-linux-gnu`").toList
  else "Could not find package for app: ".toList ++ app

section

variable (search : Regex → Text → Option Text) (sorter : UnstableSort Text.utf8Len)
  (fs : FileSystem)

def findApp (app : Text) (e2eBin : Bool) (packageType : Target) : Except PackageError Text :=
  if fs.isFile app then .ok app
  else
    let app := Text.makeAsciiLowercase app
    match fs.packages with
    | none => .error (.error "Failed to list packages".toList)
    | some names =>
        match findMatches fs app e2eBin packageType names with
        | .error e => .error e
        | .ok found =>
            match (sorter.sort found).head? with
            | some path => .ok path
            | none => .error (.error (notFound app e2eBin))

def getAppManifest (config : VmConfig) (currentApp previousApp : Text) :
    Except PackageError Manifest := do
  let packageType := config.target
  let currentAppPath ← findApp sorter fs currentApp false packageType
  let previousAppPath ← findApp sorter fs previousApp false packageType
  match search versionRegex currentAppPath with
  | none => .error (.error ("Cannot parse version: ".toList ++ currentAppPath))
  | some capture =>
      let uiE2eTestsPath ← findApp sorter fs capture true packageType
      .ok ⟨currentAppPath, previousAppPath, uiE2eTestsPath⟩

end

/-! ### What is found -/

theorem extension_append {before ext : Text} (hbefore : before ≠ []) (hext : ext ≠ [])
    (hdot : '.' ∉ ext) : extension (before ++ '.' :: ext) = some ext := by
  have hclass : ∀ c ∈ ext.reverse, decide (c ≠ '.') = true := by
    intro c hc
    simp only [decide_eq_true_eq]
    rintro rfl
    exact hdot (List.mem_reverse.mp hc)
  have hreverse : (before ++ '.' :: ext).reverse = ext.reverse ++ '.' :: before.reverse := by simp
  have hbeforeDot : (before ++ '.' :: ext).rdropWhile (· ≠ '.') = before ++ ['.'] := by
    rw [List.rdropWhile, hreverse, List.dropWhile_append_of_pos hclass]
    simp
  have hafterDot : (before ++ '.' :: ext).rtakeWhile (· ≠ '.') = ext := by
    rw [List.rtakeWhile, hreverse, List.takeWhile_append_of_pos hclass]
    simp
  have hdots : before ++ '.' :: ext ≠ "..".toList := by
    intro heq
    have hlength := congrArg List.length heq
    have hpos := List.length_pos_iff.mpr hbefore
    have hextPos := List.length_pos_iff.mpr hext
    simp at hlength
    omega
  simp only [extension, hbeforeDot, hafterDot, List.dropLast_concat, hbefore, hdots, or_false,
    if_false]

theorem isCandidate_iff {app : Text} {e2eBin : Bool} {packageType : Target} {path : Text} :
    isCandidate app e2eBin packageType path = true ↔
      (Text.makeAsciiLowercase path).contains e2eMarker = e2eBin ∧
        (e2eBin = true → getOsName packageType <:+: Text.makeAsciiLowercase path) ∧
        (∀ arch ∈ packageType.2.2, (e2eBin = true ∨ packageType.1 = .linux) →
          ∃ id ∈ arch.getIdentifiers, id <:+: Text.makeAsciiLowercase path) ∧
        app <:+: Text.makeAsciiLowercase path := by
  simp only [isCandidate]
  generalize Text.makeAsciiLowercase path = u8Path
  have hcontains : ∀ {part}, u8Path.contains part = true ↔ part <:+: u8Path := by
    simp [Text.contains]
  have hmarker : (e2eBin ^^ u8Path.contains e2eMarker) = true ↔
      u8Path.contains e2eMarker ≠ e2eBin := by
    cases e2eBin <;> simp
  have hos : (e2eBin && !u8Path.contains (getOsName packageType)) = true ↔
      ¬ (e2eBin = true → getOsName packageType <:+: u8Path) := by
    rw [Bool.and_eq_true, ← hcontains]
    simp
  have harch : (packageType.2.2.any fun arch => (e2eBin || packageType.1 = .linux) &&
        !arch.getIdentifiers.any (Text.contains u8Path)) = true ↔
      ¬ ∀ arch ∈ packageType.2.2, (e2eBin = true ∨ packageType.1 = .linux) →
        ∃ id ∈ arch.getIdentifiers, id <:+: u8Path := by
    cases packageType.2.2 <;> simp [← hcontains]
  split
  · next hskip => exact iff_of_false Bool.false_ne_true fun h => hmarker.mp hskip h.1
  · next hkind =>
    split
    · next hskip => exact iff_of_false Bool.false_ne_true fun h => hos.mp hskip h.2.1
    · next hsameOs =>
      split
      · next hskip => exact iff_of_false Bool.false_ne_true fun h => harch.mp hskip h.2.2.1
      · next hsameArch =>
        rw [hcontains]
        rw [hmarker, not_not] at hkind
        rw [hos, not_not] at hsameOs
        rw [harch, not_not] at hsameArch
        exact ⟨fun h => ⟨hkind, hsameOs, hsameArch, h⟩, fun h => h.2.2.2⟩

/-- The name is one of a file that passes all filters. -/
def PassesFilters (fs : FileSystem) (app : Text) (e2eBin : Bool) (packageType : Target)
    (name : Text) : Prop :=
  fs.isFile (packagePath name) = true ∧
    accepts (Text.makeAsciiLowercase app) e2eBin packageType name = .ok true

theorem packagePath_injective {first second : Text} (h : packagePath first = packagePath second) :
    first = second := List.append_cancel_left h

theorem utf8Len_packagePath_le {first second : Text} :
    Text.utf8Len (packagePath first) ≤ Text.utf8Len (packagePath second) ↔
      Text.utf8Len first ≤ Text.utf8Len second := by
  unfold packagePath
  generalize "./packages/".toList = directory
  simp only [Text.utf8Len_append, Nat.add_le_add_iff_left]

section

variable {fs : FileSystem} {app : Text} {e2eBin : Bool} {packageType : Target}

theorem accepts_total (h : e2eBin = true ∨ ∃ ext, getExt packageType = .ok ext)
    (app name : Text) :
    ∃ accepted, accepts app e2eBin packageType name = .ok accepted := by
  rcases h with rfl | ⟨ext, hext⟩
  · exact ⟨_, rfl⟩
  · rw [accepts]
    split
    · exact ⟨_, rfl⟩
    · rw [hext]
      exact ⟨_, rfl⟩

/-- The loop collects the files that are accepted. -/
theorem findMatches_ok (fs : FileSystem) (app : Text) (names : List Text)
    (htotal : e2eBin = true ∨ ∃ ext, getExt packageType = .ok ext) :
    ∃ found, findMatches fs app e2eBin packageType names = .ok found ∧
      ∀ path, path ∈ found ↔ ∃ name ∈ names, path = packagePath name ∧
        fs.isFile (packagePath name) = true ∧ accepts app e2eBin packageType name = .ok true := by
  induction names with
  | nil => exact ⟨[], rfl, by simp⟩
  | cons name rest ih =>
      obtain ⟨found, hfound, hmem⟩ := ih
      obtain ⟨accepted, haccepted⟩ := accepts_total htotal app name
      rw [findMatches, haccepted, hfound]
      cases hfile : fs.isFile (packagePath name) with
      | false =>
          refine ⟨found, rfl, ?_⟩
          intro path
          simp [hmem, hfile]
      | true =>
          refine ⟨if accepted then packagePath name :: found else found, rfl, ?_⟩
          intro path
          cases accepted <;> simp [hmem, hfile, haccepted]

variable {sorter : UnstableSort Text.utf8Len}

/-- The file that is found has the shortest path of all that pass the filters. -/
theorem findApp_ok {path : Text} (h : findApp sorter fs app e2eBin packageType = .ok path)
    (htotal : e2eBin = true ∨ ∃ ext, getExt packageType = .ok ext) :
    (fs.isFile app = true ∧ path = app) ∨
      fs.isFile app = false ∧ ∃ names name, fs.packages = some names ∧ name ∈ names ∧
        path = packagePath name ∧ PassesFilters fs app e2eBin packageType name ∧
        ∀ other ∈ names, PassesFilters fs app e2eBin packageType other →
          Text.utf8Len name ≤ Text.utf8Len other := by
  rw [findApp] at h
  split at h
  · next hfile =>
    cases h
    exact .inl ⟨hfile, rfl⟩
  · next hfile =>
    refine .inr ⟨by simpa using hfile, ?_⟩
    cases hnames : fs.packages with
    | none =>
        rw [hnames] at h
        cases h
    | some names =>
        obtain ⟨found, hfound, hmem⟩ :=
          findMatches_ok fs (Text.makeAsciiLowercase app) names htotal
        simp only [hnames, hfound] at h
        cases hhead : (sorter.sort found).head? with
        | none =>
            rw [hhead] at h
            cases h
        | some first =>
            rw [hhead] at h
            cases h
            obtain ⟨hfirst, hleast⟩ := sorter.head?_sort hhead
            obtain ⟨name, hname, rfl, hpasses⟩ := (hmem _).mp hfirst
            refine ⟨names, name, rfl, hname, rfl, hpasses, ?_⟩
            intro other hother hotherPasses
            apply utf8Len_packagePath_le.mp
            exact hleast _ ((hmem _).mpr ⟨other, hother, rfl, hotherPasses⟩)

theorem findApp_of_passes (sorter : UnstableSort Text.utf8Len) {names : List Text}
    {name : Text} (hfile : fs.isFile app = false) (hnames : fs.packages = some names)
    (hname : name ∈ names) (htotal : e2eBin = true ∨ ∃ ext, getExt packageType = .ok ext)
    (hpasses : PassesFilters fs app e2eBin packageType name) :
    ∃ path, findApp sorter fs app e2eBin packageType = .ok path := by
  obtain ⟨found, hfound, hmem⟩ := findMatches_ok fs (Text.makeAsciiLowercase app) names htotal
  have hin : packagePath name ∈ found := (hmem _).mpr ⟨name, hname, rfl, hpasses⟩
  simp only [findApp, hfile, hnames, hfound]
  cases hhead : (sorter.sort found).head? with
  | none =>
      rw [sorter.head?_sort_eq_none.mp hhead] at hin
      cases hin
  | some first => exact ⟨first, rfl⟩

/-- The sort can be such that any of the files with the shortest path is found. -/
theorem exists_findApp_eq {names : List Text} {name : Text} (hfile : fs.isFile app = false)
    (hnames : fs.packages = some names) (hname : name ∈ names)
    (htotal : e2eBin = true ∨ ∃ ext, getExt packageType = .ok ext)
    (hpasses : PassesFilters fs app e2eBin packageType name)
    (hleast : ∀ other ∈ names, PassesFilters fs app e2eBin packageType other →
      Text.utf8Len name ≤ Text.utf8Len other) :
    ∃ sorter, findApp sorter fs app e2eBin packageType = .ok (packagePath name) := by
  obtain ⟨found, hfound, hmem⟩ := findMatches_ok fs (Text.makeAsciiLowercase app) names htotal
  have hin : packagePath name ∈ found := (hmem _).mpr ⟨name, hname, rfl, hpasses⟩
  have hhead : ((UnstableSort.preferring Text.utf8Len (packagePath name)).sort found).head? =
      some (packagePath name) := by
    apply UnstableSort.head?_preferring hin
    intro path hpath
    obtain ⟨other, hother, rfl, hotherPasses⟩ := (hmem _).mp hpath
    exact utf8Len_packagePath_le.mpr (hleast other hother hotherPasses)
  refine ⟨.preferring _ (packagePath name), ?_⟩
  simp only [findApp, hfile, hnames, hfound, hhead]
  rfl

/-- A file that passes the filters and whose name is shorter than all others that
do is found. -/
theorem findApp_of_unique {names : List Text} {name : Text} (hfile : fs.isFile app = false)
    (hnames : fs.packages = some names) (hname : name ∈ names)
    (htotal : e2eBin = true ∨ ∃ ext, getExt packageType = .ok ext)
    (hpasses : PassesFilters fs app e2eBin packageType name)
    (hunique : ∀ other ∈ names, PassesFilters fs app e2eBin packageType other →
      Text.utf8Len other ≤ Text.utf8Len name → other = name) :
    findApp sorter fs app e2eBin packageType = .ok (packagePath name) := by
  obtain ⟨path, hpath⟩ := findApp_of_passes sorter hfile hnames hname htotal hpasses
  rcases findApp_ok hpath htotal with ⟨htaken, _⟩ | ⟨_, _, other, hnames', hother, rfl, hfound⟩
  · rw [hfile] at htaken
    cases htaken
  · obtain rfl := Option.some.inj (hnames.symm.trans hnames')
    rw [hpath, hunique other hother hfound.1 (hfound.2 name hname hpasses)]

theorem getAppManifest_ok {search : Regex → Text → Option Text} {config : VmConfig}
    {currentApp previousApp current e2e : Text} :
    (∃ manifest, getAppManifest search sorter fs config currentApp previousApp = .ok manifest ∧
        manifest.currentAppPath = current ∧ manifest.uiE2eTestsPath = e2e) ↔
      findApp sorter fs currentApp false
          config.target = .ok current ∧
        (∃ previous, findApp sorter fs previousApp false
          config.target = .ok previous) ∧
        ∃ capture, search versionRegex current = some capture ∧
          findApp sorter fs capture true
            config.target = .ok e2e := by
  simp only [getAppManifest, bind, Except.bind]
  constructor
  · rintro ⟨manifest, hmanifest, rfl, rfl⟩
    split at hmanifest
    · cases hmanifest
    · next currentAppPath hcurrent =>
      split at hmanifest
      · cases hmanifest
      · next previousAppPath hprevious =>
        split at hmanifest
        · cases hmanifest
        · next capture hcapture =>
          split at hmanifest
          · cases hmanifest
          · next uiE2eTestsPath he2e =>
            cases hmanifest
            exact ⟨hcurrent, ⟨previousAppPath, hprevious⟩, capture, hcapture, he2e⟩
  · rintro ⟨hcurrent, ⟨previous, hprevious⟩, capture, hcapture, he2e⟩
    simp only [hcurrent, hprevious, hcapture, he2e]
    exact ⟨_, rfl, rfl, rfl⟩

end

end MullvadAppTests.TestManager
