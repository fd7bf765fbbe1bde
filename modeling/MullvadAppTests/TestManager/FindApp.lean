import MullvadAppTests.TestManager.Package

/-!
On what the result of `find_app` depends. The order in which `./packages/` is
listed matters only when several files that pass the filters share the shortest
path: then the unstable sort decides which of them is taken.
-/

namespace MullvadAppTests.TestManager

open Lib

/-- The filters of `find_app`, one by one. -/
structure Filtered (isFile : Text → Bool) (app : Text) (e2eBin : Bool) (packageType : Target)
    (name : Text) : Prop where
  file : isFile (packagePath name) = true
  extension : e2eBin = false →
    ∃ ext, getExt packageType = .ok ext ∧ hasExtension ext name = true
  marker : (Text.makeAsciiLowercase (packagePath name)).contains e2eMarker = e2eBin
  osName : e2eBin = true →
    getOsName packageType <:+: Text.makeAsciiLowercase (packagePath name)
  architecture : ∀ arch ∈ packageType.2.2, (e2eBin = true ∨ packageType.1 = .linux) →
    ∃ id ∈ arch.getIdentifiers, id <:+: Text.makeAsciiLowercase (packagePath name)
  app : Text.makeAsciiLowercase app <:+: Text.makeAsciiLowercase (packagePath name)

/-- No file that passes the filters has a shorter path. -/
structure Shortest (isFile : Text → Bool) (app : Text) (e2eBin : Bool) (packageType : Target)
    (names : List Text) (name : Text) : Prop where
  mem : name ∈ names
  filtered : Filtered isFile app e2eBin packageType name
  least : ∀ other ∈ names, Filtered isFile app e2eBin packageType other →
    Text.utf8Len (packagePath name) ≤ Text.utf8Len (packagePath other)

section

variable {isFile : Text → Bool} {app : Text} {e2eBin : Bool} {packageType : Target}
variable {packages : Option (List Text)} {names : List Text}

theorem passesFilters_iff {name : Text} :
    PassesFilters ⟨isFile, packages⟩ app e2eBin packageType name ↔
      Filtered isFile app e2eBin packageType name := by
  unfold PassesFilters accepts
  cases e2eBin with
  | true =>
      rw [if_pos rfl, Except.ok.injEq, isCandidate_iff]
      constructor
      · rintro ⟨hfile, hmarker, hos, harch, happ⟩
        exact ⟨hfile, by simp, hmarker, hos, harch, happ⟩
      · rintro ⟨hfile, _, hmarker, hos, harch, happ⟩
        exact ⟨hfile, hmarker, hos, harch, happ⟩
  | false =>
      simp only [Bool.false_eq_true, if_false]
      cases hext : getExt packageType with
      | error e =>
          refine iff_of_false (by simp) ?_
          intro h
          obtain ⟨ext, hok, _⟩ := h.extension rfl
          rw [hext] at hok
          cases hok
      | ok ext =>
          simp only [Except.ok.injEq, Bool.and_eq_true, isCandidate_iff]
          constructor
          · rintro ⟨hfile, hsame, hmarker, hos, harch, happ⟩
            exact ⟨hfile, fun _ => ⟨ext, hext, hsame⟩, hmarker, hos, harch, happ⟩
          · rintro ⟨hfile, hsame, hmarker, hos, harch, happ⟩
            obtain ⟨found, hok, hsame⟩ := hsame rfl
            obtain rfl := Except.ok.inj (hext.symm.trans hok)
            exact ⟨hfile, hsame, hmarker, hos, harch, happ⟩

/-- Without a package type the search for a Linux package panics at the first
file, wherever it is listed. -/
theorem findMatches_panics {e : PackageError} (hext : getExt packageType = .error e)
    (fs : FileSystem) (app : Text) (names : List Text) :
    findMatches fs app false packageType names =
      if names.any (fun name => fs.isFile (packagePath name)) then .error e else .ok [] := by
  induction names with
  | nil => rfl
  | cons name rest ih =>
      cases hfile : fs.isFile (packagePath name) with
      | true => simp [findMatches, accepts, hfile, hext]
      | false => simp [findMatches, hfile, ih]

theorem findApp_panics {e : PackageError} (hext : getExt packageType = .error e)
    (sorter : UnstableSort Text.utf8Len) (hfile : isFile app = false) :
    findApp sorter ⟨isFile, some names⟩ app false packageType =
      if names.any (fun name => isFile (packagePath name)) then .error e
      else .error (.error (notFound (Text.makeAsciiLowercase app) false)) := by
  simp only [findApp, hfile, findMatches_panics hext]
  cases names.any (fun name => isFile (packagePath name)) with
  | true => rfl
  | false => simp [sorter.head?_sort_eq_none.mpr rfl]

theorem findApp_of_none (sorter : UnstableSort Text.utf8Len) (hfile : isFile app = false)
    (htotal : e2eBin = true ∨ ∃ ext, getExt packageType = .ok ext)
    (hnone : ∀ name ∈ names, ¬Filtered isFile app e2eBin packageType name) :
    findApp sorter ⟨isFile, some names⟩ app e2eBin packageType =
      .error (.error (notFound (Text.makeAsciiLowercase app) e2eBin)) := by
  obtain ⟨found, hfound, hmem⟩ :=
    findMatches_ok ⟨isFile, some names⟩ (Text.makeAsciiLowercase app) names htotal
  have hempty : found = [] := by
    apply List.eq_nil_iff_forall_not_mem.mpr
    intro path hpath
    obtain ⟨name, hname, _, hpasses⟩ := (hmem path).mp hpath
    exact hnone name hname (passesFilters_iff.mp hpasses)
  simp only [findApp, hfile, hfound, sorter.head?_sort_eq_none.mpr hempty]
  rfl

/-- What is found in the directory passes the filters and has the shortest path. -/
theorem shortest_of_findApp {sorter : UnstableSort Text.utf8Len} {path : Text}
    (hpath : findApp sorter ⟨isFile, some names⟩ app e2eBin packageType = .ok path)
    (hfile : isFile app = false)
    (htotal : e2eBin = true ∨ ∃ ext, getExt packageType = .ok ext) :
    ∃ name, path = packagePath name ∧ Shortest isFile app e2eBin packageType names name := by
  obtain ⟨htaken, _⟩ | ⟨_, listed, name, hlisted, hname, rfl, hpasses, hleast⟩ :=
    findApp_ok hpath htotal
  · rw [show isFile app = true from htaken] at hfile
    cases hfile
  · obtain rfl := Option.some.inj hlisted
    refine ⟨name, rfl, hname, passesFilters_iff.mp hpasses, ?_⟩
    intro other hother hfiltered
    exact utf8Len_packagePath_le.mpr (hleast other hother (passesFilters_iff.mpr hfiltered))

theorem findApp_of_some (sorter : UnstableSort Text.utf8Len) (hfile : isFile app = false)
    (htotal : e2eBin = true ∨ ∃ ext, getExt packageType = .ok ext) {name : Text}
    (hname : name ∈ names) (hfiltered : Filtered isFile app e2eBin packageType name) :
    ∃ found, Shortest isFile app e2eBin packageType names found ∧
      findApp sorter ⟨isFile, some names⟩ app e2eBin packageType = .ok (packagePath found) := by
  obtain ⟨path, hpath⟩ : ∃ path,
      findApp sorter ⟨isFile, some names⟩ app e2eBin packageType = .ok path :=
    findApp_of_passes sorter hfile rfl hname htotal (passesFilters_iff.mpr hfiltered)
  obtain ⟨found, rfl, hshortest⟩ := shortest_of_findApp hpath hfile htotal
  exact ⟨found, hshortest, hpath⟩

theorem Shortest.perm {listed : List Text} {name : Text}
    (h : Shortest isFile app e2eBin packageType listed name) (hperm : listed.Perm names) :
    Shortest isFile app e2eBin packageType names name where
  mem := hperm.mem_iff.mp h.mem
  filtered := h.filtered
  least := fun other hother => h.least other (hperm.mem_iff.mpr hother)

end

/-- The result is the same for all orders of the directory, however the sort
orders paths of equal length. -/
def OrderIndependent (isFile : Text → Bool) (names : List Text) (app : Text) (e2eBin : Bool)
    (packageType : Target) : Prop :=
  ∀ first second, first.Perm names → second.Perm names →
    ∀ sorter₁ sorter₂, findApp sorter₁ ⟨isFile, some first⟩ app e2eBin packageType =
      findApp sorter₂ ⟨isFile, some second⟩ app e2eBin packageType

section

variable {isFile : Text → Bool} {names : List Text} {app : Text} {e2eBin : Bool}
variable {packageType : Target}

theorem orderIndependent_of_panics {e : PackageError} (hext : getExt packageType = .error e)
    (hfile : isFile app = false) : OrderIndependent isFile names app false packageType := by
  intro first second hfirst hsecond sorter₁ sorter₂
  have hany : first.any (fun name => isFile (packagePath name)) =
      second.any (fun name => isFile (packagePath name)) := by
    rw [Bool.eq_iff_iff, List.any_eq_true, List.any_eq_true]
    simp only [hfirst.mem_iff, hsecond.mem_iff]
  rw [findApp_panics hext sorter₁ hfile, findApp_panics hext sorter₂ hfile, hany]

theorem orderIndependent_of_unique
    (htotal : e2eBin = true ∨ ∃ ext, getExt packageType = .ok ext) (hfile : isFile app = false)
    (hunique : ∀ name other, Shortest isFile app e2eBin packageType names name →
      Shortest isFile app e2eBin packageType names other → name = other) :
    OrderIndependent isFile names app e2eBin packageType := by
  intro first second hfirst hsecond sorter₁ sorter₂
  by_cases hsome : ∃ name ∈ names, Filtered isFile app e2eBin packageType name
  · obtain ⟨name, hname, hfiltered⟩ := hsome
    obtain ⟨found₁, hshortest₁, hfound₁⟩ :=
      findApp_of_some sorter₁ hfile htotal (hfirst.mem_iff.mpr hname) hfiltered
    obtain ⟨found₂, hshortest₂, hfound₂⟩ :=
      findApp_of_some sorter₂ hfile htotal (hsecond.mem_iff.mpr hname) hfiltered
    rw [hfound₁, hfound₂,
      hunique found₁ found₂ (hshortest₁.perm hfirst) (hshortest₂.perm hsecond)]
  · have hnone : ∀ name ∈ names, ¬Filtered isFile app e2eBin packageType name :=
      fun name hname hfiltered => hsome ⟨name, hname, hfiltered⟩
    rw [findApp_of_none sorter₁ hfile htotal (fun name hname =>
        hnone name (hfirst.mem_iff.mp hname)),
      findApp_of_none sorter₂ hfile htotal (fun name hname =>
        hnone name (hsecond.mem_iff.mp hname))]

/-- Of two files with the shortest path either can be found. -/
theorem not_orderIndependent_of_tie (hfile : isFile app = false) {name other : Text}
    (hname : Shortest isFile app e2eBin packageType names name)
    (hother : Shortest isFile app e2eBin packageType names other) (hne : name ≠ other) :
    ¬OrderIndependent isFile names app e2eBin packageType := by
  have htotal : e2eBin = true ∨ ∃ ext, getExt packageType = .ok ext := by
    cases e2eBin with
    | true => exact .inl rfl
    | false =>
        obtain ⟨ext, hext, _⟩ := hname.filtered.extension rfl
        exact .inr ⟨ext, hext⟩
  have hfound : ∀ {found}, Shortest isFile app e2eBin packageType names found →
      ∃ sorter, findApp sorter ⟨isFile, some names⟩ app e2eBin packageType =
        .ok (packagePath found) := by
    intro found hshortest
    refine exists_findApp_eq hfile rfl hshortest.mem htotal
      (passesFilters_iff.mpr hshortest.filtered) ?_
    intro rival hrival hpasses
    exact utf8Len_packagePath_le.mp
      (hshortest.least rival hrival (passesFilters_iff.mp hpasses))
  obtain ⟨sorter₁, hfound₁⟩ := hfound hname
  obtain ⟨sorter₂, hfound₂⟩ := hfound hother
  intro hsame
  have heq := hsame names names (.refl _) (.refl _) sorter₁ sorter₂
  rw [hfound₁, hfound₂] at heq
  exact hne (packagePath_injective (Except.ok.inj heq))

end

/-- `find_app` does not depend on the order of the directory exactly when the path
is given or no two files tie for the shortest path; and what it finds in the
directory passes all filters and has the shortest path. -/
theorem find_app_order (isFile : Text → Bool) (names : List Text) (app : Text) (e2eBin : Bool)
    (packageType : Target) :
    (OrderIndependent isFile names app e2eBin packageType ↔
      isFile app = true ∨ ∀ name other, Shortest isFile app e2eBin packageType names name →
        Shortest isFile app e2eBin packageType names other → name = other) ∧
    ∀ listed sorter path, listed.Perm names →
      findApp sorter ⟨isFile, some listed⟩ app e2eBin packageType = .ok path →
        isFile app = false →
          ∃ name, path = packagePath name ∧
            Shortest isFile app e2eBin packageType names name := by
  have htotal : (e2eBin = true ∨ ∃ ext, getExt packageType = .ok ext) ∨
      ∃ e, e2eBin = false ∧ getExt packageType = .error e := by
    cases e2eBin with
    | true => exact .inl (.inl rfl)
    | false =>
        cases getExt packageType with
        | ok ext => exact .inl (.inr ⟨ext, rfl⟩)
        | error e => exact .inr ⟨e, rfl, rfl⟩
  constructor
  · constructor
    · intro hsame
      cases hfile : isFile app with
      | true => exact .inl rfl
      | false =>
          refine .inr fun name other hname hother => ?_
          by_contra hne
          exact not_orderIndependent_of_tie hfile hname hother hne hsame
    · intro hcond
      cases hfile : isFile app with
      | true =>
          intro first second _ _ sorter₁ sorter₂
          simp [findApp, hfile]
      | false =>
          have hunique := hcond.resolve_left (by simp [hfile])
          obtain htotal | ⟨e, rfl, hext⟩ := htotal
          · exact orderIndependent_of_unique htotal hfile hunique
          · exact orderIndependent_of_panics hext hfile
  · intro listed sorter path hperm hpath hfile
    obtain htotal | ⟨e, rfl, hext⟩ := htotal
    · obtain ⟨name, hname, hshortest⟩ := shortest_of_findApp hpath hfile htotal
      exact ⟨name, hname, hshortest.perm hperm⟩
    · rw [findApp_panics hext sorter hfile] at hpath
      split at hpath <;> cases hpath

/-- Two Debian packages of one version; the architecture is not configured. -/
def twoPackages : List Text :=
  ["MullvadVPN-2023.3_amd64.deb".toList, "MullvadVPN-2023.3_arm64.deb".toList]

/-- With a stable sort, as it is used for a few elements, the file that is listed
first is found. -/
theorem twoPackages_order :
    findApp (.ofStable _) ⟨(· ≠ "2023.3".toList), some twoPackages⟩ "2023.3".toList false
        (.linux, some .deb, none) =
      .ok "./packages/MullvadVPN-2023.3_amd64.deb".toList ∧
    findApp (.ofStable _) ⟨(· ≠ "2023.3".toList), some twoPackages.reverse⟩ "2023.3".toList false
        (.linux, some .deb, none) =
      .ok "./packages/MullvadVPN-2023.3_arm64.deb".toList ∧
    ¬OrderIndependent (· ≠ "2023.3".toList) twoPackages "2023.3".toList false
      (.linux, some .deb, none) := by
  have hfirst : findApp (.ofStable _) ⟨(· ≠ "2023.3".toList), some twoPackages⟩ "2023.3".toList
      false (.linux, some .deb, none) =
        .ok "./packages/MullvadVPN-2023.3_amd64.deb".toList := by
    decide +kernel
  have hsecond : findApp (.ofStable _) ⟨(· ≠ "2023.3".toList), some twoPackages.reverse⟩
      "2023.3".toList false (.linux, some .deb, none) =
        .ok "./packages/MullvadVPN-2023.3_arm64.deb".toList := by
    decide +kernel
  refine ⟨hfirst, hsecond, ?_⟩
  intro hsame
  have heq := hsame twoPackages twoPackages.reverse (.refl _) (List.reverse_perm _)
    (.ofStable _) (.ofStable _)
  rw [hfirst, hsecond] at heq
  exact absurd heq (by decide +kernel)

end MullvadAppTests.TestManager
