import MullvadAppTests.Ci.PackageNames
import MullvadAppTests.TestManager.Package

/-!
What the test manager reads in the names that the script gives: the version that is
cut out of the name of an app package, and where that version occurs in the names
of the files for the UI tests.
-/

namespace MullvadAppTests.Ci

open Lib TestManager

/-! ### The version in the name of an app package -/

/-- Only a version with one of these parts has a `-` after its numbers. -/
def AppVersion.HasPart (version : AppVersion) : Prop :=
  version.beta.isSome = true ∨ version.dev.isSome = true

instance (version : AppVersion) : Decidable version.HasPart := by
  unfold AppVersion.HasPart
  infer_instance

def restRegex : Regex :=
  .concat [.opt (.lit "-dev".toList), .lit ['-'], .many Regex.isLowerAlphanumeric]

theorem takes_release (version : AppVersion) {parts : List Regex} {middle part rest : Text}
    (hmiddle : ∀ c ∈ middle.head?, Regex.isDecimal c = false)
    (h : (Regex.concat parts).Takes middle part rest) :
    (Regex.concat (.times Regex.isDecimal 4 :: .lit ['.'] :: .many Regex.isDecimal :: parts)).Takes
      (version.release ++ middle) (version.release ++ part) rest := by
  have hdecimal : ∀ word : Word Char.isDigit, ∀ c ∈ word.text, Regex.isDecimal c = true :=
    fun word c hc => Regex.isDecimal_of_isDigit (word.inClass c hc)
  have hyear : (Regex.times Regex.isDecimal 4).Takes
      (version.year.text ++ (['.'] ++ (version.number.text ++ middle))) version.year.text
      (['.'] ++ (version.number.text ++ middle)) := by
    rw [← version.year_length]
    exact Regex.takes_times (hdecimal version.year) _
  have hnumber := Regex.takes_many version.number.nonempty (hdecimal version.number) hmiddle
  have hall := hyear.concat ((Regex.takes_lit ['.'] _).concat (hnumber.concat h))
  simpa [AppVersion.release] using hall

theorem takes_devPart {hash rest : Text} (hne : hash ≠ [])
    (hclass : ∀ c ∈ hash, Regex.isLowerAlphanumeric c = true)
    (hrest : ∀ c ∈ rest.head?, Regex.isLowerAlphanumeric c = false) :
    restRegex.Takes ("-dev-".toList ++ (hash ++ rest)) ("-dev-".toList ++ hash) rest := by
  have hall := (Regex.takes_lit "-dev".toList (['-'] ++ (hash ++ rest))).opt.concat
    ((Regex.takes_lit ['-'] (hash ++ rest)).concat
      ((Regex.takes_many hne hclass hrest).concat (Regex.takes_concat_nil rest)))
  rw [List.append_nil] at hall
  exact hall

/-- Without `-dev`, the text after the next `-` is taken for the hash. -/
theorem takes_betaPart (number : Word Char.isDigit) {rest : Text}
    (hrest : ∀ c ∈ rest.head?, Regex.isLowerAlphanumeric c = false) :
    restRegex.Takes ("-beta".toList ++ (number.text ++ rest)) ("-beta".toList ++ number.text)
      rest := by
  have hclass : ∀ c ∈ "beta".toList ++ number.text, Regex.isLowerAlphanumeric c = true := by
    intro c hc
    have hletters : ∀ c ∈ "beta".toList, Regex.isLowerAlphanumeric c = true :=
      List.all_eq_true.mp (by decide)
    rcases List.mem_append.mp hc with hbeta | hnumber
    · exact hletters c hbeta
    · simp [Regex.isLowerAlphanumeric, number.inClass c hnumber]
  have hall := (Regex.takes_lit ['-'] ("beta".toList ++ number.text ++ rest)).concat
    ((Regex.takes_many (by simp) hclass hrest).concat (Regex.takes_concat_nil rest))
  rw [List.append_nil] at hall
  refine .without ?_ hall
  intro split hsplit
  have hnot : ¬ "-dev".toList <+: "-beta".toList ++ (number.text ++ rest) := by
    rintro ⟨_, heq⟩
    cases heq
  rw [Regex.splits, if_neg hnot] at hsplit
  cases hsplit

/-- The expression takes a version up to its hash, or up to the number of its beta. -/
theorem takes_version {version : AppVersion} (hpart : version.HasPart) {rest : Text}
    (hrest : ∀ c ∈ rest.head?, Regex.isLowerAlphanumeric c = false)
    (hdash : version.dev = none → '-' ∉ rest) :
    versionRegex.Takes (version.e2eVersion ++ rest) version.e2eVersion rest := by
  simp only [AppVersion.e2eVersion, List.append_assoc]
  cases hdev : version.dev with
  | some build =>
      have hrestRegex := takes_devPart (commit_ne_nil build) (fun c hc => mem_commit hc) hrest
      simp only [AppVersion.devPart, hdev, List.append_assoc]
      cases hbeta : version.beta with
      | none =>
          simp only [AppVersion.betaPart, hbeta, List.nil_append]
          apply takes_release version (Regex.head?_cons_class rfl _)
          exact .without_lit (beta_not_isPrefix_dev _) hrestRegex
      | some number =>
          have hclass : ∀ c ∈ number.text, Regex.isDecimal c = true :=
            fun c hc => Regex.isDecimal_of_isDigit (number.inClass c hc)
          simp only [AppVersion.betaPart, hbeta, List.append_assoc]
          apply takes_release version (Regex.head?_cons_class rfl _)
          rw [← List.append_assoc "-beta".toList number.text ("-dev-".toList ++ _)]
          exact (takes_beta number hclass rfl _).opt.concat hrestRegex
  | none =>
      obtain ⟨number, hbeta⟩ : ∃ number, version.beta = some number := by
        simpa [AppVersion.HasPart, hdev, Option.isSome_iff_exists] using hpart
      simp only [AppVersion.devPart, hdev, AppVersion.betaPart, hbeta, List.append_nil,
        List.append_assoc, List.nil_append]
      apply takes_release version (Regex.head?_cons_class rfl _)
      apply Regex.Takes.without ?_ (takes_betaPart number hrest)
      -- behind `-betaM` there is no `-` left
      rintro ⟨part, after⟩ hsplit
      obtain ⟨beta, middle, more, _, hlit, hmany, heq⟩ := Regex.mem_splits_seq.mp hsplit
      cases heq
      obtain ⟨rfl, hmiddle⟩ := Regex.mem_splits_lit hlit
      have hmiddle : middle = number.text ++ rest := (List.append_cancel_left hmiddle).symm
      have hafter : after <:+ number.text ++ rest := by
        rw [← hmiddle, ← Regex.splits_append hmany]
        exact List.suffix_append more after
      apply Regex.splits_concat_eq_nil (t := ['-']) (by simp)
      intro hinside
      have hmem : '-' ∈ number.text ++ rest := hafter.subset (hinside.subset (by simp))
      rcases List.mem_append.mp hmem with hnumber | hrest
      · exact number.not_mem rfl hnumber
      · exact hdash hdev hrest

theorem tagPart_of_release {version : AppVersion} (hdev : version.dev = none) :
    version.tagPart = [] := by
  simp [AppVersion.tagPart, hdev]

theorem packagePath_appName (platform : Platform) (version : AppVersion) :
    packagePath (platform.appName version) =
      "./packages/MullvadVPN-".toList ++
        (version.e2eVersion ++ (version.tagPart ++ platform.appSuffix)) := by
  have hdirectory : "./packages/".toList ++ "MullvadVPN-".toList =
      "./packages/MullvadVPN-".toList := by decide
  rw [← hdirectory]
  unfold packagePath Platform.appName AppVersion.appVersion
  generalize "./packages/".toList = directory
  generalize "MullvadVPN-".toList = app
  simp only [List.append_assoc]

/-- No version starts in the directory or in the first word of the name. -/
theorem splits_before_version {c : Char} (hc : c ∈ "./packages/MullvadVPN-".toList)
    (input : Text) : versionRegex.splits (c :: input) = [] := by
  have hnone : ("./packages/MullvadVPN-".toList.all fun c => !Regex.isDecimal c) = true := by
    decide
  have hdecimal : Regex.isDecimal c = false := by simpa using List.all_eq_true.mp hnone c hc
  apply Regex.splits_seq_eq_nil
  intro split hsplit
  simp [Regex.times, Regex.splits, hdecimal] at hsplit

section

variable {search : Regex → Text → Option Text} (hsearch : Regex.LeftmostFirst search)
include hsearch

/-- Cutting the version out of the name of an app package gives the version without
its tag, if it gives one. -/
theorem search_version (platform : Platform) (version : AppVersion) :
    search versionRegex (packagePath (platform.appName version)) =
      if version.HasPart then some version.e2eVersion else none := by
  have hdash : '-' ∉ platform.appSuffix := by
    cases platform <;> decide
  rw [packagePath_appName]
  split
  · next hpart =>
    apply hsearch.behind (fun c hc => splits_before_version hc)
    apply takes_version hpart
    · intro c hc
      rw [AppVersion.tagPart] at hc
      split at hc
      · cases platform <;> cases hc <;> rfl
      · cases hc
        rfl
    · intro hdev
      rwa [tagPart_of_release hdev, List.nil_append]
  · next hpart =>
    obtain ⟨hbeta, hdev⟩ : version.beta = none ∧ version.dev = none := by
      simpa [AppVersion.HasPart] using hpart
    apply hsearch.nowhere (fun c hc => splits_before_version hc)
    intro rest hrest
    apply Regex.splits_concat_eq_nil (t := ['-']) (by simp)
    intro hinside
    have hmem := hrest.subset (hinside.subset (List.mem_singleton_self '-'))
    have hdigits : ∀ word : Word Char.isDigit, '-' ∉ word.text := fun word => word.not_mem rfl
    simp [AppVersion.e2eVersion, AppVersion.release, AppVersion.betaPart, AppVersion.devPart,
      tagPart_of_release hdev, hbeta, hdev, hdigits, hdash] at hmem

end

/-! ### The version in the names for the UI tests -/

/-- All that follows the numbers of a version. -/
def AppVersion.tail (version : AppVersion) : Text := version.betaPart ++ version.devPart

theorem e2eVersion_eq (version : AppVersion) :
    version.e2eVersion =
      version.year.text ++ '.' :: (version.number.text ++ version.tail) := by
  simp [AppVersion.e2eVersion, AppVersion.release, AppVersion.tail]

theorem dash_not_mem_commit (build : DevBuild) : '-' ∉ build.commit := by
  intro hmem
  exact absurd (mem_commit hmem) (by decide)

theorem devPart_cons (version : AppVersion) {suffix : Text} (hsuffix : suffix.head? = some '-') :
    ∃ after, version.devPart ++ suffix = '-' :: after := by
  rw [AppVersion.devPart]
  cases version.dev with
  | none =>
      obtain ⟨after, hafter⟩ := List.head?_eq_some_iff.mp hsuffix
      exact ⟨after, hafter⟩
  | some build => exact ⟨_, rfl⟩

/-- What follows the version in a name for the UI tests is not taken for a part of
the version. -/
structure EndsVersion (suffix : Text) : Prop where
  dash : suffix.head? = some '-'
  beta : ¬ ['-', 'b'] <+: suffix
  dev : ¬ ['-', 'd'] <+: suffix

theorem devPart_isPrefix {version other : AppVersion} (hdev : version.dev.isSome = true)
    {suffix : Text} (hsuffix : EndsVersion suffix)
    (h : version.devPart <+: other.devPart ++ suffix) : version.devPart <+: other.devPart := by
  obtain ⟨build, hbuild⟩ := Option.isSome_iff_exists.mp hdev
  obtain ⟨after, hafter⟩ := List.head?_eq_some_iff.mp hsuffix.dash
  simp only [AppVersion.devPart, hbuild] at h ⊢
  cases hother : other.dev with
  | none =>
      rw [hother] at h
      have hdev : ['-', 'd'] <+: "-dev-".toList ++ build.commit := ⟨_, rfl⟩
      exact absurd (hdev.trans h) hsuffix.dev
  | some otherBuild =>
      rw [hother, List.append_assoc, List.prefix_append_right_inj, hafter] at h
      rw [List.prefix_append_right_inj]
      exact Text.isPrefix_of_not_mem (dash_not_mem_commit build) h

/-- A version with `-beta` starts only versions with the same number, or whose number
starts with its own. -/
theorem betaPart_isPrefix {version other : AppVersion} {number : Word Char.isDigit}
    (hbeta : version.beta = some number) {suffix : Text} (hsuffix : EndsVersion suffix)
    (h : version.tail <+: other.tail ++ suffix) : version.tail <+: other.tail := by
  obtain ⟨after, hafter⟩ := devPart_cons other hsuffix.dash
  have hdash : '-' ∉ number.text := number.not_mem rfl
  simp only [AppVersion.tail, AppVersion.betaPart, hbeta, List.append_assoc] at h ⊢
  cases hother : other.beta with
  | none =>
      -- `-beta` against `-dev` or the suffix
      simp only [hother, List.nil_append] at h
      have hstart : ['-', 'b'] <+: "-beta".toList ++ (number.text ++ version.devPart) := ⟨_, rfl⟩
      cases hotherDev : other.dev with
      | none =>
          simp only [AppVersion.devPart, hotherDev, List.nil_append] at h
          exact absurd (hstart.trans h) hsuffix.beta
      | some build =>
          obtain ⟨_, heq⟩ := h
          simp only [AppVersion.devPart, hotherDev] at heq
          cases heq
  | some otherNumber =>
      have hotherDash : '-' ∉ otherNumber.text := otherNumber.not_mem rfl
      simp only [hother, List.append_assoc, List.prefix_append_right_inj] at h ⊢
      rw [hafter] at h
      cases hdev : version.dev with
      | none =>
          have hnone : version.devPart = [] := by simp [AppVersion.devPart, hdev]
          rw [hnone, List.append_nil] at h ⊢
          exact (Text.isPrefix_of_not_mem hdash h).trans (List.prefix_append _ _)
      | some build =>
          obtain ⟨before, hbefore⟩ : ∃ before, version.devPart = '-' :: before := by
            simp only [AppVersion.devPart, hdev]
            exact ⟨_, rfl⟩
          rw [hbefore, Text.append_cons_isPrefix hdash hotherDash] at h
          have hdevPart : version.devPart <+: other.devPart ++ suffix := by
            rw [hbefore, hafter]
            exact List.cons_prefix_cons.mpr ⟨rfl, h.2⟩
          rw [h.1, List.prefix_append_right_inj]
          exact devPart_isPrefix (by simp [hdev]) hsuffix hdevPart

theorem tail_isPrefix {version other : AppVersion} (hpart : version.HasPart) {suffix : Text}
    (hsuffix : EndsVersion suffix) (h : version.tail <+: other.tail ++ suffix) :
    version.tail <+: other.tail := by
  cases hbeta : version.beta with
  | some number => exact betaPart_isPrefix hbeta hsuffix h
  | none =>
      have hdev : version.dev.isSome = true := by simpa [AppVersion.HasPart, hbeta] using hpart
      simp only [AppVersion.tail, AppVersion.betaPart, hbeta, List.nil_append] at h ⊢
      cases hother : other.beta with
      | none =>
          simp only [hother, List.nil_append] at h ⊢
          exact devPart_isPrefix hdev hsuffix h
      | some otherNumber =>
          -- `-dev` against `-beta`
          obtain ⟨build, hbuild⟩ := Option.isSome_iff_exists.mp hdev
          obtain ⟨_, heq⟩ := h
          simp only [AppVersion.devPart, hbuild, hother] at heq
          cases heq

theorem dot_not_mem_tail (version : AppVersion) : '.' ∉ version.tail := by
  have hdigits : ∀ word : Word Char.isDigit, '.' ∉ word.text := fun word => word.not_mem rfl
  have hhash : ∀ build : DevBuild, '.' ∉ build.commit := by
    intro build hmem
    exact absurd (mem_commit hmem) (by decide)
  rw [AppVersion.tail, AppVersion.betaPart, AppVersion.devPart]
  cases version.beta <;> cases version.dev <;> simp [hdigits, hhash]

theorem e2eSuffix_endsVersion (platform : Platform) : EndsVersion platform.e2eSuffix := by
  cases platform <;> constructor <;> decide

/-- A dot in the suffix is one before `exe`. -/
theorem e2eSuffix_dot {platform : Platform} {before after : Text}
    (h : platform.e2eSuffix = before ++ '.' :: after) : after = "exe".toList := by
  have hnone : ∀ {suffix : Text}, '.' ∉ suffix → suffix = before ++ '.' :: after →
      after = "exe".toList := by
    rintro _ hnot rfl
    simp at hnot
  cases platform with
  | deb | rpm | macos => exact hnone (by decide) h
  | windows =>
      have hsplit : "-x86_64-pc-windows-msvc".toList ++ '.' :: "exe".toList =
          before ++ '.' :: after := h
      exact ((List.append_cons_inj_of_notMem (by decide) (by decide)).mp hsplit).2.2.symm

theorem packagePath_e2eName (platform : Platform) (version : AppVersion) :
    packagePath (platform.e2eName version) =
      "./packages/app-e2e-tests-".toList ++
        (version.e2eVersion ++ (version.keptTag ++ platform.e2eSuffix)) := by
  have hdirectory : "./packages/".toList ++ "app-e2e-tests-".toList =
      "./packages/app-e2e-tests-".toList := by decide
  rw [← hdirectory]
  unfold packagePath Platform.e2eName
  generalize "./packages/".toList = directory
  generalize "app-e2e-tests-".toList = name
  simp only [List.append_assoc]

theorem tail_cons {version : AppVersion} (hpart : version.HasPart) :
    ∃ after, version.tail = '-' :: after := by
  rw [AppVersion.tail, AppVersion.betaPart]
  cases hbeta : version.beta with
  | some number => exact ⟨_, rfl⟩
  | none =>
      obtain ⟨build, hdev⟩ : ∃ build, version.dev = some build := by
        simpa [AppVersion.HasPart, hbeta, Option.isSome_iff_exists] using hpart
      simp only [AppVersion.devPart, hdev]
      exact ⟨_, rfl⟩

theorem tail_append_cons (version : AppVersion) {suffix : Text}
    (hsuffix : suffix.head? = some '-') : ∃ after, version.tail ++ suffix = '-' :: after := by
  rw [AppVersion.tail, List.append_assoc, AppVersion.betaPart]
  cases version.beta with
  | none => exact devPart_cons version hsuffix
  | some number => exact ⟨_, rfl⟩

/-- Behind the dot of a version there is no dot that a digit follows. -/
theorem no_dot_digit {version : AppVersion} {platform : Platform} (number : Word Char.isDigit)
    {before after : Text} (h : version.number.text ++ (version.tail ++ platform.e2eSuffix) =
      before ++ '.' :: (number.text ++ after)) : False := by
  have hnot : '.' ∉ version.number.text ++ version.tail := by
    simp only [List.mem_append, not_or]
    exact ⟨version.number.not_mem rfl, dot_not_mem_tail version⟩
  have hsuffix : ∀ {before}, platform.e2eSuffix ≠ before ++ '.' :: (number.text ++ after) := by
    intro before heq
    have hexe := e2eSuffix_dot heq
    obtain ⟨d, digits, hdigits⟩ := List.exists_cons_of_ne_nil number.nonempty
    have hd : d.isDigit = true := number.inClass d (by simp [hdigits])
    rw [hdigits] at hexe
    obtain ⟨rfl, _⟩ := List.cons_eq_cons.mp hexe
    cases hd
  rw [← List.append_assoc] at h
  rcases List.append_eq_append_iff.mp h with ⟨middle, _, hmiddle⟩ | ⟨middle, hmiddle, hrest⟩
  · exact hsuffix hmiddle
  · cases middle with
    | nil => exact @hsuffix [] hrest.symm
    | cons d middle =>
        obtain ⟨rfl, _⟩ := List.cons_eq_cons.mp hrest
        rw [hmiddle] at hnot
        simp at hnot

/-- The numbers of a version are found only where the version stands in a name that
has no tag, so the version in the name starts with it. -/
theorem e2eVersion_isPrefix {version other : AppVersion} (hpart : version.HasPart)
    (htag : other.keptTag = []) {platform : Platform}
    (h : version.e2eVersion <:+: packagePath (platform.e2eName other)) :
    version.e2eVersion <+: other.e2eVersion := by
  obtain ⟨left, right, heq⟩ := h
  have hsplit : (left ++ version.year.text) ++
        '.' :: (version.number.text ++ (version.tail ++ right)) =
      ("./packages/app-e2e-tests-".toList ++ other.year.text) ++
        '.' :: (other.number.text ++ (other.tail ++ platform.e2eSuffix)) := by
    rw [packagePath_e2eName, htag, List.nil_append, e2eVersion_eq, e2eVersion_eq] at heq
    generalize "./packages/app-e2e-tests-".toList = start at heq ⊢
    simpa only [List.append_assoc, List.cons_append] using heq
  rcases Text.append_cons_eq_append_cons hsplit with ⟨hyear, hrest⟩ | ⟨middle, hbefore, _⟩ |
    ⟨middle, _, hafter⟩
  · have hyears : version.year.text = other.year.text :=
      List.append_inj_right' hyear (version.year_length.trans other.year_length.symm)
    obtain ⟨after, hafter⟩ := tail_cons hpart
    obtain ⟨otherAfter, hotherAfter⟩ :=
      tail_append_cons other (e2eSuffix_endsVersion platform).dash
    rw [hafter, hotherAfter] at hrest
    have hstarts : version.number.text ++ '-' :: after <+:
        other.number.text ++ '-' :: otherAfter := ⟨right, by rw [← hrest]; simp⟩
    rw [Text.append_cons_isPrefix (version.number.not_mem rfl) (other.number.not_mem rfl)]
      at hstarts
    have htail : version.tail <+: other.tail := by
      apply tail_isPrefix hpart (e2eSuffix_endsVersion platform)
      rw [hafter, hotherAfter]
      exact List.cons_prefix_cons.mpr ⟨rfl, hstarts.2⟩
    rw [e2eVersion_eq, e2eVersion_eq, hyears, hstarts.1, List.prefix_append_right_inj,
      List.cons_prefix_cons]
    exact ⟨rfl, (List.prefix_append_right_inj _).mpr htail⟩
  · -- the only dot before the year is the first character of the path
    obtain ⟨d, start, hstart⟩ : ∃ d start, left ++ version.year.text = d :: start :=
      List.exists_cons_of_ne_nil (by simp [version.year.nonempty])
    have hpath : "/packages/app-e2e-tests-".toList ++ other.year.text =
        start ++ '.' :: middle := by
      have hcons : '.' :: ("/packages/app-e2e-tests-".toList ++ other.year.text) =
          (d :: start) ++ '.' :: middle := by
        rw [← hstart, ← hbefore]
        rfl
      exact (List.cons_eq_cons.mp hcons).2
    have hmem : '.' ∈ "/packages/app-e2e-tests-".toList ++ other.year.text := by
      rw [hpath]
      simp
    rcases List.mem_append.mp hmem with hdirectory | hyear
    · exact absurd hdirectory (by decide)
    · exact absurd hyear (other.year.not_mem rfl)
  · exact (no_dot_digit version.number hafter).elim

end MullvadAppTests.Ci
