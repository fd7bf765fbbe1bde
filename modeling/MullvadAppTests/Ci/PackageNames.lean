import MullvadAppTests.Lib.Regex

/-!
The functions of `ci-runtests.sh` that name the packages of an app version. A
development build is recognised by a regular expression, whose groups are put
together again with the first six characters of the hash. The script appends any
git tag to a version, also one that the expression does not allow; such a version
is taken over as it is.
-/

namespace MullvadAppTests.Ci

open Lib

/-- The class `[0-9.]`. -/
def isVersionChar (c : Char) : Bool := c.isDigit || c = '.'

/-- The class `[0-9a-z|-]`. -/
def isTagChar (c : Char) : Bool := Regex.isLowerAlphanumeric c || c = '|' || c = '-'

/-- The groups 1, 3 and 4 of `BASH_REMATCH`. -/
structure DevMatch where
  start : Text
  commit : Text
  tag : Text
  deriving DecidableEq

/-- The group `(^[0-9.]+(-beta[0-9]+)?-dev-)`. -/
def startGroup : Regex :=
  .concat
    [.many isVersionChar, .opt (.concat [.lit "-beta".toList, .many Char.isDigit]),
      .lit "-dev-".toList]

/-- The group `(\+[0-9a-z|-]+)?`. -/
def tagGroup : Regex := .opt (.concat [.lit ['+'], .many isTagChar])

/-- The three groups, one after the other, match the whole version. -/
def isDevVersion (version : Text) : Option DevMatch :=
  ((startGroup.splits version).flatMap fun (start, rest) =>
    ((Regex.many Regex.isLowerAlphanumeric).splits rest).flatMap fun (commit, rest) =>
      (tagGroup.splits rest).filterMap fun (tag, rest) =>
        if rest = [] then some ⟨start, commit, tag⟩ else none).head?

def getAppFilename (version os : Text) : Option Text :=
  let version :=
    match isDevVersion version with
    | some groups => groups.start ++ groups.commit.take 6 ++ groups.tag
    | none => version
  if "debian".toList <+: os ∨ "ubuntu".toList <+: os then
    some ("MullvadVPN-".toList ++ version ++ "_amd64.deb".toList)
  else if "fedora".toList <+: os then
    some ("MullvadVPN-".toList ++ version ++ "_x86_64.rpm".toList)
  else if "windows".toList <+: os then
    some ("MullvadVPN-".toList ++ version ++ ".exe".toList)
  else if "macos".toList <+: os then
    some ("MullvadVPN-".toList ++ version ++ ".pkg".toList)
  else none

def getE2eFilename (version os : Text) : Option Text :=
  let version :=
    match isDevVersion version with
    | some groups => groups.start ++ groups.commit.take 6
    | none => version
  if "debian".toList <+: os ∨ "ubuntu".toList <+: os ∨ "fedora".toList <+: os then
    some ("app-e2e-tests-".toList ++ version ++ "-x86_64-unknown-linux-gnu".toList)
  else if "windows".toList <+: os then
    some ("app-e2e-tests-".toList ++ version ++ "-x86_64-pc-windows-msvc.exe".toList)
  else if "macos".toList <+: os then
    some ("app-e2e-tests-".toList ++ version ++ "-aarch64-apple-darwin".toList)
  else none

/-! ### Versions -/

/-- A nonempty text in a class. -/
structure Word (p : Char → Bool) where
  text : Text
  nonempty : text ≠ []
  inClass : ∀ c ∈ text, p c = true

/-- A tag is part of the name of a file, and of an argument that the script does not
quote. -/
structure Tag where
  text : Text
  inName : ∀ c ∈ text, c ≠ '/' ∧ c.isWhitespace = false

/-- The expression of `is_dev_version` allows the tag. -/
def Tag.isRecognised (tag : Tag) : Bool := tag.text ≠ [] && tag.text.all isTagChar

structure DevBuild where
  hash : Word Regex.isLowerAlphanumeric
  tag : Option Tag

def DevBuild.isRecognised (build : DevBuild) : Bool := build.tag.all Tag.isRecognised

/-- The part of the hash that the names have. -/
def DevBuild.commit (build : DevBuild) : Text :=
  if build.isRecognised then build.hash.text.take 6 else build.hash.text

/-- A version `YYYY.N` or `YYYY.N-betaM`, which `-dev-HASH` may follow, and that
`+TAG`. -/
structure AppVersion where
  year : Word Char.isDigit
  year_length : year.text.length = 4
  number : Word Char.isDigit
  beta : Option (Word Char.isDigit)
  dev : Option DevBuild

namespace AppVersion

def release (version : AppVersion) : Text :=
  version.year.text ++ '.' :: version.number.text

def betaPart (version : AppVersion) : Text :=
  match version.beta with
  | none => []
  | some number => "-beta".toList ++ number.text

def devPart (version : AppVersion) : Text :=
  match version.dev with
  | none => []
  | some build => "-dev-".toList ++ build.commit

def tagPart (version : AppVersion) : Text :=
  match version.dev.bind DevBuild.tag with
  | none => []
  | some tag => '+' :: tag.text

def text (version : AppVersion) : Text :=
  match version.dev with
  | none => version.release ++ version.betaPart
  | some build =>
      version.release ++ version.betaPart ++ "-dev-".toList ++ build.hash.text ++ version.tagPart

/-- The version is no development build, or one that the script recognises. -/
def isRecognised (version : AppVersion) : Bool := version.dev.all DevBuild.isRecognised

/-- The version without its tag. -/
def e2eVersion (version : AppVersion) : Text :=
  version.release ++ version.betaPart ++ version.devPart

/-- The version in the names of the app packages. -/
def appVersion (version : AppVersion) : Text := version.e2eVersion ++ version.tagPart

/-- The tag in the names of the files for the UI tests, from which the script takes
only a tag that it recognises. -/
def keptTag (version : AppVersion) : Text :=
  if version.isRecognised then [] else version.tagPart

end AppVersion

/-! ### The names -/

theorem Word.not_mem {p : Char → Bool} (word : Word p) {c : Char} (hc : p c = false) :
    c ∉ word.text := by
  intro hmem
  rw [word.inClass c hmem] at hc
  cases hc

theorem AppVersion.not_mem_release (version : AppVersion) {c : Char} (hdigit : c.isDigit = false)
    (hdot : c ≠ '.') : c ∉ version.release := by
  simp [AppVersion.release, Word.not_mem _ hdigit, hdot]

theorem AppVersion.not_mem_betaPart (version : AppVersion) {c : Char} (hdigit : c.isDigit = false)
    (hbeta : c ∉ "-beta".toList) : c ∉ version.betaPart := by
  rw [AppVersion.betaPart]
  cases version.beta with
  | none => exact List.not_mem_nil
  | some number => exact List.not_mem_append hbeta (number.not_mem hdigit)

theorem takes_word {p : Char → Bool} (word : Word p) {rest : Text}
    (hrest : ∀ c ∈ rest.head?, p c = false) :
    (Regex.many p).Takes (word.text ++ rest) word.text rest :=
  Regex.takes_many word.nonempty word.inClass hrest

theorem beta_not_isPrefix_dev (rest : Text) : ¬ "-beta".toList <+: "-dev-".toList ++ rest := by
  rintro ⟨_, heq⟩
  cases heq

theorem takes_beta {p : Char → Bool} (number : Word Char.isDigit)
    (hclass : ∀ c ∈ number.text, p c = true) (hdash : p '-' = false) (rest : Text) :
    (Regex.concat [.lit "-beta".toList, .many p]).Takes
      ("-beta".toList ++ (number.text ++ ("-dev-".toList ++ rest))) ("-beta".toList ++ number.text)
      ("-dev-".toList ++ rest) := by
  have hall := (Regex.takes_lit "-beta".toList _).concat
    ((Regex.takes_many number.nonempty hclass (Regex.head?_cons_class hdash _)).concat
      (Regex.takes_concat_nil ("-dev-".toList ++ rest)))
  rw [List.append_nil] at hall
  exact hall

theorem takes_startGroup (version : AppVersion) (rest : Text) :
    startGroup.Takes (version.release ++ (version.betaPart ++ ("-dev-".toList ++ rest)))
      (version.release ++ (version.betaPart ++ "-dev-".toList)) rest := by
  have hrelease : ∀ c ∈ version.release, isVersionChar c = true := by
    intro c hc
    rcases List.mem_append.mp hc with hyear | hnumber
    · simp [isVersionChar, version.year.inClass c hyear]
    · rcases List.mem_cons.mp hnumber with rfl | hnumber
      · rfl
      · simp [isVersionChar, version.number.inClass c hnumber]
  have hdev : (Regex.concat [.lit "-dev-".toList]).Takes ("-dev-".toList ++ rest)
      ("-dev-".toList ++ []) rest := (Regex.takes_lit _ rest).concat (Regex.takes_concat_nil rest)
  have hne : version.release ≠ [] := by simp [AppVersion.release]
  rw [List.append_nil] at hdev
  cases hbeta : version.beta with
  | none =>
      simp only [AppVersion.betaPart, hbeta, List.nil_append]
      apply (Regex.takes_many hne hrelease (Regex.head?_cons_class rfl _)).concat
      exact .without_lit (beta_not_isPrefix_dev rest) hdev
  | some number =>
      simp only [AppVersion.betaPart, hbeta, List.append_assoc]
      apply (Regex.takes_many hne hrelease (Regex.head?_cons_class rfl _)).concat
      rw [← List.append_assoc "-beta".toList]
      exact (takes_beta number number.inClass rfl rest).opt.concat hdev

theorem mem_commit {build : DevBuild} {c : Char} (hc : c ∈ build.commit) :
    Regex.isLowerAlphanumeric c = true := by
  unfold DevBuild.commit at hc
  split at hc
  · exact build.hash.inClass c (List.mem_of_mem_take hc)
  · exact build.hash.inClass c hc

theorem commit_ne_nil (build : DevBuild) : build.commit ≠ [] := by
  unfold DevBuild.commit
  split
  · simp [build.hash.nonempty]
  · exact build.hash.nonempty

theorem Tag.isRecognised_iff {tag : Tag} :
    tag.isRecognised = true ↔ tag.text ≠ [] ∧ ∀ c ∈ tag.text, isTagChar c = true := by
  simp [Tag.isRecognised]

theorem takes_tagGroup {version : AppVersion} {build : DevBuild}
    (hdev : version.dev = some build) (hrecognised : build.isRecognised = true) :
    tagGroup.Takes version.tagPart version.tagPart [] := by
  rw [AppVersion.tagPart, hdev, Option.bind_some]
  cases htag : build.tag with
  | none => rfl
  | some tag =>
      obtain ⟨hne, hclass⟩ : tag.text ≠ [] ∧ ∀ c ∈ tag.text, isTagChar c = true := by
        rw [← Tag.isRecognised_iff]
        simpa [DevBuild.isRecognised, htag] using hrecognised
      have htag : (Regex.concat [.lit ['+'], .many isTagChar]).Takes
          (['+'] ++ (tag.text ++ [])) (['+'] ++ (tag.text ++ [])) [] :=
        (Regex.takes_lit _ _).concat
          ((Regex.takes_many hne hclass (by simp)).concat (Regex.takes_concat_nil _))
      rw [List.append_nil] at htag
      exact htag.opt

theorem mem_splits_tagGroup {input last rest : Text} (h : (last, rest) ∈ tagGroup.splits input) :
    last = [] ∨ ∃ tag, tag ≠ [] ∧ (∀ c ∈ tag, isTagChar c = true) ∧ last = '+' :: tag := by
  rcases List.mem_append.mp h with hthere | hnot
  · obtain ⟨plus, _, more, _, hplus, hmore, heq⟩ := Regex.mem_splits_seq.mp hthere
    obtain ⟨tag, _, nothing, _, htag, hnothing, hmoreEq⟩ := Regex.mem_splits_seq.mp hmore
    cases heq
    cases hmoreEq
    obtain ⟨rfl, _⟩ := Regex.mem_splits_lit hplus
    obtain ⟨rfl, _⟩ := Regex.mem_splits_lit hnothing
    obtain ⟨_, hne, hclass⟩ := Regex.runs_sound htag
    exact .inr ⟨tag, hne, hclass, by simp⟩
  · cases List.mem_singleton.mp hnot
    exact .inl rfl

theorem text_of_dev {version : AppVersion} {build : DevBuild} (hdev : version.dev = some build) :
    version.text = version.release ++ (version.betaPart ++
      ("-dev-".toList ++ (build.hash.text ++ version.tagPart))) := by
  simp only [AppVersion.text, hdev, List.append_assoc]

theorem isDevVersion_of_dev {version : AppVersion} {build : DevBuild}
    (hdev : version.dev = some build) (hrecognised : build.isRecognised = true) :
    isDevVersion version.text =
      some ⟨version.release ++ (version.betaPart ++ "-dev-".toList), build.hash.text,
        version.tagPart⟩ := by
  have hstop : ∀ c ∈ version.tagPart.head?, Regex.isLowerAlphanumeric c = false := by
    rw [AppVersion.tagPart]
    intro c hc
    split at hc <;> cases hc
    rfl
  rw [text_of_dev hdev, isDevVersion]
  apply Regex.head?_flatMap (takes_startGroup version _)
  apply Regex.head?_flatMap (takes_word build.hash hstop)
  obtain ⟨others, hothers⟩ := List.head?_eq_some_iff.mp (takes_tagGroup hdev hrecognised)
  simp only [hothers, List.filterMap_cons, if_true, List.head?_cons]

/-- Whatever the groups take, a tag has to be taken whole by the last one. -/
theorem isDevVersion_of_unrecognised {version : AppVersion} {build : DevBuild}
    (hdev : version.dev = some build) (hunrecognised : build.isRecognised = false) :
    isDevVersion version.text = none := by
  obtain ⟨tag, htag⟩ : ∃ tag, build.tag = some tag := by
    cases htag : build.tag with
    | none => simp [DevBuild.isRecognised, htag] at hunrecognised
    | some tag => exact ⟨tag, rfl⟩
  have hbad : ¬ (tag.text ≠ [] ∧ ∀ c ∈ tag.text, isTagChar c = true) := by
    rw [← Tag.isRecognised_iff]
    simpa [DevBuild.isRecognised, htag] using hunrecognised
  have hstart : startGroup.Avoids '+' := by
    simp [startGroup, Regex.concat, Regex.Avoids, isVersionChar]
  have hcommit : (Regex.many Regex.isLowerAlphanumeric).Avoids '+' := rfl
  rw [isDevVersion, List.head?_eq_none_iff, List.flatMap_eq_nil_iff]
  rintro ⟨start, afterStart⟩ hstartSplit
  rw [List.flatMap_eq_nil_iff]
  rintro ⟨commit, afterCommit⟩ hcommitSplit
  rw [List.filterMap_eq_nil_iff]
  rintro ⟨last, rest⟩ hlastSplit
  apply if_neg
  rintro rfl
  have hgroups : '+' ∉ start ++ commit :=
    List.not_mem_append (Regex.not_mem_of_avoids hstart hstartSplit)
      (Regex.not_mem_of_avoids hcommit hcommitSplit)
  have hwhole : (start ++ commit) ++ last =
      (version.release ++ (version.betaPart ++ ("-dev-".toList ++ build.hash.text))) ++
        '+' :: tag.text := by
    have htagPart : version.tagPart = '+' :: tag.text := by
      simp only [AppVersion.tagPart, hdev, Option.bind_some, htag]
    have hsplit : (start ++ commit) ++ last = version.text := by
      rw [← Regex.splits_append hstartSplit, ← Regex.splits_append hcommitSplit,
        ← Regex.splits_append hlastSplit, List.append_nil, List.append_assoc]
    rw [hsplit, text_of_dev hdev, htagPart]
    simp only [List.append_assoc]
  rcases mem_splits_tagGroup hlastSplit with rfl | ⟨found, hne, hclass, rfl⟩
  · rw [List.append_nil] at hwhole
    rw [hwhole] at hgroups
    simp at hgroups
  · have hfound : '+' ∉ found := by
      intro hmem
      exact absurd (hclass '+' hmem) (by decide)
    obtain ⟨_, _, rfl⟩ := (List.append_cons_inj_of_notMem hgroups hfound).mp hwhole
    exact hbad ⟨hne, hclass⟩

/-- A version that is not one of a development build is not taken for one. -/
theorem isDevVersion_of_release {version : AppVersion} (hdev : version.dev = none) :
    isDevVersion version.text = none := by
  have hnot : 'v' ∉ version.text := by
    simp only [AppVersion.text, hdev]
    exact List.not_mem_append (version.not_mem_release rfl (by decide))
      (version.not_mem_betaPart rfl (by decide))
  have hnone : startGroup.splits version.text = [] := by
    apply Regex.splits_concat_eq_nil (t := "-dev-".toList) (by simp)
    intro hinside
    exact hnot (hinside.subset (by decide))
  rw [isDevVersion, hnone]
  rfl

/-- The kinds of systems that the script has names for. -/
inductive Platform where
  | deb
  | rpm
  | windows
  | macos
  deriving DecidableEq, Repr

namespace Platform

def ofOs (os : Text) : Option Platform :=
  if "debian".toList <+: os ∨ "ubuntu".toList <+: os then some .deb
  else if "fedora".toList <+: os then some .rpm
  else if "windows".toList <+: os then some .windows
  else if "macos".toList <+: os then some .macos
  else none

def appSuffix : Platform → Text
  | deb => "_amd64.deb".toList
  | rpm => "_x86_64.rpm".toList
  | windows => ".exe".toList
  | macos => ".pkg".toList

def e2eSuffix : Platform → Text
  | deb | rpm => "-x86_64-unknown-linux-gnu".toList
  | windows => "-x86_64-pc-windows-msvc.exe".toList
  | macos => "-aarch64-apple-darwin".toList

def appName (platform : Platform) (version : AppVersion) : Text :=
  "MullvadVPN-".toList ++ version.appVersion ++ platform.appSuffix

def e2eName (platform : Platform) (version : AppVersion) : Text :=
  "app-e2e-tests-".toList ++ (version.e2eVersion ++ version.keptTag) ++ platform.e2eSuffix

end Platform

/-- What the expression makes of a version is its own text, up to the end of the hash
and the tag. -/
theorem isDevVersion_text (version : AppVersion) :
    (isDevVersion version.text = none ∧ version.text = version.appVersion ∧
        version.keptTag = version.tagPart) ∨
      ∃ groups, isDevVersion version.text = some groups ∧
        groups.start ++ groups.commit.take 6 = version.e2eVersion ∧
        groups.tag = version.tagPart ∧ version.keptTag = [] := by
  cases hdev : version.dev with
  | none =>
      refine .inl ⟨isDevVersion_of_release hdev, ?_, ?_⟩
      · simp [AppVersion.text, AppVersion.appVersion, AppVersion.e2eVersion, AppVersion.devPart,
          AppVersion.tagPart, hdev]
      · simp [AppVersion.keptTag, AppVersion.tagPart, hdev]
  | some build =>
      cases hrecognised : build.isRecognised with
      | false =>
          refine .inl ⟨isDevVersion_of_unrecognised hdev hrecognised, ?_, ?_⟩
          · rw [text_of_dev hdev]
            simp [AppVersion.appVersion, AppVersion.e2eVersion, AppVersion.devPart, hdev,
              DevBuild.commit, hrecognised]
          · simp [AppVersion.keptTag, AppVersion.isRecognised, hdev, hrecognised]
      | true =>
          refine .inr ⟨_, isDevVersion_of_dev hdev hrecognised, ?_, rfl, ?_⟩
          · simp [AppVersion.e2eVersion, AppVersion.devPart, hdev, DevBuild.commit, hrecognised]
          · simp [AppVersion.keptTag, AppVersion.isRecognised, hdev, hrecognised]

theorem getAppFilename_text (version : AppVersion) (os : Text) :
    getAppFilename version.text os = (Platform.ofOs os).map (·.appName version) := by
  have hversion : (match isDevVersion version.text with
      | some groups => groups.start ++ groups.commit.take 6 ++ groups.tag
      | none => version.text) = version.appVersion := by
    rcases isDevVersion_text version with ⟨hnone, htext, _⟩ | ⟨groups, hsome, hstart, htag, _⟩
    · rw [hnone, htext]
    · rw [hsome]
      simp only [hstart, htag, AppVersion.appVersion]
  simp only [getAppFilename, hversion, Platform.ofOs]
  split_ifs <;> rfl

theorem getE2eFilename_text (version : AppVersion) (os : Text) :
    getE2eFilename version.text os = (Platform.ofOs os).map (·.e2eName version) := by
  have hversion : (match isDevVersion version.text with
      | some groups => groups.start ++ groups.commit.take 6
      | none => version.text) = version.e2eVersion ++ version.keptTag := by
    rcases isDevVersion_text version with ⟨hnone, htext, hkept⟩ | ⟨groups, hsome, hstart, _, hkept⟩
    · rw [hnone, htext, hkept]
      rfl
    · rw [hsome, hkept, List.append_nil]
      exact hstart
  simp only [getE2eFilename, hversion, Platform.ofOs, ← or_assoc]
  by_cases hdeb : "debian".toList <+: os ∨ "ubuntu".toList <+: os
  · rw [if_pos (.inl hdeb), if_pos hdeb]
    rfl
  · by_cases hrpm : "fedora".toList <+: os
    · rw [if_pos (.inr hrpm), if_neg hdeb, if_pos hrpm]
      rfl
    · rw [if_neg (not_or.mpr ⟨hdeb, hrpm⟩), if_neg hdeb, if_neg hrpm]
      split_ifs <;> rfl

end MullvadAppTests.Ci
