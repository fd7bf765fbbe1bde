import MullvadAppTests.Lib.Text
import Mathlib.Data.List.Perm.Basic

/-!
`filter_non_existent_paths` and `find_traces` of `test-runner/src/app.rs`. The vector
is traversed by index from its end while elements are taken out of it with
`swap_remove`. Every index is checked, as the source does.
-/

namespace MullvadAppTests.TestRunner.FindTraces

open Lib

/-- `Error::Syscall`, or a panic at an index that is out of bounds. -/
inductive TraceError where
  | syscall
  | outOfBounds
  deriving DecidableEq, Repr

section

variable {α : Type}

/-- `Vec::swap_remove`: the last element takes the place of the one removed. -/
def swapRemove (i : Nat) (paths : List α) : Except TraceError (List α) :=
  if i < paths.length then
    match paths.getLast? with
    | some last => .ok ((paths.set i last).dropLast)
    | none => .error .outOfBounds
  else .error .outOfBounds

variable (tryExists : α → Except String Bool)

/-- The loop over the indices below the first argument, from the last one down. -/
def filterFrom : Nat → List α → Except TraceError (List α)
  | 0, paths => .ok paths
  | i + 1, paths =>
      match paths[i]? with
      | none => .error .outOfBounds
      | some path =>
          match tryExists path with
          | .error _ => .error .syscall
          | .ok true => filterFrom i paths
          | .ok false =>
              match swapRemove i paths with
              | .error e => .error e
              | .ok paths => filterFrom i paths

def filterNonExistentPaths (paths : List α) : Except TraceError (List α) :=
  filterFrom tryExists paths.length paths

/-- The path exists, as far as the check can tell. -/
def exists? (path : α) : Bool :=
  match tryExists path with
  | .ok pathExists => pathExists
  | .error _ => false

def CheckFails (path : α) : Prop := ∃ e, tryExists path = .error e

/-! ### The loop -/

/-- What comes before the removed element stays, and what comes after it is only
reordered. -/
theorem swapRemove_append (before after : List α) (path : α) :
    ∃ moved, swapRemove before.length (before ++ path :: after) = .ok (before ++ moved) ∧
      moved.Perm after := by
  have hlt : before.length < (before ++ path :: after).length := by
    simp
  rw [swapRemove, if_pos hlt]
  rcases List.eq_nil_or_concat after with rfl | ⟨init, last, rfl⟩
  · refine ⟨[], ?_, .nil⟩
    simp
  · rw [List.concat_eq_append]
    have hlast : (before ++ path :: (init ++ [last])).getLast? = some last := by
      rw [← List.cons_append, ← List.append_assoc]
      exact List.getLast?_concat
    have hset : (before ++ path :: (init ++ [last])).set before.length last =
        before ++ last :: init ++ [last] := by
      simp
    refine ⟨last :: init, ?_, (List.perm_append_singleton last init).symm⟩
    rw [hlast]
    simp only [hset, List.dropLast_concat]

variable {tryExists}

/-- The invariant of the loop: below the index the vector is as it was, and the
paths from there on have been checked and exist. -/
theorem filterFrom_append (unchecked kept : List α) :
    (∃ path ∈ unchecked, CheckFails tryExists path) ∧
        filterFrom tryExists unchecked.length (unchecked ++ kept) = .error .syscall ∨
      (∀ path ∈ unchecked, ¬CheckFails tryExists path) ∧
        ∃ final, filterFrom tryExists unchecked.length (unchecked ++ kept) = .ok final ∧
          final.Perm (unchecked.filter (exists? tryExists) ++ kept) := by
  induction unchecked using List.reverseRecOn generalizing kept with
  | nil => exact .inr ⟨by simp, kept, by simp [filterFrom], .refl _⟩
  | append_singleton init path ih =>
      have hget : (init ++ [path] ++ kept)[init.length]? = some path := by simp
      simp only [List.length_append, List.length_singleton, filterFrom, hget]
      cases hcheck : tryExists path with
      | error e => exact .inl ⟨⟨path, by simp, e, hcheck⟩, rfl⟩
      | ok pathExists =>
          have hok : ¬CheckFails tryExists path := by
            rintro ⟨e, herror⟩
            rw [hcheck] at herror
            cases herror
          have hexists : exists? tryExists path = pathExists := by
            rw [exists?, hcheck]
          -- the next round is about `init`, and about what stands behind it now
          have hround : ∀ kept', kept'.Perm ([path].filter (exists? tryExists) ++ kept) →
              (∃ path' ∈ init ++ [path], CheckFails tryExists path') ∧
                  filterFrom tryExists init.length (init ++ kept') = .error .syscall ∨
                (∀ path' ∈ init ++ [path], ¬CheckFails tryExists path') ∧
                  ∃ final, filterFrom tryExists init.length (init ++ kept') = .ok final ∧
                    final.Perm ((init ++ [path]).filter (exists? tryExists) ++ kept) := by
            intro kept' hperm
            obtain ⟨⟨bad, hbad, hfails⟩, hrun⟩ | ⟨hall, final, hrun, hfinal⟩ := ih kept'
            · exact .inl ⟨⟨bad, by simp [hbad], hfails⟩, hrun⟩
            · refine .inr ⟨?_, final, hrun, ?_⟩
              · intro path' hpath'
                obtain hinit | hlast := List.mem_append.mp hpath'
                · exact hall path' hinit
                · rw [List.mem_singleton.mp hlast]
                  exact hok
              · rw [List.filter_append, List.append_assoc]
                exact hfinal.trans (hperm.append_left _)
          cases pathExists with
          | true =>
              rw [List.append_assoc]
              exact hround _ (by simp [hexists])
          | false =>
              obtain ⟨moved, hmoved, hperm⟩ := swapRemove_append init kept path
              rw [List.append_assoc, List.singleton_append]
              simp only [hmoved]
              exact hround moved (by simpa [hexists] using hperm)

theorem filterNonExistentPaths_cases (tryExists : α → Except String Bool) (paths : List α) :
    (∃ path ∈ paths, CheckFails tryExists path) ∧
        filterNonExistentPaths tryExists paths = .error .syscall ∨
      (∀ path ∈ paths, ¬CheckFails tryExists path) ∧
        ∃ final, filterNonExistentPaths tryExists paths = .ok final ∧
          final.Perm (paths.filter (exists? tryExists)) := by
  have hspec := @filterFrom_append α tryExists paths []
  rwa [List.append_nil, List.append_nil] at hspec

/-- No index is out of bounds, an error is returned exactly when a check fails, and
otherwise the paths that exist are kept, each as often as it was there. -/
theorem filter_keeps_existing (tryExists : α → Except String Bool) (paths : List α) :
    filterNonExistentPaths tryExists paths ≠ .error .outOfBounds ∧
      (filterNonExistentPaths tryExists paths = .error .syscall ↔
        ∃ path ∈ paths, CheckFails tryExists path) ∧
      ((∀ path ∈ paths, ¬CheckFails tryExists path) →
        ∃ final, filterNonExistentPaths tryExists paths = .ok final ∧
          final.Perm (paths.filter (exists? tryExists))) := by
  obtain ⟨⟨bad, hbad, hfails⟩, hrun⟩ | ⟨hall, final, hrun, hfinal⟩ :=
    filterNonExistentPaths_cases tryExists paths
  · rw [hrun]
    exact ⟨by simp, iff_of_true rfl ⟨bad, hbad, hfails⟩, fun hall => absurd hfails (hall bad hbad)⟩
  · rw [hrun]
    refine ⟨by simp, iff_of_false (by simp) ?_, fun _ => ⟨final, rfl, hfinal⟩⟩
    rintro ⟨bad, hbad, hfails⟩
    exact hall bad hbad hfails

end

/-! ### Traces of the app -/

inductive TargetOs where
  | windows
  | linux
  | macos
  deriving DecidableEq, Repr

/-- The paths that the app may leave behind; the settings directory of Windows has
to be asked for. -/
def tracePaths (settingsDir : Except String Text) : TargetOs → Except TraceError (List Text)
  | .windows =>
      match settingsDir with
      | .error _ => .error .syscall
      | .ok settingsDir =>
          .ok [r"C:\Program Files\Mullvad VPN".toList, r"C:\ProgramData\Mullvad VPN".toList,
            settingsDir]
  | .linux =>
      .ok ["/etc/mullvad-vpn/".toList, "/var/log/mullvad-vpn/".toList,
        "/var/cache/mullvad-vpn/".toList, "/opt/Mullvad VPN/".toList,
        "/var/run/mullvad-vpn".toList, "/usr/lib/systemd/system/mullvad-daemon.service".toList,
        "/usr/lib/systemd/system/mullvad-early-boot-blocking.service".toList,
        "/usr/bin/mullvad".toList, "/usr/bin/mullvad-daemon".toList,
        "/usr/bin/mullvad-exclude".toList, "/usr/bin/mullvad-problem-report".toList,
        "/usr/share/bash-completion/completions/mullvad".toList,
        "/usr/local/share/zsh/site-functions/_mullvad".toList,
        "/usr/share/fish/vendor_completions.d/mullvad.fish".toList]
  | .macos =>
      .ok ["/Applications/Mullvad VPN.app/".toList, "/var/log/mullvad-vpn/".toList,
        "/Library/Caches/mullvad-vpn/".toList, "/var/run/mullvad-vpn".toList,
        "/Library/LaunchDaemons/net.mullvad.daemon.plist".toList, "/usr/local/bin/mullvad".toList,
        "/usr/local/bin/mullvad-problem-report".toList,
        "/usr/local/share/zsh/site-functions/_mullvad".toList,
        "/opt/homebrew/share/fish/vendor_completions.d/mullvad.fish".toList,
        "/usr/local/share/fish/vendor_completions.d/mullvad.fish".toList]

def findTraces (tryExists : Text → Except String Bool) (settingsDir : Except String Text)
    (os : TargetOs) : Except TraceError (List Text) := do
  let traces ← tracePaths settingsDir os
  filterNonExistentPaths tryExists traces

/-- The traces are the paths that exist. -/
theorem mem_findTraces {tryExists : Text → Except String Bool}
    {settingsDir : Except String Text} {os : TargetOs} {traces : List Text}
    (h : findTraces tryExists settingsDir os = .ok traces) :
    ∃ paths, tracePaths settingsDir os = .ok paths ∧
      ∀ path, path ∈ traces ↔ path ∈ paths ∧ exists? tryExists path = true := by
  unfold findTraces at h
  cases hpaths : tracePaths settingsDir os with
  | error e =>
      rw [hpaths] at h
      cases h
  | ok paths =>
      rw [hpaths] at h
      have hfilter : filterNonExistentPaths tryExists paths = .ok traces := h
      refine ⟨paths, rfl, ?_⟩
      obtain ⟨_, hrun⟩ | ⟨_, final, hrun, hfinal⟩ := filterNonExistentPaths_cases tryExists paths
      · rw [hrun] at hfilter
        cases hfilter
      · obtain rfl := Except.ok.inj (hrun.symm.trans hfilter)
        intro path
        rw [hfinal.mem_iff, List.mem_filter]

end MullvadAppTests.TestRunner.FindTraces
