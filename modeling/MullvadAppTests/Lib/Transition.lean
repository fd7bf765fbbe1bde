import Mathlib.Data.List.Basic

/-!
Transition systems given by an executable partial step function. An action
that is not enabled in a state has no successor. Every initial part of a run is
a run, so a property of the last state of every run is a property of every
state that is ever reached.
-/

namespace MullvadAppTests.Lib.Transition

variable {σ α : Type*}

def run (step : σ → α → Option σ) : σ → List α → Option σ
  | s, [] => some s
  | s, a :: rest => (step s a).bind fun next => run step next rest

/-- Every action of the run is taken in a state in which `cond` admits it. -/
def Meets (step : σ → α → Option σ) (cond : σ → α → Prop) : σ → List α → Prop
  | _, [] => True
  | s, a :: rest =>
      cond s a ∧ ∀ next, step s a = some next → Meets step cond next rest

instance Meets.decidable (step : σ → α → Option σ) (cond : σ → α → Prop)
    [∀ s a, Decidable (cond s a)] :
    (s : σ) → (actions : List α) → Decidable (Meets step cond s actions)
  | _, [] => isTrue trivial
  | s, a :: rest =>
      match hstep : step s a with
      | none => decidable_of_iff (cond s a) (by simp [Meets, hstep])
      | some next =>
          haveI := Meets.decidable step cond next rest
          decidable_of_iff (cond s a ∧ Meets step cond next rest) (by simp [Meets, hstep])

variable {step : σ → α → Option σ}

theorem run_append (s : σ) (first second : List α) :
    run step s (first ++ second) =
      (run step s first).bind fun middle => run step middle second := by
  induction first generalizing s with
  | nil => rfl
  | cons a rest ih =>
      simp only [List.cons_append, run, Option.bind_assoc]
      congr
      funext next
      exact ih next

/-- Invariant rule for the runs whose steps all meet a condition. -/
theorem run_preserves_of_meets {cond : σ → α → Prop} {Inv : σ → Prop}
    (hstep : ∀ s a next, Inv s → cond s a → step s a = some next → Inv next)
    {s last : σ} (actions : List α) (hinit : Inv s)
    (hmeets : Meets step cond s actions)
    (hrun : run step s actions = some last) : Inv last := by
  induction actions generalizing s with
  | nil =>
      simp only [run, Option.some.injEq] at hrun
      rwa [← hrun]
  | cons a rest ih =>
      simp only [run, Option.bind_eq_some_iff] at hrun
      obtain ⟨next, hnext, htail⟩ := hrun
      exact ih (hstep s a next hinit hmeets.1 hnext) (hmeets.2 next hnext) htail

theorem meets_true {s : σ} (actions : List α) : Meets step (fun _ _ => True) s actions := by
  induction actions generalizing s with
  | nil => trivial
  | cons a rest ih => exact ⟨trivial, fun _ _ => ih⟩

/-- Invariant rule: what holds at the start and is kept by every step holds
in every state reached. -/
theorem run_preserves {Inv : σ → Prop}
    (hstep : ∀ s a next, Inv s → step s a = some next → Inv next)
    {s last : σ} (actions : List α) (hinit : Inv s)
    (hrun : run step s actions = some last) : Inv last := by
  have hmeets : Meets step (fun _ _ => True) s actions := meets_true actions
  refine run_preserves_of_meets ?_ actions hinit hmeets hrun
  intro s a next hinv _ hnext
  exact hstep s a next hinv hnext

/-- A run is no longer than what its steps use up. -/
theorem length_le_of_decreases {cond : σ → α → Prop} {work : σ → Nat}
    (hstep : ∀ s a next, cond s a → step s a = some next → work next < work s)
    {s last : σ} (actions : List α) (hmeets : Meets step cond s actions)
    (hrun : run step s actions = some last) : actions.length + work last ≤ work s := by
  induction actions generalizing s with
  | nil =>
      simp only [run, Option.some.injEq] at hrun
      simp [hrun]
  | cons a rest ih =>
      simp only [run, Option.bind_eq_some_iff] at hrun
      obtain ⟨next, hnext, htail⟩ := hrun
      have hrest := ih (hmeets.2 next hnext) htail
      have hless := hstep s a next hmeets.1 hnext
      rw [List.length_cons]
      omega

/-- An entry of a history that has grown by one is the new entry or was there
before, with the new one among those after it. -/
theorem snoc_eq_append_cons {log before after : List α} {e x : α}
    (h : log ++ [e] = before ++ x :: after) :
    (log = before ∧ e = x ∧ after = []) ∨
      ∃ later, after = later ++ [e] ∧ log = before ++ x :: later := by
  rcases List.eq_nil_or_concat after with rfl | ⟨later, last, rfl⟩
  · obtain ⟨rfl, hlast⟩ := List.append_inj' h rfl
    exact .inl ⟨rfl, by simpa using hlast, rfl⟩
  · rw [List.concat_eq_append, ← List.cons_append, ← List.append_assoc] at h
    obtain ⟨hlog, hlast⟩ := List.append_inj' h rfl
    refine .inr ⟨later, ?_, hlog⟩
    rw [List.concat_eq_append, hlast]

end MullvadAppTests.Lib.Transition
