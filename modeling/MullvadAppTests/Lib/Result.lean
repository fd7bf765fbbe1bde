import Mathlib.Data.List.Basic

/-!
Computations that may fail. A chain of them succeeds only if each of them does. With a
state, what a chain has done until one of them fails is done.
-/

namespace MullvadAppTests.Lib

variable {ε ε' σ α β : Type}

theorem bind_eq_ok {x : Except ε α} {f : α → Except ε β} {b : β} (h : (x >>= f) = .ok b) :
    ∃ a, x = .ok a ∧ f a = .ok b := by
  cases x with
  | error e => cases h
  | ok a => exact ⟨a, rfl, h⟩

theorem mem_mapM_ok {f : α → Except ε β} {items : List α} {results : List β}
    (h : items.mapM f = .ok results) (result : β) :
    result ∈ results ↔ ∃ item ∈ items, f item = .ok result := by
  induction items generalizing results with
  | nil =>
      cases h
      simp
  | cons item rest ih =>
      rw [List.mapM_cons] at h
      obtain ⟨first, hfirst, h⟩ := bind_eq_ok h
      obtain ⟨others, hothers, h⟩ := bind_eq_ok h
      cases h
      rw [List.mem_cons, ih hothers, List.exists_mem_cons_iff, hfirst, Except.ok.injEq, eq_comm]

/-! ### Computations with a state -/

theorem run_bind (x : ExceptT ε (StateM σ) α) (f : α → ExceptT ε (StateM σ) β) (s : σ) :
    (x >>= f).run s =
      match x.run s with
      | (.ok a, middle) => (f a).run middle
      | (.error e, middle) => (.error e, middle) := by
  rw [ExceptT.run_bind]
  change StateT.bind x.run _ s = _
  unfold StateT.bind
  rcases x.run s with ⟨_ | a, middle⟩ <;> rfl

variable {f : α → ExceptT ε (StateM σ) PUnit}

/-- What every step does to a part of the state is done step by step. -/
theorem forM_ok {view : σ → β} {effect : β → α → β}
    (hf : ∀ item s next, (f item).run s = (.ok (), next) → view next = effect (view s) item)
    {items : List α} {s next : σ} (h : (items.forM f).run s = (.ok (), next)) :
    view next = items.foldl effect (view s) := by
  induction items generalizing s with
  | nil =>
      cases h
      rfl
  | cons item rest ih =>
      change (f item >>= fun _ => rest.forM f).run s = _ at h
      rw [run_bind] at h
      rcases hitem : (f item).run s with ⟨e | _, middle⟩
      · rw [hitem] at h
        cases h
      · rw [hitem] at h
        rw [ih h, hf item s middle hitem, List.foldl_cons]

end MullvadAppTests.Lib
