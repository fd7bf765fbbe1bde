import Mathlib.Algebra.Group.Nat.Defs
import Mathlib.Data.List.Basic
import Mathlib.Data.Nat.Log

/-!
A broadcast channel of bounded capacity, seen from one of its receivers. It is
the list of all values that were ever sent and the receiver's position in it. Only
the newest `capacity` values are kept: a receiver that has fallen behind them is
told so once and moved to the oldest value that is left.
-/

namespace MullvadAppTests.Lib

structure Broadcast (α : Type) where
  sent : List α
  next : Nat
  next_le : next ≤ sent.length

namespace Broadcast

/-- How many values a channel keeps that was asked to keep `requested`: the next power
of two. -/
def capacityFor (requested : Nat) : Nat := 2 ^ Nat.clog 2 requested

theorem capacityFor_pos (requested : Nat) : 0 < capacityFor requested := Nat.two_pow_pos _

variable {α : Type}

inductive TryRecvError where
  | empty
  | lagged (missed : Nat)
  deriving DecidableEq, Repr

def new : Broadcast α := ⟨[], 0, Nat.zero_le _⟩

def send (c : Broadcast α) (a : α) : Broadcast α where
  sent := c.sent ++ [a]
  next := c.next
  next_le := by
    have hle := c.next_le
    simp only [List.length_append, List.length_singleton]
    omega

/-- Every value that has not been received is still there. -/
def KeepsUp (capacity : Nat) (c : Broadcast α) : Prop := c.sent.length ≤ c.next + capacity

instance (capacity : Nat) (c : Broadcast α) : Decidable (c.KeepsUp capacity) :=
  inferInstanceAs (Decidable (_ ≤ _))

def tryRecv (capacity : Nat) (c : Broadcast α) : Except TryRecvError α × Broadcast α :=
  if h : c.next < c.sent.length then
    if c.next < c.sent.length - capacity then
      (.error (.lagged (c.sent.length - capacity - c.next)),
        ⟨c.sent, c.sent.length - capacity, Nat.sub_le _ _⟩)
    else (.ok c.sent[c.next], ⟨c.sent, c.next + 1, h⟩)
  else (.error .empty, c)

theorem tryRecv_cases (capacity : Nat) (c : Broadcast α) :
    (c.next = c.sent.length ∧ c.tryRecv capacity = (.error .empty, c)) ∨
      (¬c.KeepsUp capacity ∧ ∃ missed after, c.tryRecv capacity = (.error (.lagged missed), after) ∧
        after.sent = c.sent ∧ after.next = c.sent.length - capacity) ∨
      ∃ a after, c.sent[c.next]? = some a ∧ c.KeepsUp capacity ∧
        c.tryRecv capacity = (.ok a, after) ∧ after.sent = c.sent ∧ after.next = c.next + 1 := by
  have hle := c.next_le
  unfold tryRecv KeepsUp
  split
  · next hlt =>
    split
    · next hbehind => exact .inr (.inl ⟨by omega, _, _, rfl, rfl, rfl⟩)
    · exact .inr (.inr ⟨_, _, List.getElem?_eq_getElem hlt, by omega, rfl, rfl, rfl⟩)
  · next hnot => exact .inl ⟨by omega, rfl⟩

/-- What has been received from a position on grows by the value received. -/
theorem slice_succ {l : List α} {start next : Nat} {a : α} (hle : start ≤ next)
    (h : l[next]? = some a) :
    (l.take (next + 1)).drop start = (l.take next).drop start ++ [a] := by
  obtain ⟨hlt, rfl⟩ := List.getElem?_eq_some_iff.mp h
  rw [List.take_add_one, List.getElem?_eq_getElem hlt, List.drop_append_of_le_length]
  · rfl
  · rw [List.length_take]
    omega

end Broadcast

end MullvadAppTests.Lib
