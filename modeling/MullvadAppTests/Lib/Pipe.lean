import Mathlib.Data.List.Basic
import Mathlib.Tactic

/-!
One direction of an in-memory duplex stream. A pipe is kept as everything that
was ever put into it together with the number of items that were taken out
again, so the stream that its reader has seen is an initial part of the stream
that its writer has produced by construction. The capacity bounds what may lie
in the pipe and is a parameter of the writer.
-/

namespace MullvadAppTests.Lib

structure Pipe (α : Type) where
  written : List α
  taken : Nat
  closed : Bool
  taken_le : taken ≤ written.length
  deriving DecidableEq, Repr

namespace Pipe

variable {α : Type}

def new : Pipe α := ⟨[], 0, false, Nat.le_refl 0⟩

def pending (p : Pipe α) : List α := p.written.drop p.taken

/-- What the reader has taken out so far. -/
def seen (p : Pipe α) : List α := p.written.take p.taken

def room (capacity : Nat) (p : Pipe α) : Nat := capacity - p.pending.length

def close (p : Pipe α) : Pipe α := {p with closed := true}

def put (p : Pipe α) (chunk : List α) : Pipe α where
  written := p.written ++ chunk
  taken := p.taken
  closed := p.closed
  taken_le := by
    have hle := p.taken_le
    simp only [List.length_append]
    omega

def advance (p : Pipe α) (n : Nat) : Pipe α where
  written := p.written
  taken := min (p.taken + n) p.written.length
  closed := p.closed
  taken_le := Nat.min_le_right _ _

/-- One write of `chunk`: an error once the pipe is closed, and nothing happens
while there is no room for it. -/
def write (capacity : Nat) (p : Pipe α) (chunk : List α) : Option (Except Unit (Pipe α)) :=
  if p.closed then some (.error ())
  else if chunk.length ≤ p.room capacity then some (.ok (p.put chunk))
  else none

/-- One read that takes `n` items, at least one. A closed pipe is read to its
end before the reader is told so with an empty chunk; an open one makes the
reader wait. -/
def read (p : Pipe α) (n : Nat) : Option (List α × Pipe α) :=
  if p.pending = [] then
    if p.closed then some ([], p) else none
  else if 0 < n ∧ n ≤ p.pending.length then some (p.pending.take n, p.advance n)
  else none

@[simp] theorem seen_new : (new : Pipe α).seen = [] := rfl
@[simp] theorem pending_new : (new : Pipe α).pending = [] := rfl
@[simp] theorem closed_new : (new : Pipe α).closed = false := rfl
@[simp] theorem written_close (p : Pipe α) : p.close.written = p.written := rfl
@[simp] theorem seen_close (p : Pipe α) : p.close.seen = p.seen := rfl
@[simp] theorem closed_close (p : Pipe α) : p.close.closed = true := rfl
@[simp] theorem written_put (p : Pipe α) (chunk : List α) :
    (p.put chunk).written = p.written ++ chunk := rfl
@[simp] theorem written_advance (p : Pipe α) (n : Nat) : (p.advance n).written = p.written := rfl

@[simp] theorem seen_put (p : Pipe α) (chunk : List α) : (p.put chunk).seen = p.seen :=
  List.take_append_of_le_length p.taken_le

@[simp] theorem pending_put (p : Pipe α) (chunk : List α) :
    (p.put chunk).pending = p.pending ++ chunk :=
  List.drop_append_of_le_length p.taken_le

theorem seen_append_pending (p : Pipe α) : p.seen ++ p.pending = p.written :=
  List.take_append_drop _ _

theorem seen_prefix (p : Pipe α) : p.seen <+: p.written := List.take_prefix _ _

theorem seen_advance (p : Pipe α) (n : Nat) :
    (p.advance n).seen = p.seen ++ p.pending.take n := by
  have hmin : p.written.take (min (p.taken + n) p.written.length) =
      p.written.take (p.taken + n) := by
    rw [← List.take_take, List.take_length]
  simp only [seen, advance, pending, hmin]
  exact List.take_add

theorem pending_advance (p : Pipe α) (n : Nat) :
    (p.advance n).pending = p.pending.drop n := by
  have hall := (p.advance n).seen_append_pending
  rw [seen_advance, written_advance, ← p.seen_append_pending, List.append_assoc,
    List.append_cancel_left_eq] at hall
  exact List.append_cancel_left (hall.trans (List.take_append_drop n p.pending).symm)

/-- A read either takes a chunk that is not empty or meets the end of the
stream, where everything that was written has been seen. -/
theorem read_cases {p q : Pipe α} {n : Nat} {chunk : List α} (h : p.read n = some (chunk, q)) :
    (chunk = [] ∧ q = p ∧ p.closed = true ∧ p.seen = p.written) ∨
      (chunk ≠ [] ∧ q = p.advance n ∧ q.seen = p.seen ++ chunk) := by
  unfold read at h
  split at h
  · next hnil =>
    split at h
    · next hclosed =>
      cases h
      refine .inl ⟨rfl, rfl, hclosed, ?_⟩
      have hall := p.seen_append_pending
      rwa [hnil, List.append_nil] at hall
    · cases h
  · next hsome =>
    split at h
    · next hn =>
      cases h
      refine .inr ⟨?_, rfl, p.seen_advance n⟩
      intro hempty
      rcases List.take_eq_nil_iff.mp hempty with hzero | hnil
      · omega
      · exact hsome hnil
    · cases h

theorem room_put (capacity : Nat) (p : Pipe α) (chunk : List α) :
    (p.put chunk).room capacity = p.room capacity - chunk.length := by
  simp only [room, pending_put, List.length_append]
  omega

/-- Reading makes room. -/
theorem room_le_of_read {capacity n : Nat} {p q : Pipe α} {chunk : List α}
    (h : p.read n = some (chunk, q)) : p.room capacity ≤ q.room capacity := by
  rcases read_cases h with ⟨_, rfl, _, _⟩ | ⟨_, rfl, _⟩
  · exact Nat.le_refl _
  · simp only [room, pending_advance, List.length_drop]
    omega

theorem write_ok {capacity : Nat} {p q : Pipe α} {chunk : List α}
    (h : p.write capacity chunk = some (.ok q)) :
    p.closed = false ∧ chunk.length ≤ p.room capacity ∧ q = p.put chunk := by
  unfold write at h
  split at h
  · cases h
  · next hopen =>
    split at h
    · next hfits =>
      cases h
      exact ⟨by simpa using hopen, hfits, rfl⟩
    · cases h

end Pipe

end MullvadAppTests.Lib
