import Mathlib.Data.List.Basic
import Mathlib.Tactic

/-!
A file that is opened for writing, as a sequence of units (bytes or characters)
and a position in it. Opening does not change what the file holds unless it is
truncated, and a write replaces what lies under it: a shorter text written from
the start of a longer one leaves the end of the longer one in place.
-/

namespace MullvadAppTests.Lib

structure OpenFile (α : Type) where
  content : List α
  cursor : Nat
  cursor_le : cursor ≤ content.length

namespace OpenFile

variable {α : Type}

/-- `OpenOptions` with `create` and `write`; the file may not exist before. -/
def openWith (truncate : Bool) (previous : Option (List α)) : OpenFile α where
  content := if truncate then [] else previous.getD []
  cursor := 0
  cursor_le := Nat.zero_le _

def writeAll (f : OpenFile α) (data : List α) : OpenFile α where
  content := f.content.take f.cursor ++ data ++ f.content.drop (f.cursor + data.length)
  cursor := f.cursor + data.length
  cursor_le := by
    have hle := f.cursor_le
    simp only [List.length_append, List.length_take]
    omega

/-- At the end of a file a write appends. -/
theorem writeAll_at_end {f : OpenFile α} (h : f.cursor = f.content.length) (data : List α) :
    (f.writeAll data).content = f.content ++ data ∧
      (f.writeAll data).cursor = (f.writeAll data).content.length := by
  have hdrop : f.content.drop (f.cursor + data.length) = [] := by
    apply List.drop_eq_nil_of_le
    omega
  have hcontent : (f.writeAll data).content = f.content ++ data := by
    change f.content.take f.cursor ++ data ++ f.content.drop (f.cursor + data.length) = _
    rw [hdrop, List.append_nil, h, List.take_length]
  refine ⟨hcontent, ?_⟩
  rw [hcontent, List.length_append, ← h]
  rfl

/-- The file after it was opened without truncation and written once. -/
def rewrite (file : Option (List α)) (data : List α) : Option (List α) :=
  some ((openWith false file).writeAll data).content

theorem rewrite_eq (file : Option (List α)) (data : List α) :
    rewrite file data = some (data ++ (file.getD []).drop data.length) := by
  simp [rewrite, openWith, writeAll]

theorem length_rewrite (file : Option (List α)) (data : List α) :
    ((rewrite file data).getD []).length = max data.length (file.getD []).length := by
  simp only [rewrite_eq, Option.getD_some, List.length_append, List.length_drop]
  omega

theorem rewrite_eq_some_iff {file : Option (List α)} {data : List α} :
    rewrite file data = some data ↔ (file.getD []).length ≤ data.length := by
  rw [rewrite_eq, Option.some.injEq, List.append_right_eq_self, List.drop_eq_nil_iff]

/-- The file keeps the length of the longest text it has ever held. -/
theorem length_rewrites_le_iff (texts : List (List α)) (file : Option (List α)) (n : Nat) :
    ((texts.foldl rewrite file).getD []).length ≤ n ↔
      (file.getD []).length ≤ n ∧ ∀ data ∈ texts, data.length ≤ n := by
  induction texts generalizing file with
  | nil => simp
  | cons data rest ih =>
      rw [List.foldl_cons, ih, length_rewrite]
      simp only [List.mem_cons, forall_eq_or_imp, max_le_iff]
      tauto

/-- After a sequence of writes from the start the file holds exactly the last
text if and only if nothing that it held before was longer. -/
theorem rewrites_eq_last_iff (texts : List (List α)) (file : Option (List α)) (last : List α) :
    (texts ++ [last]).foldl rewrite file = some last ↔
      (file.getD []).length ≤ last.length ∧ ∀ data ∈ texts, data.length ≤ last.length := by
  rw [List.foldl_append, List.foldl_cons, List.foldl_nil, rewrite_eq_some_iff,
    length_rewrites_le_iff]

end OpenFile

end MullvadAppTests.Lib
