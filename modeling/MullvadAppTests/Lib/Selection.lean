import Mathlib.Data.List.Sort
import Mathlib.Data.Prod.Lex
import Mathlib.Tactic

/-!
Stable and unstable sorting by a key, and the initial part of a list up to and
including its first element with a property.
-/

namespace MullvadAppTests.Lib

variable {α κ : Type*}

/-- `sorted` has the elements of `items` in ascending order of their keys, and
those with equal keys in the order in which `items` has them. -/
structure IsStableSort [LinearOrder κ] (key : α → κ) (items sorted : List α) : Prop where
  perm : sorted.Perm items
  ascending : sorted.Pairwise fun a b => key a ≤ key b
  stable : ∀ k, sorted.filter (key · = k) = items.filter (key · = k)

/-- `slice::sort_by_key`. -/
def sortByKey [LinearOrder κ] (key : α → κ) (items : List α) : List α :=
  items.insertionSort fun a b => key a ≤ key b

theorem sortByKey_isStableSort [LinearOrder κ] (key : α → κ) (items : List α) :
    IsStableSort key items (sortByKey key items) := by
  have : Std.Total fun a b : α => key a ≤ key b := ⟨fun a b => le_total _ _⟩
  have : IsTrans α fun a b => key a ≤ key b := ⟨fun _ _ _ => le_trans⟩
  have hperm : (sortByKey key items).Perm items := List.perm_insertionSort _ items
  refine ⟨hperm, List.pairwise_insertionSort _ items, ?_⟩
  intro k
  have hequal : (items.filter (key · = k)).Pairwise fun a b => key a ≤ key b := by
    rw [List.pairwise_filter]
    apply List.pairwise_of_forall
    intro a b ha hb
    simp_all
  have hsub : (items.filter (key · = k)).Sublist (sortByKey key items) :=
    List.sublist_insertionSort hequal List.filter_sublist
  have hfiltered : (items.filter (key · = k)).Sublist
      ((sortByKey key items).filter (key · = k)) := by
    simpa using hsub.filter (key · = k)
  exact (hfiltered.eq_of_length (hperm.filter _).length_eq.symm).symm

/-- An ascending list is determined by what it has for each key. -/
theorem eq_of_ascending [LinearOrder κ] {key : α → κ} {first second : List α}
    (hfirst : first.Pairwise fun a b => key a ≤ key b)
    (hsecond : second.Pairwise fun a b => key a ≤ key b)
    (hfilter : ∀ k, first.filter (key · = k) = second.filter (key · = k)) : first = second := by
  have hmem : ∀ {l m : List α}, (∀ k, l.filter (key · = k) = m.filter (key · = k)) →
      ∀ {c}, c ∈ l → c ∈ m := by
    intro l m h c hc
    have hkey : c ∈ l.filter (key · = key c) := by simpa using hc
    rw [h] at hkey
    exact List.mem_of_mem_filter hkey
  induction first generalizing second with
  | nil =>
      cases second with
      | nil => rfl
      | cons b rest => cases hmem (fun k => (hfilter k).symm) (List.mem_cons_self : b ∈ b :: rest)
  | cons a first ih =>
      cases second with
      | nil => cases hmem hfilter (List.mem_cons_self : a ∈ a :: first)
      | cons b second =>
          obtain ⟨hafirst, hascFirst⟩ := List.pairwise_cons.mp hfirst
          obtain ⟨hbsecond, hascSecond⟩ := List.pairwise_cons.mp hsecond
          -- each head is in the other list, so neither key is smaller
          have hba : key b ≤ key a := by
            rcases List.mem_cons.mp (hmem hfilter (List.mem_cons_self : a ∈ a :: first)) with h | h
            · rw [h]
            · exact hbsecond a h
          have hab : key a ≤ key b := by
            rcases List.mem_cons.mp (hmem (fun k => (hfilter k).symm)
              (List.mem_cons_self : b ∈ b :: second)) with h | h
            · rw [h]
            · exact hafirst b h
          have hkey : key a = key b := le_antisymm hab hba
          obtain ⟨rfl, _⟩ : a = b ∧ _ := by
            simpa [List.filter_cons, hkey] using hfilter (key b)
          have htail : ∀ k, first.filter (key · = k) = second.filter (key · = k) := by
            intro k
            by_cases hk : key a = k
            · simpa [List.filter_cons, hk] using hfilter k
            · simpa [List.filter_cons, hk] using hfilter k
          rw [ih hascFirst hascSecond htail]

theorem IsStableSort.unique [LinearOrder κ] {key : α → κ} {items first second : List α}
    (hfirst : IsStableSort key items first) (hsecond : IsStableSort key items second) :
    first = second := by
  apply eq_of_ascending hfirst.ascending hsecond.ascending
  intro k
  rw [hfirst.stable, hsecond.stable]

/-- `slice::sort_unstable_by_key`: any way to sort, which may put elements with equal
keys in any order. -/
structure UnstableSort [LinearOrder κ] (key : α → κ) where
  sort : List α → List α
  perm : ∀ items, (sort items).Perm items
  ascending : ∀ items, (sort items).Pairwise fun a b => key a ≤ key b

namespace UnstableSort

variable [LinearOrder κ] {key : α → κ}

theorem head?_sort (sorter : UnstableSort key) {items : List α} {a : α}
    (h : (sorter.sort items).head? = some a) : a ∈ items ∧ ∀ b ∈ items, key a ≤ key b := by
  obtain ⟨rest, hrest⟩ := List.head?_eq_some_iff.mp h
  have hascending := sorter.ascending items
  rw [hrest, List.pairwise_cons] at hascending
  have hmem : ∀ b, b ∈ items ↔ b = a ∨ b ∈ rest := by
    intro b
    rw [← (sorter.perm items).mem_iff, hrest, List.mem_cons]
  refine ⟨(hmem a).mpr (.inl rfl), ?_⟩
  intro b hb
  rcases (hmem b).mp hb with rfl | hlater
  · exact le_rfl
  · exact hascending.1 b hlater

theorem head?_sort_eq_none (sorter : UnstableSort key) {items : List α} :
    (sorter.sort items).head? = none ↔ items = [] := by
  rw [List.head?_eq_none_iff]
  constructor
  · intro h
    have hperm := sorter.perm items
    rw [h] at hperm
    exact hperm.nil_eq.symm
  · rintro rfl
    exact (sorter.perm []).eq_nil

/-- An element whose key is smaller than all others comes first. -/
theorem head?_sort_of_unique (sorter : UnstableSort key) {items : List α} {a : α} (ha : a ∈ items)
    (hleast : ∀ b ∈ items, key b ≤ key a → b = a) : (sorter.sort items).head? = some a := by
  cases hhead : (sorter.sort items).head? with
  | none =>
      rw [sorter.head?_sort_eq_none.mp hhead] at ha
      cases ha
  | some b =>
      obtain ⟨hb, hbleast⟩ := sorter.head?_sort hhead
      rw [hleast b hb (hbleast a ha)]

/-- A stable sort is one of them. -/
def ofStable (key : α → κ) : UnstableSort key where
  sort := sortByKey key
  perm items := (sortByKey_isStableSort key items).perm
  ascending items := (sortByKey_isStableSort key items).ascending

/-- Sorting that puts `a` before all other elements with its key. -/
def preferring [DecidableEq α] (key : α → κ) (a : α) : UnstableSort key where
  sort := (ofStable fun b => toLex (key b, decide (b ≠ a))).sort
  perm items := (ofStable fun b => toLex (key b, decide (b ≠ a))).perm items
  ascending items := by
    refine ((ofStable fun b => toLex (key b, decide (b ≠ a))).ascending items).imp ?_
    intro b c hle
    rcases Prod.Lex.le_iff.mp hle with hlt | ⟨heq, _⟩
    · exact hlt.le
    · exact heq.le

theorem head?_preferring [DecidableEq α] {items : List α} {a : α} (ha : a ∈ items)
    (hleast : ∀ b ∈ items, key a ≤ key b) : ((preferring key a).sort items).head? = some a := by
  apply (ofStable fun b => toLex (key b, decide (b ≠ a))).head?_sort_of_unique ha
  intro b hb hle
  rcases Prod.Lex.le_iff.mp hle with hlt | ⟨_, hflag⟩
  · exact absurd hlt (hleast b hb).not_gt
  · by_contra hne
    simp only [ofLex_toLex, hne, ne_eq, not_false_iff, not_true, decide_true, decide_false]
      at hflag
    exact absurd hflag (by decide)

end UnstableSort

/-- The initial part that ends with the first element that has the property; the
whole list if none has it. -/
def takeThrough (p : α → Bool) : List α → List α
  | [] => []
  | a :: rest => if p a then [a] else a :: takeThrough p rest

theorem mem_takeThrough_cons (p : α → Bool) (a : α) (rest : List α) :
    a ∈ takeThrough p (a :: rest) := by
  rw [takeThrough]
  split <;> simp

theorem takeThrough_isPrefix (p : α → Bool) (l : List α) : takeThrough p l <+: l := by
  induction l with
  | nil => exact List.prefix_rfl
  | cons a rest ih =>
      rw [takeThrough]
      split
      · exact ⟨rest, rfl⟩
      · exact (List.prefix_cons_inj a).mpr ih

end MullvadAppTests.Lib
