import MullvadAppTests.Lib.Text

/-!
Regular expressions with the semantics of a backtracking search: where there is a
choice, the longer repetition is preferred and an optional part is preferred to be
there, and of several places the leftmost one is taken. Only classes of characters
are repeated. `LeftmostFirst` says this of a search that is not known otherwise;
`find` is one that tries place after place.
-/

namespace MullvadAppTests.Lib

inductive Regex where
  | one (p : Char → Bool)
  | lit (t : Text)
  | many (p : Char → Bool)
  | opt (r : Regex)
  | seq (first second : Regex)

namespace Regex

/-- The nonempty initial parts of the text in the class, the longest first, each
with the rest of the text. -/
def runs (p : Char → Bool) : Text → List (Text × Text)
  | [] => []
  | c :: text =>
      if p c then (runs p text).map (fun (run, rest) => (c :: run, rest)) ++ [([c], text)] else []

/-- All matches at the start of the text in the order of preference, each with the
rest of the text. -/
def splits : Regex → Text → List (Text × Text)
  | one _, [] => []
  | one p, c :: text => if p c then [([c], text)] else []
  | lit t, input => if t <+: input then [(t, input.drop t.length)] else []
  | many p, input => runs p input
  | opt r, input => r.splits input ++ [([], input)]
  | seq first second, input =>
      (first.splits input).flatMap fun (part, rest) =>
        (second.splits rest).map fun (more, rest) => (part ++ more, rest)

attribute [local simp] splits

/-- The leftmost match. -/
def find (r : Regex) : Text → Option Text
  | [] => ((r.splits []).head?).map Prod.fst
  | c :: input =>
      match (r.splits (c :: input)).head? with
      | some (found, _) => some found
      | none => r.find input

/-- A class, exactly `n` times. -/
def times (p : Char → Bool) : Nat → Regex
  | 0 => lit []
  | n + 1 => seq (one p) (times p n)

def concat (parts : List Regex) : Regex := parts.foldr seq (lit [])

/-! ### What is matched -/

theorem splits_seq_eq_nil {first second : Regex} {input : Text}
    (h : ∀ split ∈ first.splits input, second.splits split.2 = []) :
    (seq first second).splits input = [] := by
  simp only [splits, List.flatMap_eq_nil_iff]
  intro split hsplit
  rw [h split hsplit, List.map_nil]

theorem splits_lit_eq_nil {t input : Text} (parts : List Regex) (h : ¬ t <+: input) :
    (concat (lit t :: parts)).splits input = [] := by
  apply splits_seq_eq_nil
  intro split hsplit
  rw [splits, if_neg h] at hsplit
  cases hsplit

theorem mem_splits_lit {t input part rest : Text} (h : (part, rest) ∈ (lit t).splits input) :
    part = t ∧ input = t ++ rest := by
  rw [splits] at h
  split at h
  · next hstarts =>
    obtain ⟨after, rfl⟩ := hstarts
    cases List.mem_singleton.mp h
    simp
  · cases h

theorem mem_splits_seq {first second : Regex} {input : Text} {split : Text × Text} :
    split ∈ (seq first second).splits input ↔
      ∃ part middle more rest, (part, middle) ∈ first.splits input ∧
        (more, rest) ∈ second.splits middle ∧ split = (part ++ more, rest) := by
  simp only [splits, List.mem_flatMap, List.mem_map, Prod.exists]
  constructor
  · rintro ⟨part, middle, hfirst, more, rest, hsecond, rfl⟩
    exact ⟨part, middle, more, rest, hfirst, hsecond, rfl⟩
  · rintro ⟨part, middle, more, rest, hfirst, hsecond, rfl⟩
    exact ⟨part, middle, hfirst, more, rest, hsecond, rfl⟩

theorem runs_sound {p : Char → Bool} {input run rest : Text} (h : (run, rest) ∈ runs p input) :
    run ++ rest = input ∧ run ≠ [] ∧ ∀ c ∈ run, p c = true := by
  induction input generalizing run with
  | nil => cases h
  | cons c input ih =>
      rw [runs] at h
      split at h
      · next hc =>
        rcases List.mem_append.mp h with hlonger | hone
        · obtain ⟨⟨run, _⟩, hrun, heq⟩ := List.mem_map.mp hlonger
          cases heq
          obtain ⟨rfl, _, hclass⟩ := ih hrun
          exact ⟨rfl, by simp, List.forall_mem_cons.mpr ⟨hc, hclass⟩⟩
        · cases List.mem_singleton.mp hone
          exact ⟨rfl, by simp, by simpa using hc⟩
      · cases h

/-- A match and the rest of the text make up the text. -/
theorem splits_append {r : Regex} {input part rest : Text} (h : (part, rest) ∈ r.splits input) :
    part ++ rest = input := by
  induction r generalizing input part rest with
  | one p =>
      cases input with
      | nil => cases h
      | cons c input =>
          rw [splits] at h
          split at h
          · cases List.mem_singleton.mp h
            rfl
          · cases h
  | lit t =>
      obtain ⟨rfl, rfl⟩ := mem_splits_lit h
      rfl
  | many p => exact (runs_sound h).1
  | opt r ih =>
      rcases List.mem_append.mp h with hthere | hnot
      · exact ih hthere
      · cases List.mem_singleton.mp hnot
        rfl
  | seq first second ihfirst ihsecond =>
      obtain ⟨part, middle, more, rest, hfirst, hsecond, heq⟩ := mem_splits_seq.mp h
      cases heq
      rw [List.append_assoc, ihsecond hsecond, ihfirst hfirst]

/-- There is no match in a text in which a literal part of the expression does not
occur. -/
theorem splits_concat_eq_nil {parts : List Regex} {t input : Text} (ht : lit t ∈ parts)
    (h : ¬ t <:+: input) : (concat parts).splits input = [] := by
  induction parts generalizing input with
  | nil => cases ht
  | cons r parts ih =>
      rcases List.mem_cons.mp ht with rfl | hlater
      · exact splits_lit_eq_nil parts fun hstarts => h hstarts.isInfix
      · apply splits_seq_eq_nil
        rintro ⟨part, rest⟩ hsplit
        apply ih hlater
        intro hrest
        apply h
        rw [← splits_append hsplit]
        exact hrest.trans (List.suffix_append part rest).isInfix

/-! ### What is preferred -/

/-- At the start of the input the preferred match is `part`, which leaves `rest`. -/
def Takes (r : Regex) (input part rest : Text) : Prop :=
  (r.splits input).head? = some (part, rest)

theorem takes_lit (t rest : Text) : (lit t).Takes (t ++ rest) t rest := by
  simp [Takes]

/-- A repetition takes all it can get. -/
theorem takes_many {p : Char → Bool} {run rest : Text} (hrun : run ≠ [])
    (hclass : ∀ c ∈ run, p c = true) (hrest : ∀ c ∈ rest.head?, p c = false) :
    (many p).Takes (run ++ rest) run rest := by
  have hnone : runs p rest = [] := by
    cases rest with
    | nil => rfl
    | cons c rest => rw [runs, hrest c rfl, if_neg Bool.false_ne_true]
  induction run with
  | nil => exact absurd rfl hrun
  | cons c run ih =>
      obtain ⟨hc, htail⟩ := List.forall_mem_cons.mp hclass
      simp only [Takes, splits, List.cons_append, runs, hc, if_true]
      by_cases hmore : run = []
      · simp [hmore, hnone]
      · have htaken : (runs p (run ++ rest)).head? = some (run, rest) := ih hmore htail
        rw [List.head?_append, List.head?_map, htaken]
        rfl

theorem Takes.opt {r : Regex} {input part rest : Text} (h : r.Takes input part rest) :
    (opt r).Takes input part rest := by
  rw [Takes, splits, List.head?_append, h]
  rfl

theorem head?_flatMap {α β : Type*} {items : List α} {a : α} {f : α → List β} {b : β}
    (ha : items.head? = some a) (hb : (f a).head? = some b) :
    (items.flatMap f).head? = some b := by
  obtain ⟨others, rfl⟩ := List.head?_eq_some_iff.mp ha
  rw [List.flatMap_cons, List.head?_append, hb]
  rfl

theorem Takes.seq {first second : Regex} {input part middle more rest : Text}
    (hfirst : first.Takes input part middle) (hsecond : second.Takes middle more rest) :
    (seq first second).Takes input (part ++ more) rest := by
  apply head?_flatMap hfirst
  rw [List.head?_map, hsecond]
  rfl

theorem takes_concat_nil (rest : Text) : (concat []).Takes rest [] rest := takes_lit [] rest

theorem Takes.concat {r : Regex} {parts : List Regex} {input part middle more rest : Text}
    (hfirst : r.Takes input part middle) (hsecond : (Regex.concat parts).Takes middle more rest) :
    (Regex.concat (r :: parts)).Takes input (part ++ more) rest := hfirst.seq hsecond

/-- An optional part is left out when what follows cannot be matched after it. -/
theorem Takes.without {r : Regex} {parts : List Regex} {input part rest : Text}
    (hfail : ∀ split ∈ r.splits input, (Regex.concat parts).splits split.2 = [])
    (hnext : (Regex.concat parts).Takes input part rest) :
    (Regex.concat (.opt r :: parts)).Takes input part rest := by
  have hnone : (Regex.seq r (Regex.concat parts)).splits input = [] := splits_seq_eq_nil hfail
  have hsplits : (Regex.concat (.opt r :: parts)).splits input =
      (Regex.seq r (Regex.concat parts)).splits input ++
        (((Regex.concat parts).splits input).map fun (more, rest) => ([] ++ more, rest)) := by
    simp only [Regex.concat, List.foldr_cons, splits, List.flatMap_append, List.flatMap_singleton]
  rw [Takes, hsplits, hnone, List.nil_append, List.head?_map, hnext]
  rfl

/-- An optional part is left out when the input does not start with its literal. -/
theorem Takes.without_lit {t : Text} {more parts : List Regex} {input part rest : Text}
    (hnot : ¬ t <+: input) (hnext : (Regex.concat parts).Takes input part rest) :
    (Regex.concat (.opt (Regex.concat (.lit t :: more)) :: parts)).Takes input part rest := by
  apply Takes.without ?_ hnext
  intro split hsplit
  rw [splits_lit_eq_nil more hnot] at hsplit
  cases hsplit

theorem head?_cons_class {p : Char → Bool} {c : Char} (hc : p c = false) (rest : Text) :
    ∀ d ∈ (c :: rest).head?, p d = false := by
  rintro d ⟨⟩
  exact hc

theorem takes_times {p : Char → Bool} {word : Text} (hclass : ∀ c ∈ word, p c = true)
    (rest : Text) : (times p word.length).Takes (word ++ rest) word rest := by
  induction word with
  | nil => exact takes_lit [] rest
  | cons c word ih =>
      obtain ⟨hc, htail⟩ := List.forall_mem_cons.mp hclass
      have hone : (one p).Takes (c :: (word ++ rest)) [c] (word ++ rest) := by
        simp [Takes, hc]
      exact hone.seq (ih htail)

/-! ### Characters that are not matched -/

/-- No part of the expression matches the character. -/
def Avoids (c : Char) : Regex → Prop
  | one p => p c = false
  | lit t => c ∉ t
  | many p => p c = false
  | opt r => r.Avoids c
  | seq first second => first.Avoids c ∧ second.Avoids c

theorem not_mem_of_avoids {r : Regex} {c : Char} (hr : r.Avoids c) {input part rest : Text}
    (h : (part, rest) ∈ r.splits input) : c ∉ part := by
  have hclass : ∀ {p : Char → Bool} {text : Text}, p c = false → (∀ d ∈ text, p d = true) →
      c ∉ text := by
    intro p text hc htext hmem
    rw [htext c hmem] at hc
    cases hc
  induction r generalizing input part rest with
  | one p =>
      cases input with
      | nil => cases h
      | cons d input =>
          rw [splits] at h
          split at h
          · next hd =>
            cases List.mem_singleton.mp h
            exact hclass hr (by simpa using hd)
          · cases h
  | lit t =>
      obtain ⟨rfl, _⟩ := mem_splits_lit h
      exact hr
  | many p => exact hclass hr (runs_sound h).2.2
  | opt r ih =>
      rcases List.mem_append.mp h with hthere | hnot
      · exact ih hr hthere
      · cases List.mem_singleton.mp hnot
        exact List.not_mem_nil
  | seq first second ihfirst ihsecond =>
      obtain ⟨part, middle, more, rest, hfirst, hsecond, heq⟩ := mem_splits_seq.mp h
      cases heq
      exact List.not_mem_append (ihfirst hr.1 hfirst) (ihsecond hr.2 hsecond)

/-! ### Where it is found -/

/-- What a search has to find: of the matches that start leftmost the preferred one. -/
structure LeftmostFirst (search : Regex → Text → Option Text) : Prop where
  found : ∀ {r : Regex} {before input part rest : Text},
    (∀ earlier, earlier ≠ [] → earlier <:+ before → r.splits (earlier ++ input) = []) →
      r.Takes input part rest → search r (before ++ input) = some part
  notFound : ∀ {r : Regex} {input : Text},
    (∀ rest, rest <:+ input → r.splits rest = []) → search r input = none

section

variable {search : Regex → Text → Option Text} {r : Regex} {before input : Text}

/-- A match behind a text in which none starts. -/
theorem LeftmostFirst.behind (h : LeftmostFirst search)
    (hbefore : ∀ c ∈ before, ∀ input, r.splits (c :: input) = []) {part rest : Text}
    (htakes : r.Takes input part rest) : search r (before ++ input) = some part := by
  apply h.found ?_ htakes
  intro earlier hne hsuffix
  obtain ⟨c, earlier, rfl⟩ := List.exists_cons_of_ne_nil hne
  exact hbefore c (hsuffix.subset List.mem_cons_self) _

theorem LeftmostFirst.nowhere (h : LeftmostFirst search)
    (hbefore : ∀ c ∈ before, ∀ input, r.splits (c :: input) = [])
    (hinput : ∀ rest, rest <:+ input → r.splits rest = []) : search r (before ++ input) = none := by
  apply h.notFound
  induction before with
  | nil => exact hinput
  | cons c before ih =>
      obtain ⟨hc, hbefore⟩ := List.forall_mem_cons.mp hbefore
      intro rest hrest
      rcases List.suffix_cons_iff.mp hrest with rfl | hlater
      · exact hc _
      · exact ih hbefore rest hlater

end

theorem find_of_takes {r : Regex} {input part rest : Text} (h : r.Takes input part rest) :
    r.find input = some part := by
  cases input with
  | nil => rw [find, h]; rfl
  | cons c input =>
      rw [find]
      rw [Takes] at h
      simp [h]

theorem find_eq_none {r : Regex} {input : Text}
    (h : ∀ rest, rest <:+ input → r.splits rest = []) : r.find input = none := by
  induction input with
  | nil => rw [find, h [] List.suffix_rfl]; rfl
  | cons c input ih =>
      rw [find, h (c :: input) List.suffix_rfl]
      apply ih
      intro rest hrest
      exact h rest (hrest.trans (List.suffix_cons c input))

theorem find_leftmostFirst : LeftmostFirst find where
  found := by
    intro r before input part rest hbefore htakes
    induction before with
    | nil => exact find_of_takes htakes
    | cons c before ih =>
        rw [List.cons_append, find, ← List.cons_append,
          hbefore (c :: before) (List.cons_ne_nil c before) List.suffix_rfl]
        apply ih
        intro earlier hne hsuffix
        exact hbefore earlier hne (hsuffix.trans (List.suffix_cons c before))
  notFound := find_eq_none

/-! ### Classes -/

/-- The class `[0-9a-z]`. -/
def isLowerAlphanumeric (c : Char) : Bool := c.isDigit || c.isLower

/-- The zeros of the decimal digits of Unicode, each followed by the other nine. -/
def decimalZeros : List Nat :=
  [0x30, 0x660, 0x6F0, 0x7C0, 0x966, 0x9E6, 0xA66, 0xAE6, 0xB66, 0xBE6, 0xC66, 0xCE6, 0xD66, 0xDE6,
    0xE50, 0xED0, 0xF20, 0x1040, 0x1090, 0x17E0, 0x1810, 0x1946, 0x19D0, 0x1A80, 0x1A90, 0x1B50,
    0x1BB0, 0x1C40, 0x1C50, 0xA620, 0xA8D0, 0xA900, 0xA9D0, 0xA9F0, 0xAA50, 0xABF0, 0xFF10, 0x104A0,
    0x10D30, 0x11066, 0x110F0, 0x11136, 0x111D0, 0x112F0, 0x11450, 0x114D0, 0x11650, 0x116C0,
    0x11730, 0x118E0, 0x11950, 0x11C50, 0x11D50, 0x11DA0, 0x11F50, 0x16A60, 0x16AC0, 0x16B50,
    0x1D7CE, 0x1D7D8, 0x1D7E2, 0x1D7EC, 0x1D7F6, 0x1E140, 0x1E2F0, 0x1E4F0, 0x1E950, 0x1FBF0]

/-- The class `\d`: Unicode's decimal digits. -/
def isDecimal (c : Char) : Bool :=
  decimalZeros.any fun first => first ≤ c.toNat && c.toNat < first + 10

theorem isDecimal_of_isDigit {c : Char} (h : c.isDigit = true) : isDecimal c = true := by
  have hrange : 48 ≤ c.toNat ∧ c.toNat ≤ 57 := by
    rw [Char.isDigit, Bool.and_eq_true, decide_eq_true_eq, decide_eq_true_eq] at h
    exact h
  simp only [isDecimal, List.any_eq_true, Bool.and_eq_true, decide_eq_true_eq]
  exact ⟨48, by simp [decimalZeros], by omega⟩

end Regex

end MullvadAppTests.Lib
