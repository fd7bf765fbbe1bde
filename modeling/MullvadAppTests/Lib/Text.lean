import Mathlib.Data.List.Basic
import Mathlib.Data.List.Infix
import Mathlib.Tactic

/-!
Text as a sequence of characters, with the operations of Rust's `str` that the
test manager uses: substring search, splitting at white space and reading line by
line, lower case and the length in bytes.
-/

namespace MullvadAppTests.Lib

abbrev Text := List Char

instance : LawfulBEq Text := inferInstanceAs (LawfulBEq (List Char))

namespace Text

/-- `str::contains` with a string pattern. -/
def contains (text part : Text) : Bool := decide (part <:+: text)

/-- `char::is_whitespace`: the Unicode property `White_Space`. -/
def isWhitespace (c : Char) : Bool :=
  let n := c.toNat
  (0x09 ≤ n && n ≤ 0x0D) || n = 0x20 || n = 0x85 || n = 0xA0 || n = 0x1680 ||
    (0x2000 ≤ n && n ≤ 0x200A) || n = 0x2028 || n = 0x2029 || n = 0x202F || n = 0x205F ||
    n = 0x3000

def splitWhitespace (text : Text) : List Text :=
  (text.splitOnP isWhitespace).filter (· ≠ [])

/-- A line that ended with `\n` loses one `\r` before it as well. -/
def stripCarriageReturn (line : Text) : Text :=
  if line.getLast? = some '\r' then line.dropLast else line

/-- The lines of a text of which `line` was already read. -/
def linesFrom (line : Text) : Text → List Text
  | [] => if line = [] then [] else [line]
  | c :: rest =>
      if c = '\n' then stripCarriageReturn line :: linesFrom [] rest
      else linesFrom (line ++ [c]) rest

/-- What `next_line` of a buffered reader gives until it gives nothing. -/
def lines (text : Text) : List Text := linesFrom [] text

@[simp] theorem lines_nil : lines [] = [] := rfl

theorem linesFrom_append {line : Text} (h : '\n' ∉ line) (start rest : Text) :
    linesFrom start (line ++ '\n' :: rest) =
      stripCarriageReturn (start ++ line) :: lines rest := by
  induction line generalizing start with
  | nil => simp [linesFrom, lines]
  | cons c line ih =>
      obtain ⟨hc, hline⟩ : '\n' ≠ c ∧ '\n' ∉ line := by simpa using h
      rw [List.cons_append, linesFrom, if_neg (Ne.symm hc), ih hline, List.append_assoc,
        List.singleton_append]

/-- A line without a newline of its own is read back as it was written, unless it
ends in a carriage return. -/
theorem lines_append {line : Text} (h : '\n' ∉ line) (hcr : line.getLast? ≠ some '\r')
    (rest : Text) : lines (line ++ '\n' :: rest) = line :: lines rest := by
  have hstrip : stripCarriageReturn line = line := if_neg hcr
  rw [lines, linesFrom_append h, List.nil_append, hstrip]

/-- Lines that are written one after the other are read back one by one. -/
theorem lines_flatten (texts : List Text)
    (h : ∀ line ∈ texts, '\n' ∉ line ∧ line.getLast? ≠ some '\r') :
    lines (texts.map (· ++ ['\n'])).flatten = texts := by
  induction texts with
  | nil => rfl
  | cons line rest ih =>
      obtain ⟨⟨hnewline, hcr⟩, hrest⟩ := List.forall_mem_cons.mp h
      rw [List.map_cons, List.flatten_cons, List.append_assoc, List.singleton_append,
        lines_append hnewline hcr, ih hrest]

/-- The lines before a last part that may not be terminated. -/
theorem lines_flatten_append (texts : List Text)
    (h : ∀ line ∈ texts, '\n' ∉ line ∧ line.getLast? ≠ some '\r') (last : Text) :
    lines ((texts.map (· ++ ['\n'])).flatten ++ last) = texts ++ lines last := by
  induction texts with
  | nil => rfl
  | cons line rest ih =>
      obtain ⟨⟨hnewline, hcr⟩, hrest⟩ := List.forall_mem_cons.mp h
      rw [List.map_cons, List.flatten_cons, List.append_assoc, List.append_assoc,
        List.singleton_append, lines_append hnewline hcr, ih hrest, List.cons_append]

theorem linesFrom_unterminated {line : Text} (h : '\n' ∉ line) (start : Text)
    (hne : start ++ line ≠ []) : linesFrom start line = [start ++ line] := by
  induction line generalizing start with
  | nil =>
      have hstart : start ≠ [] := by simpa using hne
      simp [linesFrom, hstart]
  | cons c line ih =>
      obtain ⟨hc, hline⟩ : '\n' ≠ c ∧ '\n' ∉ line := by simpa using h
      rw [linesFrom, if_neg (Ne.symm hc), ih hline _ (by simp), List.append_assoc,
        List.singleton_append]

/-- A last line is a line also without its newline. -/
theorem lines_unterminated {line : Text} (h : '\n' ∉ line) (hne : line ≠ []) :
    lines line = [line] := by
  rw [lines, linesFrom_unterminated h [] hne, List.nil_append]

/-- Nonempty and without white space: what `split_whitespace` yields. -/
def IsWord (word : Text) : Prop := word ≠ [] ∧ ∀ c ∈ word, isWhitespace c = false

instance (word : Text) : Decidable (IsWord word) :=
  decidable_of_iff (word ≠ [] ∧ (word.all fun c => !isWhitespace c) = true) (by simp [IsWord])

theorem IsWord.newline_not_mem {word : Text} (h : IsWord word) : '\n' ∉ word := by
  intro hmem
  exact absurd (h.2 _ hmem) (by decide)

theorem splitWhitespace_word {word : Text} (h : IsWord word) : splitWhitespace word = [word] := by
  rw [splitWhitespace, List.splitOnP_eq_singleton h.2]
  simp [h.1]

theorem splitWhitespace_cons {word : Text} (h : IsWord word) {c : Char}
    (hc : isWhitespace c = true) (rest : Text) :
    splitWhitespace (word ++ c :: rest) = word :: splitWhitespace rest := by
  rw [splitWhitespace, List.splitOnP_append_cons_of_forall_mem h.2 c hc, List.filter_cons_of_pos]
  · rfl
  · simpa using h.1

/-- `make_ascii_lowercase`. -/
def makeAsciiLowercase (text : Text) : Text := text.map Char.toLower

/-- The length in bytes. -/
def utf8Len (text : Text) : Nat := (text.map Char.utf8Size).sum

@[simp] theorem makeAsciiLowercase_append (first second : Text) :
    makeAsciiLowercase (first ++ second) =
      makeAsciiLowercase first ++ makeAsciiLowercase second := by
  simp [makeAsciiLowercase]

theorem makeAsciiLowercase_eq_self {text : Text} (h : ∀ c ∈ text, c.isUpper = false) :
    makeAsciiLowercase text = text := by
  have hid : ∀ c ∈ text, c.toLower = id c := by
    intro c hc
    have hnot : ¬('A'.val ≤ c.val ∧ c.val ≤ 'Z'.val) := of_decide_eq_false (h c hc)
    exact dif_neg hnot
  rw [makeAsciiLowercase, List.map_congr_left hid, List.map_id]

theorem toLower_of_upper {c : Char} (hupper : 'A'.val ≤ c.val ∧ c.val ≤ 'Z'.val) :
    c.toLower.val.toNat = c.val.toNat + 32 ∧ 65 ≤ c.val.toNat ∧ c.val.toNat ≤ 90 := by
  have hlowered : c.toLower.val = c.val + ('a'.val - 'A'.val) :=
    congrArg Char.val (dif_pos hupper)
  obtain ⟨hA, hZ⟩ : 65 ≤ c.val.toNat ∧ c.val.toNat ≤ 90 := hupper
  refine ⟨?_, hA, hZ⟩
  have hdiff : ('a'.val - 'A'.val).toNat = 32 := rfl
  rw [hlowered, UInt32.toNat_add, hdiff]
  omega

/-- A character that is no letter in lower case is in no new place. -/
theorem not_mem_makeAsciiLowercase {text : Text} {c : Char} (hc : c.isLower = false)
    (h : c ∉ text) : c ∉ makeAsciiLowercase text := by
  intro hmem
  obtain ⟨d, hd, rfl⟩ := List.mem_map.mp hmem
  by_cases hupper : 'A'.val ≤ d.val ∧ d.val ≤ 'Z'.val
  · obtain ⟨hlowered, hA, hZ⟩ := toLower_of_upper hupper
    have hlower : d.toLower.isLower = true := by
      change (d.toLower.val ≥ 'a'.val && d.toLower.val ≤ 'z'.val) = true
      simp only [Bool.and_eq_true, decide_eq_true_eq, ge_iff_le, UInt32.le_iff_toNat_le, hlowered]
      exact ⟨by change 97 ≤ _; omega, by change _ ≤ 122; omega⟩
    rw [hlower] at hc
    cases hc
  · have hsame : d.toLower = d := dif_neg hupper
    rw [hsame] at h
    exact h hd

@[simp] theorem utf8Len_append (first second : Text) :
    utf8Len (first ++ second) = utf8Len first + utf8Len second := by
  simp [utf8Len]

theorem utf8Len_eq_zero {text : Text} : utf8Len text = 0 ↔ text = [] := by
  constructor
  · intro h
    cases text with
    | nil => rfl
    | cons c rest =>
        have hpos := c.utf8Size_pos
        simp only [utf8Len, List.map_cons, List.sum_cons] at h
        omega
  · rintro rfl
    rfl

theorem utf8Size_toLower (c : Char) : c.toLower.utf8Size = c.utf8Size := by
  by_cases hupper : 'A'.val ≤ c.val ∧ c.val ≤ 'Z'.val
  · obtain ⟨hlowered, hA, hZ⟩ := toLower_of_upper hupper
    have hlower : c.toLower.val.toNat ≤ 127 := by omega
    have hval : c.val.toNat ≤ 127 := by omega
    rw [Char.utf8Size_eq_one_iff.mpr (UInt32.le_iff_toNat_le.mpr hlower),
      Char.utf8Size_eq_one_iff.mpr (UInt32.le_iff_toNat_le.mpr hval)]
  · have hsame : c.toLower = c := dif_neg hupper
    rw [hsame]

theorem utf8Len_makeAsciiLowercase (text : Text) :
    utf8Len (makeAsciiLowercase text) = utf8Len text := by
  simp [utf8Len, makeAsciiLowercase, Function.comp_def, utf8Size_toLower]

theorem utf8Len_le_of_infix {part text : Text} (h : part <:+: text) :
    utf8Len part ≤ utf8Len text := by
  obtain ⟨before, after, rfl⟩ := h
  simp only [utf8Len_append]
  omega

/-- What contains a text of its own length is that text. -/
theorem eq_of_infix_of_utf8Len {part text : Text} (h : part <:+: text)
    (hlen : utf8Len text ≤ utf8Len part) : part = text := by
  obtain ⟨before, after, rfl⟩ := h
  simp only [utf8Len_append] at hlen
  have hbefore : before = [] := utf8Len_eq_zero.mp (by omega)
  have hafter : after = [] := utf8Len_eq_zero.mp (by omega)
  rw [hbefore, hafter, List.nil_append, List.append_nil]

/-! ### Separators -/

/-- A text without the separator lies on one of its sides. -/
theorem infix_append_cons {part before after : Text} {c : Char} (hc : c ∉ part) :
    part <:+: before ++ c :: after ↔ part <:+: before ∨ part <:+: after := by
  constructor
  · rintro ⟨left, right, heq⟩
    rcases List.append_eq_append_iff.mp heq with ⟨inside, hbefore, _⟩ | ⟨inside, hpart, hright⟩
    · exact .inl ⟨left, inside, hbefore.symm⟩
    · cases inside with
      | nil => exact .inl ⟨left, [], by simpa using hpart⟩
      | cons d inside =>
          obtain ⟨rfl, hafter⟩ := List.cons_eq_cons.mp hright
          -- the separator is before the part, or in it
          rcases List.append_eq_append_iff.mp hpart with ⟨rest, _, hin⟩ | ⟨rest, _, hin⟩
          · rw [hin] at hc
            simp at hc
          · cases rest with
            | nil =>
                rw [← List.nil_append part, ← hin] at hc
                simp at hc
            | cons d rest =>
                obtain ⟨_, rfl⟩ := List.cons_eq_cons.mp hin
                exact .inr ⟨rest, right, hafter.symm⟩
  · rintro (h | h)
    · exact h.trans (List.prefix_append _ _).isInfix
    · exact h.trans ((List.suffix_cons c after).trans (List.suffix_append _ _)).isInfix

/-- Two ways to split a text at the same character. -/
theorem append_cons_eq_append_cons {before after before' after' : Text} {c : Char}
    (h : before ++ c :: after = before' ++ c :: after') :
    (before = before' ∧ after = after') ∨
      (∃ middle, before' = before ++ c :: middle ∧ after = middle ++ c :: after') ∨
      ∃ middle, before = before' ++ c :: middle ∧ after' = middle ++ c :: after := by
  rcases List.append_eq_append_iff.mp h with ⟨middle, rfl, hrest⟩ | ⟨middle, rfl, hrest⟩
  · cases middle with
    | nil => exact .inl ⟨by simp, (List.cons_eq_cons.mp hrest).2⟩
    | cons d middle =>
        obtain ⟨rfl, hafter⟩ := List.cons_eq_cons.mp hrest
        exact .inr (.inl ⟨middle, rfl, hafter⟩)
  · cases middle with
    | nil => exact .inl ⟨by simp, (List.cons_eq_cons.mp hrest).2.symm⟩
    | cons d middle =>
        obtain ⟨rfl, hafter⟩ := List.cons_eq_cons.mp hrest
        exact .inr (.inr ⟨middle, rfl, hafter⟩)

/-- Texts that agree up to the end of the first one agree up to the separator. -/
theorem append_cons_isPrefix {first second rest more : Text} {c : Char} (hfirst : c ∉ first)
    (hsecond : c ∉ second) :
    first ++ c :: rest <+: second ++ c :: more ↔ first = second ∧ rest <+: more := by
  induction first generalizing second with
  | nil =>
      cases second with
      | nil => simp
      | cons d second =>
          have hd : c ≠ d := by
            rintro rfl
            simp at hsecond
          simp [List.cons_prefix_cons, hd]
  | cons d first ih =>
      obtain ⟨hd, hfirst⟩ : c ≠ d ∧ c ∉ first := by simpa using hfirst
      cases second with
      | nil => simp [List.cons_prefix_cons, hd.symm]
      | cons e second =>
          obtain ⟨_, hsecond⟩ : c ≠ e ∧ c ∉ second := by simpa using hsecond
          simp only [List.cons_append, List.cons_prefix_cons, ih hfirst hsecond, List.cons.injEq]
          tauto

theorem isPrefix_of_not_mem {part before after : Text} {c : Char} (hc : c ∉ part)
    (h : part <+: before ++ c :: after) : part <+: before := by
  induction part generalizing before with
  | nil => exact List.nil_prefix
  | cons d part ih =>
      obtain ⟨hd, hpart⟩ : c ≠ d ∧ c ∉ part := by simpa using hc
      cases before with
      | nil => exact absurd (List.cons_prefix_cons.mp h).1.symm hd
      | cons e before =>
          obtain ⟨rfl, hrest⟩ := List.cons_prefix_cons.mp h
          exact List.cons_prefix_cons.mpr ⟨rfl, ih hpart hrest⟩

end Text

end MullvadAppTests.Lib
