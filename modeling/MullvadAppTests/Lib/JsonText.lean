import MullvadAppTests.Lib.Json
import MullvadAppTests.Lib.Text
import Mathlib.Data.List.TakeWhile

/-!
JSON as text: a printer that indents by two spaces, and a parser that inverts it.
The parser has fuel, of which twice the length of the text is enough.
-/

namespace MullvadAppTests.Lib.Json

/-! ### Strings -/

def hexDigit (n : Nat) : Char := if n < 10 then Char.ofNat (48 + n) else Char.ofNat (87 + n)

/-- A quote, a backslash and the control characters are escaped. -/
def escapeChar (c : Char) : Text :=
  if c = '"' then ['\\', '"']
  else if c = '\\' then ['\\', '\\']
  else if c = '\n' then ['\\', 'n']
  else if c = '\r' then ['\\', 'r']
  else if c = '\t' then ['\\', 't']
  else if c.toNat = 8 then ['\\', 'b']
  else if c.toNat = 12 then ['\\', 'f']
  else if c.toNat < 32 then ['\\', 'u', '0', '0', hexDigit (c.toNat / 16), hexDigit (c.toNat % 16)]
  else [c]

def quote (text : Text) : Text := '"' :: text.flatMap escapeChar ++ ['"']

def hexValue (c : Char) : Option Nat :=
  if 48 ≤ c.toNat ∧ c.toNat ≤ 57 then some (c.toNat - 48)
  else if 97 ≤ c.toNat ∧ c.toNat ≤ 102 then some (c.toNat - 87)
  else if 65 ≤ c.toNat ∧ c.toNat ≤ 70 then some (c.toNat - 55)
  else none

/-- A code unit of four hexadecimal digits. -/
def parseUnit : Text → Option (Nat × Text)
  | a :: b :: c :: d :: rest => do
      let a ← hexValue a
      let b ← hexValue b
      let c ← hexValue c
      let d ← hexValue d
      some (4096 * a + 256 * b + 16 * c + d, rest)
  | _ => none

/-- The second unit of a surrogate pair. -/
def parseTrail : Text → Option (Nat × Text)
  | slash :: u :: rest =>
      if slash = '\\' ∧ u = 'u' then
        match parseUnit rest with
        | some (n, rest) => if 0xDC00 ≤ n ∧ n < 0xE000 then some (n, rest) else none
        | none => none
      else none
  | _ => none

/-- After `\u`. -/
def parseUnicode (text : Text) : Option (Char × Text) :=
  match parseUnit text with
  | none => none
  | some (n, rest) =>
      if 0xD800 ≤ n ∧ n < 0xDC00 then
        match parseTrail rest with
        | none => none
        | some (m, rest) =>
            some (Char.ofNat (0x10000 + 0x400 * (n - 0xD800) + (m - 0xDC00)), rest)
      else if 0xDC00 ≤ n ∧ n < 0xE000 then none
      else some (Char.ofNat n, rest)

def simpleEscape (c : Char) : Option Char :=
  if c = '"' then some '"'
  else if c = '\\' then some '\\'
  else if c = '/' then some '/'
  else if c = 'n' then some '\n'
  else if c = 'r' then some '\r'
  else if c = 't' then some '\t'
  else if c = 'b' then some (Char.ofNat 8)
  else if c = 'f' then some (Char.ofNat 12)
  else none

/-- After a backslash. -/
def parseEscape : Text → Option (Char × Text)
  | [] => none
  | c :: rest => if c = 'u' then parseUnicode rest else (simpleEscape c).map fun c => (c, rest)

/-- The characters of a string up to its closing quote. -/
def parseChars : Nat → Text → Option (Text × Text)
  | 0, _ => none
  | _ + 1, [] => none
  | fuel + 1, c :: rest =>
      if c = '"' then some ([], rest)
      else if c = '\\' then
        match parseEscape rest with
        | none => none
        | some (c, rest) => (parseChars fuel rest).map fun p => (c :: p.1, p.2)
      else if c.toNat < 32 then none
      else (parseChars fuel rest).map fun p => (c :: p.1, p.2)

/-! ### Numbers -/

def isNumberChar (c : Char) : Bool :=
  c.isDigit || c = '-' || c = '+' || c = '.' || c = 'e' || c = 'E'

/-- At least one digit, and the rest after the last one. -/
def dropDigits : Text → Option Text
  | [] => none
  | c :: rest => if c.isDigit then some (rest.dropWhile Char.isDigit) else none

def dropFraction : Text → Option Text
  | [] => some []
  | c :: rest => if c = '.' then dropDigits rest else some (c :: rest)

def dropSign : Text → Text
  | [] => []
  | c :: rest => if c = '+' ∨ c = '-' then rest else c :: rest

def isExponent : Text → Bool
  | [] => true
  | c :: rest => (c = 'e' ∨ c = 'E') ∧ dropDigits (dropSign rest) = some []

def dropInteger : Text → Option Text
  | [] => none
  | c :: rest => if c = '0' then some rest else dropDigits (c :: rest)

def dropMinus : Text → Text
  | [] => []
  | c :: rest => if c = '-' then rest else c :: rest

def isNumber (text : Text) : Bool :=
  match dropInteger (dropMinus text) with
  | none => false
  | some rest =>
      match dropFraction rest with
      | none => false
      | some rest => isExponent rest

def parseNumber (text : Text) : Option (Json × Text) :=
  if isNumber (text.takeWhile isNumberChar) then
    some (.number (String.ofList (text.takeWhile isNumberChar)), text.dropWhile isNumberChar)
  else none

/-! ### Values -/

def isSpace (c : Char) : Bool := c = ' ' || c = '\n' || c = '\t' || c = '\r'

def skipSpace (text : Text) : Text := text.dropWhile isSpace

def parseWord (word : Text) (value : Json) (text : Text) : Option (Json × Text) :=
  if word <+: text then some (value, text.drop word.length) else none

/-- The colon after the key of a member. -/
def parseColon (text : Text) : Option Text :=
  match skipSpace text with
  | [] => none
  | c :: rest => if c = ':' then some rest else none

mutual

def parseValue : Nat → Text → Option (Json × Text)
  | 0, _ => none
  | fuel + 1, text =>
      match skipSpace text with
      | [] => none
      | c :: rest =>
          if c = '"' then (parseChars fuel rest).map fun p => (.string (String.ofList p.1), p.2)
          else if c = '[' then
            match skipSpace rest with
            | [] => none
            | d :: after =>
                if d = ']' then some (.array [], after)
                else (parseItems fuel (d :: after)).map fun p => (.array p.1, p.2)
          else if c = '{' then
            match skipSpace rest with
            | [] => none
            | d :: after =>
                if d = '}' then some (.object [], after)
                else (parseMembers fuel (d :: after)).map fun p => (.object p.1, p.2)
          else if c = 'n' then parseWord "null".toList .null (c :: rest)
          else if c = 't' then parseWord "true".toList (.bool true) (c :: rest)
          else if c = 'f' then parseWord "false".toList (.bool false) (c :: rest)
          else parseNumber (c :: rest)

/-- The items of an array up to its closing bracket, one of them at least. -/
def parseItems : Nat → Text → Option (List Json × Text)
  | 0, _ => none
  | fuel + 1, text =>
      match parseValue fuel text with
      | none => none
      | some (item, rest) =>
          match skipSpace rest with
          | [] => none
          | c :: rest =>
              if c = ',' then (parseItems fuel rest).map fun p => (item :: p.1, p.2)
              else if c = ']' then some ([item], rest)
              else none

def parseMember : Nat → Text → Option ((String × Json) × Text)
  | 0, _ => none
  | fuel + 1, text =>
      match skipSpace text with
      | [] => none
      | c :: rest =>
          if c = '"' then
            match parseChars fuel rest with
            | none => none
            | some (key, rest) =>
                match parseColon rest with
                | none => none
                | some rest =>
                    (parseValue fuel rest).map fun p => ((String.ofList key, p.1), p.2)
          else none

def parseMembers : Nat → Text → Option (List (String × Json) × Text)
  | 0, _ => none
  | fuel + 1, text =>
      match parseMember fuel text with
      | none => none
      | some (member, rest) =>
          match skipSpace rest with
          | [] => none
          | c :: rest =>
              if c = ',' then (parseMembers fuel rest).map fun p => (member :: p.1, p.2)
              else if c = '}' then some ([member], rest)
              else none

end

/-- A whole text is one value, with white space around it. -/
def parse (text : Text) : Option Json :=
  match parseValue (2 * text.length + 2) text with
  | none => none
  | some (value, rest) => if skipSpace rest = [] then some value else none

/-! ### Printing -/

def newline (indent : Nat) : Text := '\n' :: List.replicate (2 * indent) ' '

mutual

def pretty (indent : Nat) : Json → Text
  | .null => "null".toList
  | .bool b => if b then "true".toList else "false".toList
  | .number digits => digits.toList
  | .string s => quote s.toList
  | .array [] => ['[', ']']
  | .array (item :: items) =>
      '[' :: newline (indent + 1) ++ pretty (indent + 1) item ++ prettyItems indent items
  | .object [] => ['{', '}']
  | .object (member :: members) =>
      '{' :: newline (indent + 1) ++ prettyMember (indent + 1) member ++
        prettyMembers indent members

/-- The items after the first one, and the closing bracket. -/
def prettyItems (indent : Nat) : List Json → Text
  | [] => newline indent ++ [']']
  | item :: items =>
      ',' :: newline (indent + 1) ++ pretty (indent + 1) item ++ prettyItems indent items

def prettyMember (indent : Nat) : String × Json → Text
  | (key, value) => quote key.toList ++ ':' :: ' ' :: pretty indent value

def prettyMembers (indent : Nat) : List (String × Json) → Text
  | [] => newline indent ++ ['}']
  | member :: members =>
      ',' :: newline (indent + 1) ++ prettyMember (indent + 1) member ++
        prettyMembers indent members

end

/-! ### Reading back what was printed -/

theorem hexValue_hexDigit : ∀ n < 16, hexValue (hexDigit n) = some n := by decide

theorem parseChars_escapeChar (c : Char) (fuel : Nat) (rest : Text) :
    parseChars (fuel + 1) (escapeChar c ++ rest) =
      (parseChars fuel rest).map fun p => (c :: p.1, p.2) := by
  have hsimple : ∀ e, simpleEscape e = some c → e ≠ 'u' →
      parseChars (fuel + 1) ('\\' :: e :: rest) =
        (parseChars fuel rest).map fun p => (c :: p.1, p.2) := by
    intro e he hu
    have hescape : parseEscape (e :: rest) = some (c, rest) := by
      simp [parseEscape, hu, he]
    rw [parseChars, if_neg (by decide), if_pos rfl, hescape]
  have hchar : ∀ n, c.toNat = n → c = Char.ofNat n := by
    rintro n rfl
    exact (Char.ofNat_toNat c).symm
  unfold escapeChar
  split
  · next h => exact hsimple '"' (by rw [h]; rfl) (by decide)
  split
  · next h => exact hsimple '\\' (by rw [h]; rfl) (by decide)
  split
  · next h => exact hsimple 'n' (by rw [h]; rfl) (by decide)
  split
  · next h => exact hsimple 'r' (by rw [h]; rfl) (by decide)
  split
  · next h => exact hsimple 't' (by rw [h]; rfl) (by decide)
  split
  · next h => exact hsimple 'b' (by rw [hchar 8 h]; rfl) (by decide)
  split
  · next h => exact hsimple 'f' (by rw [hchar 12 h]; rfl) (by decide)
  split
  · next hcontrol =>
    have hunit : parseUnit ('0' :: '0' :: hexDigit (c.toNat / 16) :: hexDigit (c.toNat % 16) ::
        rest) = some (c.toNat, rest) := by
      have hzero : hexValue '0' = some 0 := rfl
      rw [parseUnit, hzero, hexValue_hexDigit _ (by omega), hexValue_hexDigit _ (by omega)]
      simp only [Option.bind_eq_bind, Option.bind_some, Option.some.injEq, Prod.mk.injEq, and_true]
      omega
    have hescape : parseEscape ('u' :: '0' :: '0' :: hexDigit (c.toNat / 16) ::
        hexDigit (c.toNat % 16) :: rest) = some (c, rest) := by
      rw [parseEscape, if_pos rfl, parseUnicode, hunit]
      dsimp only
      rw [if_neg (by omega), if_neg (by omega), Char.ofNat_toNat]
    simp only [List.cons_append, List.nil_append]
    rw [parseChars, if_neg (by decide), if_pos rfl, hescape]
  · next hquote hslash _ _ _ _ _ hcontrol =>
    rw [List.singleton_append, parseChars, if_neg hquote, if_neg hslash, if_neg hcontrol]

theorem parseChars_flatMap (text : Text) (fuel : Nat) (rest : Text)
    (hfuel : text.length + 1 ≤ fuel) :
    parseChars fuel (text.flatMap escapeChar ++ '"' :: rest) = some (text, rest) := by
  induction text generalizing fuel with
  | nil =>
      obtain ⟨fuel, rfl⟩ : ∃ n, fuel = n + 1 := ⟨fuel - 1, by simp at hfuel; omega⟩
      rw [List.flatMap_nil, List.nil_append, parseChars, if_pos rfl]
  | cons c text ih =>
      obtain ⟨fuel, rfl⟩ : ∃ n, fuel = n + 1 := ⟨fuel - 1, by simp at hfuel; omega⟩
      rw [List.length_cons] at hfuel
      rw [List.flatMap_cons, List.append_assoc, parseChars_escapeChar, ih fuel (by omega)]
      rfl

theorem length_le_quote (text : Text) : text.length + 2 ≤ (quote text).length := by
  have hchar : ∀ c, 1 ≤ (escapeChar c).length := by
    intro c
    unfold escapeChar
    repeat' split
    all_goals simp
  have hall : text.length ≤ (text.flatMap escapeChar).length := by
    induction text with
    | nil => simp
    | cons c text ih =>
        have := hchar c
        rw [List.flatMap_cons, List.length_append, List.length_cons]
        omega
  simp only [quote, List.cons_append, List.length_cons, List.length_append, List.length_nil]
  omega

/-- A value whose numbers are texts of numbers. -/
inductive WellFormed : Json → Prop where
  | null : WellFormed .null
  | bool (b : Bool) : WellFormed (.bool b)
  | number {digits : String} (h : parseNumber digits.toList = some (.number digits, [])) :
      WellFormed (.number digits)
  | string (s : String) : WellFormed (.string s)
  | array {items : List Json} (h : ∀ item ∈ items, WellFormed item) : WellFormed (.array items)
  | object {members : List (String × Json)} (h : ∀ member ∈ members, WellFormed member.2) :
      WellFormed (.object members)

/-- No number goes on here. -/
def EndsNumber (rest : Text) : Prop := ∀ c ∈ rest.head?, isNumberChar c = false

theorem parseNumber_eq_some {text rest : Text} {value : Json}
    (h : parseNumber text = some (value, rest)) :
    isNumber (text.takeWhile isNumberChar) = true ∧
      value = .number (String.ofList (text.takeWhile isNumberChar)) ∧
      rest = text.dropWhile isNumberChar := by
  unfold parseNumber at h
  split at h
  · next hnumber =>
    obtain ⟨rfl, rfl⟩ := Prod.mk.inj (Option.some.inj h)
    exact ⟨hnumber, rfl, rfl⟩
  · cases h

theorem parseNumber_append {digits : String} {rest : Text}
    (h : parseNumber digits.toList = some (.number digits, [])) (hrest : EndsNumber rest) :
    parseNumber (digits.toList ++ rest) = some (.number digits, rest) := by
  obtain ⟨hnumber, hvalue, hall⟩ := parseNumber_eq_some h
  have hchars : ∀ c ∈ digits.toList, isNumberChar c = true :=
    List.dropWhile_eq_nil_iff.mp hall.symm
  have htake : digits.toList.takeWhile isNumberChar = digits.toList :=
    List.takeWhile_eq_self_iff.mpr hchars
  have hstop : rest.takeWhile isNumberChar = [] ∧ rest.dropWhile isNumberChar = rest := by
    cases rest with
    | nil => exact ⟨rfl, rfl⟩
    | cons c rest =>
        have hc : isNumberChar c = false := hrest c rfl
        simp [hc]
  rw [htake] at hnumber
  rw [parseNumber, List.takeWhile_append_of_pos hchars, List.dropWhile_append_of_pos hchars,
    hstop.1, hstop.2, List.append_nil, if_pos hnumber, String.ofList_toList]

theorem skipSpace_cons {c : Char} (h : isSpace c = false) (rest : Text) :
    skipSpace (c :: rest) = c :: rest := by
  simp [skipSpace, h]

theorem skipSpace_newline (indent : Nat) (rest : Text) :
    skipSpace (newline indent ++ rest) = skipSpace rest := by
  rw [skipSpace, List.dropWhile_append_of_pos]
  · rfl
  · intro c hc
    rcases List.mem_cons.mp hc with rfl | hc
    · rfl
    · rw [List.eq_of_mem_replicate hc]
      rfl

theorem parseValue_newline (fuel indent : Nat) (text : Text) :
    parseValue fuel (newline indent ++ text) = parseValue fuel text := by
  cases fuel with
  | zero => simp only [parseValue]
  | succ fuel => simp only [parseValue, skipSpace_newline]

theorem parseItems_newline (fuel indent : Nat) (text : Text) :
    parseItems fuel (newline indent ++ text) = parseItems fuel text := by
  cases fuel with
  | zero => simp only [parseItems]
  | succ fuel => simp only [parseItems, parseValue_newline]

theorem parseMembers_newline (fuel indent : Nat) (text : Text) :
    parseMembers fuel (newline indent ++ text) = parseMembers fuel text := by
  cases fuel with
  | zero => simp only [parseMembers]
  | succ fuel =>
      cases fuel with
      | zero => simp only [parseMembers, parseMember]
      | succ fuel => simp only [parseMembers, parseMember, skipSpace_newline]

/-- What can come after a value: the end, a comma or a new line. -/
theorem endsNumber_cons {c : Char} (h : isNumberChar c = false) (rest : Text) :
    EndsNumber (c :: rest) := by
  intro d hd
  obtain rfl : c = d := by simpa using hd
  exact h

theorem endsNumber_prettyItems (indent : Nat) (items : List Json) (rest : Text) :
    EndsNumber (prettyItems indent items ++ rest) := by
  cases items with
  | nil => exact endsNumber_cons (by decide) _
  | cons item items =>
      simp only [prettyItems, List.cons_append]
      exact endsNumber_cons (by decide) _

theorem endsNumber_prettyMembers (indent : Nat) (members : List (String × Json)) (rest : Text) :
    EndsNumber (prettyMembers indent members ++ rest) := by
  cases members with
  | nil => exact endsNumber_cons (by decide) _
  | cons member members =>
      simp only [prettyMembers, List.cons_append]
      exact endsNumber_cons (by decide) _

/-- A character with which a value may begin. -/
def IsHead (c : Char) : Prop :=
  c = '"' ∨ c = '[' ∨ c = '{' ∨ c = 'n' ∨ c = 't' ∨ c = 'f' ∨ c = '-' ∨ c.isDigit = true

theorem isNumber_head {text : Text} (h : isNumber text = true) :
    ∃ c rest, text = c :: rest ∧ (c = '-' ∨ c.isDigit = true) := by
  cases text with
  | nil => cases h
  | cons c rest =>
      refine ⟨c, rest, rfl, ?_⟩
      by_contra hnot
      obtain ⟨hminus, hdigit⟩ := not_or.mp hnot
      have hzero : c ≠ '0' := by
        rintro rfl
        exact hdigit rfl
      simp [isNumber, dropMinus, hminus, dropInteger, hzero, dropDigits, hdigit] at h

theorem pretty_head {value : Json} (h : WellFormed value) (indent : Nat) :
    ∃ c rest, pretty indent value = c :: rest ∧ IsHead c := by
  cases h with
  | null => exact ⟨'n', _, rfl, by simp [IsHead]⟩
  | bool b =>
      cases b with
      | false => exact ⟨'f', _, by simp only [pretty]; rfl, by simp [IsHead]⟩
      | true => exact ⟨'t', _, by simp only [pretty]; rfl, by simp [IsHead]⟩
  | @number digits h =>
      obtain ⟨hnumber, hvalue, hall⟩ := parseNumber_eq_some h
      rw [List.takeWhile_eq_self_iff.mpr (List.dropWhile_eq_nil_iff.mp hall.symm)] at hnumber
      obtain ⟨c, rest, htext, hc⟩ := isNumber_head hnumber
      refine ⟨c, rest, by simpa only [pretty] using htext, ?_⟩
      unfold IsHead
      tauto
  | string s => exact ⟨'"', _, by simp only [pretty, quote, List.cons_append]; rfl, by simp [IsHead]⟩
  | @array items h =>
      cases items with
      | nil => exact ⟨'[', [']'], by simp only [pretty], by simp [IsHead]⟩
      | cons item items =>
          exact ⟨'[', _, by simp only [pretty, List.cons_append]; rfl, by simp [IsHead]⟩
  | @object members h =>
      cases members with
      | nil => exact ⟨'{', ['}'], by simp only [pretty], by simp [IsHead]⟩
      | cons member members =>
          exact ⟨'{', _, by simp only [pretty, List.cons_append]; rfl, by simp [IsHead]⟩

theorem IsHead.not_isSpace {c : Char} (h : IsHead c) : isSpace c = false ∧ c ≠ ']' ∧ c ≠ '}' := by
  unfold IsHead at h
  rcases h with rfl | rfl | rfl | rfl | rfl | rfl | rfl | hdigit
  all_goals first | decide | skip
  refine ⟨?_, ?_, ?_⟩
  · by_contra hspace
    simp only [Bool.not_eq_false, isSpace, Bool.or_eq_true, decide_eq_true_eq] at hspace
    rcases hspace with ((rfl | rfl) | rfl) | rfl <;> simp at hdigit
  · rintro rfl
    simp at hdigit
  · rintro rfl
    simp at hdigit

/-- The printed value is read back whatever follows, if the fuel is enough. -/
def RoundTrips (value : Json) : Prop :=
  ∀ indent fuel rest, EndsNumber rest → 2 * (pretty indent value).length + 1 ≤ fuel →
    parseValue fuel (pretty indent value ++ rest) = some (value, rest)

theorem skipSpace_pretty {value : Json} (h : WellFormed value) (indent : Nat) (rest : Text) :
    ∃ c after, IsHead c ∧ pretty indent value ++ rest = c :: after ∧
      skipSpace (pretty indent value ++ rest) = c :: after := by
  obtain ⟨c, after, htext, hc⟩ := pretty_head h indent
  refine ⟨c, after ++ rest, hc, by rw [htext, List.cons_append], ?_⟩
  rw [htext, List.cons_append, skipSpace_cons hc.not_isSpace.1]

theorem parseItems_pretty {item : Json} {items : List Json} (hitem : RoundTrips item)
    (hitems : ∀ item ∈ items, RoundTrips item) (indent fuel : Nat) (rest : Text)
    (hfuel : 2 * (pretty (indent + 1) item ++ prettyItems indent items).length + 2 ≤ fuel) :
    parseItems fuel (pretty (indent + 1) item ++ prettyItems indent items ++ rest) =
      some (item :: items, rest) := by
  induction items generalizing item fuel with
  | nil =>
      obtain ⟨fuel, rfl⟩ : ∃ n, fuel = n + 1 := ⟨fuel - 1, by omega⟩
      have hvalue := hitem (indent + 1) fuel (prettyItems indent [] ++ rest)
        (endsNumber_prettyItems indent [] rest) (by rw [List.length_append] at hfuel; omega)
      rw [List.append_assoc, parseItems, hvalue]
      simp only [prettyItems, List.append_assoc, skipSpace_newline, List.singleton_append]
      rw [skipSpace_cons (by decide)]
      simp
  | cons next items ih =>
      obtain ⟨fuel, rfl⟩ : ∃ n, fuel = n + 1 := ⟨fuel - 1, by omega⟩
      obtain ⟨hnext, hitems⟩ := List.forall_mem_cons.mp hitems
      have hvalue := hitem (indent + 1) fuel (prettyItems indent (next :: items) ++ rest)
        (endsNumber_prettyItems indent (next :: items) rest)
        (by rw [List.length_append] at hfuel; omega)
      have hrest := ih hnext hitems fuel (by
        simp only [prettyItems, newline, List.length_append, List.length_cons] at hfuel ⊢
        omega)
      rw [List.append_assoc, parseItems, hvalue]
      simp only [prettyItems, List.cons_append, List.append_assoc]
      rw [skipSpace_cons (by decide)]
      simp only [if_true, parseItems_newline]
      rw [List.append_assoc] at hrest
      rw [hrest]
      rfl

/-- The key, the colon and the value of one member. -/
theorem parseMember_pretty {member : String × Json} (hmember : RoundTrips member.2)
    (indent fuel : Nat) {rest : Text} (hrest : EndsNumber rest)
    (hfuel : 2 * (prettyMember indent member).length ≤ fuel) :
    parseMember fuel (prettyMember indent member ++ rest) = some (member, rest) := by
  obtain ⟨key, value⟩ := member
  have hquote := length_le_quote key.toList
  have hlength : (prettyMember indent (key, value)).length =
      (quote key.toList).length + 2 + (pretty indent value).length := by
    simp only [prettyMember, List.length_append, List.length_cons]
    omega
  obtain ⟨fuel, rfl⟩ : ∃ n, fuel = n + 1 := ⟨fuel - 1, by omega⟩
  have hkey := parseChars_flatMap key.toList fuel
    (':' :: ' ' :: (pretty indent value ++ rest)) (by omega)
  have hcolon : parseColon (':' :: ' ' :: (pretty indent value ++ rest)) =
      some (' ' :: (pretty indent value ++ rest)) := by
    rw [parseColon, skipSpace_cons (by decide)]
    simp
  have hspace : parseValue fuel (' ' :: (pretty indent value ++ rest)) =
      parseValue fuel (pretty indent value ++ rest) := by
    cases fuel with
    | zero => simp only [parseValue]
    | succ fuel =>
        have hskip : skipSpace (' ' :: (pretty indent value ++ rest)) =
            skipSpace (pretty indent value ++ rest) := by
          simp [skipSpace, isSpace]
        simp only [parseValue, hskip]
  replace hmember : RoundTrips value := hmember
  have hvalue := hmember indent fuel rest hrest (by omega)
  simp only [prettyMember, quote, List.cons_append, List.append_assoc, List.nil_append]
  rw [parseMember, skipSpace_cons (by decide)]
  simp only [if_true, hkey, hcolon, hspace, hvalue, String.ofList_toList, Option.map_some]

theorem parseMembers_pretty {member : String × Json} {members : List (String × Json)}
    (hmember : RoundTrips member.2) (hmembers : ∀ member ∈ members, RoundTrips member.2)
    (indent fuel : Nat) (rest : Text)
    (hfuel : 2 * (prettyMember (indent + 1) member ++ prettyMembers indent members).length + 2 ≤
      fuel) :
    parseMembers fuel (prettyMember (indent + 1) member ++ prettyMembers indent members ++ rest) =
      some (member :: members, rest) := by
  induction members generalizing member fuel with
  | nil =>
      obtain ⟨fuel, rfl⟩ : ∃ n, fuel = n + 1 := ⟨fuel - 1, by omega⟩
      rw [List.append_assoc, parseMembers, parseMember_pretty hmember (indent + 1) fuel
        (endsNumber_prettyMembers indent [] rest) (by rw [List.length_append] at hfuel; omega)]
      simp only [prettyMembers, List.append_assoc, skipSpace_newline, List.singleton_append]
      rw [skipSpace_cons (by decide)]
      simp
  | cons next members ih =>
      obtain ⟨fuel, rfl⟩ : ∃ n, fuel = n + 1 := ⟨fuel - 1, by omega⟩
      obtain ⟨hnext, hmembers⟩ := List.forall_mem_cons.mp hmembers
      have hrest := ih hnext hmembers fuel (by
        simp only [prettyMembers, newline, List.length_append, List.length_cons] at hfuel ⊢
        omega)
      rw [List.append_assoc, parseMembers, parseMember_pretty hmember (indent + 1) fuel
        (endsNumber_prettyMembers indent (next :: members) rest)
        (by rw [List.length_append] at hfuel; omega)]
      simp only [prettyMembers, List.cons_append, List.append_assoc]
      rw [skipSpace_cons (by decide)]
      simp only [if_true, parseMembers_newline]
      rw [List.append_assoc] at hrest
      rw [hrest]
      rfl

theorem parseValue_number {c : Char} (h : c = '-' ∨ c.isDigit = true) (fuel : Nat) (rest : Text) :
    parseValue (fuel + 1) (c :: rest) = parseNumber (c :: rest) := by
  have hhead : IsHead c := by
    unfold IsHead
    tauto
  have hother : ∀ d, d.isDigit = false → d ≠ '-' → c ≠ d := by
    rintro d hd hminus rfl
    rcases h with h | h
    · exact hminus h
    · rw [hd] at h
      cases h
  rw [parseValue, skipSpace_cons hhead.not_isSpace.1]
  simp [hother '"' (by decide) (by decide), hother '[' (by decide) (by decide),
    hother '{' (by decide) (by decide), hother 'n' (by decide) (by decide),
    hother 't' (by decide) (by decide), hother 'f' (by decide) (by decide)]

theorem WellFormed.roundTrips {value : Json} (h : WellFormed value) : RoundTrips value := by
  induction h with
  | null =>
      intro indent fuel rest _ hfuel
      obtain ⟨fuel, rfl⟩ : ∃ n, fuel = n + 1 := ⟨fuel - 1, by omega⟩
      simp [parseValue, pretty, skipSpace, isSpace, parseWord]
  | bool b =>
      intro indent fuel rest _ hfuel
      obtain ⟨fuel, rfl⟩ : ∃ n, fuel = n + 1 := ⟨fuel - 1, by omega⟩
      cases b <;> simp [parseValue, pretty, skipSpace, isSpace, parseWord]
  | @number digits h =>
      intro indent fuel rest hrest hfuel
      obtain ⟨fuel, rfl⟩ : ∃ n, fuel = n + 1 := ⟨fuel - 1, by omega⟩
      have hnumber := parseNumber_append h hrest
      obtain ⟨hvalid, -, hall⟩ := parseNumber_eq_some h
      rw [List.takeWhile_eq_self_iff.mpr (List.dropWhile_eq_nil_iff.mp hall.symm)] at hvalid
      obtain ⟨c, digitsRest, htext, hc⟩ := isNumber_head hvalid
      simp only [pretty]
      rw [htext, List.cons_append] at hnumber ⊢
      rw [parseValue_number hc, hnumber]
  | string s =>
      intro indent fuel rest _ hfuel
      obtain ⟨fuel, rfl⟩ : ∃ n, fuel = n + 1 := ⟨fuel - 1, by omega⟩
      have hquote := length_le_quote s.toList
      have hchars := parseChars_flatMap s.toList fuel rest (by
        simp only [pretty] at hfuel
        omega)
      simp only [pretty, quote, List.cons_append, List.append_assoc, List.nil_append, parseValue]
      rw [skipSpace_cons (by decide)]
      simp [hchars, String.ofList_toList]
  | @array items hitems ih =>
      intro indent fuel rest _ hfuel
      obtain ⟨fuel, rfl⟩ : ∃ n, fuel = n + 1 := ⟨fuel - 1, by omega⟩
      cases items with
      | nil => simp [parseValue, pretty, skipSpace, isSpace]
      | cons item items =>
          obtain ⟨hitem, hitems⟩ := List.forall_mem_cons.mp hitems
          obtain ⟨hfirst, hothers⟩ := List.forall_mem_cons.mp ih
          have hparse := parseItems_pretty hfirst hothers indent fuel rest (by
            simp only [pretty, newline, List.length_append, List.length_cons] at hfuel ⊢
            omega)
          obtain ⟨c, after, hc, htext, hskip⟩ := skipSpace_pretty hitem (indent + 1)
            (prettyItems indent items ++ rest)
          rw [List.append_assoc, htext] at hparse
          simp only [pretty, List.cons_append, List.append_assoc, parseValue]
          rw [skipSpace_cons (by decide)]
          simp only [skipSpace_newline, hskip]
          simp [hparse, hc.not_isSpace]
  | @object members hmembers ih =>
      intro indent fuel rest _ hfuel
      obtain ⟨fuel, rfl⟩ : ∃ n, fuel = n + 1 := ⟨fuel - 1, by omega⟩
      cases members with
      | nil => simp [parseValue, pretty, skipSpace, isSpace]
      | cons member members =>
          obtain ⟨hfirst, hothers⟩ := List.forall_mem_cons.mp ih
          have hparse := parseMembers_pretty hfirst hothers indent fuel rest (by
            simp only [pretty, newline, List.length_append, List.length_cons] at hfuel ⊢
            omega)
          obtain ⟨after, htext⟩ : ∃ after, prettyMember (indent + 1) member ++
              (prettyMembers indent members ++ rest) = '"' :: after := by
            obtain ⟨key, value⟩ := member
            simp only [prettyMember, quote, List.cons_append]
            exact ⟨_, rfl⟩
          rw [List.append_assoc, htext] at hparse
          simp only [pretty, List.cons_append, List.append_assoc, parseValue]
          rw [skipSpace_cons (by decide)]
          simp only [skipSpace_newline, htext, skipSpace_cons (show isSpace '"' = false from rfl)]
          simp [hparse]

/-- The parser inverts the printer. -/
theorem parse_pretty {value : Json} (h : WellFormed value) (indent : Nat) :
    parse (pretty indent value) = some value := by
  have hvalue := h.roundTrips indent (2 * (pretty indent value).length + 2) [] (by
    intro c hc
    cases hc) (by omega)
  rw [List.append_nil] at hvalue
  simp [parse, hvalue, skipSpace]

end MullvadAppTests.Lib.Json
