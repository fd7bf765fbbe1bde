import MullvadAppTests.Lib.JsonText

/-!
What the parser has read does not depend on what follows, except that a number may
go on where the text ends. So the text of an object has no proper prefix that is
the text of a value.
-/

namespace MullvadAppTests.Lib.Json

theorem skipSpace_append {text rest : Text} {c : Char} (h : skipSpace text = c :: rest)
    (more : Text) : skipSpace (text ++ more) = c :: (rest ++ more) := by
  unfold skipSpace at h ⊢
  rw [List.dropWhile_append, if_neg (by simp [h]), h, List.cons_append]

theorem parseUnit_append {text rest : Text} {n : Nat} (h : parseUnit text = some (n, rest))
    (more : Text) : parseUnit (text ++ more) = some (n, rest ++ more) := by
  match text with
  | a :: b :: c :: d :: tail =>
      simp only [parseUnit, List.cons_append, Option.bind_eq_bind, Option.bind_eq_some_iff] at h ⊢
      obtain ⟨a', ha, b', hb, c', hc, d', hd, h⟩ := h
      refine ⟨a', ha, b', hb, c', hc, d', hd, ?_⟩
      obtain ⟨rfl, rfl⟩ := Prod.mk.inj (Option.some.inj h)
      rfl
  | [] => cases h
  | [_] => cases h
  | [_, _] => cases h
  | [_, _, _] => cases h

theorem parseTrail_append {text rest : Text} {n : Nat} (h : parseTrail text = some (n, rest))
    (more : Text) : parseTrail (text ++ more) = some (n, rest ++ more) := by
  match text with
  | slash :: u :: tail =>
      simp only [parseTrail, List.cons_append] at h ⊢
      split at h
      · cases hunit : parseUnit tail with
        | none => simp [hunit] at h
        | some p =>
            obtain ⟨m, after⟩ := p
            rw [parseUnit_append hunit]
            simp only [hunit] at h ⊢
            split at h
            · obtain ⟨rfl, rfl⟩ := Prod.mk.inj (Option.some.inj h)
              simp_all
            · cases h
      · cases h
  | [] => cases h
  | [_] => cases h

theorem parseUnicode_append {text rest : Text} {c : Char}
    (h : parseUnicode text = some (c, rest)) (more : Text) :
    parseUnicode (text ++ more) = some (c, rest ++ more) := by
  unfold parseUnicode at h ⊢
  cases hunit : parseUnit text with
  | none => simp [hunit] at h
  | some p =>
      obtain ⟨n, after⟩ := p
      rw [parseUnit_append hunit]
      simp only [hunit] at h ⊢
      split
      · next hlead =>
        rw [if_pos hlead] at h
        cases htrail : parseTrail after with
        | none => simp [htrail] at h
        | some q =>
            rw [parseTrail_append htrail]
            simp only [htrail] at h ⊢
            obtain ⟨rfl, rfl⟩ := Prod.mk.inj (Option.some.inj h)
            rfl
      · next hlead =>
        rw [if_neg hlead] at h
        split at h
        · cases h
        · next htrail =>
          rw [if_neg htrail]
          obtain ⟨rfl, rfl⟩ := Prod.mk.inj (Option.some.inj h)
          rfl

theorem parseEscape_append {text rest : Text} {c : Char}
    (h : parseEscape text = some (c, rest)) (more : Text) :
    parseEscape (text ++ more) = some (c, rest ++ more) := by
  cases text with
  | nil => cases h
  | cons e tail =>
      simp only [parseEscape, List.cons_append] at h ⊢
      split
      · next hu =>
        rw [if_pos hu] at h
        exact parseUnicode_append h more
      · next hu =>
        rw [if_neg hu] at h
        obtain ⟨d, hd, heq⟩ := Option.map_eq_some_iff.mp h
        obtain ⟨rfl, rfl⟩ := Prod.mk.inj heq
        simp [hd]

/-- More fuel and more text change nothing. -/
theorem parseChars_append {fuel : Nat} {text chars rest : Text}
    (h : parseChars fuel text = some (chars, rest)) {more : Text} {fuel' : Nat}
    (hfuel : fuel ≤ fuel') : parseChars fuel' (text ++ more) = some (chars, rest ++ more) := by
  induction fuel generalizing text chars fuel' with
  | zero => simp [parseChars] at h
  | succ fuel ih =>
      obtain ⟨fuel', rfl⟩ : ∃ n, fuel' = n + 1 := ⟨fuel' - 1, by omega⟩
      replace hfuel : fuel ≤ fuel' := by omega
      have hmap : ∀ {c tail}, ((parseChars fuel tail).map fun p => (c :: p.1, p.2)) =
          some (chars, rest) → ((parseChars fuel' (tail ++ more)).map fun p => (c :: p.1, p.2)) =
          some (chars, rest ++ more) := by
        intro c tail hmap
        obtain ⟨⟨cs, after⟩, hcs, heq⟩ := Option.map_eq_some_iff.mp hmap
        obtain ⟨rfl, rfl⟩ := Prod.mk.inj heq
        rw [ih hcs hfuel]
        rfl
      cases text with
      | nil => simp [parseChars] at h
      | cons c tail =>
          simp only [List.cons_append, parseChars] at h ⊢
          split
          · next hquote =>
            rw [if_pos hquote] at h
            obtain ⟨rfl, rfl⟩ := Prod.mk.inj (Option.some.inj h)
            rfl
          next hquote =>
          rw [if_neg hquote] at h
          split
          · next hslash =>
            rw [if_pos hslash] at h
            cases hescape : parseEscape tail with
            | none => simp [hescape] at h
            | some p =>
                rw [parseEscape_append hescape]
                simp only [hescape] at h ⊢
                exact hmap h
          next hslash =>
          rw [if_neg hslash] at h
          split at h
          · cases h
          · next hcontrol =>
            rw [if_neg hcontrol]
            exact hmap h

theorem parseWord_append {word text rest : Text} {result value : Json}
    (h : parseWord word result text = some (value, rest)) (more : Text) :
    parseWord word result (text ++ more) = some (value, rest ++ more) := by
  unfold parseWord at h ⊢
  split at h
  · next hword =>
    obtain ⟨rfl, rfl⟩ := Prod.mk.inj (Option.some.inj h)
    rw [if_pos (hword.trans (List.prefix_append text more)),
      List.drop_append_of_le_length hword.length_le]
  · cases h

/-- A number may go on where the text ends. -/
theorem parseNumber_extend {text rest : Text} {value : Json}
    (h : parseNumber text = some (value, rest)) (hrest : rest ≠ []) (more : Text) :
    parseNumber (text ++ more) = some (value, rest ++ more) := by
  obtain ⟨hnumber, rfl, rfl⟩ := parseNumber_eq_some h
  have hlength : (text.takeWhile isNumberChar).length ≠ text.length := by
    intro hlength
    apply hrest
    have hsplit := congrArg List.length (List.takeWhile_append_dropWhile (p := isNumberChar)
      (l := text))
    rw [List.length_append] at hsplit
    exact List.length_eq_zero_iff.mp (by omega)
  have htake : (text ++ more).takeWhile isNumberChar = text.takeWhile isNumberChar := by
    rw [List.takeWhile_append, if_neg hlength]
  have hdrop : (text ++ more).dropWhile isNumberChar = text.dropWhile isNumberChar ++ more := by
    rw [List.dropWhile_append, if_neg (by simpa using hrest)]
  rw [parseNumber, htake, hdrop, if_pos hnumber]

theorem parseColon_append {text rest : Text} (h : parseColon text = some rest) (more : Text) :
    parseColon (text ++ more) = some (rest ++ more) := by
  unfold parseColon at h ⊢
  cases hskip : skipSpace text with
  | nil => simp [hskip] at h
  | cons c tail =>
      rw [skipSpace_append hskip]
      simp only [hskip] at h ⊢
      split at h
      · next hc =>
        rw [if_pos hc, ← Option.some.inj h]
      · cases h

/-- The value ends where it ends, whatever comes. -/
def Closed (value : Json) (rest : Text) : Prop := rest ≠ [] ∨ ∀ digits, value ≠ .number digits

def ValueExtends (fuel : Nat) : Prop :=
  ∀ {text value rest}, parseValue fuel text = some (value, rest) → Closed value rest →
    ∀ more {fuel'}, fuel ≤ fuel' → parseValue fuel' (text ++ more) = some (value, rest ++ more)

def ItemsExtend (fuel : Nat) : Prop :=
  ∀ {text items rest}, parseItems fuel text = some (items, rest) →
    ∀ more {fuel'}, fuel ≤ fuel' → parseItems fuel' (text ++ more) = some (items, rest ++ more)

def MemberExtends (fuel : Nat) : Prop :=
  ∀ {text member rest}, parseMember fuel text = some (member, rest) → rest ≠ [] →
    ∀ more {fuel'}, fuel ≤ fuel' → parseMember fuel' (text ++ more) = some (member, rest ++ more)

def MembersExtend (fuel : Nat) : Prop :=
  ∀ {text members rest}, parseMembers fuel text = some (members, rest) →
    ∀ more {fuel'}, fuel ≤ fuel' → parseMembers fuel' (text ++ more) = some (members, rest ++ more)

theorem closed_of_skipSpace {value : Json} {rest after : Text} {c : Char}
    (h : skipSpace rest = c :: after) : Closed value rest := by
  left
  rintro rfl
  cases h

theorem ItemsExtend.succ {fuel : Nat} (hvalue : ValueExtends fuel) (hitems : ItemsExtend fuel) :
    ItemsExtend (fuel + 1) := by
  intro text items rest h more fuel' hfuel
  obtain ⟨fuel', rfl⟩ : ∃ n, fuel' = n + 1 := ⟨fuel' - 1, by omega⟩
  replace hfuel : fuel ≤ fuel' := by omega
  simp only [parseItems] at h ⊢
  cases hparse : parseValue fuel text with
  | none => simp [hparse] at h
  | some p =>
      obtain ⟨item, after⟩ := p
      simp only [hparse] at h
      cases hskip : skipSpace after with
      | nil => simp [hskip] at h
      | cons c tail =>
          rw [hvalue hparse (closed_of_skipSpace hskip) more hfuel]
          simp only [hskip, skipSpace_append hskip] at h ⊢
          split
          · next hcomma =>
            rw [if_pos hcomma] at h
            obtain ⟨⟨others, last⟩, hothers, heq⟩ := Option.map_eq_some_iff.mp h
            obtain ⟨rfl, rfl⟩ := Prod.mk.inj heq
            rw [hitems hothers more hfuel]
            rfl
          · next hcomma =>
            rw [if_neg hcomma] at h
            split at h
            · next hclose =>
              obtain ⟨rfl, rfl⟩ := Prod.mk.inj (Option.some.inj h)
              rw [if_pos hclose]
            · cases h

theorem MemberExtends.succ {fuel : Nat} (hvalue : ValueExtends fuel) :
    MemberExtends (fuel + 1) := by
  intro text member rest h hrest more fuel' hfuel
  obtain ⟨fuel', rfl⟩ : ∃ n, fuel' = n + 1 := ⟨fuel' - 1, by omega⟩
  replace hfuel : fuel ≤ fuel' := by omega
  simp only [parseMember] at h ⊢
  cases hstart : skipSpace text with
  | nil => simp [hstart] at h
  | cons c tail =>
      simp only [hstart, skipSpace_append hstart] at h ⊢
      split at h
      next hquote =>
        rw [if_pos hquote]
        cases hchars : parseChars fuel tail with
        | none => simp [hchars] at h
        | some p =>
            obtain ⟨key, afterKey⟩ := p
            rw [parseChars_append hchars hfuel]
            simp only [hchars] at h ⊢
            cases hcolon : parseColon afterKey with
            | none => simp [hcolon] at h
            | some afterColon =>
                rw [parseColon_append hcolon]
                simp only [hcolon] at h ⊢
                obtain ⟨⟨value, after⟩, hparse, heq⟩ := Option.map_eq_some_iff.mp h
                obtain ⟨rfl, rfl⟩ := Prod.mk.inj heq
                rw [hvalue hparse (.inl hrest) more hfuel]
                rfl
      · cases h

theorem MembersExtend.succ {fuel : Nat} (hmember : MemberExtends fuel)
    (hmembers : MembersExtend fuel) : MembersExtend (fuel + 1) := by
  intro text members rest h more fuel' hfuel
  obtain ⟨fuel', rfl⟩ : ∃ n, fuel' = n + 1 := ⟨fuel' - 1, by omega⟩
  replace hfuel : fuel ≤ fuel' := by omega
  simp only [parseMembers] at h ⊢
  cases hparse : parseMember fuel text with
  | none => simp [hparse] at h
  | some p =>
      obtain ⟨member, after⟩ := p
      simp only [hparse] at h
      cases hskip : skipSpace after with
      | nil => simp [hskip] at h
      | cons c tail =>
          have hafter : after ≠ [] := by
            rintro rfl
            cases hskip
          rw [hmember hparse hafter more hfuel]
          simp only [hskip, skipSpace_append hskip] at h ⊢
          split
          · next hcomma =>
            rw [if_pos hcomma] at h
            obtain ⟨⟨others, last⟩, hothers, heq⟩ := Option.map_eq_some_iff.mp h
            obtain ⟨rfl, rfl⟩ := Prod.mk.inj heq
            rw [hmembers hothers more hfuel]
            rfl
          · next hcomma =>
            rw [if_neg hcomma] at h
            split at h
            · next hclose =>
              obtain ⟨rfl, rfl⟩ := Prod.mk.inj (Option.some.inj h)
              rw [if_pos hclose]
            · cases h

theorem ValueExtends.succ {fuel : Nat} (hitems : ItemsExtend fuel)
    (hmembers : MembersExtend fuel) : ValueExtends (fuel + 1) := by
  intro text value rest h hclosed more fuel' hfuel
  obtain ⟨fuel', rfl⟩ : ∃ n, fuel' = n + 1 := ⟨fuel' - 1, by omega⟩
  replace hfuel : fuel ≤ fuel' := by omega
  simp only [parseValue] at h ⊢
  cases hstart : skipSpace text with
  | nil => simp [hstart] at h
  | cons c tail =>
      simp only [hstart, skipSpace_append hstart] at h ⊢
      split
      · next hquote =>
        rw [if_pos hquote] at h
        obtain ⟨⟨chars, after⟩, hchars, heq⟩ := Option.map_eq_some_iff.mp h
        obtain ⟨rfl, rfl⟩ := Prod.mk.inj heq
        rw [parseChars_append hchars hfuel]
        rfl
      next hquote =>
      rw [if_neg hquote] at h
      split
      · next hbracket =>
        rw [if_pos hbracket] at h
        cases hskip : skipSpace tail with
        | nil => simp [hskip] at h
        | cons d after =>
            simp only [hskip, skipSpace_append hskip] at h ⊢
            split
            · next hclose =>
              rw [if_pos hclose] at h
              obtain ⟨rfl, rfl⟩ := Prod.mk.inj (Option.some.inj h)
              rfl
            · next hclose =>
              rw [if_neg hclose] at h
              obtain ⟨⟨items, last⟩, hparse, heq⟩ := Option.map_eq_some_iff.mp h
              obtain ⟨rfl, rfl⟩ := Prod.mk.inj heq
              rw [← List.cons_append, hitems hparse more hfuel]
              rfl
      next hbracket =>
      rw [if_neg hbracket] at h
      split
      · next hbrace =>
        rw [if_pos hbrace] at h
        cases hskip : skipSpace tail with
        | nil => simp [hskip] at h
        | cons d after =>
            simp only [hskip, skipSpace_append hskip] at h ⊢
            split
            · next hclose =>
              rw [if_pos hclose] at h
              obtain ⟨rfl, rfl⟩ := Prod.mk.inj (Option.some.inj h)
              rfl
            · next hclose =>
              rw [if_neg hclose] at h
              obtain ⟨⟨members, last⟩, hparse, heq⟩ := Option.map_eq_some_iff.mp h
              obtain ⟨rfl, rfl⟩ := Prod.mk.inj heq
              rw [← List.cons_append, hmembers hparse more hfuel]
              rfl
      next hbrace =>
      rw [if_neg hbrace] at h
      rw [← List.cons_append]
      split
      · next hn =>
        rw [if_pos hn] at h
        exact parseWord_append h more
      next hn =>
      rw [if_neg hn] at h
      split
      · next ht =>
        rw [if_pos ht] at h
        exact parseWord_append h more
      next ht =>
      rw [if_neg ht] at h
      split
      · next hf =>
        rw [if_pos hf] at h
        exact parseWord_append h more
      · next hf =>
        rw [if_neg hf] at h
        obtain ⟨_, rfl, _⟩ := parseNumber_eq_some h
        rcases hclosed with hrest | hnumber
        · exact parseNumber_extend h hrest more
        · exact absurd rfl (hnumber _)

theorem all_extend (fuel : Nat) :
    ValueExtends fuel ∧ ItemsExtend fuel ∧ MemberExtends fuel ∧ MembersExtend fuel := by
  induction fuel with
  | zero =>
      refine ⟨?_, ?_, ?_, ?_⟩
      · intro text value rest h
        simp [parseValue] at h
      · intro text items rest h
        simp [parseItems] at h
      · intro text member rest h
        simp [parseMember] at h
      · intro text members rest h
        simp [parseMembers] at h
  | succ fuel ih =>
      obtain ⟨hvalue, hitems, hmember, hmembers⟩ := ih
      exact ⟨ValueExtends.succ hitems hmembers, ItemsExtend.succ hvalue hitems,
        MemberExtends.succ hvalue, MembersExtend.succ hmember hmembers⟩

theorem parseValue_brace {fuel : Nat} {text rest : Text} {value : Json}
    (h : parseValue fuel ('{' :: text) = some (value, rest)) : ∃ members, value = .object members := by
  cases fuel with
  | zero => simp [parseValue] at h
  | succ fuel =>
      rw [parseValue, skipSpace_cons (by decide)] at h
      simp only [Char.reduceEq, if_false, if_true] at h
      split at h
      · cases h
      · split at h
        · obtain ⟨rfl, rfl⟩ := Prod.mk.inj (Option.some.inj h)
          exact ⟨[], rfl⟩
        · obtain ⟨⟨members, last⟩, _, heq⟩ := Option.map_eq_some_iff.mp h
          obtain ⟨rfl, rfl⟩ := Prod.mk.inj heq
          exact ⟨members, rfl⟩

theorem pretty_object (indent : Nat) (members : List (String × Json)) :
    ∃ rest, pretty indent (.object members) = '{' :: rest := by
  cases members with
  | nil => exact ⟨['}'], by simp only [pretty]⟩
  | cons member members => exact ⟨_, by simp only [pretty, List.cons_append]; rfl⟩

/-- An object of which the end is missing cannot be read. -/
theorem parse_prefix {members : List (String × Json)} (h : WellFormed (.object members))
    {indent : Nat} {text : Text} (hbegin : text <+: pretty indent (.object members))
    (hne : text ≠ pretty indent (.object members)) : parse text = none := by
  obtain ⟨missing, hmissing⟩ := hbegin
  cases hparse : parseValue (2 * text.length + 2) text with
  | none => simp [parse, hparse]
  | some p =>
      obtain ⟨value, rest⟩ := p
      exfalso
      obtain ⟨after, hbrace⟩ := pretty_object indent members
      have hclosed : Closed value rest := by
        right
        rintro digits rfl
        cases text with
        | nil => simp [parseValue, skipSpace] at hparse
        | cons c tail =>
            obtain rfl : c = '{' := by
              rw [hbrace, List.cons_append] at hmissing
              exact (List.cons.inj hmissing).1
            obtain ⟨members, hvalue⟩ := parseValue_brace hparse
            cases hvalue
      have hlength : (pretty indent (.object members)).length = text.length + missing.length := by
        rw [← hmissing, List.length_append]
      have hextended := (all_extend _).1 hparse hclosed missing
        (show 2 * text.length + 2 ≤ 2 * (pretty indent (.object members)).length + 2 by omega)
      have hwhole := h.roundTrips indent (2 * (pretty indent (.object members)).length + 2) []
        (by intro c hc; cases hc) (by omega)
      rw [hmissing] at hextended
      rw [List.append_nil, hextended] at hwhole
      have hrest : rest ++ missing = [] := (Prod.mk.inj (Option.some.inj hwhole)).2
      rw [(List.append_eq_nil_iff.mp hrest).2, List.append_nil] at hmissing
      exact hne hmissing

end MullvadAppTests.Lib.Json
