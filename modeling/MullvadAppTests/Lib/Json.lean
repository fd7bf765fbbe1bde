import Mathlib.Data.List.Basic

/-!
JSON values and references to members of them. A mutable reference is the value it
points to together with the function that puts another value in its place.
-/

namespace MullvadAppTests.Lib

/-- Numbers are kept as they are written. -/
inductive Json where
  | null
  | bool (b : Bool)
  | number (digits : String)
  | string (s : String)
  | array (items : List Json)
  | object (members : List (String × Json))

namespace Json

structure Ref where
  value : Json
  put : Json → Json

/-- The first member with the key, and the members with it replaced. -/
def findMember (key : String) :
    List (String × Json) → Option (Json × (Json → List (String × Json)))
  | [] => none
  | (k, value) :: rest =>
      if k = key then some (value, fun new => (k, new) :: rest)
      else (findMember key rest).map fun found => (found.1, fun new => (k, value) :: found.2 new)

/-- `None` for a missing key and for a value that is no object. -/
def getMut (key : String) : Json → Option Ref
  | .object members => (findMember key members).map fun found => ⟨found.1, .object ∘ found.2⟩
  | _ => none

def at? : List String → Json → Option Json
  | [], value => some value
  | key :: rest, value => (getMut key value).bind fun ref => at? rest ref.value

/-- `new` is `old` with the member `v` at the path replaced by `w`; every other
member at every depth is the same. -/
inductive ReplacedAt (v w : Json) : List String → Json → Json → Prop where
  | here : ReplacedAt v w [] v w
  | member {key : String} {rest : List String} {before after : List (String × Json)}
      {old new : Json} (hkey : ∀ member ∈ before, member.1 ≠ key)
      (h : ReplacedAt v w rest old new) :
      ReplacedAt v w (key :: rest) (.object (before ++ (key, old) :: after))
        (.object (before ++ (key, new) :: after))

theorem findMember_eq_some {key : String} {members : List (String × Json)} {value : Json}
    {put : Json → List (String × Json)} (h : findMember key members = some (value, put)) :
    ∃ before after, (∀ member ∈ before, member.1 ≠ key) ∧
      members = before ++ (key, value) :: after ∧
      ∀ new, put new = before ++ (key, new) :: after := by
  induction members generalizing put with
  | nil => cases h
  | cons member rest ih =>
      obtain ⟨k, first⟩ := member
      rw [findMember] at h
      split at h
      · next hk =>
        cases h
        exact ⟨[], rest, by simp, by simp [hk], by simp [hk]⟩
      · next hk =>
        obtain ⟨⟨found, putRest⟩, hfound, heq⟩ := Option.map_eq_some_iff.mp h
        cases heq
        obtain ⟨before, after, hbefore, hrest, hput⟩ := ih hfound
        refine ⟨(k, first) :: before, after, ?_, by simp [hrest], by simp [hput]⟩
        intro member hmember
        obtain rfl | hold := List.mem_cons.mp hmember
        · exact hk
        · exact hbefore member hold

theorem getMut_eq_some {key : String} {json : Json} {ref : Ref} (h : getMut key json = some ref) :
    ∃ before after, (∀ member ∈ before, member.1 ≠ key) ∧
      json = .object (before ++ (key, ref.value) :: after) ∧
      ∀ new, ref.put new = .object (before ++ (key, new) :: after) := by
  cases json with
  | object members =>
      obtain ⟨⟨value, put⟩, hfound, rfl⟩ := Option.map_eq_some_iff.mp h
      obtain ⟨before, after, hbefore, hmembers, hput⟩ := findMember_eq_some hfound
      exact ⟨before, after, hbefore, by rw [hmembers], by simp [hput]⟩
  | null => cases h
  | bool b => cases h
  | number digits => cases h
  | string s => cases h
  | array items => cases h

/-- Writing through a reference to a member replaces in it what was replaced
there. -/
theorem replacedAt_put {v w old new : Json} {key : String} {rest : List String} {json : Json}
    {ref : Ref} (hget : getMut key json = some ref) (hvalue : ref.value = old)
    (h : ReplacedAt v w rest old new) : ReplacedAt v w (key :: rest) json (ref.put new) := by
  obtain ⟨before, after, hbefore, hjson, hput⟩ := getMut_eq_some hget
  rw [hjson, hput, hvalue]
  exact .member hbefore h

theorem findMember_append {key other : String} {before after : List (String × Json)}
    {value : Json} (hbefore : ∀ member ∈ before, member.1 ≠ key) :
    (findMember other (before ++ (key, value) :: after)).map (·.1) =
      if other = key then some value else (findMember other (before ++ after)).map (·.1) := by
  induction before with
  | nil =>
      by_cases hother : other = key
      · simp [findMember, hother]
      · have hne : key ≠ other := Ne.symm hother
        simp [findMember, hother, hne, Function.comp_def]
  | cons member rest ih =>
      obtain ⟨k, first⟩ := member
      obtain ⟨hk, hrest⟩ := List.forall_mem_cons.mp hbefore
      have ih := ih hrest
      by_cases hother : k = other
      · have hne : other ≠ key := hother ▸ hk
        simp [findMember, hother, hne]
      · simp only [List.cons_append, findMember, hother, if_false, Option.map_map,
          Function.comp_def]
        exact ih

theorem at?_cons_object (key : String) (rest : List String) (members : List (String × Json)) :
    at? (key :: rest) (.object members) =
      ((findMember key members).map (·.1)).bind (at? rest) := by
  rw [at?, getMut, Option.bind_map, Option.bind_map]
  rfl

/-- What lies beside the path is the same. -/
theorem ReplacedAt.at?_eq {v w old new : Json} {path : List String}
    (h : ReplacedAt v w path old new) {other : List String} (hbelow : ¬path <+: other)
    (habove : ¬other <+: path) : at? other new = at? other old := by
  induction h generalizing other with
  | here => exact absurd List.nil_prefix hbelow
  | @member key rest before after old new hkey h ih =>
      cases other with
      | nil => exact absurd List.nil_prefix habove
      | cons first others =>
          rw [at?_cons_object, at?_cons_object, findMember_append hkey, findMember_append hkey]
          by_cases hfirst : first = key
          · subst hfirst
            rw [if_pos rfl, if_pos rfl, Option.bind_some, Option.bind_some]
            rw [List.prefix_cons_inj] at hbelow habove
            exact ih hbelow habove
          · rw [if_neg hfirst, if_neg hfirst]

end Json

end MullvadAppTests.Lib
