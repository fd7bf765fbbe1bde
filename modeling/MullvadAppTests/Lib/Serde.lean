import MullvadAppTests.Lib.JsonText

/-!
How a derived deserialiser reads a JSON value. A struct comes as an object, whose
unknown members are skipped, or as an array with the fields in their order. An
optional field may be missing from an object but not from an array. A variant
without data comes as its name, or as an object with the name and `null`. The
members of a map are inserted one after the other, so that the last one counts.
-/

namespace MullvadAppTests.Lib.Serde

variable {α : Type}

/-- Where the fields of a struct are taken from. -/
inductive Source where
  | map (members : List (String × Json))
  | seq (members : List (String × Json))

def source (fields : List String) : Json → Option Source
  | .object members =>
      -- a field that is there twice is an error, an unknown one is not looked at
      if ((members.map (·.1)).filter (· ∈ fields)).Nodup then some (.map members) else none
  | .array items =>
      if items.length ≤ fields.length then some (.seq (fields.zip items)) else none
  | _ => none

def Source.find (name : String) : Source → Option Json
  | .map members => members.lookup name
  | .seq members => members.lookup name

def required (decode : Json → Option α) (name : String) (source : Source) : Option α :=
  (source.find name).bind decode

def nullable (decode : Json → Option α) : Json → Option (Option α)
  | .null => some none
  | value => (decode value).map some

def optional (decode : Json → Option α) (name : String) (source : Source) :
    Option (Option α) :=
  match source, source.find name with
  | _, some value => nullable decode value
  | .map _, none => some none
  | .seq _, none => none

def defaulted (decode : Json → Option α) (default : α) (name : String) (source : Source) :
    Option α :=
  match source.find name with
  | some value => decode value
  | none => some default

def bool : Json → Option Bool
  | .bool b => some b
  | _ => none

def string : Json → Option String
  | .string s => some s
  | _ => none

def list (decode : Json → Option α) : Json → Option (List α)
  | .array items => items.mapM decode
  | _ => none

/-- `variants` has the names of an enumeration without data. -/
def unitVariant (variants : List (String × α)) : Json → Option α
  | .string s => variants.lookup s
  | .object [(s, .null)] => variants.lookup s
  | _ => none

def treeMap (decode : Json → Option α) : Json → Option (Std.ExtTreeMap String α)
  | .object members =>
      members.foldlM (fun map member => (decode member.2).map (map.insert member.1)) ∅
  | _ => none

/-! ### What a derived serialiser writes -/

def ofOption (encode : α → Json) : Option α → Json
  | none => .null
  | some a => encode a

def ofTreeMap (encode : α → Json) (map : Std.ExtTreeMap String α) : Json :=
  .object (map.toList.map fun entry => (entry.1, encode entry.2))

theorem bind_of_eq_some {β : Type} {x : Option α} {f : α → Option β} {a : α} (h : x = some a) :
    (x >>= f) = f a := by
  rw [h]
  rfl

theorem source_object {fields : List String} {members : List (String × Json)}
    (h : ((members.map (·.1)).filter (· ∈ fields)).Nodup) :
    source fields (.object members) = some (.map members) := if_pos h

theorem string_string (s : String) : string (.string s) = some s := rfl

theorem nullable_ofOption {encode : α → Json} {decode : Json → Option α}
    (h : ∀ a, decode (encode a) = some a) (hnull : ∀ a, encode a ≠ .null) (a : Option α) :
    nullable decode (ofOption encode a) = some a := by
  cases a with
  | none => rfl
  | some a =>
      have hnone : nullable decode (encode a) = (decode (encode a)).map some := by
        cases hvalue : encode a with
        | null => exact absurd hvalue (hnull a)
        | _ => rfl
      rw [ofOption, hnone, h, Option.map_some]

theorem list_map {encode : α → Json} {decode : Json → Option α}
    (h : ∀ a, decode (encode a) = some a) (items : List α) :
    list decode (.array (items.map encode)) = some items := by
  rw [list]
  induction items with
  | nil => rfl
  | cons item items ih =>
      rw [List.map_cons, List.mapM_cons, h, ih]
      rfl

theorem foldlM_insert {encode : α → Json} {decode : Json → Option α}
    (h : ∀ a, decode (encode a) = some a) (entries : List (String × α))
    (map : Std.ExtTreeMap String α) :
    (entries.map fun entry => (entry.1, encode entry.2)).foldlM
        (fun map member => (decode member.2).map (map.insert member.1)) map =
      some (map.insertMany entries) := by
  induction entries generalizing map with
  | nil => simp
  | cons entry entries ih =>
      obtain ⟨key, value⟩ := entry
      rw [List.map_cons, List.foldlM_cons]
      simp only [h, Option.map_some]
      exact (ih (map.insert key value)).trans (by rw [Std.ExtTreeMap.insertMany_cons])

/-- A map is read back from its entries. -/
theorem insertMany_toList (map : Std.ExtTreeMap String α) :
    (∅ : Std.ExtTreeMap String α).insertMany map.toList = map := by
  apply Std.ExtTreeMap.ext_getElem?
  intro key
  cases hvalue : map[key]? with
  | some value =>
      exact Std.ExtTreeMap.getElem?_insertMany_list_of_mem Std.ReflCmp.compare_self
        map.distinct_keys_toList (Std.ExtTreeMap.mem_toList_iff_getElem?_eq_some.mpr hvalue)
  | none =>
      rw [Std.ExtTreeMap.getElem?_insertMany_list_of_contains_eq_false]
      · simp
      · rw [Bool.eq_false_iff, ne_eq, List.contains_iff_mem, List.mem_map]
        rintro ⟨⟨other, value⟩, hmem, rfl⟩
        rw [Std.ExtTreeMap.mem_toList_iff_getElem?_eq_some, hvalue] at hmem
        cases hmem

theorem treeMap_ofTreeMap {encode : α → Json} {decode : Json → Option α}
    (h : ∀ a, decode (encode a) = some a) (map : Std.ExtTreeMap String α) :
    treeMap decode (ofTreeMap encode map) = some map := by
  rw [ofTreeMap, treeMap, foldlM_insert h, insertMany_toList]

end MullvadAppTests.Lib.Serde
