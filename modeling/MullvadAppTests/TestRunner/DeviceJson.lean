import MullvadAppTests.Lib.Json

/-!
`make_device_json_old` of `test-runner/src/app.rs`. The content of the file is read,
the timestamp of the device is moved back by 365 days, and the file is written
again. The two crates that it relies on are parameters: `serde_json` parses what it
prints, and `chrono` subtracts durations as long as the result is in its range.
-/

namespace MullvadAppTests.TestRunner.DeviceJson

open Lib

/-- `chrono::Duration::days`, in nanoseconds. -/
def days (n : Nat) : Int := n * 86400 * 1000000000

/-- `δ` is `chrono::DateTime<Utc>`; an instant is given in nanoseconds. -/
structure Crates (δ : Type) where
  fromStr : String → Except String Json
  toString : Json → Except String String
  fromStr_toString : ∀ value text, toString value = .ok text → fromStr text = .ok value
  fromValue : Json → Except String δ
  toValue : δ → Json
  instant : δ → Int
  minUtc : Int
  checkedSubSigned : δ → Int → Option δ
  instant_sub : ∀ t d earlier, checkedSubSigned t d = some earlier →
    instant earlier = instant t - d
  sub_eq_none : ∀ t d, 0 ≤ d → (checkedSubSigned t d = none ↔ instant t - d < minUtc)

/-- The variants of `test_rpc::Error` that the function returns. -/
inductive Error where
  | fileSystem (error : String)
  | fileSerialization (error : String)
  deriving DecidableEq, Repr

inductive Outcome where
  | ok
  | error (e : Error)
  | panicked
  deriving DecidableEq, Repr

/-- Outcomes of the calls on the file; a write that fails leaves something behind. -/
structure Io where
  read : Except String Unit
  write : Except (String × ByteArray) Unit

/-- The chain of `get_mut`s; `none` if one of the `unwrap`s panics. -/
def createdRef (deviceState : Json) : Option Json.Ref :=
  (deviceState.getMut "logged_in").bind fun loggedIn =>
    (loggedIn.value.getMut "device").bind fun device =>
      (device.value.getMut "wg_data").bind fun wgData =>
        (wgData.value.getMut "created").map fun created =>
          ⟨created.value, fun new => loggedIn.put (device.put (wgData.put (created.put new)))⟩

section

variable {δ : Type} (crates : Crates δ)

/-- The outcome, and what the file holds afterwards. -/
def makeDeviceJsonOld (io : Io) (file : ByteArray) : Outcome × ByteArray :=
  match io.read, String.fromUTF8? file with
  | .error e, _ => (.error (.fileSystem e), file)
  | .ok _, none => (.error (.fileSystem "stream did not contain valid UTF-8"), file)
  | .ok _, some deviceJson =>
      match crates.fromStr deviceJson with
      | .error e => (.error (.fileSerialization e), file)
      | .ok deviceState =>
          match createdRef deviceState with
          | none => (.panicked, file)
          | some createdRef =>
              match crates.fromValue createdRef.value with
              | .error _ => (.panicked, file)
              | .ok created =>
                  match crates.checkedSubSigned created (days 365) with
                  | none => (.panicked, file)
                  | some created =>
                      match crates.toString (createdRef.put (crates.toValue created)) with
                      | .error e => (.error (.fileSerialization e), file)
                      | .ok deviceJson =>
                          match io.write with
                          | .error (e, left) => (.error (.fileSystem e), left)
                          | .ok _ => (.ok, deviceJson.toUTF8)

/-! ### One field or nothing -/

def createdPath : List String := ["logged_in", "device", "wg_data", "created"]

def Parses (file : ByteArray) (value : Json) : Prop :=
  ∃ text, String.fromUTF8? file = some text ∧ crates.fromStr text = .ok value

/-- The timestamp of the device. -/
def Created (value : Json) (created : δ) : Prop :=
  ∃ member, value.at? createdPath = some member ∧ crates.fromValue member = .ok created

/-- Only the timestamp differs, by 365 days. -/
def MadeOld (old new : Json) : Prop :=
  ∃ member created earlier, crates.fromValue member = .ok created ∧
    crates.instant earlier = crates.instant created - days 365 ∧
    Json.ReplacedAt member (crates.toValue earlier) createdPath old new ∧
    ∀ other, ¬createdPath <+: other → ¬other <+: createdPath → new.at? other = old.at? other

structure OneFieldOrNothing (before : ByteArray) (outcome : Outcome) (after : ByteArray) :
    Prop where
  returns : outcome ≠ .panicked
  changed : outcome = .ok →
    ∃ old new, Parses crates before old ∧ Parses crates after new ∧ MadeOld crates old new
  unchanged : (∃ e, outcome = .error e) →
    (¬∃ old created, Parses crates before old ∧ Created crates old created) → after = before

variable {crates}

theorem createdRef_value (deviceState : Json) :
    (createdRef deviceState).map (·.value) = deviceState.at? createdPath := by
  simp only [createdRef, createdPath, Json.at?, Option.map_eq_bind, Option.bind_assoc,
    Option.bind_some, Function.comp_def]

/-- Writing through the reference replaces the timestamp and nothing else. -/
theorem replacedAt_createdRef {deviceState : Json} {ref : Json.Ref}
    (h : createdRef deviceState = some ref) (new : Json) :
    Json.ReplacedAt ref.value new createdPath deviceState (ref.put new) := by
  unfold createdRef at h
  obtain ⟨loggedIn, hloggedIn, h⟩ := Option.bind_eq_some_iff.mp h
  obtain ⟨device, hdevice, h⟩ := Option.bind_eq_some_iff.mp h
  obtain ⟨wgData, hwgData, h⟩ := Option.bind_eq_some_iff.mp h
  obtain ⟨created, hcreated, rfl⟩ := Option.map_eq_some_iff.mp h
  apply Json.replacedAt_put hloggedIn rfl
  apply Json.replacedAt_put hdevice rfl
  apply Json.replacedAt_put hwgData rfl
  exact Json.replacedAt_put hcreated rfl .here

theorem fromUTF8?_toUTF8 (s : String) : String.fromUTF8? s.toUTF8 = some s := by
  have hvalid : s.toUTF8.IsValidUTF8 := s.isValidUTF8
  rw [String.fromUTF8?, dif_pos hvalid]
  rfl

/-- The content is not JSON, or it has a timestamp from which 365 days can be
subtracted. -/
def Movable (crates : Crates δ) (file : ByteArray) : Prop :=
  ∀ old, Parses crates file old →
    ∃ created, Created crates old created ∧ crates.minUtc ≤ crates.instant created - days 365

theorem created_unique {old : Json} {first second : δ} (hfirst : Created crates old first)
    (hsecond : Created crates old second) : first = second := by
  obtain ⟨member₁, hmember₁, hvalue₁⟩ := hfirst
  obtain ⟨member₂, hmember₂, hvalue₂⟩ := hsecond
  obtain rfl := Option.some.inj (hmember₁.symm.trans hmember₂)
  exact Except.ok.inj (hvalue₁.symm.trans hvalue₂)

/-- An error with the file as it was. -/
theorem OneFieldOrNothing.of_error (file : ByteArray) (e : Error) :
    OneFieldOrNothing crates file (.error e) file :=
  ⟨by simp, by simp, fun _ _ => rfl⟩

theorem not_oneFieldOrNothing_of_panic {before after : ByteArray} :
    ¬OneFieldOrNothing crates before .panicked after :=
  fun h => h.returns rfl

theorem at?_of_createdRef {deviceState : Json} {ref : Json.Ref}
    (h : createdRef deviceState = some ref) : deviceState.at? createdPath = some ref.value := by
  rw [← createdRef_value, h]
  rfl

/-- The timestamp is moved; the file changes when it is printed and written. -/
theorem oneFieldOrNothing_of_sub {io : Io} (hread : io.read = .ok ()) {file : ByteArray}
    {text : String} (htext : String.fromUTF8? file = some text) {old : Json}
    (hold : crates.fromStr text = .ok old) {ref : Json.Ref} (href : createdRef old = some ref)
    {created earlier : δ} (hcreated : crates.fromValue ref.value = .ok created)
    (hsub : crates.checkedSubSigned created (days 365) = some earlier) :
    OneFieldOrNothing crates file (makeDeviceJsonOld crates io file).1
      (makeDeviceJsonOld crates io file).2 := by
  have hparses : Parses crates file old := ⟨text, htext, hold⟩
  have hreplaced := replacedAt_createdRef href (crates.toValue earlier)
  have hmade : MadeOld crates old (ref.put (crates.toValue earlier)) :=
    ⟨ref.value, created, earlier, hcreated, crates.instant_sub _ _ _ hsub, hreplaced,
      fun other hbelow habove => hreplaced.at?_eq hbelow habove⟩
  simp only [makeDeviceJsonOld, hread, htext, hold, href, hcreated, hsub]
  cases hprint : crates.toString (ref.put (crates.toValue earlier)) with
  | error e => exact .of_error file _
  | ok deviceJson =>
      simp only []
      cases io.write with
      | error failure =>
          refine ⟨by simp, by simp, ?_⟩
          intro _ hnot
          exact absurd ⟨old, created, hparses, ref.value, at?_of_createdRef href, hcreated⟩ hnot
      | ok _ =>
          refine ⟨by simp, ?_, by simp⟩
          intro _
          exact ⟨old, _, hparses, ⟨deviceJson, fromUTF8?_toUTF8 deviceJson,
            crates.fromStr_toString _ _ hprint⟩, hmade⟩

/-- The content is JSON and has been read. -/
theorem makeDeviceJsonOld_of_parses {io : Io} (hread : io.read = .ok ()) {file : ByteArray}
    {text : String} (htext : String.fromUTF8? file = some text) {old : Json}
    (hold : crates.fromStr text = .ok old) :
    OneFieldOrNothing crates file (makeDeviceJsonOld crates io file).1
        (makeDeviceJsonOld crates io file).2 ↔
      ∃ created, Created crates old created ∧
        crates.minUtc ≤ crates.instant created - days 365 := by
  cases href : createdRef old with
  | none =>
      simp only [makeDeviceJsonOld, hread, htext, hold, href]
      refine iff_of_false not_oneFieldOrNothing_of_panic ?_
      rintro ⟨created, ⟨member, hmember, _⟩, _⟩
      rw [← createdRef_value, href] at hmember
      cases hmember
  | some ref =>
      have hmember := at?_of_createdRef href
      cases hcreated : crates.fromValue ref.value with
      | error e =>
          simp only [makeDeviceJsonOld, hread, htext, hold, href, hcreated]
          refine iff_of_false not_oneFieldOrNothing_of_panic ?_
          rintro ⟨created, ⟨member, hother, hfrom⟩, _⟩
          obtain rfl := Option.some.inj (hmember.symm.trans hother)
          rw [hcreated] at hfrom
          cases hfrom
      | ok created =>
          have hthe : Created crates old created := ⟨ref.value, hmember, hcreated⟩
          have hnone := crates.sub_eq_none created (days 365) (by decide)
          cases hsub : crates.checkedSubSigned created (days 365) with
          | none =>
              simp only [makeDeviceJsonOld, hread, htext, hold, href, hcreated, hsub]
              refine iff_of_false not_oneFieldOrNothing_of_panic ?_
              rintro ⟨other, hother, hmin⟩
              have hbelow := hnone.mp hsub
              rw [created_unique hother hthe] at hmin
              omega
          | some earlier =>
              have hmin : crates.minUtc ≤ crates.instant created - days 365 := by
                by_contra hbelow
                have hempty := hnone.mpr (by omega)
                rw [hsub] at hempty
                cases hempty
              exact iff_of_true (oneFieldOrNothing_of_sub hread htext hold href hcreated hsub)
                ⟨created, hthe, hmin⟩

/-- The function changes the timestamp or nothing exactly when the file cannot be
read, its content is not JSON, or there is a timestamp that is not too early. In all
other cases it panics. -/
theorem one_field_or_nothing_iff (crates : Crates δ) (io : Io) (file : ByteArray) :
    OneFieldOrNothing crates file (makeDeviceJsonOld crates io file).1
        (makeDeviceJsonOld crates io file).2 ↔
      (∃ e, io.read = .error e) ∨ Movable crates file := by
  cases hread : io.read with
  | error e =>
      simp only [makeDeviceJsonOld, hread]
      exact iff_of_true (.of_error file _) (.inl ⟨e, rfl⟩)
  | ok _ =>
      simp only [reduceCtorEq, exists_false, false_or]
      cases htext : String.fromUTF8? file with
      | none =>
          simp only [makeDeviceJsonOld, hread, htext]
          refine iff_of_true (.of_error file _) ?_
          rintro old ⟨text, hsome, _⟩
          rw [htext] at hsome
          cases hsome
      | some text =>
          cases hparse : crates.fromStr text with
          | error e =>
              simp only [makeDeviceJsonOld, hread, htext, hparse]
              refine iff_of_true (.of_error file _) ?_
              rintro old ⟨other, hsome, hok⟩
              obtain rfl := Option.some.inj (htext.symm.trans hsome)
              rw [hparse] at hok
              cases hok
          | ok old =>
              rw [makeDeviceJsonOld_of_parses hread htext hparse]
              constructor
              · rintro hcreated other ⟨again, hsome, hok⟩
                obtain rfl := Option.some.inj (htext.symm.trans hsome)
                obtain rfl := Except.ok.inj (hparse.symm.trans hok)
                exact hcreated
              · intro hmovable
                exact hmovable old ⟨text, htext, hparse⟩

end

/-- The crates on the content that the daemon writes when no account is logged
in. -/
def loggedOutCrates : Crates Int where
  fromStr text :=
    if text = "\"logged_out\"" then .ok (.string "logged_out") else .error "expected value"
  toString
    | .string "logged_out" => .ok "\"logged_out\""
    | _ => .error "not printed"
  fromStr_toString := by
    intro value text h
    split at h
    · cases h
      rfl
    · cases h
  fromValue _ := .error "premature end of input"
  toValue t := .number (toString t)
  instant := id
  minUtc := -8334632851200000000000
  checkedSubSigned t d := if t - d < -8334632851200000000000 then none else some (t - d)
  instant_sub := by
    intro t d earlier h
    split at h
    · cases h
    · cases h
      rfl
  sub_eq_none := by
    intro t d _
    split
    · next h => exact iff_of_true rfl h
    · next h => exact iff_of_false (by simp only [reduceCtorEq, not_false_eq_true]) h

theorem loggedOut_panics :
    (makeDeviceJsonOld loggedOutCrates ⟨.ok (), .ok ()⟩ "\"logged_out\"".toUTF8).1 = .panicked ∧
      ¬OneFieldOrNothing loggedOutCrates "\"logged_out\"".toUTF8
        (makeDeviceJsonOld loggedOutCrates ⟨.ok (), .ok ()⟩ "\"logged_out\"".toUTF8).1
        (makeDeviceJsonOld loggedOutCrates ⟨.ok (), .ok ()⟩ "\"logged_out\"".toUTF8).2 := by
  have hpanics : (makeDeviceJsonOld loggedOutCrates ⟨.ok (), .ok ()⟩
      "\"logged_out\"".toUTF8).1 = .panicked := by
    simp only [makeDeviceJsonOld, fromUTF8?_toUTF8]
    rfl
  refine ⟨hpanics, ?_⟩
  rw [hpanics]
  exact not_oneFieldOrNothing_of_panic

end MullvadAppTests.TestRunner.DeviceJson
