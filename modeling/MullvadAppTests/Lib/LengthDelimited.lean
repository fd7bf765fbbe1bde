import Mathlib.Data.List.Basic
import Mathlib.Tactic

/-!
A length-delimited codec over byte lists: every frame is preceded by its
length in four bytes, most significant first. The decoder consumes a header as
soon as it is complete and then remembers how many bytes the frame has, so its
state between two calls is either `head` or `data n`. The length limit is a
parameter; the encoder and the decoder both refuse frames above it.
-/

namespace MullvadAppTests.Lib.LengthDelimited

abbrev Bytes := List UInt8

inductive ErrorKind where
  | invalidInput
  | invalidData
  | brokenPipe
  | other
  deriving DecidableEq, Repr

structure IoError where
  kind : ErrorKind
  message : String
  deriving DecidableEq, Repr

inductive DecodeState where
  | head
  | data (n : Nat)
  deriving DecidableEq, Repr

/-- The low 32 bits of `n`, most significant byte first. -/
def putUint32 (n : Nat) : Bytes :=
  [UInt8.ofNat (n / 2 ^ 24), UInt8.ofNat (n / 2 ^ 16),
    UInt8.ofNat (n / 2 ^ 8), UInt8.ofNat n]

def getUint32 (b3 b2 b1 b0 : UInt8) : Nat :=
  ((b3.toNat * 256 + b2.toNat) * 256 + b1.toNat) * 256 + b0.toNat

def decodeHead (limit : Nat) : Bytes → Except IoError (Option (Nat × Bytes))
  | b3 :: b2 :: b1 :: b0 :: rest =>
      if limit < getUint32 b3 b2 b1 b0 then
        .error ⟨.invalidData, "frame size too big"⟩
      else
        .ok (some (getUint32 b3 b2 b1 b0, rest))
  | _ => .ok none

/-- Split off the frame body once it is complete; until then the length is
remembered and the buffer is left alone. -/
def decodeData (n : Nat) (src : Bytes) :
    Except IoError (Option Bytes) × DecodeState × Bytes :=
  if src.length < n then
    (.ok none, .data n, src)
  else
    (.ok (some (src.take n)), .head, src.drop n)

def decode (limit : Nat) (state : DecodeState) (src : Bytes) :
    Except IoError (Option Bytes) × DecodeState × Bytes :=
  match state with
  | .head =>
      match decodeHead limit src with
      | .error e => (.error e, .head, src)
      | .ok none => (.ok none, .head, src)
      | .ok (some (n, rest)) => decodeData n rest
  | .data n => decodeData n src

def encode (limit : Nat) (data : Bytes) : Except IoError Bytes :=
  if limit < data.length then
    .error ⟨.invalidInput, "frame size too big"⟩
  else
    .ok (putUint32 data.length ++ data)

@[simp] theorem length_putUint32 (n : Nat) : (putUint32 n).length = 4 := rfl

theorem getUint32_bytes (n : Nat) (hn : n < 2 ^ 32) :
    getUint32 (UInt8.ofNat (n / 2 ^ 24)) (UInt8.ofNat (n / 2 ^ 16))
      (UInt8.ofNat (n / 2 ^ 8)) (UInt8.ofNat n) = n := by
  simp only [getUint32, UInt8.toNat_ofNat']
  omega

/-- The first header byte is zero for every length below `2 ^ 24`. -/
theorem putUint32_small (n : Nat) (hn : n < 2 ^ 24) :
    putUint32 n = 0 :: (putUint32 n).tail := by
  have hzero : n / 2 ^ 24 = 0 := Nat.div_eq_of_lt hn
  simp only [putUint32, hzero, List.tail_cons]
  rfl

theorem decodeHead_short (limit : Nat) (src : Bytes) (h : src.length < 4) :
    decodeHead limit src = .ok none := by
  rcases src with _ | ⟨a, _ | ⟨b, _ | ⟨c, _ | ⟨d, rest⟩⟩⟩⟩
  all_goals first
    | rfl
    | (simp only [List.length_cons] at h; omega)

theorem decodeHead_putUint32 (limit n : Nat) (rest : Bytes)
    (hn : n ≤ limit) (hlimit : limit < 2 ^ 32) :
    decodeHead limit (putUint32 n ++ rest) = .ok (some (n, rest)) := by
  have hget := getUint32_bytes n (by omega)
  simp only [putUint32, List.cons_append, List.nil_append, decodeHead, hget]
  rw [if_neg (by omega)]

theorem decode_head_short (limit : Nat) (src : Bytes) (h : src.length < 4) :
    decode limit .head src = (.ok none, .head, src) := by
  simp only [decode, decodeHead_short limit src h]

theorem decode_of_decodeHead (limit n : Nat) (src rest : Bytes)
    (h : decodeHead limit src = .ok (some (n, rest))) :
    decode limit .head src = decodeData n rest := by
  simp only [decode, h]

theorem decode_head_putUint32 (limit n : Nat) (rest : Bytes)
    (hn : n ≤ limit) (hlimit : limit < 2 ^ 32) :
    decode limit .head (putUint32 n ++ rest) = decodeData n rest :=
  decode_of_decodeHead limit n _ rest
    (decodeHead_putUint32 limit n rest hn hlimit)

theorem decodeData_short (n : Nat) (src : Bytes) (h : src.length < n) :
    decodeData n src = (.ok none, .data n, src) := if_pos h

theorem decodeData_append (body rest : Bytes) :
    decodeData body.length (body ++ rest) = (.ok (some body), .head, rest) := by
  simp [decodeData]

theorem decodeData_eq_some {n : Nat} {src body left : Bytes} {next : DecodeState}
    (h : decodeData n src = (.ok (some body), next, left)) :
    next = .head ∧ body.length = n ∧ src = body ++ left := by
  unfold decodeData at h
  split at h
  · cases h
  · next hlong =>
    cases h
    refine ⟨rfl, ?_, (List.take_append_drop n src).symm⟩
    rw [List.length_take]
    omega

theorem putUint32_getUint32 (b3 b2 b1 b0 : UInt8) :
    putUint32 (getUint32 b3 b2 b1 b0) = [b3, b2, b1, b0] := by
  have h3 := b3.toNat_lt
  have h2 := b2.toNat_lt
  have h1 := b1.toNat_lt
  have h0 := b0.toNat_lt
  simp only [putUint32, getUint32, List.cons.injEq, and_true, ← UInt8.toNat_inj,
    UInt8.toNat_ofNat']
  omega

theorem decodeHead_eq_some {limit n : Nat} {src rest : Bytes}
    (h : decodeHead limit src = .ok (some (n, rest))) :
    n ≤ limit ∧ src = putUint32 n ++ rest := by
  unfold decodeHead at h
  split at h
  · next b3 b2 b1 b0 left =>
    split at h
    · cases h
    · next hlimit =>
      cases h
      refine ⟨by omega, ?_⟩
      rw [putUint32_getUint32]
      rfl
  · cases h

theorem decode_head_eq_some {limit : Nat} {src body left : Bytes} {next : DecodeState}
    (h : decode limit .head src = (.ok (some body), next, left)) :
    next = .head ∧ body.length ≤ limit ∧ src = putUint32 body.length ++ (body ++ left) := by
  rw [decode] at h
  split at h
  · cases h
  · cases h
  · next n rest hhead =>
    obtain ⟨hn, rfl⟩ := decodeHead_eq_some hhead
    obtain ⟨rfl, rfl, rfl⟩ := decodeData_eq_some h
    exact ⟨rfl, hn, rfl⟩

/-- A frame is cut out of the buffer: its body and the rest fit in it. -/
theorem decode_length {limit : Nat} {state next : DecodeState} {src body left : Bytes}
    (h : decode limit state src = (.ok (some body), next, left)) :
    body.length + left.length ≤ src.length := by
  cases state with
  | data n =>
      obtain ⟨_, _, rfl⟩ := decodeData_eq_some h
      rw [List.length_append]
  | head =>
      obtain ⟨_, _, rfl⟩ := decode_head_eq_some h
      simp only [List.length_append]
      omega

theorem length_decodeData_le (n : Nat) (src : Bytes) :
    (decodeData n src).2.2.length ≤ src.length := by
  unfold decodeData
  split
  · exact Nat.le_refl _
  · simp

/-- A call never adds to the buffer. -/
theorem length_decode_le (limit : Nat) (state : DecodeState) (src : Bytes) :
    (decode limit state src).2.2.length ≤ src.length := by
  cases state with
  | data n => exact length_decodeData_le n src
  | head =>
      simp only [decode]
      split
      · exact Nat.le_refl _
      · exact Nat.le_refl _
      · next n rest hhead =>
        have hrest : rest.length ≤ src.length := by
          unfold decodeHead at hhead
          split at hhead
          · split at hhead
            · cases hhead
            · cases hhead
              simp only [List.length_cons]
              omega
          · cases hhead
        exact (length_decodeData_le n rest).trans hrest

/-- A decoder that waits for a header gives out a frame exactly when the buffer
begins with its encoding. -/
theorem decode_head_eq_some_iff {limit : Nat} (hlimit : limit < 2 ^ 32) {src body left : Bytes}
    {next : DecodeState} :
    decode limit .head src = (.ok (some body), next, left) ↔
      next = .head ∧ body.length ≤ limit ∧ src = putUint32 body.length ++ (body ++ left) := by
  constructor
  · exact decode_head_eq_some
  · rintro ⟨rfl, hbody, rfl⟩
    rw [decode_head_putUint32 limit _ _ hbody hlimit]
    exact decodeData_append body left

end MullvadAppTests.Lib.LengthDelimited
