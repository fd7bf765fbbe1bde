import MullvadAppTests.TestRpc.CodecConnect

/-!
Which bytes the codec takes for frames. The connected codec gives out a data frame
exactly for the bytes that the encoder writes for it, but a handshake for every
frame of type 0, whatever its payload is. The unconnected codec gives out nothing
as long as it has not received the signature.
-/

namespace MullvadAppTests.TestRpc

open Lib.LengthDelimited Lib.Incremental

/-! ### The connected codec -/

/-- A frame body that is none of a frame: it is empty, or its type is unknown. -/
def NoFrame (body : Bytes) : Prop :=
  ∀ typeByte payload, body = typeByte :: payload → FrameType.tryFrom typeByte = none

/-- Only what the encoder writes for a frame is decoded to it, and other frame
bodies are errors. -/
structure AcceptsOnlyEncoded (b : Bytes) : Prop where
  encoded : ∀ f codec left, decode ⟨.head, true⟩ b = (.ok (some f), codec, left) →
    ∃ p, b = p ++ left ∧ encode f = .ok p
  refused : ∀ body left, NoFrame body → body.length ≤ maxFrameLength →
    b = putUint32 body.length ++ (body ++ left) →
      ∃ e, (decode ⟨.head, true⟩ b).1 = .error e

/-- A frame of the handshake's type with another payload. -/
def ForeignHandshake (b : Bytes) : Prop :=
  ∃ payload left, payload ≠ mullvadSignature ∧ payload.length + 1 ≤ maxFrameLength ∧
    b = putUint32 (payload.length + 1) ++ (FrameType.handshake.toByte :: payload ++ left)

theorem maxFrameLength_lt : maxFrameLength < 2 ^ 32 := by
  decide

/-- Without noise in front a connected codec is the inner decoder. -/
theorem decode_connected_head {b : Bytes} (h : b.head? ≠ some caret) :
    decode ⟨.head, true⟩ b =
      (liftFrame (Lib.LengthDelimited.decode maxFrameLength .head b).1,
        ⟨(Lib.LengthDelimited.decode maxFrameLength .head b).2.1, true⟩,
        (Lib.LengthDelimited.decode maxFrameLength .head b).2.2) := by
  simp only [decode, skipNoise_connected, dropPairs_of_clean (.inr h), Bool.not_true,
    Bool.false_eq_true, if_false]

theorem liftFrame_eq_some {result : Except IoError (Option Bytes)} {f : Frame}
    (h : liftFrame result = .ok (some f)) :
    ∃ body, result = .ok (some body) ∧ decodeFrame body = .ok f := by
  rcases result with e | _ | body
  · cases h
  · cases h
  · refine ⟨body, rfl, ?_⟩
    simp only [liftFrame] at h
    cases hdecode : decodeFrame body with
    | error e =>
        rw [hdecode] at h
        cases h
    | ok decoded =>
        rw [hdecode] at h
        cases h
        rfl

theorem toByte_of_tryFrom {value : UInt8} {t : FrameType} (h : FrameType.tryFrom value = some t) :
    value = t.toByte := by
  unfold FrameType.tryFrom at h
  split at h
  · next heq =>
    cases h
    exact heq
  · split at h
    · next heq =>
      cases h
      exact heq
    · split at h
      · next heq =>
        cases h
        exact heq
      · cases h

/-- The type byte decides, and only the payload of a handshake is not looked at. -/
theorem decodeFrame_eq_ok {body : Bytes} {f : Frame} (h : decodeFrame body = .ok f) :
    ∃ payload, body = f.frameType.toByte :: payload ∧ (f = .handshake ∨ payload = f.payload) := by
  cases body with
  | nil => cases h
  | cons typeByte payload =>
      rw [decodeFrame] at h
      split at h
      · cases h
      · next htype =>
        cases h
        exact ⟨payload, by rw [toByte_of_tryFrom htype]; rfl, .inl rfl⟩
      · next htype =>
        cases h
        exact ⟨payload, by rw [toByte_of_tryFrom htype]; rfl, .inr rfl⟩
      · next htype =>
        cases h
        exact ⟨payload, by rw [toByte_of_tryFrom htype]; rfl, .inr rfl⟩

theorem decodeFrame_of_noFrame {body : Bytes} (h : NoFrame body) :
    ∃ e, decodeFrame body = .error e := by
  cases body with
  | nil => exact ⟨_, rfl⟩
  | cons typeByte payload =>
      rw [decodeFrame, h typeByte payload rfl]
      exact ⟨_, rfl⟩

/-- What the connected codec gives out and what it leaves. -/
theorem decode_connected_eq_some {b left : Bytes} (h : b.head? ≠ some caret) {f : Frame}
    {codec : MultiplexCodec} (hdecode : decode ⟨.head, true⟩ b = (.ok (some f), codec, left)) :
    ∃ payload, (f = .handshake ∨ payload = f.payload) ∧
      payload.length + 1 ≤ maxFrameLength ∧
      b = putUint32 (payload.length + 1) ++ (f.frameType.toByte :: payload ++ left) := by
  rw [decode_connected_head h] at hdecode
  rcases hinner : Lib.LengthDelimited.decode maxFrameLength .head b with ⟨result, next, rest⟩
  rw [hinner] at hdecode
  simp only [Prod.mk.injEq] at hdecode
  obtain ⟨hframe, _, rfl⟩ := hdecode
  obtain ⟨body, rfl, hbody⟩ := liftFrame_eq_some hframe
  obtain ⟨_, hlength, hb⟩ := (decode_head_eq_some_iff maxFrameLength_lt).mp hinner
  obtain ⟨payload, rfl, hpayload⟩ := decodeFrame_eq_ok hbody
  exact ⟨payload, hpayload, hlength, hb⟩

theorem refused_of_noFrame {b body left : Bytes} (h : b.head? ≠ some caret)
    (hbody : NoFrame body) (hlength : body.length ≤ maxFrameLength)
    (hb : b = putUint32 body.length ++ (body ++ left)) :
    ∃ e, (decode ⟨.head, true⟩ b).1 = .error e := by
  have hinner := (decode_head_eq_some_iff maxFrameLength_lt).mpr ⟨rfl, hlength, hb⟩
  obtain ⟨e, he⟩ := decodeFrame_of_noFrame hbody
  refine ⟨e, ?_⟩
  rw [decode_connected_head h, hinner]
  simp only [liftFrame, he]
  rfl

theorem not_accepts_of_foreignHandshake {b : Bytes} (h : b.head? ≠ some caret)
    (hforeign : ForeignHandshake b) : ¬AcceptsOnlyEncoded b := by
  obtain ⟨payload, left, hne, hlength, hb⟩ := hforeign
  have hinner : Lib.LengthDelimited.decode maxFrameLength .head b =
      (.ok (some (FrameType.handshake.toByte :: payload)), .head, left) :=
    (decode_head_eq_some_iff maxFrameLength_lt).mpr ⟨rfl, hlength, hb⟩
  have hdecode : decode ⟨.head, true⟩ b = (.ok (some .handshake), ⟨.head, true⟩, left) := by
    rw [decode_connected_head h, hinner]
    rfl
  intro haccepts
  obtain ⟨p, hp, hencode⟩ := haccepts.encoded _ _ _ hdecode
  apply hne
  have hwire : p = Frame.handshake.wire := by
    rw [encode_of_fits .handshake (by decide)] at hencode
    exact (Except.ok.inj hencode).symm
  have hbytes : putUint32 (payload.length + 1) ++ FrameType.handshake.toByte :: payload ++ left =
      Frame.handshake.wire ++ left := by
    rw [← hwire, ← hp, hb, List.append_assoc]
  have htail := congrArg (List.drop 5) (List.append_cancel_right hbytes)
  rw [handshake_wire] at htail
  simpa [putUint32] using htail

/-- A connected codec that waits for a header accepts only what the encoder writes,
unless the frame is a handshake with a foreign payload. -/
theorem accepts_only_encoded_iff (b : Bytes) (h : b.head? ≠ some caret) :
    AcceptsOnlyEncoded b ↔ ¬ForeignHandshake b := by
  constructor
  · intro haccepts hforeign
    exact not_accepts_of_foreignHandshake h hforeign haccepts
  · intro hnot
    refine ⟨?_, fun body left hbody hlength hb => refused_of_noFrame h hbody hlength hb⟩
    intro f codec left hdecode
    obtain ⟨payload, hpayload, hlength, hb⟩ := decode_connected_eq_some h hdecode
    have hsame : payload = f.payload := by
      rcases hpayload with rfl | hsame
      · by_contra hne
        exact hnot ⟨payload, left, hne, hlength, hb⟩
      · exact hsame
    subst hsame
    have hfits : f.Fits := by
      unfold Frame.Fits
      omega
    refine ⟨f.wire, ?_, encode_of_fits f hfits⟩
    rw [hb, Frame.wire, Frame.body, List.append_assoc]
    rfl

theorem daemonRpc_accepts_only_encoded :
    (decode ⟨.head, true⟩ [0, 0, 0, 3, 2, 7, 8, 9]).1 = .ok (some (.daemonRpc [7, 8])) ∧
      AcceptsOnlyEncoded [0, 0, 0, 3, 2, 7, 8, 9] := by
  refine ⟨by decide, (accepts_only_encoded_iff _ (by decide)).mpr ?_⟩
  rintro ⟨payload, left, _, _, hb⟩
  have hbody := congrArg (List.drop 4) hb
  simp [putUint32, FrameType.toByte] at hbody

/-- The shortest frame that is taken for a handshake. -/
theorem emptyHandshake_accepted :
    decode ⟨.head, true⟩ [0, 0, 0, 1, 0] = (.ok (some .handshake), ⟨.head, true⟩, []) ∧
      ¬AcceptsOnlyEncoded [0, 0, 0, 1, 0] := by
  have hdecode : decode ⟨.head, true⟩ [0, 0, 0, 1, 0] =
      (.ok (some .handshake), ⟨.head, true⟩, []) := by
    decide
  refine ⟨hdecode, ?_⟩
  intro haccepts
  obtain ⟨p, hp, hencode⟩ := haccepts.encoded _ _ _ hdecode
  rw [List.append_nil] at hp
  rw [← hp] at hencode
  exact absurd hencode (by decide)

/-! ### The unconnected codec -/

inductive ReadAction where
  | receive (chunk : Bytes)
  | decode
  deriving DecidableEq, Repr

/-- A codec with its buffer; `received` and `results` are histories of all bytes,
those in the buffer at the start included, and of the calls. -/
structure Reader where
  codec : MultiplexCodec
  buffer : Bytes
  received : Bytes
  results : List (Except IoError (Option Frame))

def Reader.start (codec : MultiplexCodec) (buffer : Bytes) : Reader := ⟨codec, buffer, buffer, []⟩

def Reader.step (r : Reader) : ReadAction → Reader
  | .receive chunk => {r with buffer := r.buffer ++ chunk, received := r.received ++ chunk}
  | .decode =>
      let (result, codec, buffer) := TestRpc.decode r.codec r.buffer
      {r with codec, buffer, results := r.results ++ [result]}

def Reader.run (r : Reader) (actions : List ReadAction) : Reader := actions.foldl Reader.step r

def ReadAction.bytes : ReadAction → Bytes
  | .receive chunk => chunk
  | .decode => []

/-- All that a codec does that has found no signature: it gives out nothing, its
state is as it was, and only groups are gone from the front of the buffer. -/
structure Unconnected (state : DecodeState) (r : Reader) : Prop where
  results : ∀ result ∈ r.results, result = .ok none
  codec : r.codec = ⟨state, false⟩
  buffer : ∃ seconds, r.received = noisePairs seconds ++ r.buffer

theorem skipNoise_of_no_signature {src : Bytes} (h : ¬mullvadSignature <:+: src) :
    skipNoise false src = (false, dropPairs src) := by
  obtain ⟨seconds, hsrc⟩ := dropPairs_spec src
  have hnone : findSignature (dropPairs src) = none := by
    rw [findSignature_eq_none_iff]
    intro hinside
    exact h (hinside.trans ⟨noisePairs seconds, [], by rw [List.append_nil]; exact hsrc.symm⟩)
  rw [skipNoise_unconnected, hnone]

theorem Unconnected.receive {state : DecodeState} {r : Reader} (h : Unconnected state r)
    (chunk : Bytes) : Unconnected state (r.step (.receive chunk)) where
  results := h.results
  codec := h.codec
  buffer := by
    obtain ⟨seconds, hreceived⟩ := h.buffer
    refine ⟨seconds, ?_⟩
    simp only [Reader.step, hreceived, List.append_assoc]

theorem Unconnected.decode {state : DecodeState} {r : Reader} (h : Unconnected state r)
    (hnone : ¬mullvadSignature <:+: r.received) : Unconnected state (r.step .decode) := by
  obtain ⟨seconds, hreceived⟩ := h.buffer
  have hbuffer : ¬mullvadSignature <:+: r.buffer := by
    intro hinside
    apply hnone
    rw [hreceived]
    exact hinside.trans (List.suffix_append _ _).isInfix
  have hcall : TestRpc.decode r.codec r.buffer =
      (.ok none, ⟨state, false⟩, dropPairs r.buffer) := by
    rw [h.codec]
    exact decode_unconnected_none (skipNoise_of_no_signature hbuffer)
  obtain ⟨more, hmore⟩ := dropPairs_spec r.buffer
  simp only [Reader.step, hcall]
  refine ⟨?_, rfl, seconds ++ more, ?_⟩
  · intro result hresult
    obtain hold | hnew := List.mem_append.mp hresult
    · exact h.results result hold
    · exact List.mem_singleton.mp hnew
  · rw [noisePairs_append, List.append_assoc, ← hmore, hreceived]

theorem step_received (r : Reader) (a : ReadAction) :
    (r.step a).received = r.received ++ a.bytes := by
  cases a with
  | receive chunk => rfl
  | decode => simp [Reader.step, ReadAction.bytes]

theorem unconnected_run {state : DecodeState} {r : Reader} (h : Unconnected state r)
    (actions : List ReadAction)
    (hnone : ¬mullvadSignature <:+: r.received ++ actions.flatMap ReadAction.bytes) :
    Unconnected state (r.run actions) := by
  induction actions generalizing r with
  | nil => exact h
  | cons a rest ih =>
      rw [List.flatMap_cons, ← List.append_assoc, ← step_received] at hnone
      refine ih ?_ hnone
      cases a with
      | receive chunk => exact h.receive chunk
      | decode =>
          apply h.decode
          intro hinside
          apply hnone
          rw [step_received, List.append_assoc]
          exact hinside.trans (List.prefix_append _ _).isInfix

/-- Without the signature nothing comes out of the codec, however the bytes are cut
into chunks and however often it is called. -/
theorem no_connection_without_signature (state : DecodeState) (buffer : Bytes)
    (actions : List ReadAction)
    (hnone : ¬mullvadSignature <:+: buffer ++ actions.flatMap ReadAction.bytes) :
    Unconnected state ((Reader.start ⟨state, false⟩ buffer).run actions) := by
  have hstart : Unconnected state (.start ⟨state, false⟩ buffer) :=
    ⟨by simp [Reader.start], rfl, [], rfl⟩
  exact unconnected_run hstart actions hnone

/-- Boot messages with a control character, and the beginning of a signature that
does not go on. -/
def bootMessages : List ReadAction :=
  [.receive [caret, 0x40, 0x4D, 0x55], .decode, .decode, .receive [0x4C, 0x4C, caret], .decode,
    .receive [0x56, 0x34, 0x44, 0x3B], .decode]

theorem bootMessages_unconnected :
    Unconnected (.data 3) ((Reader.start ⟨.data 3, false⟩ [caret]).run bootMessages) := by
  apply no_connection_without_signature
  rw [← findSignature_eq_none_iff]
  decide

end MullvadAppTests.TestRpc
